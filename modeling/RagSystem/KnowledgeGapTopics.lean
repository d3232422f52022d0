import RagSystem.KnowledgeGap
import Mathlib.Data.List.Perm.Basic

/-!
# Topics and their outcomes

Every outcome is in one cluster, every cluster becomes one topic with its members
counted. There are more clusters than topics are allowed exactly when at capacity
an embedding came that was opposite to the centroids of all clusters.
-/

namespace RagSystem.KnowledgeGapTopics

open CosineSimilarity DocumentModels KnowledgeGap

set_option autoImplicit false

/-! ## The nearest cluster -/

section Nearest

variable {embedding : List ℝ}

/-- The search keeps its start exactly when nothing is more similar. -/
theorem search_none_iff (entries : List (Cluster × ℕ)) :
    ∀ best : Option ℕ × ℝ,
      (entries.foldl (fun best entry =>
        if best.2 < cosineSimilarity embedding entry.1.centroid then
          (some entry.2, cosineSimilarity embedding entry.1.centroid) else best) best).1 = none ↔
        best.1 = none ∧ ∀ entry ∈ entries, cosineSimilarity embedding entry.1.centroid ≤ best.2 := by
  induction entries with
  | nil =>
    intro best
    simp
  | cons entry entries ih =>
    intro best
    rw [List.foldl_cons, ih]
    by_cases hmore : best.2 < cosineSimilarity embedding entry.1.centroid
    · rw [if_pos hmore]
      refine iff_of_false (by simp) fun h => ?_
      exact absurd (h.2 entry List.mem_cons_self) (not_le.mpr hmore)
    · rw [if_neg hmore, List.forall_mem_cons]
      exact and_congr_right fun _ => (and_iff_right (not_lt.mp hmore)).symm

/-- The search finds one of the clusters it has looked at. -/
theorem search_some (entries : List (Cluster × ℕ)) :
    ∀ (best : Option ℕ × ℝ) (i : ℕ),
      (entries.foldl (fun best entry =>
        if best.2 < cosineSimilarity embedding entry.1.centroid then
          (some entry.2, cosineSimilarity embedding entry.1.centroid) else best) best).1 = some i →
        best.1 = some i ∨ ∃ entry ∈ entries, entry.2 = i := by
  induction entries with
  | nil => exact fun best i h => Or.inl h
  | cons entry entries ih =>
    intro best i h
    rw [List.foldl_cons] at h
    cases ih _ i h with
    | inr hrest =>
      obtain ⟨other, hother, hi⟩ := hrest
      exact Or.inr ⟨other, List.mem_cons_of_mem _ hother, hi⟩
    | inl hhere =>
      by_cases hmore : best.2 < cosineSimilarity embedding entry.1.centroid
      · rw [if_pos hmore] at hhere
        exact Or.inr ⟨entry, List.mem_cons_self, Option.some.inj hhere⟩
      · rw [if_neg hmore] at hhere
        exact Or.inl hhere

/-- No cluster is nearest exactly for an embedding opposite to all of them. -/
theorem nearest_none_iff (clusters : List Cluster) :
    (nearest embedding clusters).1 = none ↔ ∀ cluster ∈ clusters, Opposite embedding cluster.centroid := by
  rw [nearest, search_none_iff, and_iff_right rfl]
  have hopposite : ∀ cluster : Cluster, cosineSimilarity embedding cluster.centroid ≤ -1 ↔
      Opposite embedding cluster.centroid := by
    intro cluster
    rw [← cosineSimilarity_eq_neg_one_iff]
    exact ⟨fun hle => le_antisymm hle (neg_one_le_cosineSimilarity _ _), fun heq => heq.le⟩
  constructor
  · intro h cluster hcluster
    obtain ⟨i, hi, hget⟩ := List.getElem_of_mem hcluster
    have hentry : (cluster, i) ∈ clusters.zipIdx := by
      rw [List.mem_zipIdx_iff_getElem?]
      exact hget ▸ List.getElem?_eq_getElem hi
    exact (hopposite cluster).mp (h (cluster, i) hentry)
  · intro h entry hentry
    rw [List.mem_zipIdx_iff_getElem?] at hentry
    exact (hopposite entry.1).mpr (h entry.1 (List.mem_of_getElem? hentry))

theorem nearest_some {clusters : List Cluster} {i : ℕ} (h : (nearest embedding clusters).1 = some i) :
    i < clusters.length := by
  cases search_some clusters.zipIdx _ i h with
  | inl hstart => exact absurd hstart (by simp)
  | inr hfound =>
    obtain ⟨entry, hentry, hi⟩ := hfound
    rw [List.mem_zipIdx_iff_getElem?] at hentry
    obtain ⟨hlt, -⟩ := List.getElem?_eq_some_iff.mp hentry
    exact hi ▸ hlt

end Nearest

/-! ## One outcome -/

/-- At capacity, and opposite to every cluster. -/
def Cornered (maxTopics : ℤ) (clusters : List Cluster) (embedding : List ℝ) : Prop :=
  maxTopics ≤ clusters.length ∧ ∀ cluster ∈ clusters, Opposite embedding cluster.centroid

variable {maxTopics : ℤ} {clusters next : List Cluster} {outcome : EligibleOutcome} {embedding : List ℝ}

/-- Whatever sum it has, a cluster has the outcome as one more member. -/
theorem add_members {cluster grown : Cluster} (h : cluster.add outcome embedding = some grown) :
    grown.members = cluster.members ++ [outcome] := by
  unfold Cluster.add at h
  split at h
  · cases h
    rfl
  · obtain ⟨total, -, hgrown⟩ := Option.map_eq_some_iff.mp h
    rw [← hgrown]

/-- An outcome joins a cluster, or seeds one; it seeds one at capacity only when it is cornered. -/
theorem place_cases (h : place maxTopics clusters outcome embedding = some next) :
    (∃ (i : ℕ) (hi : i < clusters.length) (grown : Cluster), next = clusters.set i grown ∧
        grown.members = clusters[i].members ++ [outcome] ∧ ¬ Cornered maxTopics clusters embedding) ∨
      (∃ seed : Cluster, next = clusters ++ [seed] ∧ seed.members = [outcome] ∧
        (clusters.length < maxTopics ∨ Cornered maxTopics clusters embedding)) := by
  have hseeds : (Cluster.add ⟨[], []⟩ outcome embedding).map (clusters ++ [·]) = some next →
      ∃ seed : Cluster, next = clusters ++ [seed] ∧ seed.members = [outcome] := by
    intro hseeded
    obtain ⟨seed, hseed, hnext⟩ := Option.map_eq_some_iff.mp hseeded
    exact ⟨seed, hnext.symm, add_members hseed⟩
  cases hbest : (nearest embedding clusters).1 with
  | none =>
    simp only [place, hbest] at h
    obtain ⟨seed, hnext, hmembers⟩ := hseeds h
    have hopposite := (nearest_none_iff clusters).mp hbest
    refine Or.inr ⟨seed, hnext, hmembers, ?_⟩
    by_cases hcapacity : maxTopics ≤ clusters.length
    · exact Or.inr ⟨hcapacity, hopposite⟩
    · exact Or.inl (not_le.mp hcapacity)
  | some i =>
    have hi := nearest_some hbest
    simp only [place, hbest] at h
    split at h
    · rw [List.getElem?_eq_getElem hi, Option.bind_some] at h
      obtain ⟨grown, hgrown, hnext⟩ := Option.map_eq_some_iff.mp h
      refine Or.inl ⟨i, hi, grown, hnext.symm, add_members hgrown, fun hcornered => ?_⟩
      rw [(nearest_none_iff clusters).mpr hcornered.2] at hbest
      cases hbest
    · next hroom =>
      obtain ⟨seed, hnext, hmembers⟩ := hseeds h
      exact Or.inr ⟨seed, hnext, hmembers, Or.inl (not_le.mp fun hcapacity => hroom (Or.inr hcapacity))⟩

/-- The members of all clusters. -/
def memberships (clusters : List Cluster) : List EligibleOutcome := clusters.flatMap (·.members)

/-- A cluster that has grown by an outcome. -/
theorem memberships_set (clusters : List Cluster) :
    ∀ (i : ℕ) (hi : i < clusters.length) (grown : Cluster), grown.members = clusters[i].members ++ [outcome] →
      (memberships (clusters.set i grown)).Perm (memberships clusters ++ [outcome]) := by
  induction clusters with
  | nil => exact fun i hi => absurd hi (Nat.not_lt_zero i)
  | cons cluster clusters ih =>
    intro i hi grown hgrown
    cases i with
    | zero =>
      have hmembers : grown.members = cluster.members ++ [outcome] := hgrown
      rw [List.set_cons_zero, memberships, memberships, List.flatMap_cons, List.flatMap_cons, hmembers, List.append_assoc,
        List.append_assoc]
      exact (List.perm_append_comm).append_left cluster.members
    | succ i =>
      have hrest := ih i (Nat.lt_of_succ_lt_succ hi) grown hgrown
      rw [List.set_cons_succ, memberships, memberships, List.flatMap_cons, List.flatMap_cons, List.append_assoc]
      exact hrest.append_left cluster.members

/-- The outcome is in one cluster more. -/
theorem place_memberships (h : place maxTopics clusters outcome embedding = some next) :
    (memberships next).Perm (memberships clusters ++ [outcome]) := by
  cases place_cases h with
  | inl hjoins =>
    obtain ⟨i, hi, grown, hnext, hgrown, -⟩ := hjoins
    rw [hnext]
    exact memberships_set clusters i hi grown hgrown
  | inr hseeds =>
    obtain ⟨seed, hnext, hseed, -⟩ := hseeds
    rw [hnext, memberships, List.flatMap_append, List.flatMap_singleton, hseed]
    exact List.Perm.refl _

theorem place_inhabited (h : place maxTopics clusters outcome embedding = some next)
    (hinhabited : ∀ cluster ∈ clusters, cluster.members ≠ []) : ∀ cluster ∈ next, cluster.members ≠ [] := by
  intro cluster hcluster
  cases place_cases h with
  | inl hjoins =>
    obtain ⟨i, hi, grown, hnext, hgrown, -⟩ := hjoins
    rw [hnext] at hcluster
    cases List.mem_or_eq_of_mem_set hcluster with
    | inl hold => exact hinhabited cluster hold
    | inr hnew =>
      rw [hnew, hgrown]
      exact List.append_ne_nil_of_right_ne_nil _ (List.cons_ne_nil _ _)
  | inr hseeds =>
    obtain ⟨seed, hnext, hseed, -⟩ := hseeds
    rw [hnext] at hcluster
    cases List.mem_append.mp hcluster with
    | inl hold => exact hinhabited cluster hold
    | inr hnew =>
      rw [List.mem_singleton.mp hnew, hseed]
      exact List.cons_ne_nil _ _

/-- The clusters stay within the bound exactly when the outcome is not cornered. -/
theorem place_length (h : place maxTopics clusters outcome embedding = some next) :
    (next.length : ℤ) ≤ maxTopics ↔ (clusters.length : ℤ) ≤ maxTopics ∧ ¬ Cornered maxTopics clusters embedding := by
  cases place_cases h with
  | inl hjoins =>
    obtain ⟨i, hi, grown, hnext, -, hfree⟩ := hjoins
    rw [hnext, List.length_set]
    exact (and_iff_left hfree).symm
  | inr hseeds =>
    obtain ⟨seed, hnext, -, hroom⟩ := hseeds
    rw [hnext, List.length_append, List.length_singleton]
    push_cast
    cases hroom with
    | inl hroom =>
      have hfree : ¬ Cornered maxTopics clusters embedding := fun hcornered => absurd hcornered.1 (not_le.mpr hroom)
      rw [and_iff_left hfree]
      omega
    | inr hcornered =>
      have hcapacity := hcornered.1
      exact iff_of_false (by omega) fun hboth => hboth.2 hcornered

/-! ## All outcomes -/

/-- In no step an outcome is cornered. -/
def NeverCornered (maxTopics : ℤ) : List Cluster → List (EligibleOutcome × List ℝ) → Prop
  | _, [] => True
  | clusters, (outcome, embedding) :: rest => ¬ Cornered maxTopics clusters embedding ∧
      ∀ next, place maxTopics clusters outcome embedding = some next → NeverCornered maxTopics next rest

/-- The run of all outcomes: each is in one cluster, no cluster is empty, and the
bound is kept exactly when no outcome was cornered. -/
theorem clusterOutcomes_run (entries : List (EligibleOutcome × List ℝ)) :
    ∀ clusters result, clusterOutcomes maxTopics clusters entries = some result →
      (∀ cluster ∈ clusters, cluster.members ≠ []) →
        (memberships result).Perm (memberships clusters ++ entries.map (·.1)) ∧
          (∀ cluster ∈ result, cluster.members ≠ []) ∧
            ((result.length : ℤ) ≤ maxTopics ↔
              (clusters.length : ℤ) ≤ maxTopics ∧ NeverCornered maxTopics clusters entries) := by
  induction entries with
  | nil =>
    intro clusters result h hinhabited
    have hsame : clusters = result := Option.some.inj h
    rw [← hsame, List.map_nil, List.append_nil, NeverCornered, and_true]
    exact ⟨List.Perm.refl _, hinhabited, Iff.rfl⟩
  | cons entry entries ih =>
    obtain ⟨outcome, embedding⟩ := entry
    intro clusters result h hinhabited
    rw [clusterOutcomes] at h
    obtain ⟨next, hplace, hrest⟩ := Option.bind_eq_some_iff.mp h
    obtain ⟨hperm, hmembers, hlength⟩ := ih next result hrest (place_inhabited hplace hinhabited)
    refine ⟨?_, hmembers, ?_⟩
    · have hnext := (place_memberships hplace).append_right (entries.map (·.1))
      rw [List.append_assoc, List.singleton_append] at hnext
      exact hperm.trans hnext
    · have hfree : (∀ other, place maxTopics clusters outcome embedding = some other →
          NeverCornered maxTopics other entries) ↔ NeverCornered maxTopics next entries := by
        rw [hplace]
        simp
      rw [hlength, place_length hplace, NeverCornered, hfree, and_assoc]

/-- Every cluster becomes a topic with its members. -/
theorem assembleTopics_members {g : Generation} (clusters : List Cluster) :
    ∀ topics, assembleTopics g clusters = some topics → (∀ cluster ∈ clusters, cluster.members ≠ []) →
      topics.map (·.members) = clusters.map (·.members) := by
  induction clusters with
  | nil =>
    intro topics h _
    rw [← Option.some.inj h]
    rfl
  | cons cluster clusters ih =>
    intro topics h hinhabited
    have hmembers := hinhabited cluster List.mem_cons_self
    rw [assembleTopics, if_neg hmembers] at h
    obtain ⟨label, -, hlabel⟩ := Option.bind_eq_some_iff.mp h
    split at hlabel
    · cases hlabel
    · obtain ⟨rest, hrest, htopics⟩ := Option.map_eq_some_iff.mp hlabel
      rw [← htopics, List.map_cons, List.map_cons,
        ih rest hrest fun other hother => hinhabited other (List.mem_cons_of_mem _ hother)]

/-- The outcomes are embedded in their order. -/
theorem embedded_outcomes {g : Generation} (outcomes : List EligibleOutcome) :
    ∀ entries, embedded g outcomes = some entries → entries.map (·.1) = outcomes := by
  induction outcomes with
  | nil =>
    intro entries h
    rw [← Option.some.inj h]
    rfl
  | cons outcome outcomes ih =>
    intro entries h
    rw [embedded] at h
    obtain ⟨embedding, -, hrest⟩ := Option.bind_eq_some_iff.mp h
    obtain ⟨rest, hembedded, hentries⟩ := Option.map_eq_some_iff.mp hrest
    rw [← hentries, List.map_cons, ih rest hembedded]

/-! ## The map -/

/-- At or above the minimum, no outcome is cornered. -/
def Uncornered (g : Generation) (outcomes : List EligibleOutcome) : Prop :=
  g.minEligibleOutcomes ≤ outcomes.length → ∀ entries, embedded g outcomes = some entries →
    NeverCornered g.maxTopics [] entries

/-- A map that was generated, at or above the minimum: its clusters and its topics. -/
theorem generate_cases {g : Generation} {outcomes : List EligibleOutcome} {gaps : KnowledgeGapMap}
    (h : generateKnowledgeGapMap g outcomes = some gaps) (hmany : g.minEligibleOutcomes ≤ outcomes.length) :
    1 ≤ g.maxTopics ∧ ∃ entries clusters topics, embedded g outcomes = some entries ∧
      clusterOutcomes g.maxTopics [] entries = some clusters ∧ assembleTopics g clusters = some topics ∧
        gaps.topics = topics.map fun topic => ⟨topic.label, topic.coverageQuality, topic.members.length⟩ := by
  rw [generateKnowledgeGapMap, if_neg (not_lt.mpr hmany)] at h
  split at h
  · cases h
  · next hmax =>
    obtain ⟨entries, hentries, hrest⟩ := Option.bind_eq_some_iff.mp h
    obtain ⟨clusters, hclusters, htopics⟩ := Option.bind_eq_some_iff.mp hrest
    obtain ⟨topics, hassembled, hgaps⟩ := Option.map_eq_some_iff.mp htopics
    refine ⟨not_lt.mp hmax, entries, clusters, topics, hentries, hclusters, hassembled, ?_⟩
    rw [← hgaps]

/-- A map has at most the topics that are allowed exactly when no outcome is cornered;
and at or above the minimum every outcome is in one of the clusters that its topics
are, and their counts sum to the number of outcomes. -/
theorem topics_bounded_iff (g : Generation) (hmax : 1 ≤ g.maxTopics) (outcomes : List EligibleOutcome)
    (gaps : KnowledgeGapMap) (h : generateKnowledgeGapMap g outcomes = some gaps) :
    ((gaps.topics.length : ℤ) ≤ g.maxTopics ↔ Uncornered g outcomes) ∧
      (g.minEligibleOutcomes ≤ outcomes.length →
        (∃ entries clusters, embedded g outcomes = some entries ∧ clusterOutcomes g.maxTopics [] entries = some clusters ∧
          (clusters.flatMap (·.members)).Perm outcomes ∧
            gaps.topics.map (·.contributingQuestionCount) = clusters.map (·.members.length)) ∧
          (gaps.topics.map (·.contributingQuestionCount)).sum = outcomes.length) := by
  by_cases hmany : g.minEligibleOutcomes ≤ outcomes.length
  · obtain ⟨-, entries, clusters, topics, hentries, hclusters, hassembled, hgaps⟩ := generate_cases h hmany
    have hempty : ∀ cluster ∈ ([] : List Cluster), cluster.members ≠ [] := fun _ hc => absurd hc List.not_mem_nil
    obtain ⟨hperm, hinhabited, hlength⟩ := clusterOutcomes_run entries [] clusters hclusters hempty
    have hmembers := assembleTopics_members clusters topics hassembled hinhabited
    have hcounts : gaps.topics.map (·.contributingQuestionCount) = clusters.map (·.members.length) := by
      have hboth := congrArg (List.map List.length) hmembers
      rw [List.map_map, List.map_map] at hboth
      rw [hgaps, List.map_map]
      exact hboth
    rw [embedded_outcomes outcomes entries hentries] at hperm
    have hpartition : (clusters.flatMap (·.members)).Perm outcomes := hperm
    have htopics : gaps.topics.length = clusters.length := by
      have hsame := congrArg List.length hcounts
      rwa [List.length_map, List.length_map] at hsame
    refine ⟨?_, fun _ => ⟨⟨entries, clusters, hentries, hclusters, hpartition, hcounts⟩, ?_⟩⟩
    · have hstart : ((([] : List Cluster).length : ℤ) ≤ g.maxTopics) := by
        rw [List.length_nil]
        push_cast
        omega
      have hall : Uncornered g outcomes ↔ NeverCornered g.maxTopics [] entries := by
        simp [Uncornered, hmany, hentries]
      rw [htopics, hlength, and_iff_right hstart, hall]
    · rw [hcounts, ← hpartition.length_eq, List.length_flatMap]
  · have hfew : (outcomes.length : ℤ) < g.minEligibleOutcomes := not_le.mp hmany
    rw [generateKnowledgeGapMap, if_pos hfew] at h
    refine ⟨?_, fun hnot => absurd hnot hmany⟩
    rw [← Option.some.inj h]
    refine iff_of_true ?_ fun hnot => absurd hnot hmany
    rw [List.length_nil]
    push_cast
    omega

/-! ## Two opposite questions -/

/-- A generation with one topic, for questions about refunds and about others. -/
noncomputable def oneTopic : Generation where
  embedQuestion question := if question = "refunds" then some [1] else some [-1]
  labelCluster _ := some "billing"
  maxTopics := 1
  minEligibleOutcomes := 1
  thresholds := ⟨1, 0, 0, 1⟩

/-- An outcome that was abstained from. -/
def unanswered (question : String) : EligibleOutcome := ⟨question, none, false, []⟩

/-- The first question seeds a cluster. -/
theorem refunds_placed (rest : List (EligibleOutcome × List ℝ)) :
    clusterOutcomes oneTopic.maxTopics [] ((unanswered "refunds", [1]) :: rest) =
      clusterOutcomes oneTopic.maxTopics [⟨[1], [unanswered "refunds"]⟩] rest := rfl

/-- And a topic. -/
theorem topic_assembled {g : Generation} (hgiven : ∀ questions, g.labelCluster questions = some "billing")
    (cluster : Cluster) (hmembers : cluster.members ≠ []) (clusters : List Cluster) :
    assembleTopics g (cluster :: clusters) = (assembleTopics g clusters).map
      (⟨"billing", coverageQuality cluster.members g.thresholds, cluster.members⟩ :: ·) := by
  have hlabel : strip "billing" = "billing" := by decide +kernel
  have hnot : ¬ "billing" = "" := by decide
  rw [assembleTopics, if_neg hmembers, hgiven, Option.bind_some, hlabel, if_neg hnot]

/-- At a capacity of one an outcome that is not opposite joins the cluster, however little similar it is. -/
theorem place_full {cluster grown : Cluster} (hfull : maxTopics ≤ 1) (hfree : ¬ Opposite embedding cluster.centroid)
    (hgrown : cluster.add outcome embedding = some grown) : place maxTopics [cluster] outcome embedding = some [grown] := by
  have hmore : -1 < cosineSimilarity embedding cluster.centroid := (neg_one_lt_cosineSimilarity_iff _ _).mpr hfree
  have hnearest : nearest embedding [cluster] = (some 0, cosineSimilarity embedding cluster.centroid) := by
    simp [nearest, hmore]
  have hcapacity : maxTopics ≤ (([cluster].length : ℕ) : ℤ) := by simpa using hfull
  simp only [place, hnearest]
  rw [if_pos (Or.inr hcapacity), List.getElem?_cons_zero, Option.bind_some, hgrown]
  rfl

/-- A generation with one topic, for questions that have nothing in common. -/
noncomputable def apartTopics : Generation :=
  { oneTopic with embedQuestion := fun question => if question = "refunds" then some [1, 0] else some [0, 1] }

/-- The question about holidays comes at capacity and has no similarity to the refunds, and one about refunds follows. -/
theorem topics_bounded_sample :
    ∃ gaps, generateKnowledgeGapMap apartTopics [unanswered "refunds", unanswered "holidays", unanswered "refunds"] = some gaps ∧
      (gaps.topics.length : ℤ) ≤ apartTopics.maxTopics ∧ (gaps.topics.map (·.contributingQuestionCount)).sum = 3 := by
  have hembedded : embedded apartTopics [unanswered "refunds", unanswered "holidays", unanswered "refunds"] =
      some [(unanswered "refunds", [1, 0]), (unanswered "holidays", [0, 1]), (unanswered "refunds", [1, 0])] := by
    simp [embedded, apartTopics, unanswered]
  have hfirst : place apartTopics.maxTopics [] (unanswered "refunds") [1, 0] =
      some [⟨[1, 0], [unanswered "refunds"]⟩] := rfl
  have hapart : ¬ Opposite [0, 1] (Cluster.centroid ⟨[1, 0], [unanswered "refunds"]⟩) := by
    rintro ⟨-, r, -, hall⟩
    have hpair := hall (0, 1) (by simp [Cluster.centroid])
    simp at hpair
  have hsecond : place apartTopics.maxTopics [⟨[1, 0], [unanswered "refunds"]⟩] (unanswered "holidays") [0, 1] =
      some [⟨[1 + 0, 0 + 1], [unanswered "refunds", unanswered "holidays"]⟩] := place_full le_rfl hapart rfl
  have hbetween : ¬ Opposite [1, 0] (Cluster.centroid ⟨[1 + 0, 0 + 1], [unanswered "refunds", unanswered "holidays"]⟩) := by
    rintro ⟨-, r, -, hall⟩
    have hpair := hall (0, 1 / 2) (by simp [Cluster.centroid])
    simp at hpair
  have hthird : place apartTopics.maxTopics [⟨[1 + 0, 0 + 1], [unanswered "refunds", unanswered "holidays"]⟩]
      (unanswered "refunds") [1, 0] =
        some [⟨[1 + 0 + 1, 0 + 1 + 0], [unanswered "refunds", unanswered "holidays", unanswered "refunds"]⟩] :=
    place_full le_rfl hbetween rfl
  have hgaps : ∃ gaps, generateKnowledgeGapMap apartTopics
      [unanswered "refunds", unanswered "holidays", unanswered "refunds"] = some gaps := by
    have hfew : ¬ ((([unanswered "refunds", unanswered "holidays", unanswered "refunds"].length : ℕ) : ℤ) <
        apartTopics.minEligibleOutcomes) := by simp [apartTopics, oneTopic]
    have hmax : ¬ apartTopics.maxTopics < 1 := by simp [apartTopics, oneTopic]
    rw [generateKnowledgeGapMap, if_neg hfew, if_neg hmax, hembedded, Option.bind_some, clusterOutcomes, hfirst,
      Option.bind_some, clusterOutcomes, hsecond, Option.bind_some, clusterOutcomes, hthird, Option.bind_some,
      clusterOutcomes, Option.bind_some, topic_assembled (fun _ => rfl) _ (List.cons_ne_nil _ _)]
    exact ⟨_, rfl⟩
  obtain ⟨gaps, h⟩ := hgaps
  obtain ⟨hbounded, hcounted⟩ := topics_bounded_iff apartTopics le_rfl _ gaps h
  refine ⟨gaps, h, hbounded.mpr fun _ entries hentries => ?_, (hcounted (by simp [apartTopics, oneTopic])).2⟩
  cases hembedded.symm.trans hentries
  have hfree : ¬ Cornered apartTopics.maxTopics [] [1, 0] := fun hcornered => by simp [Cornered, apartTopics, oneTopic] at hcornered
  refine ⟨hfree, fun next hnext => ?_⟩
  cases hfirst.symm.trans hnext
  refine ⟨fun hcornered => hapart (hcornered.2 _ (List.mem_singleton_self _)), fun next hnext => ?_⟩
  cases hsecond.symm.trans hnext
  exact ⟨fun hcornered => hbetween (hcornered.2 _ (List.mem_singleton_self _)), fun _ _ => trivial⟩

/-- Opposite embeddings become two topics where one is allowed. -/
theorem opposite_topics :
    ∃ gaps, generateKnowledgeGapMap oneTopic [unanswered "refunds", unanswered "holidays"] = some gaps ∧
      gaps.topics.length = 2 ∧ oneTopic.maxTopics = 1 := by
  have hembedded : embedded oneTopic [unanswered "refunds", unanswered "holidays"] =
      some [(unanswered "refunds", [1]), (unanswered "holidays", [-1])] := by
    simp [embedded, oneTopic, unanswered]
  have hopposite : ∀ cluster ∈ [(⟨[1], [unanswered "refunds"]⟩ : Cluster)], Opposite [-1] cluster.centroid := by
    intro cluster hcluster
    rw [List.mem_singleton.mp hcluster]
    refine ⟨⟨(-1, 1), ?_, by norm_num⟩, -1, by norm_num, ?_⟩ <;> simp [Cluster.centroid]
  have hplaced : place oneTopic.maxTopics [⟨[1], [unanswered "refunds"]⟩] (unanswered "holidays") [-1] =
      some [⟨[1], [unanswered "refunds"]⟩, ⟨[-1], [unanswered "holidays"]⟩] := by
    simp only [place, (nearest_none_iff _).mpr hopposite]
    rfl
  have hfew : ¬ ((([unanswered "refunds", unanswered "holidays"].length : ℕ) : ℤ) < oneTopic.minEligibleOutcomes) := by
    simp [oneTopic]
  have hmax : ¬ oneTopic.maxTopics < 1 := by simp [oneTopic]
  rw [generateKnowledgeGapMap, if_neg hfew, if_neg hmax, hembedded, Option.bind_some, refunds_placed, clusterOutcomes,
    hplaced, Option.bind_some, clusterOutcomes, Option.bind_some, topic_assembled (fun _ => rfl) _ (List.cons_ne_nil _ _),
    topic_assembled (fun _ => rfl) _ (List.cons_ne_nil _ _)]
  exact ⟨_, rfl, rfl, rfl⟩

end RagSystem.KnowledgeGapTopics
