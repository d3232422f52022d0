import Mathlib.Algebra.Order.Field.Rat
import Mathlib.Data.Finset.Max
import RagSystem.Evaluation
import RagSystem.StableRanking

/-!
# Retrieval metrics

The retrieved hits are ranked by score and the first k of them compared with the
relevant identifiers. A hit matches by its chunk, by its document or by both, so
that matches are counted by identifier for recall and by hit for precision.
Quotients are exact.
-/

namespace RagSystem.RetrievalMetrics

open StableRanking

set_option autoImplicit false

section Source

/-- `QueryTraceHit`, as far as the metrics read it. -/
structure QueryTraceHit where
  /-- `chunk_id`. -/
  chunkId : String
  /-- `document_id`. -/
  documentId : String
  /-- `score`. -/
  score : ℚ
  deriving DecidableEq

/-- `RelevanceLabels`. -/
structure RelevanceLabels where
  /-- `relevant_chunk_ids`. -/
  relevantChunkIds : List String
  /-- `relevant_document_ids`. -/
  relevantDocumentIds : List String
  /-- `human_judgments`. -/
  humanJudgments : List (String × ℚ)

/-- `relevant_identifiers`. -/
def relevantIdentifiers (labels : RelevanceLabels) : Finset String :=
  labels.relevantChunkIds.toFinset ∪ labels.relevantDocumentIds.toFinset ∪
    ((labels.humanJudgments.filter fun entry => 0 < entry.2).map Prod.fst).toFinset

/-- `_rank_hits`. -/
def rankHits (hits : List QueryTraceHit) : List QueryTraceHit := ranked QueryTraceHit.score hits

/-- `_hit_relevant_ids`. -/
def hitRelevantIds (hit : QueryTraceHit) (relevant : Finset String) : Finset String :=
  {hit.chunkId, hit.documentId} ∩ relevant

/-- What the loop over the top hits keeps. -/
structure Tally where
  /-- `matched_ids`. -/
  matchedIds : Finset String
  /-- `relevant_hit_count`. -/
  relevantHitCount : ℕ
  /-- `first_relevant_rank`. -/
  firstRelevantRank : Option ℕ

/-- The loop over the top hits, one hit with its position. -/
def tallyHit (relevant : Finset String) (tally : Tally) (entry : QueryTraceHit × ℕ) : Tally :=
  let hitMatches := hitRelevantIds entry.1 relevant
  if hitMatches = ∅ then tally
  else
    { matchedIds := tally.matchedIds ∪ hitMatches
      relevantHitCount := tally.relevantHitCount + 1
      firstRelevantRank := tally.firstRelevantRank.or (some entry.2) }

/-- The loop. -/
def tallyHits (relevant : Finset String) (topHits : List QueryTraceHit) : Tally :=
  (topHits.zipIdx 1).foldl (tallyHit relevant) ⟨∅, 0, none⟩

/-- `compute_retrieval_metrics`, with labels. -/
def metricsFor (hits : List QueryTraceHit) (labels : RelevanceLabels) (depth : ℤ) : Evaluation.RetrievalMetrics :=
  let k := (max depth 0).toNat
  let relevant := relevantIdentifiers labels
  let topHits := (rankHits hits).take k
  let tally := tallyHits relevant topHits
  { recallAtK := if relevant = ∅ then 0 else (tally.matchedIds.card : ℚ) / relevant.card
    precisionAtK := if topHits = [] then 0 else (tally.relevantHitCount : ℚ) / topHits.length
    mrrAtK := match tally.firstRelevantRank with
      | some rank => 1 / (rank : ℚ)
      | none => 0
    depth := k }

/-- `compute_retrieval_metrics`. -/
def computeRetrievalMetrics (hits : List QueryTraceHit) (labels : Option RelevanceLabels) (depth : ℤ) :
    Option Evaluation.RetrievalMetrics :=
  labels.map fun labels => metricsFor hits labels depth

end Source

section Definitions

/-- The labels call an identifier relevant: as a chunk, as a document, or by a positive human judgment. -/
def RelevanceLabels.CallRelevant (labels : RelevanceLabels) (id : String) : Prop :=
  id ∈ labels.relevantChunkIds ∨ id ∈ labels.relevantDocumentIds ∨
    ∃ judgment, (id, judgment) ∈ labels.humanJudgments ∧ 0 < judgment

variable (hits : List QueryTraceHit) (relevant : Finset String)

/-- The hit at a position has a relevant identifier. -/
def IsRelevant (i : Fin hits.length) : Prop :=
  (hits.get i).chunkId ∈ relevant ∨ (hits.get i).documentId ∈ relevant

instance : DecidablePred (IsRelevant hits relevant) := fun _ => instDecidableOr

/-- The positions of the k best hits. -/
def bestHits (k : ℕ) : Finset (Fin hits.length) := best QueryTraceHit.score hits k

/-- The rank of a hit. -/
def rankOf (i : Fin hits.length) : ℕ := rank QueryTraceHit.score hits i

/-- The relevant identifiers that one of the k best hits has. -/
def retrieved (k : ℕ) : Finset String := relevant.filter fun id =>
  ∃ i ∈ bestHits hits k, (hits.get i).chunkId = id ∨ (hits.get i).documentId = id

/-- The relevant hits among the k best. -/
def relevantHits (k : ℕ) : Finset (Fin hits.length) := (bestHits hits k).filter (IsRelevant hits relevant)

/-- What the metrics are by definition. -/
structure ByDefinition (k : ℕ) (metrics : Evaluation.RetrievalMetrics) : Prop where
  /-- The share of the relevant identifiers that were retrieved. -/
  recallAtK : metrics.recallAtK = ((retrieved hits relevant k).card : ℚ) / relevant.card
  /-- The share of the best hits that are relevant. -/
  precisionAtK : metrics.precisionAtK = ((relevantHits hits relevant k).card : ℚ) / (bestHits hits k).card
  /-- The reciprocal of the least rank of a relevant one. -/
  mrrAtK : ∀ i ∈ relevantHits hits relevant k, (∀ j ∈ relevantHits hits relevant k, rankOf hits i ≤ rankOf hits j) →
    metrics.mrrAtK = 1 / (rankOf hits i : ℚ)
  /-- Nothing where there is none. -/
  noneRelevant : relevantHits hits relevant k = ∅ → metrics.mrrAtK = 0

end Definitions

section Loop

/-- The relevant identifiers are those that the labels call so. -/
theorem mem_relevantIdentifiers {labels : RelevanceLabels} {id : String} :
    id ∈ relevantIdentifiers labels ↔ labels.CallRelevant id := by
  simp [relevantIdentifiers, RelevanceLabels.CallRelevant]

variable {relevant : Finset String}

/-- A hit matches where it has a relevant identifier. -/
theorem mem_hitRelevantIds {hit : QueryTraceHit} {id : String} :
    id ∈ hitRelevantIds hit relevant ↔ (hit.chunkId = id ∨ hit.documentId = id) ∧ id ∈ relevant := by
  simp only [hitRelevantIds, Finset.mem_inter, Finset.mem_insert, Finset.mem_singleton, eq_comm]

theorem hitRelevantIds_eq_empty {hit : QueryTraceHit} :
    hitRelevantIds hit relevant = ∅ ↔ ¬ (hit.chunkId ∈ relevant ∨ hit.documentId ∈ relevant) := by
  constructor
  · intro hempty hmem
    rcases hmem with hchunk | hdocument
    · have hin : hit.chunkId ∈ hitRelevantIds hit relevant := mem_hitRelevantIds.mpr ⟨Or.inl rfl, hchunk⟩
      exact absurd hin (hempty ▸ Finset.notMem_empty _)
    · have hin : hit.documentId ∈ hitRelevantIds hit relevant := mem_hitRelevantIds.mpr ⟨Or.inr rfl, hdocument⟩
      exact absurd hin (hempty ▸ Finset.notMem_empty _)
  · intro hnone
    rw [Finset.eq_empty_iff_forall_notMem]
    intro id hid
    obtain ⟨rfl | rfl, hin⟩ := mem_hitRelevantIds.mp hid
    · exact hnone (Or.inl hin)
    · exact hnone (Or.inr hin)

/-- What the loop has kept after some hits. -/
theorem foldl_tallyHit (hits : List QueryTraceHit) (start : ℕ) (tally : Tally) :
    let last := (hits.zipIdx start).foldl (tallyHit relevant) tally
    (∀ id, id ∈ last.matchedIds ↔ id ∈ tally.matchedIds ∨ ∃ hit ∈ hits, id ∈ hitRelevantIds hit relevant) ∧
      last.relevantHitCount = tally.relevantHitCount + hits.countP (fun hit => hitRelevantIds hit relevant ≠ ∅) ∧
      last.firstRelevantRank = tally.firstRelevantRank.or
        ((hits.findIdx? fun hit => hitRelevantIds hit relevant ≠ ∅).map (· + start)) := by
  induction hits generalizing start tally with
  | nil => simp
  | cons hit hits ih =>
    obtain ⟨hmatched, hcount, hfirst⟩ := ih (start + 1) (tallyHit relevant tally (hit, start))
    by_cases hempty : hitRelevantIds hit relevant = ∅
    · have hsame : tallyHit relevant tally (hit, start) = tally := by simp [tallyHit, hempty]
      rw [hsame] at hmatched hcount hfirst
      refine ⟨?_, ?_, ?_⟩
      · intro id
        simpa [hempty, hsame] using hmatched id
      · simpa [hempty, hsame] using hcount
      · rw [List.zipIdx_cons, List.foldl_cons, hsame, hfirst, List.findIdx?_cons, if_neg (by simpa using hempty),
          Option.map_map]
        congr 2
        ext m
        simp only [Function.comp_apply]
        omega
    · have hnext : tallyHit relevant tally (hit, start) =
          ⟨tally.matchedIds ∪ hitRelevantIds hit relevant, tally.relevantHitCount + 1,
            tally.firstRelevantRank.or (some start)⟩ := by
        simp [tallyHit, hempty]
      rw [hnext] at hmatched hcount hfirst
      refine ⟨?_, ?_, ?_⟩
      · intro id
        have hid := hmatched id
        rw [List.zipIdx_cons, List.foldl_cons, hnext, hid]
        simp only [Finset.mem_union, List.mem_cons, exists_eq_or_imp, or_assoc]
      · rw [List.zipIdx_cons, List.foldl_cons, hnext, hcount, List.countP_cons_of_pos (by simpa using hempty)]
        dsimp only
        omega
      · rw [List.zipIdx_cons, List.foldl_cons, hnext, hfirst, List.findIdx?_cons, if_pos (by simpa using hempty)]
        cases tally.firstRelevantRank with
        | none => simp
        | some rank => simp

end Loop

section Spec

variable {hits : List QueryTraceHit} {relevant : Finset String} {k : ℕ}

/-- The positions of the first k hits, best first. -/
def positions (hits : List QueryTraceHit) (k : ℕ) : List (Fin hits.length) := (order QueryTraceHit.score hits).take k

theorem take_rankHits (hits : List QueryTraceHit) (k : ℕ) : (rankHits hits).take k = (positions hits k).map hits.get := by
  rw [rankHits, ranked_eq, ← List.map_take]
  rfl

theorem mem_positions {i : Fin hits.length} : i ∈ positions hits k ↔ i ∈ bestHits hits k := by
  rw [bestHits, ← toFinset_take_order, List.mem_toFinset]
  rfl

theorem nodup_positions (hits : List QueryTraceHit) (k : ℕ) : (positions hits k).Nodup :=
  (nodup_order QueryTraceHit.score hits).sublist (List.take_sublist k _)

theorem length_positions (hits : List QueryTraceHit) (k : ℕ) : (positions hits k).length = (bestHits hits k).card := by
  have hsame : bestHits hits k = (positions hits k).toFinset := (toFinset_take_order _ _ _).symm
  rw [hsame, List.toFinset_card_of_nodup (nodup_positions hits k)]

/-- The hit at a position matches exactly if it is relevant. -/
theorem matches_iff {i : Fin hits.length} : hitRelevantIds (hits.get i) relevant ≠ ∅ ↔ IsRelevant hits relevant i := by
  rw [Ne, hitRelevantIds_eq_empty, not_not]
  rfl

/-- The loop has matched what was retrieved. -/
theorem matchedIds_eq (hits : List QueryTraceHit) (relevant : Finset String) (k : ℕ) :
    (tallyHits relevant ((rankHits hits).take k)).matchedIds = retrieved hits relevant k := by
  ext id
  rw [tallyHits, (foldl_tallyHit _ 1 _).1 id, take_rankHits]
  simp only [Finset.notMem_empty, false_or, List.mem_map, exists_exists_and_eq_and, mem_hitRelevantIds, mem_positions,
    retrieved, Finset.mem_filter]
  constructor
  · rintro ⟨i, hi, hid, hrelevant⟩
    exact ⟨hrelevant, i, hi, hid⟩
  · rintro ⟨hrelevant, i, hi, hid⟩
    exact ⟨i, hi, hid, hrelevant⟩

/-- It has counted the relevant hits. -/
theorem relevantHitCount_eq (hits : List QueryTraceHit) (relevant : Finset String) (k : ℕ) :
    (tallyHits relevant ((rankHits hits).take k)).relevantHitCount = (relevantHits hits relevant k).card := by
  have hsame : relevantHits hits relevant k = ((positions hits k).filter fun i => IsRelevant hits relevant i).toFinset := by
    ext i
    simp [relevantHits, mem_positions]
  have hnodup : ((positions hits k).filter fun i => IsRelevant hits relevant i).Nodup := (nodup_positions hits k).filter _
  rw [hsame, List.toFinset_card_of_nodup hnodup, ← List.countP_eq_length_filter, tallyHits, (foldl_tallyHit _ 1 _).2.1,
    take_rankHits, List.countP_map, Nat.zero_add]
  refine List.countP_congr ?_
  intro i _
  simpa using matches_iff

theorem rankOf_positions {m : ℕ} (hm : m < (positions hits k).length) : rankOf hits (positions hits k)[m] = m + 1 := by
  have hlength : m < (order QueryTraceHit.score hits).length := by
    rw [positions, List.length_take] at hm
    omega
  have hsame : (positions hits k)[m] = (order QueryTraceHit.score hits)[m] := List.getElem_take
  rw [hsame]
  exact rank_order hlength

/-- The hits at the positions are those of the sorted list. -/
theorem getElem_rankHits {m : ℕ} (hm : m < ((rankHits hits).take k).length) (hm' : m < (positions hits k).length) :
    ((rankHits hits).take k)[m] = hits.get (positions hits k)[m] := by
  simp [take_rankHits]

/-- It has found the first of them, if there is one. -/
theorem firstRelevantRank_cases (hits : List QueryTraceHit) (relevant : Finset String) (k : ℕ) :
    (relevantHits hits relevant k = ∅ ∧ (tallyHits relevant ((rankHits hits).take k)).firstRelevantRank = none) ∨
      ∃ i ∈ relevantHits hits relevant k, (∀ j ∈ relevantHits hits relevant k, rankOf hits i ≤ rankOf hits j) ∧
        (tallyHits relevant ((rankHits hits).take k)).firstRelevantRank = some (rankOf hits i) := by
  have hloop := (@foldl_tallyHit relevant ((rankHits hits).take k) 1 ⟨∅, 0, none⟩).2.2
  rw [Option.none_or] at hloop
  cases hfound : ((rankHits hits).take k).findIdx? fun hit => hitRelevantIds hit relevant ≠ ∅ with
  | none =>
    rw [hfound, Option.map_none] at hloop
    refine Or.inl ⟨?_, hloop⟩
    rw [Finset.eq_empty_iff_forall_notMem]
    intro i hi
    obtain ⟨hbest, hrelevant⟩ := Finset.mem_filter.mp hi
    have hin : hits.get i ∈ (rankHits hits).take k := by
      rw [take_rankHits]
      exact List.mem_map_of_mem (mem_positions.mpr hbest)
    have hnone := List.findIdx?_eq_none_iff.mp hfound _ hin
    exact absurd (matches_iff.mpr hrelevant) (by simpa using hnone)
  | some m =>
    rw [hfound, Option.map_some] at hloop
    obtain ⟨hm, hmatch, hearlier⟩ := List.findIdx?_eq_some_iff_getElem.mp hfound
    have hlengths : ((rankHits hits).take k).length = (positions hits k).length := by rw [take_rankHits, List.length_map]
    have hm' : m < (positions hits k).length := hlengths ▸ hm
    rw [getElem_rankHits hm hm'] at hmatch
    have hrelevant : IsRelevant hits relevant (positions hits k)[m] := matches_iff.mp (by simpa using hmatch)
    have hbest : (positions hits k)[m] ∈ bestHits hits k := mem_positions.mp (List.getElem_mem hm')
    refine Or.inr ⟨(positions hits k)[m], Finset.mem_filter.mpr ⟨hbest, hrelevant⟩, ?_, ?_⟩
    · intro j hj
      obtain ⟨hbest', hrelevant'⟩ := Finset.mem_filter.mp hj
      obtain ⟨l, hl, rfl⟩ := List.getElem_of_mem (mem_positions.mpr hbest')
      rw [rankOf_positions hm', rankOf_positions hl]
      by_contra hlt
      have hbefore := hearlier l (by omega)
      rw [getElem_rankHits (hlengths ▸ hl) hl] at hbefore
      exact absurd (matches_iff.mpr hrelevant') (by simpa using hbefore)
    · rw [tallyHits, hloop, rankOf_positions hm']

/-- The metrics are what their definitions say. -/
theorem byDefinition_metricsFor (hits : List QueryTraceHit) (labels : RelevanceLabels) (depth : ℤ) :
    ByDefinition hits (relevantIdentifiers labels) depth.toNat (metricsFor hits labels depth) := by
  have hdepth : (max depth 0).toNat = depth.toNat := by omega
  have hfirst := firstRelevantRank_cases hits (relevantIdentifiers labels) depth.toNat
  have hlength : ((rankHits hits).take depth.toNat).length = (bestHits hits depth.toNat).card := by
    rw [take_rankHits, List.length_map, length_positions]
  refine ⟨?_, ?_, ?_, ?_⟩
  · simp only [metricsFor, hdepth, matchedIds_eq]
    split
    · next hempty => simp [hempty]
    · rfl
  · simp only [metricsFor, hdepth, relevantHitCount_eq, hlength]
    split
    · next hempty =>
      rw [hempty, List.length_nil] at hlength
      simp [← hlength]
    · rfl
  · intro i hi hleast
    rcases hfirst with ⟨hnone, -⟩ | ⟨j, hj, hleast', hrank⟩
    · exact absurd hi (hnone ▸ Finset.notMem_empty _)
    · simp only [metricsFor, hdepth, hrank, le_antisymm (hleast j hj) (hleast' i hi)]
  · intro hnone
    rcases hfirst with ⟨-, hrank⟩ | ⟨j, hj, -⟩
    · simp only [metricsFor, hdepth, hrank]
    · exact absurd hj (hnone ▸ Finset.notMem_empty _)

end Spec

section Bounds

variable {hits : List QueryTraceHit} {relevant : Finset String} {k k' : ℕ} {metrics metrics' : Evaluation.RetrievalMetrics}

/-- A number of the unit interval. -/
def InUnit (value : ℚ) : Prop := 0 ≤ value ∧ value ≤ 1

/-- A share is one. -/
theorem inUnit_div {m n : ℕ} (h : m ≤ n) : InUnit ((m : ℚ) / n) :=
  ⟨by positivity, div_le_one_of_le₀ (by exact_mod_cast h) (by positivity)⟩

theorem retrieved_mono (h : k ≤ k') : retrieved hits relevant k ⊆ retrieved hits relevant k' := by
  intro id hid
  obtain ⟨hrelevant, i, hi, hmatch⟩ := Finset.mem_filter.mp hid
  exact Finset.mem_filter.mpr ⟨hrelevant, i, best_mono _ _ h hi, hmatch⟩

theorem relevantHits_mono (h : k ≤ k') : relevantHits hits relevant k ⊆ relevantHits hits relevant k' :=
  Finset.filter_subset_filter _ (best_mono _ _ h)

/-- The reciprocal rank, by whether there is a relevant hit. -/
theorem ByDefinition.mrr_cases (h : ByDefinition hits relevant k metrics) :
    (relevantHits hits relevant k = ∅ ∧ metrics.mrrAtK = 0) ∨ ∃ i ∈ relevantHits hits relevant k,
      (∀ j ∈ relevantHits hits relevant k, rankOf hits i ≤ rankOf hits j) ∧ metrics.mrrAtK = 1 / (rankOf hits i : ℚ) := by
  by_cases hempty : relevantHits hits relevant k = ∅
  · exact Or.inl ⟨hempty, h.noneRelevant hempty⟩
  · obtain ⟨i, hi, hleast⟩ := (relevantHits hits relevant k).exists_min_image (rankOf hits)
      (Finset.nonempty_iff_ne_empty.mpr hempty)
    exact Or.inr ⟨i, hi, hleast, h.mrrAtK i hi hleast⟩

theorem ByDefinition.inUnit (h : ByDefinition hits relevant k metrics) :
    InUnit metrics.recallAtK ∧ InUnit metrics.precisionAtK ∧ InUnit metrics.mrrAtK := by
  refine ⟨?_, ?_, ?_⟩
  · rw [h.recallAtK]
    exact inUnit_div (Finset.card_filter_le _ _)
  · rw [h.precisionAtK]
    exact inUnit_div (Finset.card_filter_le _ _)
  · rcases h.mrr_cases with ⟨-, hzero⟩ | ⟨i, -, -, hmrr⟩
    · rw [hzero]
      exact ⟨le_refl 0, by norm_num⟩
    · have hrank : 1 ≤ rankOf hits i := Nat.le_add_left 1 _
      rw [hmrr]
      exact_mod_cast inUnit_div hrank

/-- Recall does not fall with the depth. -/
theorem ByDefinition.recall_mono (h : ByDefinition hits relevant k metrics) (h' : ByDefinition hits relevant k' metrics')
    (hk : k ≤ k') : metrics.recallAtK ≤ metrics'.recallAtK := by
  rw [h.recallAtK, h'.recallAtK]
  have hcard : ((retrieved hits relevant k).card : ℚ) ≤ (retrieved hits relevant k').card := by
    exact_mod_cast Finset.card_le_card (retrieved_mono hk)
  exact div_le_div_of_nonneg_right hcard (by positivity)

/-- Nor does the reciprocal rank. -/
theorem ByDefinition.mrr_mono (h : ByDefinition hits relevant k metrics) (h' : ByDefinition hits relevant k' metrics')
    (hk : k ≤ k') : metrics.mrrAtK ≤ metrics'.mrrAtK := by
  rcases h.mrr_cases with ⟨-, hzero⟩ | ⟨i, hi, -, hmrr⟩
  · rw [hzero]
    exact h'.inUnit.2.2.1
  · rcases h'.mrr_cases with ⟨hnone, -⟩ | ⟨j, -, hleast, hmrr'⟩
    · exact absurd (relevantHits_mono hk hi) (hnone ▸ Finset.notMem_empty _)
    · have hle := hleast i (relevantHits_mono hk hi)
      have hpos : (0 : ℚ) < rankOf hits j := by exact_mod_cast Nat.succ_pos _
      rw [hmrr, hmrr']
      exact one_div_le_one_div_of_le hpos (by exact_mod_cast hle)

end Bounds

section Evaluation

open DocumentModels

/-- A retrieved hit as the query trace has it. -/
def tracedHit (hit : RetrievalHit) : QueryTraceHit where
  chunkId := chunkIdText hit.chunk.id
  documentId := hit.chunk.documentId
  score := hit.score

/-- The labels of a benchmark case, its chunks by their text. -/
def textLabels (labels : FeedbackReview.RelevanceLabels) : RelevanceLabels where
  relevantChunkIds := labels.relevantChunkIds.map chunkIdText
  relevantDocumentIds := labels.relevantDocumentIds
  humanJudgments := labels.humanJudgments

theorem rankHits_traced (hits : List RetrievalHit) :
    rankHits (hits.map tracedHit) = (Evaluation.rankHits hits).map tracedHit := by
  have hsorted : Evaluation.rankHits hits = ranked (fun hit => (tracedHit hit).score) hits := by
    have htotal : Std.Total fun a b : RetrievalHit => b.score ≤ a.score := ⟨fun a b => le_total b.score a.score⟩
    have htrans : IsTrans RetrievalHit fun a b => b.score ≤ a.score := ⟨fun _ _ _ hab hbc => hbc.trans hab⟩
    exact eq_ranked_of_stable (List.perm_insertionSort _ hits) (List.pairwise_insertionSort _ hits)
      fun _ hpart hfalls => List.sublist_insertionSort hfalls hpart
  rw [rankHits, ranked_map, hsorted]

theorem relevantIdentifiers_textLabels (labels : FeedbackReview.RelevanceLabels) :
    relevantIdentifiers (textLabels labels) = (Evaluation.relevantIdentifiers labels).toFinset := by
  ext id
  simp only [relevantIdentifiers, textLabels, Evaluation.relevantIdentifiers, List.mem_toFinset, List.mem_dedup,
    Finset.mem_union, List.mem_append]

variable {relevant : List String}

theorem mem_hitRelevantIds_traced {hit : RetrievalHit} {id : String} :
    id ∈ hitRelevantIds (tracedHit hit) relevant.toFinset ↔ id ∈ Evaluation.hitRelevantIds hit relevant := by
  have hids : id ∈ Evaluation.hitRelevantIds hit relevant ↔
      (id = chunkIdText hit.chunk.id ∨ id = hit.chunk.documentId) ∧ id ∈ relevant := by
    simp [Evaluation.hitRelevantIds]
  rw [hids, mem_hitRelevantIds, List.mem_toFinset]
  simp only [tracedHit, eq_comm]

theorem hitRelevantIds_traced_ne {hit : RetrievalHit} :
    hitRelevantIds (tracedHit hit) relevant.toFinset ≠ ∅ ↔ Evaluation.hitRelevantIds hit relevant ≠ [] := by
  rw [Ne, Finset.eq_empty_iff_forall_notMem, Ne, List.eq_nil_iff_forall_not_mem]
  simp only [mem_hitRelevantIds_traced]

/-- The loop over traced hits, in terms of the hits. -/
theorem tallyHits_traced (topHits : List RetrievalHit) (relevant : List String) :
    let tally := tallyHits relevant.toFinset (topHits.map tracedHit)
    let matched := topHits.map fun hit => Evaluation.hitRelevantIds hit relevant
    tally.matchedIds.card = matched.flatten.dedup.length ∧ tally.relevantHitCount = (matched.filter (· ≠ [])).length ∧
      tally.firstRelevantRank = Evaluation.firstRelevantRank topHits relevant := by
  obtain ⟨hmatched, hcount, hfirst⟩ := @foldl_tallyHit relevant.toFinset (topHits.map tracedHit) 1 ⟨∅, 0, none⟩
  refine ⟨?_, ?_, ?_⟩
  · have hsame : (tallyHits relevant.toFinset (topHits.map tracedHit)).matchedIds =
        (topHits.map fun hit => Evaluation.hitRelevantIds hit relevant).flatten.dedup.toFinset := by
      ext id
      rw [tallyHits, hmatched id]
      simp [mem_hitRelevantIds_traced]
    rw [hsame, List.toFinset_card_of_nodup (List.nodup_dedup _)]
  · rw [tallyHits, hcount, ← List.countP_eq_length_filter, List.countP_map, List.countP_map, Nat.zero_add]
    refine List.countP_congr ?_
    intro hit _
    simpa using hitRelevantIds_traced_ne
  · rw [tallyHits, hfirst, Evaluation.firstRelevantRank, List.findIdx?_map, Option.none_or]
    congr 2
    funext hit
    exact decide_eq_decide.mpr hitRelevantIds_traced_ne

/-- An evaluation run measures its hits as the query trace has them. -/
theorem evaluation_computeRetrievalMetrics (hits : List RetrievalHit) (labels : Option FeedbackReview.RelevanceLabels)
    (depth : ℤ) : Evaluation.computeRetrievalMetrics hits labels depth =
      computeRetrievalMetrics (hits.map tracedHit) (labels.map textLabels) depth := by
  rw [Evaluation.computeRetrievalMetrics, computeRetrievalMetrics, Option.map_map]
  refine congrArg (Option.map · labels) ?_
  funext labels
  have hdepth : (max depth 0).toNat = depth.toNat := by omega
  have hnodup : (Evaluation.relevantIdentifiers labels).Nodup := List.nodup_dedup _
  have htop : (rankHits (hits.map tracedHit)).take depth.toNat =
      ((Evaluation.rankHits hits).take depth.toNat).map tracedHit := by
    rw [rankHits_traced, List.map_take]
  obtain ⟨hmatched, hcount, hfirst⟩ := tallyHits_traced ((Evaluation.rankHits hits).take depth.toNat)
    (Evaluation.relevantIdentifiers labels)
  cases hrank : Evaluation.firstRelevantRank ((Evaluation.rankHits hits).take depth.toNat)
      (Evaluation.relevantIdentifiers labels) <;>
    simp only [metricsFor, Function.comp_apply, hdepth, relevantIdentifiers_textLabels, htop, hmatched, hcount, hfirst, hrank,
      List.toFinset_card_of_nodup hnodup, List.toFinset_eq_empty_iff, List.map_eq_nil_iff, List.length_map]

end Evaluation

section Metrics

/-- Other hits with the same ones of each score, in the same order. -/
def SameWithinScores (hits others : List QueryTraceHit) : Prop :=
  ∀ value, hits.filter (fun hit => hit.score = value) = others.filter fun hit => hit.score = value

/-- Labels give metrics that are what their definitions say of the identifiers they call relevant over the k best hits,
lie in the unit interval, do not fall with the depth in recall and reciprocal rank, and do not depend on the order of
hits with different scores. -/
theorem retrieval_metrics_by_definition (hits : List QueryTraceHit) (labels : RelevanceLabels) (depth : ℤ) :
    ∃ metrics, computeRetrievalMetrics hits (some labels) depth = some metrics ∧ metrics.depth = depth.toNat ∧
      (bestHits hits depth.toNat).card = min depth.toNat hits.length ∧
      (∀ id, id ∈ relevantIdentifiers labels ↔ labels.CallRelevant id) ∧
      ByDefinition hits (relevantIdentifiers labels) depth.toNat metrics ∧
      (InUnit metrics.recallAtK ∧ InUnit metrics.precisionAtK ∧ InUnit metrics.mrrAtK) ∧
      (∀ deeper, depth ≤ deeper → ∃ metrics', computeRetrievalMetrics hits (some labels) deeper = some metrics' ∧
        metrics.recallAtK ≤ metrics'.recallAtK ∧ metrics.mrrAtK ≤ metrics'.mrrAtK) ∧
      ∀ others, SameWithinScores hits others → computeRetrievalMetrics others (some labels) depth = some metrics := by
  have hdefinition := byDefinition_metricsFor hits labels depth
  refine ⟨metricsFor hits labels depth, rfl, ?_, card_best _ _ _, fun _ => mem_relevantIdentifiers, hdefinition,
    hdefinition.inUnit, ?_, ?_⟩
  · have hdepth : (max depth 0).toNat = depth.toNat := by omega
    exact hdepth
  · intro deeper hdeeper
    have hdefinition' := byDefinition_metricsFor hits labels deeper
    have hk : depth.toNat ≤ deeper.toNat := Int.toNat_le_toNat hdeeper
    exact ⟨_, rfl, hdefinition.recall_mono hdefinition' hk, hdefinition.mrr_mono hdefinition' hk⟩
  · intro others hsame
    have hranked : rankHits others = rankHits hits := (ranked_eq_of_filter_eq hsame).symm
    simp only [computeRetrievalMetrics, metricsFor, hranked, Option.map_some]

end Metrics

end RagSystem.RetrievalMetrics
