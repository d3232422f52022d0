import RagSystem.LegalWrites

/-!
# The version index

The two updates of a version index, `_activate_version_in_index` and
`_activate_existing_version`, keep four linked conditions, and so does every
run: distinct versions, nothing dropped, a listed active version, and vectors
recorded for exactly that one.
-/

namespace RagSystem.VersionHistory

open AtomicProgram ThreadPool DocumentModels DocumentStore DocumentService CallEffects StoreCalls LegalWrites

set_option autoImplicit false

/-- The conditions on a version index. -/
structure Coherent (index : DocumentVersionIndex) : Prop where
  /-- No version is listed twice. -/
  nodup : index.ids.Nodup
  /-- The active version is listed. -/
  active : ∃ version ∈ index.ids, index.activeVersion = some version
  /-- Exactly the active version's entry has vectors. -/
  present : ∀ v ∈ index.versions, v.vectorsPresent = true ↔ index.activeVersion = some v.version

section Updates

variable {d : DocumentId} {manifest : DocumentVersion} {version : Version}
  {current : Option DocumentVersionIndex} {index new : DocumentVersionIndex}

/-- The versions an index lists, none if there is no index. -/
def listed (current : Option DocumentVersionIndex) : List Version :=
  (current.map DocumentVersionIndex.ids).getD []

/-- Activating an ingested version lists it last and keeps the others. -/
theorem ids_activateVersion : (activateVersion d manifest current).ids =
    ((listed current).filter fun v => v ≠ manifest.version) ++ [manifest.version] := by
  have hlisted : listed current = (current.getD { documentId := d }).versions.map DocumentVersion.version := by
    cases current <;> rfl
  rw [hlisted, List.filter_map]
  simp only [activateVersion, DocumentVersionIndex.ids, List.map_append, List.map_map, List.map_cons,
    List.map_nil]
  rfl

/-- It drops no version. -/
theorem listed_subset_activateVersion : listed current ⊆ (activateVersion d manifest current).ids := by
  intro v hv
  rw [ids_activateVersion]
  by_cases h : v = manifest.version
  · rw [h]
    exact List.mem_append_right _ (List.mem_singleton_self _)
  · refine List.mem_append_left _ (List.mem_filter.mpr ⟨hv, ?_⟩)
    simpa only [ne_eq, decide_not, Bool.not_eq_eq_eq_not, Bool.not_true, decide_eq_false_iff_not] using h

/-- It makes a coherent index of a coherent one, and of none. -/
theorem coherent_activateVersion (hm : manifest.vectorsPresent = true)
    (h : ∀ index, current = some index → Coherent index) :
    Coherent (activateVersion d manifest current) := by
  have hactive : (activateVersion d manifest current).activeVersion = some manifest.version := rfl
  constructor
  · have hnodup : (listed current).Nodup := by
      cases current with
      | none => exact List.nodup_nil
      | some index => exact (h index rfl).nodup
    rw [ids_activateVersion]
    refine List.nodup_append.mpr ⟨hnodup.filter _, List.pairwise_singleton _ _, ?_⟩
    intro v hv u hu
    have hne := (List.mem_filter.mp hv).2
    rw [List.mem_singleton] at hu
    rw [hu]
    simpa only [ne_eq, decide_not, Bool.not_eq_eq_eq_not, Bool.not_true, decide_eq_false_iff_not] using hne
  · refine ⟨manifest.version, ?_, hactive⟩
    rw [ids_activateVersion]
    exact List.mem_append_right _ (List.mem_singleton_self _)
  · intro v hv
    rw [hactive, Option.some.injEq]
    rcases List.mem_append.mp hv with hin | hin
    · obtain ⟨u, hu, rfl⟩ := List.mem_map.mp hin
      have hne := (List.mem_filter.mp hu).2
      simp only [ne_eq, decide_not, Bool.not_eq_eq_eq_not, Bool.not_true, decide_eq_false_iff_not] at hne
      simp only [Bool.false_eq_true, false_iff]
      exact fun heq => hne heq.symm
    · rw [List.mem_singleton] at hin
      rw [hin]
      simp only [hm]

/-- Activating a listed version: what it was applied to, and what it made. -/
theorem activateExisting_ok (h : activateExisting d version current = .ok new) :
    ∃ index, current = some index ∧ version ∈ index.ids ∧ new.activeVersion = some version ∧
      new.versions = index.versions.map fun v => { v with vectorsPresent := v.version = version } := by
  cases current with
  | none => contradiction
  | some index =>
    simp only [activateExisting] at h
    split at h
    · next hin =>
      cases h
      exact ⟨index, rfl, hin, rfl, rfl⟩
    · contradiction

/-- It keeps the list of versions. -/
theorem ids_activateExisting (h : activateExisting d version current = .ok new) :
    new.ids = listed current := by
  obtain ⟨index, rfl, -, -, hversions⟩ := activateExisting_ok h
  simp only [DocumentVersionIndex.ids, hversions, List.map_map]
  rfl

/-- It makes a coherent index of a coherent one. -/
theorem coherent_activateExisting (h : activateExisting d version current = .ok new)
    (hc : ∀ index, current = some index → Coherent index) : Coherent new := by
  have hids := ids_activateExisting h
  obtain ⟨index, rfl, hin, hactive, hversions⟩ := activateExisting_ok h
  constructor
  · rw [hids]
    exact (hc index rfl).nodup
  · rw [hids]
    exact ⟨version, hin, hactive⟩
  · intro v hv
    rw [hversions] at hv
    obtain ⟨u, -, rfl⟩ := List.mem_map.mp hv
    rw [hactive, Option.some.injEq]
    simp only [decide_eq_true_eq]
    exact eq_comm

/-- Either update keeps an index coherent and drops no version. -/
theorem coherent_update (h : IndexUpdate d current new)
    (hc : ∀ index, current = some index → Coherent index) :
    Coherent new ∧ listed current ⊆ new.ids := by
  rcases h with ⟨manifest, hm, rfl⟩ | ⟨version, hv⟩
  · exact ⟨coherent_activateVersion hm hc, listed_subset_activateVersion⟩
  · refine ⟨coherent_activateExisting hv hc, ?_⟩
    rw [ids_activateExisting hv]
    exact List.Subset.refl _

end Updates

section Runs

variable {settings : Settings} {p s q : ServicePool} {ms ns : List ServiceMove} {d : DocumentId}

/-- The stored index, if there is one, is coherent. -/
def Indexed (d : DocumentId) (w : World) : Prop := ∀ index, w.versionIndex d = some index → Coherent index

/-- A legal call keeps the stored index coherent and drops no version. -/
theorem indexed_of_legal {w w' : World} (h : Legal w w') (hw : Indexed d w) :
    Indexed d w' ∧ listed (w.versionIndex d) ⊆ listed (w'.versionIndex d) := by
  rcases h.index d with hsame | ⟨index, hnew, hupdate⟩
  · have heq : w'.versionIndex d = w.versionIndex d := congrArg VersionedCell.Cell.content hsame
    constructor
    · intro index hindex
      rw [heq] at hindex
      exact hw index hindex
    · rw [heq]
      exact List.Subset.refl _
  · obtain ⟨hcoherent, hsubset⟩ := coherent_update hupdate hw
    constructor
    · intro index' hindex
      rw [hnew, Option.some.injEq] at hindex
      rw [← hindex]
      exact hcoherent
    · rw [hnew]
      exact hsubset

/-- Calls that are all legal keep the stored index coherent and drop no
version, however many they are. -/
theorem indexed_of_run (h : ServiceRun settings s ns q)
    (hlegal : ∀ m ∈ ns, Legal m.source.world m.target.world) (hs : Indexed d s.world) :
    Indexed d q.world ∧ listed (s.world.versionIndex d) ⊆ listed (q.world.versionIndex d) := by
  refine h.world_invariant (I := fun w => Indexed d w ∧ listed (s.world.versionIndex d) ⊆ listed (w.versionIndex d))
    ⟨hs, List.Subset.refl _⟩ fun m hm hi => ?_
  obtain ⟨hindexed, hsubset⟩ := indexed_of_legal (hlegal m hm) hi.1
  exact ⟨hindexed, List.Subset.trans hi.2 hsubset⟩

/-- In every run, every stored index met on the way is coherent, and what it
lists is listed ever after. -/
theorem version_index_invariant (hidle : ∀ t, p.threads t = none) (h0 : p.world.versionIndex d = none)
    (h₁ : ServiceRun settings p ms s) (h₂ : ServiceRun settings s ns q) {index : DocumentVersionIndex}
    (hindex : s.world.versionIndex d = some index) :
    Coherent index ∧ ∃ index', q.world.versionIndex d = some index' ∧ index.ids ⊆ index'.ids := by
  have hlegal := legal_of_run (h₁.trans h₂) hidle
  have hempty : Indexed d p.world := fun index hi => by rw [h0] at hi; contradiction
  have hs := (indexed_of_run h₁ (fun m hm => hlegal m (List.mem_append_left _ hm)) hempty).1
  obtain ⟨-, hsubset⟩ := indexed_of_run h₂ (fun m hm => hlegal m (List.mem_append_right _ hm)) hs
  refine ⟨hs index hindex, ?_⟩
  obtain ⟨version, hv, -⟩ := (hs index hindex).active
  rw [hindex] at hsubset
  cases hq : q.world.versionIndex d with
  | none =>
    rw [hq] at hsubset
    exact absurd (hsubset hv) List.not_mem_nil
  | some index' =>
    rw [hq] at hsubset
    exact ⟨index', rfl, hsubset⟩

/-- Two versions of a document, one ingested after the other. -/
def firstTurns : List Turn :=
  .start 0 (.queueDocument 0 "d" "f.txt" (utf8 "a") none) :: turns 0 7 "a" "i" ++
  .start 1 (.processDocumentJob 1 ⟨"d", contentHash sampleSettings (utf8 "a"), "f.txt", ""⟩) ::
    turns 1 30 "a" "i"

/-- The second version. -/
def secondTurns : List Turn :=
  .start 2 (.updateDocument 2 "d" "f.txt" (utf8 "b") none) :: turns 2 9 "b" "j" ++
  .start 3 (.processDocumentJob 3 ⟨"d", contentHash sampleSettings (utf8 "b"), "f.txt", ""⟩) ::
    turns 3 30 "b" "j"

/-- The state after the first ingestion. -/
def firstPool : ServicePool := after (Pool.idle World.empty) firstTurns

theorem version_index_invariant_sample : ∃ index, firstPool.world.versionIndex "d" = some index ∧
    Coherent index ∧ ∃ index', (after firstPool secondTurns).world.versionIndex "d" = some index' ∧
      index.ids ⊆ index'.ids := by
  have hms := run_after (Pool.idle World.empty) firstTurns (by decide +kernel)
  have hns := run_after firstPool secondTurns (by decide +kernel)
  have hsome : (firstPool.world.versionIndex "d").isSome := by decide +kernel
  obtain ⟨index, hindex⟩ := Option.isSome_iff_exists.mp hsome
  exact ⟨index, hindex, version_index_invariant (fun _ => rfl) rfl hms hns hindex⟩

end Runs

end RagSystem.VersionHistory
