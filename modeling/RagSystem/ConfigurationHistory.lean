import Mathlib.Data.List.Chain
import RagSystem.ConfigurationStore

/-!
# The configuration index

Creations, approvals and activations in any interleaving. The version history
only grows and lists stored versions, whose settings stay; the activation
events form a chain that ends in the active version.
-/

namespace RagSystem.ConfigurationHistory

open AtomicProgram ThreadPool RelyGuarantee VersionedCell Storage CompareAndSwap EffectfulUpdates AIConfiguration
  ConfigurationStore

set_option autoImplicit false

section Index

/-- The version the last of these events selected. -/
def lastSelected (events : List ActivationEvent) : Option String :=
  events.getLast?.map ActivationEvent.selectedVersionId

/-- One event follows another. -/
def Follows (e e' : ActivationEvent) : Prop := e'.previousVersionId = some e.selectedVersionId

/-- The conditions on an index. -/
structure Coherent (index : AIConfigurationIndex) : Prop where
  /-- No version is listed twice. -/
  nodup : index.versions.Nodup
  /-- The active version is listed. -/
  active : ∀ v, index.activeVersionId = some v → v ∈ index.versions
  /-- The first event found no version active. -/
  first : ∀ e ∈ index.activationEvents.head?, e.previousVersionId = none
  /-- Every other event found the version its predecessor selected. -/
  chained : index.activationEvents.IsChain Follows
  /-- The active version is the one the last event selected. -/
  last : index.activeVersionId = lastSelected index.activationEvents

/-- A fresh index meets them. -/
theorem coherent_fresh (configId : String) : Coherent (asIndex none configId) :=
  ⟨List.nodup_nil, fun _ h => (nomatch h), fun _ h => (nomatch h), .nil, rfl⟩

variable {configId versionId operator timestamp reason : String} {current : Option AIConfigurationIndex}
  {index : AIConfigurationIndex}

/-- Listing a version adds it at the end, if at all, and leaves the rest. -/
theorem appendVersion_cases (configId versionId : String) (current : Option AIConfigurationIndex) :
    appendVersion configId versionId current = asIndex current configId ∨
      versionId ∉ (asIndex current configId).versions ∧ appendVersion configId versionId current =
        { asIndex current configId with versions := (asIndex current configId).versions ++ [versionId] } := by
  unfold appendVersion
  by_cases hin : versionId ∈ (asIndex current configId).versions
  · simp only [hin, if_true, true_or]
  · simp only [hin, if_false, not_false_eq_true, and_self, or_true]

/-- It keeps a coherent index coherent. -/
theorem Coherent.appendVersion (h : Coherent (asIndex current configId)) :
    Coherent (appendVersion configId versionId current) := by
  rcases appendVersion_cases configId versionId current with he | ⟨hnew, he⟩
  · rw [he]
    exact h
  · rw [he]
    have hnodup : ((asIndex current configId).versions ++ [versionId]).Nodup := by
      rw [List.nodup_append]
      refine ⟨h.nodup, List.pairwise_singleton _ _, fun v hv u hu hvu => ?_⟩
      rw [List.mem_singleton] at hu
      rw [hvu, hu] at hv
      exact hnew hv
    exact ⟨hnodup, fun v hv => List.mem_append_left _ (h.active v hv), h.first, h.chained, h.last⟩

/-- An activation keeps a coherent index coherent: its event says what was
active when it was made. -/
theorem Coherent.activate (h : Coherent (asIndex current configId))
    (ha : activate configId versionId operator timestamp reason current = .ok index) : Coherent index := by
  obtain ⟨hversions, hactive, hin, hevents⟩ := activate_ok ha
  constructor
  · rw [hversions]
    exact h.nodup
  · intro v hv
    rw [hactive, Option.some.injEq] at hv
    exact hv ▸ hin
  · intro e he
    rw [hevents, List.head?_append] at he
    cases hhead : (asIndex current configId).activationEvents.head? with
    | some e₀ =>
      rw [hhead] at he
      exact h.first e (hhead ▸ he)
    | none =>
      have hnil := List.head?_eq_none_iff.mp hhead
      have hnone : (asIndex current configId).activeVersionId = none := by
        rw [h.last, hnil]
        rfl
      rw [hhead, Option.none_or, List.head?_cons, Option.mem_some_iff] at he
      rw [← he]
      exact hnone
  · rw [hevents, List.isChain_append]
    refine ⟨h.chained, .singleton _, fun e he e' he' => ?_⟩
    have hlast : (asIndex current configId).activeVersionId = some e.selectedVersionId := by
      rw [h.last, lastSelected, Option.mem_def.mp he]
      rfl
    rw [List.head?_cons, Option.mem_some_iff] at he'
    rw [← he']
    exact hlast
  · rw [hactive, hevents, lastSelected, List.getLast?_concat]
    rfl

/-- What a write of the index may make of it, when these versions are stored. -/
structure IndexUpdate (configId : String) (stored : String → Prop) (current : Option AIConfigurationIndex)
    (new : AIConfigurationIndex) : Prop where
  /-- The history grows, -/
  grows : (asIndex current configId).versions <+: new.versions
  /-- by stored versions. -/
  stored : ∀ v ∈ new.versions, v ∈ (asIndex current configId).versions ∨ stored v
  /-- The index stays coherent. -/
  coherent : Coherent (asIndex current configId) → Coherent new
  /-- An active version is not given up for none. -/
  active : (asIndex current configId).activeVersionId.isSome = true → new.activeVersionId.isSome = true

/-- Listing a stored version is such a write. -/
theorem indexUpdate_appendVersion {stored : String → Prop} (h : stored versionId) :
    IndexUpdate configId stored current (appendVersion configId versionId current) := by
  constructor
  · rcases appendVersion_cases configId versionId current with he | ⟨-, he⟩
    · exact he.symm ▸ List.prefix_refl _
    · rw [he]
      exact List.prefix_append _ _
  · intro v hv
    rcases appendVersion_cases configId versionId current with he | ⟨-, he⟩
    · rw [he] at hv
      exact .inl hv
    · rw [he, List.mem_append, List.mem_singleton] at hv
      rcases hv with hold | hnew
      · exact .inl hold
      · exact .inr (hnew ▸ h)
  · exact Coherent.appendVersion
  · intro hactive
    rcases appendVersion_cases configId versionId current with he | ⟨-, he⟩
    · rw [he]
      exact hactive
    · rw [he]
      exact hactive

/-- So is an activation. -/
theorem indexUpdate_activate {stored : String → Prop}
    (h : activate configId versionId operator timestamp reason current = .ok index) :
    IndexUpdate configId stored current index := by
  obtain ⟨hversions, hactive, -, -⟩ := activate_ok h
  constructor
  · exact hversions.symm ▸ List.prefix_refl _
  · intro v hv
    rw [hversions] at hv
    exact .inl hv
  · exact fun hc => hc.activate h
  · intro _
    rw [hactive]
    rfl

end Index

section Steps

variable {configId : String} {w w' w'' : World}

/-- Every listed version is stored. -/
def Stored (configId : String) (w : World) : Prop :=
  ∀ v ∈ (w.index configId).versions, (w.version configId v).isSome = true

/-- What every call leaves of the configuration. -/
structure Kept (configId : String) (w w' : World) : Prop where
  /-- Objects change by writing. -/
  later : Later w.objects w'.objects
  /-- The history grows. -/
  grows : (w.index configId).versions <+: (w'.index configId).versions
  /-- Stored versions keep their settings. -/
  settings : ∀ v s, w.version configId v = some s → ∃ s', w'.version configId v = some s' ∧
    s'.toAIConfigurationVersion = s.toAIConfigurationVersion
  /-- The index stays coherent. -/
  coherent : Coherent (w.index configId) → Coherent (w'.index configId)
  /-- Listed versions stay stored. -/
  stored : Stored configId w → Stored configId w'
  /-- An active version is not given up for none. -/
  active : (w.index configId).activeVersionId.isSome = true → (w'.index configId).activeVersionId.isSome = true

/-- A stored version stays stored. -/
theorem Kept.isSome (h : Kept configId w w') {v : String} (hv : (w.version configId v).isSome = true) :
    (w'.version configId v).isSome = true := (h.later (.version configId v)).isSome hv

/-- One call after another. -/
theorem kept_rely (configId : String) : IsRely (Kept configId) := by
  constructor
  · exact fun w => ⟨.refl _, List.prefix_refl _, fun v s hs => ⟨s, hs, rfl⟩, id, id, id⟩
  · intro w w' w'' h h'
    refine ⟨h.later.trans h'.later, h.grows.trans h'.grows, fun v s hs => ?_, h'.coherent ∘ h.coherent,
      h'.stored ∘ h.stored, h'.active ∘ h.active⟩
    obtain ⟨s', hs', he'⟩ := h.settings v s hs
    obtain ⟨s'', hs'', he''⟩ := h'.settings v s' hs'
    exact ⟨s'', hs'', he''.trans he'⟩

/-- A write of the index leaves the versions. -/
theorem version_put_index (w : World) (new : AIConfigurationIndex) (v : String) :
    World.version { w with objects := put w.objects (.index configId) new } configId v = w.version configId v := by
  have hne : ConfigKey.version configId v ≠ .index configId := fun h => (nomatch h)
  simp only [World.version, put_of_ne _ _ hne]

/-- It is the index then. -/
theorem index_put_index (w : World) (new : AIConfigurationIndex) :
    World.index { w with objects := put w.objects (.index configId) new } configId = new := by
  simp only [World.index, put_self, Cell.write_content, asIndex, Option.getD_some]

/-- A write of a version leaves the index. -/
theorem index_put_version (w : World) (v : String) (new : AIConfigurationVersion) :
    World.index { w with objects := put w.objects (.version configId v) new } configId = w.index configId := by
  have hne : ConfigKey.index configId ≠ .version configId v := fun h => (nomatch h)
  simp only [World.index, put_of_ne _ _ hne]

/-- A write of the index that updates it keeps the configuration. -/
theorem Kept.of_put_index {new : AIConfigurationIndex}
    (h : IndexUpdate configId (fun v => (w.version configId v).isSome = true) (w.objects (.index configId)).content new) :
    Kept configId w { w with objects := put w.objects (.index configId) new } := by
  refine ⟨later_put _ _ _, ?_, fun v s hs => ⟨s, ?_, rfl⟩, fun hc => ?_, fun hstored v hv => ?_, fun ha => ?_⟩
  · rw [index_put_index]
    exact h.grows
  · rw [version_put_index]
    exact hs
  · rw [index_put_index]
    exact h.coherent hc
  · rw [index_put_index] at hv
    rw [version_put_index]
    rcases h.stored v hv with hold | hnew
    · exact hstored v hold
    · exact hnew
  · rw [index_put_index]
    exact h.active ha

/-- A write of a version that leaves the settings of the stored one keeps it
too. -/
theorem Kept.of_put_version {v : String} {new : AIConfigurationVersion}
    (h : ∀ s, w.version configId v = some s → new.toAIConfigurationVersion = s.toAIConfigurationVersion) :
    Kept configId w { w with objects := put w.objects (.version configId v) new } := by
  have hlater := later_put w.objects (.version configId v) new
  refine ⟨hlater, ?_, fun u s hs => ?_, fun hc => ?_, fun hstored u hu => ?_, fun ha => ?_⟩
  · have hsame : World.index _ configId = w.index configId := index_put_version w v new
    exact hsame.symm ▸ List.prefix_refl _
  · by_cases hu : u = v
    · subst hu
      exact ⟨new, by simp only [World.version, put_self, Cell.write_content], h s hs⟩
    · have hne : ConfigKey.version configId u ≠ .version configId v := fun he => hu (by injection he)
      refine ⟨s, ?_, rfl⟩
      simpa only [World.version, put_of_ne _ _ hne] using hs
  · rw [index_put_version]
    exact hc
  · rw [index_put_version] at hu
    exact (hlater (.version configId u)).isSome (hstored u hu)
  · rw [index_put_version]
    exact ha

/-- A call that leaves the objects keeps the configuration. -/
theorem Kept.of_objects (h : w'.objects = w.objects) : Kept configId w w' := by
  have hrest : w' = w := by
    cases w
    cases w'
    cases h
    rfl
  rw [hrest]
  exact (kept_rely configId).refl w

/-- Calls happen as the machine says. -/
abbrev Happens : StepPredicate World Err Answer := fun _ e w w' => configurations.Exec e w w'

/-- Every call of a program keeps the configuration, and it keeps `I`. -/
abbrev KeepsConfig {α : Type} (configId : String) (I : Assertion World Err Answer) : Prog α → Prop :=
  Keeps Happens (fun _ _ w w' => Kept configId w w') (Kept configId) I

end Steps

section Programs

variable {configId : String}

/-- Nothing is assumed. -/
abbrev Anywhere : Assertion World Err Answer := fun _ _ => True

/-- Others cannot falsify that. -/
theorem stable_anywhere {R : World → World → Prop} : Stable R Anywhere := fun _ _ _ _ h => h

/-- A call outside the store. -/
theorem keeps_call (x : ConfigCall) : KeepsConfig configId Anywhere (call x) := by
  refine Keeps.perform stable_anywhere fun h w r w' _ ht => ⟨?_, trivial⟩
  obtain ⟨o, rest, -, rfl⟩ := exec_other ht
  exact .of_objects rfl

/-- A read. -/
theorem keeps_getJson (configId : String) (k : ConfigKey) :
    KeepsConfig configId Anywhere (getJson k : Prog (Option (Payload k))) := by
  refine Keeps.perform stable_anywhere fun h w r w' _ ht => ⟨?_, trivial⟩
  rw [(exec_getJson ht).1]
  exact (kept_rely configId).refl w

/-- Listing a version that is stored. -/
theorem keeps_listVersion (versionId : String) :
    KeepsConfig configId (fun _ w => (World.version w configId versionId).isSome = true)
      (listVersion configId versionId) := by
  have hsame (w : World) : Kept configId w w := (kept_rely configId).refl w
  refine updateJsonCas_keeps (fun _ _ _ _ ht => ht) (fun _ _ hk => hk.later _) (fun _ _ _ hk hs => hk.isSome hs)
    (fun _ w _ hs _ => ⟨hsame w, hs⟩) (fun _ w _ _ _ hs _ => ⟨hsame w, hs⟩) (fun h w v c hs hv _ => ?_) maxAttempts
  injection hv with hv
  have hkept := Kept.of_put_index (hv ▸ indexUpdate_appendVersion hs)
  exact ⟨hkept, hkept.isSome hs⟩

/-- Storing a version and then listing it. -/
theorem keeps_publish (versionId : String) (version : AIConfigurationVersion) :
    KeepsConfig configId Anywhere ((createJson (P := Payload) (.version configId versionId) version : Prog Unit).bind
      fun _ => (listVersion configId versionId).bind fun _ => .done version) := by
  intro h w _ w₁ _ r w₂ ht
  rcases exec_putJsonConditional ht with ⟨rfl, ha, rfl⟩ | ⟨rfl, hr⟩
  · -- nothing was stored there, so no settings are lost
    have hnone : (w₁.objects (.version configId versionId)).content = none := Option.isNone_iff_eq_none.mp ha
    have hkept : Kept configId w₁ { w₁ with objects := put w₁.objects (.version configId versionId) version } := by
      refine .of_put_version fun s hs => ?_
      rw [World.version, hnone] at hs
      contradiction
    have hstored : (World.version { w₁ with objects := put w₁.objects (.version configId versionId) version }
        configId versionId).isSome = true := by
      simp only [World.version, put_self, Cell.write_content, Option.isSome_some]
    refine ⟨hkept, ?_⟩
    refine (keeps_listVersion versionId _ _ hstored).bind (kept_rely configId) (fun _ _ _ _ => ?_) fun _ _ _ _ => trivial
    exact .done fun _ _ => trivial
  · have hkept : Kept configId w₂ w₂ := (kept_rely configId).refl w₂
    rcases hr with ⟨rfl, -⟩ | ⟨m, rfl⟩
    · exact ⟨hkept, .raise fun _ _ => trivial⟩
    · exact ⟨hkept, .raise fun _ _ => trivial⟩

/-- An approval leaves the settings. -/
theorem keeps_approve (versionId approver approvedAt : String) : KeepsConfig configId Anywhere
    (updateJsonCas (P := Payload) (.version configId versionId) (approve versionId approver approvedAt) maxAttempts) := by
  have hsame (w : World) : Kept configId w w := (kept_rely configId).refl w
  refine updateJsonCas_keeps (fun _ _ _ _ ht => ht) (fun _ _ hk => hk.later _) stable_anywhere
    (fun _ w _ _ _ => ⟨hsame w, trivial⟩) (fun _ w _ _ _ _ _ => ⟨hsame w, trivial⟩) (fun h w v c _ hv _ => ?_) maxAttempts
  refine ⟨.of_put_version fun s hs => ?_, trivial⟩
  rw [World.version] at hs
  rw [hs] at hv
  injection hv with hv
  rw [← hv]

/-- An activation selects a version of the index it replaces. -/
theorem keeps_activateVersion (versionId operator reason : String) :
    KeepsConfig configId Anywhere (activateVersion configId versionId operator reason) := by
  have hsame (w : World) : Kept configId w w := (kept_rely configId).refl w
  have hlater (w w' : World) (hk : Kept configId w w') : (w.objects (.index configId)).Later (w'.objects (.index configId)) :=
    hk.later _
  refine updateJsonCasBy_keeps
    (U := fun cur new => ∃ timestamp, activate configId versionId operator timestamp reason cur = .ok new)
    (kept_rely configId) (fun _ _ _ _ ht => ht) hlater stable_anywhere (fun _ w _ _ _ => ⟨hsame w, trivial⟩) ?_
    (fun _ w _ _ _ _ _ => ⟨hsame w, trivial⟩) (fun h w v c _ hv _ => ?_) maxAttempts
  · intro cell h w hsince
    have hstable := Since.stable hlater (stable_anywhere (R := Kept configId)) cell
    have hclock : KeepsConfig configId (Since (.index configId) cell Anywhere) (call .utcnowIso) := by
      refine Keeps.perform hstable fun h w r w' hs ht => ?_
      obtain ⟨o, rest, -, rfl⟩ := exec_other ht
      exact ⟨.of_objects rfl, hs⟩
    refine (hclock h w hsince).bind (kept_rely configId) (fun h timestamp w hs => ?_)
      fun h e w hs => ⟨hs, fun _ hv => (nomatch hv)⟩
    cases ha : activate configId versionId operator timestamp reason cell.content with
    | ok index =>
      refine .done fun w' hk => ⟨hstable _ _ _ hk hs, fun v hv => ?_⟩
      injection hv with hv
      exact ⟨timestamp, hv ▸ ha⟩
    | error e => exact .raise fun w' hk => ⟨hstable _ _ _ hk hs, fun _ hv => (nomatch hv)⟩
  · obtain ⟨timestamp, ha⟩ := hv
    exact ⟨.of_put_index (indexUpdate_activate ha), trivial⟩

/-- Creations keep the configuration. -/
theorem keeps_createVersion (request : CreateRequest) : KeepsConfig configId Anywhere (createVersion configId request) := by
  have hor (value : Option String) (x : Prog String) (hx : KeepsConfig configId Anywhere x) :
      KeepsConfig configId Anywhere (orCall value x) := by
    unfold orCall
    split
    · split
      · exact hx
      · exact .done stable_anywhere _
    · exact hx
  have hvalid : KeepsConfig configId Anywhere (validateChangeDescription request.changeDescription) := by
    unfold validateChangeDescription
    split
    · exact .done stable_anywhere _
    · exact .raise stable_anywhere _
  refine hvalid.bind (kept_rely configId) fun _ => ?_
  refine (hor request.versionId _ (keeps_call .tokenUrlsafe)).bind (kept_rely configId) fun versionId => ?_
  refine (hor request.createdAt _ (keeps_call .utcnowIso)).bind (kept_rely configId) fun createdAt => ?_
  exact keeps_publish versionId (newVersion configId request versionId createdAt)

/-- So do approvals. -/
theorem keeps_approveVersion (versionId approver : String) :
    KeepsConfig configId Anywhere (approveVersion configId versionId approver) := by
  have hread := keeps_getJson configId (.version configId versionId)
  refine hread.bind (kept_rely configId) fun existing => ?_
  cases existing with
  | none => exact .raise stable_anywhere _
  | some version =>
    refine (keeps_call .utcnowIso).bind (kept_rely configId) fun approvedAt => ?_
    exact keeps_approve versionId approver approvedAt

/-- A read of the index. -/
theorem keeps_getIndex : KeepsConfig configId Anywhere (getIndex configId) :=
  (keeps_getJson configId (.index configId)).bind (kept_rely configId) fun _ => .done stable_anywhere _

/-- So do activations. -/
theorem keeps_rollback (versionId operator reason : String) :
    KeepsConfig configId Anywhere (rollback configId versionId operator reason) := by
  refine keeps_getIndex.bind (kept_rely configId) fun index => ?_
  split
  · refine (keeps_activateVersion versionId operator reason).bind (kept_rely configId) fun written => ?_
    exact .done stable_anywhere _
  · exact .raise stable_anywhere _

/-- So does a resolver, which creates and activates. -/
theorem keeps_resolve : KeepsConfig configId Anywhere (resolve configId) := by
  refine Keeps.catchError (kept_rely configId) ?_ fun _ => .done stable_anywhere _
  refine keeps_getIndex.bind (kept_rely configId) fun index => ?_
  cases index.activeVersionId with
  | some active =>
    refine (keeps_getJson configId (.version configId active)).bind (kept_rely configId) fun version => ?_
    cases version with
    | none => exact .done stable_anywhere _
    | some version => exact .done stable_anywhere _
  | none =>
    refine (keeps_call .getSettings).bind (kept_rely configId) fun settings => ?_
    refine (keeps_createVersion (seedRequest settings)).bind (kept_rely configId) fun version => ?_
    refine (keeps_rollback version.versionId _ _).bind (kept_rely configId) fun _ => ?_
    exact .done stable_anywhere _

/-- Every operation keeps the configuration. -/
theorem keeps_code (o : Operation) : KeepsConfig configId Anywhere (code configId o) := by
  cases o with
  | createVersion request => exact (keeps_createVersion request).bind (kept_rely configId) fun _ => .done stable_anywhere _
  | approveVersion versionId approver =>
    exact (keeps_approveVersion versionId approver).bind (kept_rely configId) fun _ => .done stable_anywhere _
  | rollback versionId operator reason =>
    exact (keeps_rollback versionId operator reason).bind (kept_rely configId) fun _ => .done stable_anywhere _
  | resolve => exact keeps_resolve.bind (kept_rely configId) fun _ => .done stable_anywhere _

end Programs

section Runs

variable {configId : String} {p q r : ConfigPool} {ms ns : List ConfigMove}

/-- Every call of a run keeps the configuration. -/
theorem kept_of_run (hrun : Configures configId p ms q) (hidle : ∀ t, p.threads t = none) :
    ∀ m ∈ ms, Kept configId m.source.world m.target.world := by
  have hcode (o : Operation) (w : World) (_ : True) : Sat Happens (fun _ _ w w' => Kept configId w w') (Kept configId)
      (fun _ _ _ => True) (code configId o) [] w := keeps_code o [] w trivial
  have hsound := run_sound (I := fun _ => True) (kept_rely configId) hcode (fun _ _ _ _ _ hg => hg)
    (fun _ _ _ _ => trivial) hrun hidle trivial fun m hm => (hrun.of_mem hm).1.exec
  exact hsound.2.1

/-- What every call of a run keeps, the run keeps. -/
theorem kept_run (hrun : Configures configId p ms q) (hkept : ∀ m ∈ ms, Kept configId m.source.world m.target.world) :
    Kept configId p.world q.world := by
  refine hrun.world_invariant (I := fun w => Kept configId p.world w) ((kept_rely configId).refl _) ?_
  exact fun m hm hk => (kept_rely configId).trans hk (hkept m hm)

/-- Creations, approvals, activations and resolutions of one configuration in
any interleaving, from before its first one. The version list only grows and
has no version twice; every listed version is stored and keeps its settings;
the active version is listed; each activation event after the first names the
version its predecessor selected as the previous one; and the active version
is the one the last event selected. -/
theorem configuration_index_invariant (hrun : Configures configId p ms q) (hrest : Configures configId q ns r)
    (hidle : ∀ t, p.threads t = none) (hfresh : (p.world.objects (.index configId)).content = none) :
    ((q.world.index configId).versions <+: (r.world.index configId).versions ∧
      (r.world.index configId).versions.Nodup) ∧
    (∀ v ∈ (q.world.index configId).versions, ∃ s s', q.world.version configId v = some s ∧
      r.world.version configId v = some s' ∧ s'.prompt = s.prompt ∧ s'.model = s.model ∧
      s'.outputSchema = s.outputSchema ∧ s'.routerThreshold = s.routerThreshold ∧
      s'.retrievalSettings = s.retrievalSettings) ∧
    (∀ v, (r.world.index configId).activeVersionId = some v → v ∈ (r.world.index configId).versions) ∧
    (r.world.index configId).activationEvents.IsChain (fun e e' => e'.previousVersionId = some e.selectedVersionId) ∧
    (r.world.index configId).activeVersionId =
      (r.world.index configId).activationEvents.getLast?.map ActivationEvent.selectedVersionId := by
  have hkept := kept_of_run (hrun.trans hrest) hidle
  have hfirst := kept_run hrun fun m hm => hkept m (List.mem_append_left _ hm)
  have hsecond := kept_run hrest fun m hm => hkept m (List.mem_append_right _ hm)
  have hindex : p.world.index configId = asIndex none configId := by rw [World.index, hfresh]
  have hcoherent : Coherent (r.world.index configId) := by
    refine hsecond.coherent (hfirst.coherent ?_)
    rw [hindex]
    exact coherent_fresh configId
  have hstored : Stored configId q.world := by
    refine hfirst.stored fun v hv => ?_
    rw [hindex] at hv
    contradiction
  refine ⟨⟨hsecond.grows, hcoherent.nodup⟩, fun v hv => ?_, hcoherent.active, hcoherent.chained, hcoherent.last⟩
  obtain ⟨s, hs⟩ := Option.isSome_iff_exists.mp (hstored v hv)
  obtain ⟨s', hs', hsame⟩ := hsecond.settings v s hs
  refine ⟨s, s', hs, hs', ?_⟩
  rw [hsame]
  exact ⟨rfl, rfl, rfl, rfl, rfl⟩

/-- A version an operator creates. -/
def sampleRequest (versionId : String) : CreateRequest where
  prompt := "p"
  model := "m"
  routerThreshold := 1 / 2
  changeDescription := "c"
  versionId := some versionId

/-- Two creations race for the index, and one of the versions is activated. -/
def createTurns : List Turn :=
  [.start 0 (.createVersion (sampleRequest "a")), .start 1 (.createVersion (sampleRequest "b"))] ++ turns 0 3 "now" ++
    turns 1 3 "now" ++ turns 0 1 "now" ++ turns 1 3 "now" ++ .start 2 (.rollback "a" "o" "r") :: turns 2 4 "now"

/-- The pool after that. -/
def createdPool : ConfigPool := (Pool.idle freshWorld).reached configurations (code "default") createTurns

/-- The active version is approved, and the other one activated instead. -/
def switchTurns : List Turn :=
  .start 3 (.approveVersion "a" "o") :: turns 3 4 "now" ++ .start 4 (.rollback "b" "o" "r") :: turns 4 4 "now"

/-- The pool after that. -/
def switchedPool : ConfigPool := createdPool.reached configurations (code "default") switchTurns

theorem configuration_index_invariant_sample : ∃ ms ns, Configures "default" (Pool.idle freshWorld) ms createdPool ∧
    Configures "default" createdPool ns switchedPool ∧ (createdPool.world.index "default").versions = ["a", "b"] ∧
    (createdPool.world.index "default").activeVersionId = some "a" ∧
    (switchedPool.world.index "default").activeVersionId = some "b" ∧
    (switchedPool.world.index "default").versions.Nodup ∧
    (switchedPool.world.index "default").activationEvents.getLast?.map ActivationEvent.selectedVersionId = some "b" := by
  have hcreated : ((Pool.idle freshWorld : ConfigPool).drive configurations (code "default") createTurns).isSome = true := by
    decide +kernel
  have hswitched : (createdPool.drive configurations (code "default") switchTurns).isSome = true := by decide +kernel
  have hrun := Run.reached hcreated
  have hrest := Run.reached hswitched
  have hversions : (createdPool.world.index "default").versions = ["a", "b"] := by decide +kernel
  have hfirst : (createdPool.world.index "default").activeVersionId = some "a" := by decide +kernel
  have hsecond : (switchedPool.world.index "default").activeVersionId = some "b" := by decide +kernel
  obtain ⟨hlist, -, -, -, hlast⟩ := configuration_index_invariant hrun hrest (fun _ => rfl) rfl
  exact ⟨_, _, hrun, hrest, hversions, hfirst, hsecond, hlist.2, hlast.symm.trans hsecond⟩

end Runs

end RagSystem.ConfigurationHistory
