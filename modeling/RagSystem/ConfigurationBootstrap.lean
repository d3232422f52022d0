import RagSystem.ConfigurationHistory
import RagSystem.ProgramContracts

/-!
# Bootstraps and operators

A resolver that finds no version active creates one and activates it. The
activation does not look again whether any version is active by then. It
replaces what someone else activated exactly when that happened in between.
-/

namespace RagSystem.ConfigurationBootstrap

open AtomicProgram ThreadPool RelyGuarantee ProgramPaths ProgramContracts Storage AIConfiguration ConfigurationStore
  ConfigurationHistory

set_option autoImplicit false

section Pointer

variable (configId : String)

/-- The active version. -/
def World.active (w : World) : Option String := (w.index configId).activeVersionId

/-- The call changed the active version. -/
def changesActive (m : ConfigMove) : Bool := World.active configId m.target.world ≠ World.active configId m.source.world

/-- The call read an index without an active version. -/
def foundUnset : CallEvent → Bool
  | ⟨.getJson (.index id), .ok payload⟩ => id = configId && (asIndex payload configId).activeVersionId.isNone
  | _ => false

/-- The thread has read such an index. -/
def HasFoundUnset (h : History Err Answer) : Prop := ∃ e ∈ h, foundUnset configId e = true

/-- The call may change the index. -/
def writesIndex : Action → Bool
  | .putJson (.index id) _ => id = configId
  | .putJsonConditional (.index id) _ _ => id = configId
  | _ => false

variable {configId}

/-- It stays so. -/
theorem HasFoundUnset.append {h : History Err Answer} (hf : HasFoundUnset configId h) (e : CallEvent) :
    HasFoundUnset configId (h ++ [e]) := by
  obtain ⟨e', hin, he⟩ := hf
  exact ⟨e', List.mem_append_left _ hin, he⟩

/-- A read without an active version was one of the pointer's times unset. -/
theorem active_of_foundUnset {e : CallEvent} {w w' : World} (he : configurations.Exec e w w')
    (hf : foundUnset configId e = true) : World.active configId w' = none := by
  unfold foundUnset at hf
  split at hf
  · next id payload =>
    rw [Bool.and_eq_true, decide_eq_true_eq, Option.isNone_iff_eq_none] at hf
    obtain ⟨rfl, hnone⟩ := hf
    obtain ⟨rfl, hr | ⟨m, hr⟩⟩ := exec_getJson he
    · injection hr with hr
      rw [World.active, World.index, ← hr]
      exact hnone
    · contradiction
  · contradiction

/-- A write elsewhere leaves the pointer. -/
theorem active_put_of_not_writesIndex {k : ConfigKey} (w : World) (v : Payload k)
    (hw : writesIndex configId (.putJson k v) = false) :
    World.active configId { w with objects := VersionedCell.put w.objects k v } = World.active configId w := by
  have hne : ConfigKey.index configId ≠ k := by
    rintro rfl
    simp only [writesIndex, decide_true, reduceCtorEq] at hw
  simp only [World.active, World.index, VersionedCell.put_of_ne _ _ hne]

/-- A call that does not write the index leaves the pointer. -/
theorem active_of_not_writesIndex {e : CallEvent} {w w' : World} (he : configurations.Exec e w w')
    (hw : writesIndex configId e.action = false) : World.active configId w' = World.active configId w := by
  obtain ⟨a, r⟩ := e
  cases a with
  | getJson k => rw [(exec_getJson he).1]
  | getJsonWithEtag k => rw [(exec_getJsonWithEtag he).1]
  | putJson k v =>
    rcases exec_putJson he with ⟨-, rfl⟩ | ⟨rfl, -⟩
    · exact active_put_of_not_writesIndex w v hw
    · rfl
  | putJsonConditional k v c =>
    rcases exec_putJsonConditional he with ⟨-, -, rfl⟩ | ⟨rfl, -⟩
    · refine active_put_of_not_writesIndex w v ?_
      cases k with
      | index id => exact hw
      | version id versionId => rfl
    · rfl
  | other x =>
    obtain ⟨o, rest, -, rfl⟩ := exec_other he
    rfl

end Pointer

section Resolver

variable {configId : String}

/-- Any answer. -/
abbrev AnyAnswer : ActionPredicate Err Answer := fun _ _ => True

/-- The index is written past a read that found no version active only. -/
def Careful (configId : String) : ActionPredicate Err Answer :=
  fun h e => writesIndex configId e.action = true → HasFoundUnset configId h

/-- What makes no write of the index is careful. -/
theorem careful_of_uses {α : Type} {p : Prog α} (hp : p.Uses fun a => writesIndex configId a = false)
    (h : History Err Answer) : Ensures AnyAnswer (Careful configId) (fun _ _ => True) p h := by
  refine Ensures.of_uses (I := fun _ => True) hp (fun _ e ha _ _ => ⟨fun hw => ?_, trivial⟩) trivial
  rw [ha] at hw
  contradiction

/-- So is everything past such a read. -/
theorem careful_of_foundUnset {α : Type} (p : Prog α) {h : History Err Answer} (hf : HasFoundUnset configId h) :
    Ensures AnyAnswer (Careful configId) (fun _ _ => True) p h :=
  (Ensures.of_lasting (G := Careful configId) (I := HasFoundUnset configId) (fun _ e hf => hf.append e) (fun _ _ hf _ => hf) p hf).ending
    fun _ _ _ => trivial

/-- The resolver is careful. -/
theorem careful_resolve (configId : String) :
    Ensures AnyAnswer (Careful configId) (fun _ _ => True) (resolve configId) [] := by
  have hread : Ensures AnyAnswer (Careful configId)
      (fun h r => ∀ index, r = .ok index → index.activeVersionId = none → HasFoundUnset configId h)
      (getIndex configId) [] := by
    have hget : Ensures AnyAnswer (Careful configId)
        (fun h r => h = [⟨.getJson (.index configId), r⟩])
        (getJson (P := Payload) (.index configId) : Prog (Option AIConfigurationIndex)) [] := by
      refine .perform fun r _ => ⟨fun hw => ?_, rfl⟩
      contradiction
    refine hget.bind (fun h payload hq => .done fun index hi hnone => ?_) fun h e _ index hi => (nomatch hi)
    injection hi with hi
    refine ⟨⟨.getJson (.index configId), .ok payload⟩, ?_, ?_⟩
    · rw [hq]
      exact List.mem_singleton_self _
    · simp only [foundUnset, hi, hnone, decide_true, Option.isNone_none, Bool.and_self]
  have hinner : Ensures AnyAnswer (Careful configId) (fun _ _ => True) (resolveInner configId) [] := by
    refine hread.bind (fun h index hq => ?_) fun _ _ _ => trivial
    cases hactive : index.activeVersionId with
    | some active =>
      have hversion : (getVersion configId active).Uses fun a => writesIndex configId a = false :=
        Program.uses_perform rfl
      refine (careful_of_uses hversion h).bind (fun h version _ => ?_) fun _ _ _ => trivial
      cases version with
      | none => exact .done trivial
      | some version => exact .done trivial
    | none => exact careful_of_foundUnset _ (hq index rfl hactive)
  exact hinner.catchError (fun _ _ _ => trivial) fun _ _ _ => .done trivial

end Resolver

section Runs

variable {configId : String} {p q : ConfigPool} {ms : List ConfigMove}

/-- A pointer that was changed is set, and stays so. -/
theorem active_isSome_of_changesActive (hrun : Configures configId p ms q)
    (hkept : ∀ m ∈ ms, Kept configId m.source.world m.target.world) {m : ConfigMove} (hm : m ∈ ms)
    (hc : changesActive configId m = true) : (World.active configId q.world).isSome = true := by
  have hset : (World.active configId m.target.world).isSome = true := by
    unfold changesActive at hc
    rw [decide_eq_true_eq] at hc
    by_contra hnone
    rw [Bool.not_eq_true, Option.isSome_eq_false_iff, Option.isNone_iff_eq_none] at hnone
    have hbefore : World.active configId m.source.world ≠ none := fun h => hc (hnone.trans h.symm)
    have hkeep := (hkept m hm).active (Option.isSome_iff_ne_none.mpr hbefore)
    change (World.active configId m.target.world).isSome = true at hkeep
    rw [hnone] at hkeep
    contradiction
  exact (rely_since (kept_rely configId) hrun hkept hm).active hset

/-- Where the pointer is set after calls that found it unset, one of them
changed it. -/
theorem exists_changesActive (hrun : Configures configId p ms q) (hnone : World.active configId p.world = none)
    (hset : World.active configId q.world ≠ none) : ∃ m ∈ ms, changesActive configId m = true := by
  by_contra hno
  refine hset (hrun.world_invariant (I := fun w => World.active configId w = none) hnone fun m hm hw => ?_)
  by_contra hne
  refine hno ⟨m, hm, ?_⟩
  unfold changesActive
  rw [decide_eq_true_eq, hw]
  exact hne

/-- A resolver that changes the pointer has read it as unset, in a call before. -/
theorem earlier_foundUnset (hrun : Configures configId p ms q) (hidle : ∀ t, p.threads t = none) {ns rest : List ConfigMove}
    {m : ConfigMove} (hms : ms = ns ++ m :: rest) (hop : m.runner.operation = .resolve)
    (hc : changesActive configId m = true) :
    ∃ m₀ ∈ ns, m₀.thread = m.thread ∧ foundUnset configId m₀.event = true := by
  have hin : m ∈ ms := by
    rw [hms]
    exact List.mem_append_right _ List.mem_cons_self
  obtain ⟨hbefore, hallowed, -⟩ := hrun.split hms
  obtain ⟨next, hpath⟩ := path_of_move hrun hidle hin (a := m.event.action) (r := m.event.answer) rfl
  rw [hop] at hpath
  have hcode : Ensures AnyAnswer (Careful configId) (fun _ _ => True) (code configId .resolve) [] :=
    (careful_resolve configId).bind (fun _ _ _ => .done trivial) fun _ _ _ => trivial
  have hcareful := ((hcode.along hpath fun _ _ _ _ => trivial).1.of_act (r := m.event.answer) trivial).1
  have hwrites : writesIndex configId m.event.action = true := by
    by_contra hnot
    rw [Bool.not_eq_true] at hnot
    unfold changesActive at hc
    rw [decide_eq_true_eq] at hc
    exact hc (active_of_not_writesIndex hallowed.exec hnot)
  obtain ⟨e, he, hfound⟩ := hcareful hwrites
  obtain ⟨m₀, hm₀, ht, rfl⟩ := hbefore.move_of_past (hidle _) (runner_of_mem hrun hin) he
  exact ⟨m₀, hm₀, ht, hfound⟩

/-- Resolutions, creations, approvals and activations in any interleaving. That
a resolution changes the active version only where none is active, is that no
other call changes it between a resolution's reading an index without an active
version and that resolution's own change. -/
theorem bootstrap_respects_operators (hrun : Configures configId p ms q) (hidle : ∀ t, p.threads t = none) :
    (∀ m ∈ ms, m.runner.operation = .resolve → changesActive configId m = true →
      World.active configId m.source.world = none) ↔
    ∀ ns m₀ mid m rest, ms = ns ++ m₀ :: (mid ++ m :: rest) → m₀.thread = m.thread →
      m.runner.operation = .resolve → foundUnset configId m₀.event = true → changesActive configId m = true →
      ∀ m' ∈ mid, changesActive configId m' = false := by
  have hkept := kept_of_run hrun hidle
  constructor
  · intro hunset ns m₀ mid m rest hms _ hop _ hc m' hm'
    have hin : m ∈ ms := by
      rw [hms]
      exact List.mem_append_right _ (List.mem_cons_of_mem _ (List.mem_append_right _ List.mem_cons_self))
    obtain ⟨-, -, hafter⟩ := hrun.split hms
    obtain ⟨hmid, -, -⟩ := hafter.split rfl
    by_contra hchanged
    rw [Bool.not_eq_false] at hchanged
    have hkeptmid : ∀ m' ∈ mid, Kept configId m'.source.world m'.target.world := by
      intro m' hm'
      refine hkept m' ?_
      rw [hms]
      exact List.mem_append_right _ (List.mem_cons_of_mem _ (List.mem_append_left _ hm'))
    have hset := active_isSome_of_changesActive hmid hkeptmid hm' hchanged
    rw [hunset m hin hop hc] at hset
    contradiction
  · intro hbetween m hin hop hc
    obtain ⟨pre, rest, hpre⟩ := List.append_of_mem hin
    obtain ⟨m₀, hm₀, ht, hfound⟩ := earlier_foundUnset hrun hidle hpre hop hc
    obtain ⟨ns, mid, rfl⟩ := List.append_of_mem hm₀
    rw [List.append_assoc, List.cons_append] at hpre
    obtain ⟨-, hallowed, hafter⟩ := hrun.split hpre
    obtain ⟨hmid, -, -⟩ := hafter.split rfl
    by_contra hset
    obtain ⟨m', hm', hchanged⟩ := exists_changesActive hmid (active_of_foundUnset hallowed.exec hfound) hset
    rw [hbetween ns m₀ mid m rest hpre ht hop hfound hc m' hm'] at hchanged
    contradiction

/-- A resolver bootstraps the configuration, alone. -/
def bootstrapTurns : List Turn := .start 0 .resolve :: turns 0 11 "seed"

/-- The pool after that. -/
def bootstrappedPool : ConfigPool := (Pool.idle freshWorld).reached configurations (code "default") bootstrapTurns

/-- The call changed the active version from the first one to the second. -/
def replacesActive (configId : String) (old new : Option String) (m : ConfigMove) : Bool :=
  m.runner.operation = .resolve ∧ World.active configId m.source.world = old ∧ World.active configId m.target.world = new

theorem bootstrap_respects_operators_sample : ∃ ms, Configures "default" (Pool.idle freshWorld) ms bootstrappedPool ∧
    (∃ m ∈ ms, replacesActive "default" none (some "seed") m = true) ∧
    ∀ ns m₀ mid m rest, ms = ns ++ m₀ :: (mid ++ m :: rest) → m₀.thread = m.thread →
      m.runner.operation = .resolve → foundUnset "default" m₀.event = true → changesActive "default" m = true →
      ∀ m' ∈ mid, changesActive "default" m' = false := by
  have hdriven : ((Pool.idle freshWorld : ConfigPool).drive configurations (code "default") bootstrapTurns).isSome = true := by
    decide +kernel
  have hrun := Run.reached hdriven
  have hunset : ∀ m ∈ (Pool.idle freshWorld : ConfigPool).moves configurations (code "default") bootstrapTurns,
      m.runner.operation = .resolve → changesActive "default" m = true →
        World.active "default" m.source.world = none := by decide +kernel
  have hactivates : ∃ m ∈ (Pool.idle freshWorld : ConfigPool).moves configurations (code "default") bootstrapTurns,
      replacesActive "default" none (some "seed") m = true := by decide +kernel
  exact ⟨_, hrun, hactivates, (bootstrap_respects_operators hrun fun _ => rfl).mp hunset⟩

/-- A resolver reads the index, an operator creates and activates a version,
and then the resolver goes on. -/
def overtakenTurns : List Turn :=
  .start 0 .resolve :: turns 0 1 "seed" ++ .start 1 (.createVersion (sampleRequest "a")) :: turns 1 4 "now" ++
    .start 2 (.rollback "a" "operator" "release") :: turns 2 4 "now" ++ turns 0 10 "seed"

/-- The pool after that. -/
def overtakenPool : ConfigPool := (Pool.idle freshWorld).reached configurations (code "default") overtakenTurns

/-- The resolver replaces what the operator activated. -/
theorem bootstrap_undoes_operator : ∃ ms, Configures "default" (Pool.idle freshWorld) ms overtakenPool ∧
    (∃ m ∈ ms, replacesActive "default" (some "a") (some "seed") m = true) ∧
    World.active "default" overtakenPool.world = some "seed" := by
  have hdriven : ((Pool.idle freshWorld : ConfigPool).drive configurations (code "default") overtakenTurns).isSome = true := by
    decide +kernel
  have hreplaced : ∃ m ∈ (Pool.idle freshWorld : ConfigPool).moves configurations (code "default") overtakenTurns,
      replacesActive "default" (some "a") (some "seed") m = true := by decide +kernel
  have hactive : World.active "default" overtakenPool.world = some "seed" := by decide +kernel
  exact ⟨_, Run.reached hdriven, hreplaced, hactive⟩

end Runs

end RagSystem.ConfigurationBootstrap
