import RagSystem.RecordCaches

/-!
# The read gate and the canonical record

The gate asks `get_document`, which trusts a cached record that is indexed,
failed or deleted. It agrees with the stored record as long as the copies its
process trusts publish what the stored records publish, and this can be told
from the single steps of a run.
-/

namespace RagSystem.ReadGate

open AtomicProgram ThreadPool RelyGuarantee VersionedCell Storage DocumentModels DocumentStore
  DocumentService CallEffects StoreCalls LegalWrites RecordCaches

set_option autoImplicit false

section Gate

/-- The version process `p` takes for the published one. -/
def gateVersion (w : World) (p : ProcessId) (d : DocumentId) : Option Version :=
  publishedVersionOf (copyOf w p d)

/-- Nobody's answer is another, and no record. -/
structure SameView (w w' : World) : Prop where
  /-- The answers of `get_document`. -/
  copy : copyOf w' = copyOf w
  /-- The records. -/
  record : w'.record = w.record

variable {w : World} {p : ProcessId}

/-- The gate's look-up alone: the process's version, unless a call failed. -/
theorem activeVersionFor_alone (hkeyed : ∀ d r, w.record d = some r → r.id = d) (d : DocumentId)
    (h : History Err Answer) :
    Sat Happens (fun _ _ _ _ => True) Eq (fun h res w' => Failed h ∨ SameView w w' ∧
      res = .ok (gateVersion w p d)) (activeVersionFor p d) h w := by
  have hget := getDocument_alone (w := w) (p := p) (d := d) h
  refine Sat.catchError .eq (hget.bind (P := fun h res w' => Failed h ∨ SameView w w' ∧
    res = .ok (gateVersion w p d)) .eq (fun h r w' hq => ?_) fun h e w' hq => ?_) (fun _ _ _ hq => hq)
    fun h e w' hq => ?_
  · rintro _ rfl
    rcases hq.2 with heq | ⟨-, hf⟩
    · rw [Except.ok.injEq] at heq
      refine .inr ⟨⟨?_, record_loaded hq.1⟩, by rw [heq]; rfl⟩
      funext p' d'
      exact copyOf_loaded hkeyed hq.1 p' d'
    · exact .inl hf
  · rcases hq.2 with heq | ⟨-, hf⟩
    · contradiction
    · exact .inl hf
  · rintro _ rfl
    rcases hq with hf | ⟨-, heq⟩
    · exact .inl hf
    · contradiction

/-- The gate alone: it keeps the hits of the versions the process takes for
published, in order, unless a call failed. -/
theorem filterLoop_alone (hits : List RetrievalHit) {active : List (DocumentId × Option Version)}
    (hkeyed : ∀ d r, w.record d = some r → r.id = d)
    (hactive : ∀ d v, active.lookup d = some v → v = gateVersion w p d) (h : History Err Answer) :
    Sat Happens (fun _ _ _ _ => True) Eq (fun h res _ => Failed h ∨
      res = .ok (hits.filter fun hit => gateVersion w p hit.chunk.documentId = some hit.chunk.version))
      (filterLoop p active hits) h w := by
  induction hits generalizing w active h with
  | nil =>
    rintro _ rfl
    exact .inr rfl
  | cons hit hits ih =>
    have hlook : Sat Happens (fun _ _ _ _ => True) Eq (fun h res w' => Failed h ∨ SameView w w' ∧
        res = .ok (gateVersion w p hit.chunk.documentId)) (activeByDoc p active hit.chunk.documentId) h w := by
      unfold activeByDoc
      cases hl : active.lookup hit.chunk.documentId with
      | some v =>
        rintro _ rfl
        exact .inr ⟨⟨rfl, rfl⟩, by rw [hactive _ _ hl]⟩
      | none => exact activeVersionFor_alone hkeyed _ h
    refine hlook.bind .eq (fun h v w' hq => ?_) fun h e w' hq => ?_
    · rcases hq with hf | ⟨hsame, hv⟩
      · exact (Sat.of_past (P := Failed) (fun _ _ hf => hf.append _) _ hf).ending fun _ _ _ => .inl
      · rw [Except.ok.injEq] at hv
        subst hv
        have hgate : gateVersion w' p = gateVersion w p := by
          funext d
          unfold gateVersion
          rw [hsame.copy]
        have hkeyed' : ∀ d r, w'.record d = some r → r.id = d := by
          rw [hsame.record]
          exact hkeyed
        refine (ih hkeyed' ?_ h).bind .eq (fun h kept w'' hq => ?_) fun h e w'' hq => ?_
        · intro d v hlookup
          rw [hgate]
          rw [List.lookup_cons] at hlookup
          split at hlookup
          · next heq =>
            rw [Option.some.injEq] at hlookup
            rw [← hlookup, eq_of_beq heq]
          · exact hactive d v hlookup
        · rintro _ rfl
          rcases hq with hf | hkept
          · exact .inl hf
          · rw [Except.ok.injEq, hgate] at hkept
            refine .inr (congrArg Except.ok ?_)
            rw [List.filter_cons, hkept]
            split <;> split <;> simp_all
        · rcases hq with hf | heq
          · exact .inl hf
          · contradiction
    · rcases hq with hf | ⟨-, heq⟩
      · exact .inl hf
      · contradiction

/-- The calls the gate makes. -/
def GateCall : Action → Prop
  | .getJson _ => True
  | .other (.cacheGet _ _) => True
  | .other (.cachePut _ _) => True
  | _ => False

/-- Each of them can succeed. -/
theorem gateCall_succeeds (a : Action) (ha : GateCall a) (w : World) :
    ∃ b w', service.Exec ⟨a, .ok b⟩ w w' := by
  unfold GateCall at ha
  split at ha
  · exact ⟨_, _, .proceed, rfl⟩
  · exact ⟨_, _, .other .proceed, rfl⟩
  · exact ⟨_, _, .other .proceed, rfl⟩
  · contradiction

/-- The gate makes only those calls. -/
theorem uses_filterLoop (p : ProcessId) (hits : List RetrievalHit)
    (active : List (DocumentId × Option Version)) : (filterLoop p active hits).Uses GateCall := by
  induction hits generalizing active with
  | nil => trivial
  | cons hit hits ih =>
    refine Program.Uses.bind ?_ fun v => (ih _).bind fun _ => trivial
    unfold activeByDoc
    split
    · trivial
    · refine Program.Uses.catchError (Program.Uses.bind (uses_getDocument trivial trivial fun _ => trivial) fun _ => ?_) fun _ => ?_
      · trivial
      · trivial

/-- The hits whose version the stored record of their document publishes. -/
def publishedHits (w : World) (hits : List RetrievalHit) : List RetrievalHit :=
  hits.filter fun hit => publishedVersionOf (w.record hit.chunk.documentId) = some hit.chunk.version

/-- The gate of process `p` agrees with the stored records: for all hits, with
no call failing, it returns, and what it returns are the hits of the published
versions, in order, none of them of a deleted document. -/
def Agrees (p : ProcessId) (w : World) : Prop := ∀ hits,
  (∃ es r w', Outcome service (filterToActiveVersions p hits) w es r w' ∧ ¬ Failed es) ∧
  ∀ es r w', Outcome service (filterToActiveVersions p hits) w es r w' → ¬ Failed es →
    r = .ok (publishedHits w hits) ∧
    ∀ hit ∈ publishedHits w hits, ∀ record, w.record hit.chunk.documentId = some record →
      record.status ≠ .deleted

/-- Nothing of a deleted document is published. -/
theorem status_of_published {r : DocumentRecord} {v : Version}
    (h : publishedVersionOf (some r) = some v) : r.status ≠ .deleted := by
  intro hdel
  simp only [publishedVersionOf, hdel, if_true, reduceCtorEq] at h

/-- The gate returns what its process takes for published. -/
theorem gate_outcome (hkeyed : ∀ d r, w.record d = some r → r.id = d) {hits : List RetrievalHit}
    {es : History Err Answer} {r : Except Err (List RetrievalHit)} {w' : World}
    (ho : Outcome service (filterToActiveVersions p hits) w es r w') (hok : ¬ Failed es) :
    r = .ok (hits.filter fun hit => gateVersion w p hit.chunk.documentId = some hit.chunk.version) := by
  have hnone (d : DocumentId) (v : Option Version) (hv : List.lookup d [] = some v) : v = gateVersion w p d := by
    contradiction
  have hsat := filterLoop_alone hits hkeyed hnone []
  rcases hsat.outcome (fun _ => rfl) ho with hf | heq
  · exact absurd hf hok
  · exact heq

/-- The gate agrees exactly where its process takes for published what is. -/
theorem agrees_iff_gateVersion (hkeyed : ∀ d r, w.record d = some r → r.id = d) :
    Agrees p w ↔ ∀ d, gateVersion w p d = publishedVersionOf (w.record d) := by
  constructor
  · intro h d
    -- the gate's answer to a hit of `d` of any version tells what it takes for published
    have hone (v : Version) : gateVersion w p d = some v ↔ publishedVersionOf (w.record d) = some v := by
      let hit : RetrievalHit := ⟨⟨⟨d, v, 0, ""⟩, d, v, ""⟩, 0, ""⟩
      obtain ⟨⟨es, r, w', ho, hok⟩, hall⟩ := h [hit]
      have heq := (hall es r w' ho hok).1
      rw [gate_outcome hkeyed ho hok, Except.ok.injEq, publishedHits] at heq
      by_cases hg : gateVersion w p d = some v <;>
        by_cases hp : publishedVersionOf (w.record d) = some v <;>
        simp_all [hit]
    cases hg : gateVersion w p d with
    | some v => exact ((hone v).mp hg).symm
    | none =>
      cases hp : publishedVersionOf (w.record d) with
      | none => rfl
      | some v =>
        rw [(hone v).mpr hp] at hg
        contradiction
  · intro h hits
    refine ⟨exists_outcome gateCall_succeeds (uses_filterLoop p hits []) w, fun es r w' ho hok => ⟨?_, ?_⟩⟩
    · rw [gate_outcome hkeyed ho hok]
      simp only [h, publishedHits]
    · intro hit hhit record hrecord
      have hp := (List.mem_filter.mp hhit).2
      rw [hrecord, decide_eq_true_eq] at hp
      exact status_of_published hp

end Gate

section Steps

/-- The copies process `p` trusts publish what the stored records publish. -/
def Synced (p : ProcessId) (w : World) : Prop :=
  ∀ d c, trustedCopy (w.rest.cache p d) = some c → publishedVersionOf (some c) = publishedVersionOf (w.record d)

/-- Where only stored documents are cached, the gate agrees exactly when its
process's trusted copies are in step. -/
theorem agrees_iff_synced {w : World} {p : ProcessId} (hw : Grounded w) : Agrees p w ↔ Synced p w := by
  rw [agrees_iff_gateVersion hw.keyed]
  constructor
  · intro h d c hc
    have hd := h d
    rw [gateVersion, copyOf, hc] at hd
    exact hd
  · intro h d
    unfold gateVersion copyOf
    cases hc : trustedCopy (w.rest.cache p d) with
    | some c => exact h d c hc
    | none =>
      cases hr : w.record d with
      | some r => rfl
      | none =>
        cases hcached : w.rest.cache p d with
        | none => rfl
        | some c =>
          have hsome := (hw.cached p d c hcached).2
          rw [hr] at hsome
          contradiction

/-- The condition on one call, told from the state before it: a record write
publishes what the copy that process `p` trusts publishes, and a record that
process `p` caches for good publishes what is stored. -/
def InStep (p : ProcessId) (e : CallEvent) (w : World) : Prop :=
  (∀ d r, recordWritten e = some (d, r) → ∀ c, trustedCopy (w.rest.cache p d) = some c →
    publishedVersionOf (some c) = publishedVersionOf (some r)) ∧
  ∀ r, recordCached e = some (p, r) → r.status.terminal = true →
    publishedVersionOf (some r) = publishedVersionOf (w.record r.id)

variable {e : CallEvent} {w w' : World} {p : ProcessId}

/-- A call writes a record, or caches one, or does neither. -/
theorem written_or_cached (e : CallEvent) : recordWritten e = none ∨ recordCached e = none := by
  obtain ⟨a, r⟩ := e
  cases a with
  | other x => exact .inl rfl
  | _ => exact .inr rfl

/-- From a state in step, a call leads to one exactly under the condition. -/
theorem synced_step (h : service.Exec e w w') (hs : Synced p w) : Synced p w' ↔ InStep p e w := by
  constructor
  · intro hs'
    constructor
    · intro d r hr c hc
      have hcache : recordCached e = none := (written_or_cached e).resolve_left (by rw [hr]; nofun)
      have hnew := hs' d c (by rw [cache_of_exec h, hcache]; exact hc)
      rw [record_of_exec h, hr] at hnew
      simpa only [if_true] using hnew
    · intro r hr hterminal
      have hwritten : recordWritten e = none := (written_or_cached e).resolve_right (by rw [hr]; nofun)
      have hnew := hs' r.id r (by
        rw [cache_of_exec h, hr]
        simp only [and_self, if_true, trustedCopy, Option.filter_some, hterminal])
      rw [record_of_exec h, hwritten] at hnew
      exact hnew
  · rintro ⟨hwrite, hput⟩ d c hc
    rw [record_of_exec h]
    rw [cache_of_exec h] at hc
    cases hw : recordWritten e with
    | some x =>
      obtain ⟨d', r⟩ := x
      have hcache : recordCached e = none := (written_or_cached e).resolve_left (by rw [hw]; nofun)
      rw [hcache] at hc
      dsimp only
      by_cases hd : d = d'
      · rw [if_pos hd]
        exact hwrite d' r hw c (hd ▸ hc)
      · rw [if_neg hd]
        exact hs d c hc
    | none =>
      dsimp only
      cases hr : recordCached e with
      | none =>
        rw [hr] at hc
        exact hs d c hc
      | some x =>
        obtain ⟨p', r⟩ := x
        rw [hr] at hc
        dsimp only at hc
        by_cases hp : p = p' ∧ d = r.id
        · rw [if_pos hp, trustedCopy, Option.filter_eq_some_iff, Option.some.injEq] at hc
          obtain ⟨rfl, hterminal⟩ := hc
          rw [hp.2]
          exact hput r (by rw [hr, hp.1]) hterminal
        · rw [if_neg hp] at hc
          exact hs d c hc

end Steps

section Runs

variable {settings : Settings} {start q : ServicePool} {ms : List ServiceMove} {p : ProcessId}

/-- A state a run went through. -/
def Visited (start : ServicePool) (ms : List ServiceMove) (w : World) : Prop :=
  w = start.world ∨ ∃ m ∈ ms, w = m.target.world

/-- In a run of processes that start with empty caches, the gate of process `p`
agrees with the stored records in every state exactly if every call of the run
is in step with what `p` trusts. -/
theorem gate_agrees_iff (hidle : ∀ t, start.threads t = none) (hcold : Cold start.world)
    (h : ServiceRun settings start ms q) :
    (∀ w, Visited start ms w → Agrees p w) ↔ ∀ m ∈ ms, InStep p m.event m.source.world := by
  have hground (ns : List ServiceMove) (s : ServicePool) (hs : ServiceRun settings start ns s) :
      Grounded s.world := grounded_of_run hs hidle hcold.grounded
  have htarget (m : ServiceMove) (hm : m ∈ ms) : Grounded m.target.world := by
    obtain ⟨ha, ns, -, hs⟩ := h.of_mem hm
    exact hground _ _ (.move hs ha)
  constructor
  · intro hagree m hm
    obtain ⟨ha, ns, hpre, hs⟩ := h.of_mem hm
    have hsource : Agrees p m.source.world := by
      rcases hs.visited with heq | ⟨m', hm', heq⟩
      · exact hagree _ (.inl heq)
      · exact hagree _ (.inr ⟨m', hpre.subset hm', heq⟩)
    refine (synced_step ha.exec ((agrees_iff_synced (hground _ _ hs)).mp hsource)).mp ?_
    exact (agrees_iff_synced (htarget m hm)).mp (hagree _ (.inr ⟨m, hm, rfl⟩))
  · intro hstep
    have hstart : Synced p start.world := by
      intro d c hc
      rw [hcold.2] at hc
      contradiction
    have hkeep (m : ServiceMove) (hm : m ∈ ms) (hs : Synced p m.source.world) : Synced p m.target.world :=
      (synced_step (h.of_mem hm).1.exec hs).mpr (hstep m hm)
    rintro w (rfl | ⟨m, hm, rfl⟩)
    · exact (agrees_iff_synced hcold.grounded).mpr hstart
    · obtain ⟨-, ns, hpre, hs⟩ := h.of_mem hm
      have hsource := hs.world_invariant hstart fun m' hm' => hkeep m' (hpre.subset hm')
      exact (agrees_iff_synced (htarget m hm)).mpr (hkeep m hm hsource)

theorem gate_agrees_iff_sample : ∃ ms, ServiceRun sampleSettings (Pool.idle World.empty) ms
      (after (Pool.idle World.empty) ingestTurns) ∧
    ((∀ w, Visited (Pool.idle World.empty) ms w → Agrees 0 w) ↔
      ∀ m ∈ ms, InStep 0 m.event m.source.world) := by
  have hms := run_after (Pool.idle World.empty) ingestTurns (by decide +kernel)
  exact ⟨_, hms, gate_agrees_iff (fun _ => rfl) cold_empty hms⟩

/-- The first attempt of the ingestion fails in the parser, process 0 reads the
failed record, and the redelivered job succeeds. -/
def retriedTurns : List Turn :=
  uploadTurns ++ .start 1 (.processDocumentJob 1 firstJob) :: turns 1 7 "a" "i" ++ .step 1 faulty ::
    turns 1 7 "a" "i" ++
  .start 2 (.getDocument 0 "d") :: turns 2 3 "a" "i" ++
  .start 3 (.processDocumentJob 1 firstJob) :: turns 3 28 "a" "j"

/-- After that run, with nothing in progress, the gate of process 0 disagrees. -/
theorem gate_disagrees_after_retry : ∃ ms q, ServiceRun sampleSettings (Pool.idle World.empty) ms q ∧
    ¬ Agrees 0 q.world := by
  have hms := run_after (Pool.idle World.empty) retriedTurns (by decide +kernel)
  refine ⟨_, _, hms, fun hagree => ?_⟩
  have hgate := (agrees_iff_gateVersion (grounded_of_run hms (fun _ => rfl) cold_empty.grounded).keyed).mp hagree "d"
  have hne : gateVersion (after (Pool.idle World.empty) retriedTurns).world 0 "d" ≠
      publishedVersionOf ((after (Pool.idle World.empty) retriedTurns).world.record "d") := by decide +kernel
  exact hne hgate

end Runs

end RagSystem.ReadGate
