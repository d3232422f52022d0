import Mathlib.Algebra.Order.Group.Multiset
import Mathlib.Tactic.Abel

/-!
# Bounded buffers and flush workers

A worker drains a buffer, plans batches, writes each and puts back what the
store refused with an exception. Captures go on meanwhile, and a shutdown can
start a second flush beside one that hangs. An entry is accounted for as long
as a write that comes back without an exception has kept it.
-/

namespace RagSystem.FlushWorkers

set_option autoImplicit false

section Buffer

/-- `BoundedBuffer`, with its counter of dropped entries. -/
structure BoundedBuffer (α : Type) (capacity : ℕ) where
  /-- `_items`. -/
  items : List α
  /-- The counter `_dropped_metric`. -/
  dropped : ℕ
  /-- It never holds more than its capacity. -/
  bounded : items.length ≤ capacity

variable {α : Type} {capacity : ℕ}

/-- `BoundedBuffer.add`: a full buffer drops the new entry and counts it. -/
def BoundedBuffer.add (buffer : BoundedBuffer α capacity) (item : α) : BoundedBuffer α capacity × Bool :=
  if h : capacity ≤ buffer.items.length then ({ buffer with dropped := buffer.dropped + 1 }, false)
  else
    ({ items := buffer.items ++ [item]
       dropped := buffer.dropped
       bounded := by rw [List.length_append, List.length_singleton]; omega }, true)

/-- `BoundedBuffer.drain`. -/
def BoundedBuffer.drain (buffer : BoundedBuffer α capacity) : List α × BoundedBuffer α capacity :=
  (buffer.items, { items := [], dropped := buffer.dropped, bounded := Nat.zero_le _ })

/-- What an `add` does: the entry joins the buffer or the count. -/
theorem BoundedBuffer.add_cases (buffer : BoundedBuffer α capacity) (item : α) :
    ((buffer.add item).1.items = buffer.items ∧ (buffer.add item).1.dropped = buffer.dropped + 1) ∨
      ((buffer.add item).1.items = buffer.items ++ [item] ∧ (buffer.add item).1.dropped = buffer.dropped) := by
  by_cases hfull : capacity ≤ buffer.items.length
  · left
    simp [BoundedBuffer.add, hfull]
  · right
    simp [BoundedBuffer.add, hfull]

end Buffer

section Worker

/-- How the transaction of a write ends. -/
inductive WriteOutcome where
  /-- It commits. -/
  | committed
  /-- It commits, and the connection fails before the answer. -/
  | lostReply
  /-- Nothing is written. -/
  | failed
  deriving DecidableEq

/-- `_FlushBatch`. -/
structure FlushBatch (α Payload : Type) where
  /-- What the store is given. -/
  payload : Payload
  /-- The buffer entries it was assembled from. -/
  sources : List α

/-- What a subclass of `_BaseFlushWorker` provides. -/
structure FlushWorker (α Payload Store : Type) where
  /-- `_plan`. -/
  plan : List α → List (FlushBatch α Payload)
  /-- `_persist_payload`: what it leaves, and whether it raised. -/
  persist : Store → Payload → WriteOutcome → Store × Bool

/-- A `flush_once` on its way. -/
structure Flush (α Payload : Type) where
  /-- The batches that are left. -/
  pending : List (FlushBatch α Payload)
  /-- `retained`. -/
  retained : List α
  /-- `persisted`. -/
  persisted : ℕ

/-- A buffer, its store and the flushes under way. -/
structure FlushState (α Payload Store : Type) (capacity : ℕ) where
  /-- The buffer. -/
  buffer : BoundedBuffer α capacity
  /-- The store. -/
  store : Store
  /-- The flushes under way. -/
  flushes : List (Flush α Payload)

/-- What can happen next. -/
inductive Event (α : Type) where
  /-- An entry is captured. -/
  | capture (entry : α)
  /-- A flush drains the buffer and plans. -/
  | drain
  /-- A flush writes its next batch. -/
  | persist (flush : ℕ) (outcome : WriteOutcome)
  /-- A flush puts back an entry it retained. -/
  | readd (flush : ℕ)
  /-- A flush returns. -/
  | done (flush : ℕ)

variable {α Payload Store : Type} {capacity : ℕ}

/-- `flush_once`, the next batch: an exception retains its sources. -/
def Flush.afterPersist (flush : Flush α Payload) (batch : FlushBatch α Payload) (rest : List (FlushBatch α Payload))
    (raised : Bool) : Flush α Payload where
  pending := rest
  retained := if raised then flush.retained ++ batch.sources else flush.retained
  persisted := if raised then flush.persisted else flush.persisted + 1

/-- One step; none where it does not apply. -/
def step (worker : FlushWorker α Payload Store) (state : FlushState α Payload Store capacity) :
    Event α → Option (FlushState α Payload Store capacity)
  | .capture entry => some { state with buffer := (state.buffer.add entry).1 }
  | .drain =>
    let (drained, buffer) := state.buffer.drain
    if drained = [] then some state
    else some { state with buffer := buffer, flushes := state.flushes ++ [⟨worker.plan drained, [], 0⟩] }
  | .persist i outcome => match state.flushes[i]? with
    | some flush => match flush.pending with
      | batch :: rest =>
        let (store, raised) := worker.persist state.store batch.payload outcome
        some { state with store := store, flushes := state.flushes.set i (flush.afterPersist batch rest raised) }
      | [] => none
    | none => none
  | .readd i => match state.flushes[i]? with
    | some flush => match flush.pending, flush.retained with
      | [], source :: retained =>
        some { state with
          buffer := (state.buffer.add source).1
          flushes := state.flushes.set i { flush with retained := retained } }
      | _, _ => none
    | none => none
  | .done i => match state.flushes[i]? with
    | some flush => if flush.pending.isEmpty && flush.retained.isEmpty then
        some { state with flushes := state.flushes.eraseIdx i }
      else none
    | none => none

/-- A run of events. -/
def run (worker : FlushWorker α Payload Store) (state : FlushState α Payload Store capacity) :
    List (Event α) → Option (FlushState α Payload Store capacity)
  | [] => some state
  | event :: events => (step worker state event).bind fun next => run worker next events

/-- What an event captures. -/
def Event.captured : Event α → List α
  | .capture entry => [entry]
  | _ => []

/-- What a run captures. -/
def captures (events : List (Event α)) : List α := events.flatMap Event.captured

/-- The outcome an event writes with. -/
def Event.Meets (fine : WriteOutcome → Prop) : Event α → Prop
  | .persist _ outcome => fine outcome
  | _ => True

end Worker

section Conservation

variable {α Payload Store : Type} {capacity : ℕ}

/-- What a flush has in its hands. -/
def Flush.held (flush : Flush α Payload) : List α := flush.pending.flatMap FlushBatch.sources ++ flush.retained

/-- Every captured entry is buffered, in the hands of a flush, kept by the store
or counted as dropped. -/
def Accounted (Kept : Store → List α → Prop) (captured : List α) (state : FlushState α Payload Store capacity) : Prop :=
  ∃ stored dropped : List α, Kept state.store stored ∧ dropped.length = state.buffer.dropped ∧
    captured.Perm (state.buffer.items ++ state.flushes.flatMap Flush.held ++ stored ++ dropped)

/-- What a plan and its writes owe for the entries of a run. -/
structure Contract (worker : FlushWorker α Payload Store) (Known : α → Prop) (fine : WriteOutcome → Prop)
    (Fair : FlushBatch α Payload → Prop) (Kept : Store → List α → Prop) : Prop where
  /-- The batches take all that was drained, each entry once. -/
  planned : ∀ drained, (∀ entry ∈ drained, Known entry) →
    ((worker.plan drained).flatMap FlushBatch.sources).Perm drained
  /-- A batch is about its sources. -/
  fair : ∀ drained, (∀ entry ∈ drained, Known entry) → ∀ batch ∈ worker.plan drained, Fair batch
  /-- A write that comes back has kept its sources. -/
  returned : ∀ {store stored batch outcome}, Kept store stored → Fair batch → fine outcome →
    (worker.persist store batch.payload outcome).2 = false →
      Kept (worker.persist store batch.payload outcome).1 (stored ++ batch.sources)
  /-- One that raises has kept what was there. -/
  raised : ∀ {store stored batch outcome}, Kept store stored → Fair batch → fine outcome →
    (worker.persist store batch.payload outcome).2 = true → Kept (worker.persist store batch.payload outcome).1 stored

/-- What holds in a run: the account, and the batches under way are fair. -/
structure Invariant (Known : α → Prop) (Fair : FlushBatch α Payload → Prop) (Kept : Store → List α → Prop)
    (captured : List α) (state : FlushState α Payload Store capacity) : Prop where
  /-- The account. -/
  accounted : Accounted Kept captured state
  /-- Only entries of the run were captured. -/
  known : ∀ entry ∈ captured, Known entry
  /-- The batches under way are fair. -/
  fair : ∀ flush ∈ state.flushes, ∀ batch ∈ flush.pending, Fair batch

/-- What one flush gives up shows in the whole. -/
theorem flatMap_set_perm {β γ : Type} {l : List β} {i : ℕ} {old : β} (f : β → List γ) (new : β) (h : l[i]? = some old) :
    (f old ++ (l.set i new).flatMap f).Perm (f new ++ l.flatMap f) := by
  induction l generalizing i with
  | nil => simp at h
  | cons head tail ih =>
    cases i with
    | zero =>
      have hhead : head = old := by simpa using h
      subst hhead
      simp only [List.set_cons_zero, List.flatMap_cons]
      exact List.perm_append_comm_assoc _ _ _
    | succ i =>
      have htail := ih (by simpa using h)
      simp only [List.set_cons_succ, List.flatMap_cons]
      have hleft := List.perm_append_comm_assoc (f old) (f head) ((tail.set i new).flatMap f)
      have hright := List.perm_append_comm_assoc (f head) (f new) (tail.flatMap f)
      exact (hleft.trans (htail.append_left (f head))).trans hright

theorem flatMap_eraseIdx {β γ : Type} {l : List β} {i : ℕ} {old : β} (f : β → List γ) (h : l[i]? = some old)
    (hempty : f old = []) : (l.eraseIdx i).flatMap f = l.flatMap f := by
  induction l generalizing i with
  | nil => simp at h
  | cons head tail ih =>
    cases i with
    | zero =>
      have hhead : head = old := by simpa using h
      simp [hhead, hempty]
    | succ i =>
      have htail := ih (by simpa using h)
      simp [htail]

/-- An entry that is offered to the buffer is in it or in the count. -/
theorem add_accounted (buffer : BoundedBuffer α capacity) (item : α) {dropped : List α}
    (hdropped : dropped.length = buffer.dropped) : ∃ dropped' : List α,
      dropped'.length = (buffer.add item).1.dropped ∧
        ((buffer.add item).1.items : Multiset α) + dropped' = {item} + (buffer.items + dropped) := by
  rcases buffer.add_cases item with ⟨hitems, hcount⟩ | ⟨hitems, hcount⟩
  · have hlength : (dropped ++ [item]).length = (buffer.add item).1.dropped := by
      rw [List.length_append, List.length_singleton, hcount, hdropped]
    refine ⟨dropped ++ [item], hlength, ?_⟩
    rw [hitems, ← Multiset.coe_add, Multiset.coe_singleton]
    abel
  · refine ⟨dropped, hdropped.trans hcount.symm, ?_⟩
    rw [hitems, ← Multiset.coe_add, Multiset.coe_singleton]
    abel

variable {worker : FlushWorker α Payload Store} {Known : α → Prop} {fine : WriteOutcome → Prop}
  {Fair : FlushBatch α Payload → Prop} {Kept : Store → List α → Prop} {captured : List α}
  {state state' : FlushState α Payload Store capacity} {event : Event α} {events : List (Event α)}

/-- The account as an equation of multisets. -/
theorem accounted_iff : Accounted Kept captured state ↔ ∃ stored dropped : List α, Kept state.store stored ∧
    dropped.length = state.buffer.dropped ∧
      (captured : Multiset α) = state.buffer.items + (state.flushes.flatMap Flush.held : List α) + stored + dropped := by
  simp only [Accounted, ← Multiset.coe_eq_coe, ← Multiset.coe_add]

/-- An entry beside the account is offered to the buffer. -/
theorem accounted_add (state : FlushState α Payload Store capacity) {item : α} {stored dropped : List α} (hkept : Kept state.store stored)
    (hdropped : dropped.length = state.buffer.dropped) (hcaptured : (captured : Multiset α) =
      {item} + (state.buffer.items + (state.flushes.flatMap Flush.held : List α) + stored + dropped)) :
    Accounted Kept captured { state with buffer := (state.buffer.add item).1 } := by
  obtain ⟨dropped', hcount, hadded⟩ := add_accounted state.buffer item hdropped
  refine accounted_iff.mpr ⟨stored, dropped', hkept, hcount, ?_⟩
  calc (captured : Multiset α)
      = ({item} + (state.buffer.items + dropped)) + (state.flushes.flatMap Flush.held : List α) + stored := by
        rw [hcaptured]
        abel
    _ = ((state.buffer.add item).1.items + dropped') + (state.flushes.flatMap Flush.held : List α) + stored := by
        rw [hadded]
    _ = (state.buffer.add item).1.items + (state.flushes.flatMap Flush.held : List α) + stored + dropped' := by abel

/-- What the flushes hold, when one of them has done something. -/
theorem held_set {flushes : List (Flush α Payload)} {i : ℕ} {flush flush' : Flush α Payload}
    (h : flushes[i]? = some flush) {sources : List α} (hheld : flush.held.Perm (sources ++ flush'.held)) :
    ((flushes.flatMap Flush.held : List α) : Multiset α) = sources + ((flushes.set i flush').flatMap Flush.held : List α) := by
  have hset := Multiset.coe_eq_coe.mpr (flatMap_set_perm Flush.held flush' h)
  have hflush := Multiset.coe_eq_coe.mpr hheld
  rw [← Multiset.coe_add] at hflush
  rw [← Multiset.coe_add, ← Multiset.coe_add, hflush] at hset
  refine add_left_cancel (a := (flush'.held : Multiset α)) ?_
  rw [← hset]
  abel

/-- A batch that was written is no longer in the hands of its flush; one that raised is. -/
theorem held_afterPersist {flush : Flush α Payload} {batch : FlushBatch α Payload} {rest : List (FlushBatch α Payload)}
    (hpending : flush.pending = batch :: rest) (raised : Bool) :
    flush.held.Perm ((if raised then [] else batch.sources) ++ (flush.afterPersist batch rest raised).held) := by
  cases raised with
  | true =>
    have hmoved : (batch.sources ++ (rest.flatMap FlushBatch.sources ++ flush.retained)).Perm
        (rest.flatMap FlushBatch.sources ++ (flush.retained ++ batch.sources)) := by
      rw [← List.append_assoc (rest.flatMap FlushBatch.sources)]
      exact List.perm_append_comm
    simpa [Flush.held, Flush.afterPersist, hpending] using hmoved
  | false => simp [Flush.held, Flush.afterPersist, hpending]

/-- Batches under way stay fair where a flush keeps some of its own. -/
theorem fair_set {flushes : List (Flush α Payload)} {i : ℕ} {flush flush' : Flush α Payload}
    (hfair : ∀ flush ∈ flushes, ∀ batch ∈ flush.pending, Fair batch) (h : flushes[i]? = some flush)
    (hpending : ∀ batch ∈ flush'.pending, batch ∈ flush.pending) :
    ∀ other ∈ flushes.set i flush', ∀ batch ∈ other.pending, Fair batch := by
  intro other hother batch hbatch
  rcases List.mem_or_eq_of_mem_set hother with hmem | heq
  · exact hfair other hmem batch hbatch
  · subst heq
    exact hfair flush (List.mem_of_getElem? h) batch (hpending batch hbatch)

/-- One step keeps the account. -/
theorem Contract.step (contract : Contract worker Known fine Fair Kept) (hinv : Invariant Known Fair Kept captured state)
    (hknown : ∀ entry ∈ event.captured, Known entry) (hfine : event.Meets fine)
    (h : FlushWorkers.step worker state event = some state') :
    Invariant Known Fair Kept (captured ++ event.captured) state' := by
  obtain ⟨stored, dropped, hkept, hdropped, hcaptured⟩ := accounted_iff.mp hinv.accounted
  cases event with
  | capture entry =>
    have hstate : { state with buffer := (state.buffer.add entry).1 } = state' := by simpa [FlushWorkers.step] using h
    subst hstate
    have hall : ∀ other ∈ captured ++ [entry], Known other := by
      intro other hother
      rcases List.mem_append.mp hother with hold | hnew
      · exact hinv.known other hold
      · exact hknown other hnew
    refine ⟨accounted_add state hkept hdropped ?_, hall, hinv.fair⟩
    rw [Event.captured, ← Multiset.coe_add, hcaptured, Multiset.coe_singleton]
    abel
  | drain =>
    have hsame : captured ++ (Event.drain : Event α).captured = captured := List.append_nil captured
    rw [hsame]
    by_cases hempty : state.buffer.items = []
    · have hstate : state = state' := by simpa [FlushWorkers.step, BoundedBuffer.drain, hempty] using h
      exact hstate ▸ hinv
    · have hstate : { state with
          buffer := state.buffer.drain.2
          flushes := state.flushes ++ [⟨worker.plan state.buffer.items, [], 0⟩] } = state' := by
        simpa [FlushWorkers.step, BoundedBuffer.drain, hempty] using h
      subst hstate
      have hdrained : ∀ entry ∈ state.buffer.items, Known entry := by
        intro entry hentry
        refine hinv.known entry (Multiset.mem_coe.mp ?_)
        rw [hcaptured]
        simp [hentry]
      have hplanned := Multiset.coe_eq_coe.mpr (contract.planned _ hdrained)
      refine ⟨accounted_iff.mpr ⟨stored, dropped, hkept, hdropped, ?_⟩, hinv.known, ?_⟩
      · simp only [BoundedBuffer.drain, List.flatMap_append, List.flatMap_singleton, Flush.held, List.append_nil,
          ← Multiset.coe_add, hplanned, hcaptured, Multiset.coe_nil]
        abel
      · intro flush hflush batch hbatch
        rcases List.mem_append.mp hflush with hold | hnew
        · exact hinv.fair flush hold batch hbatch
        · rw [List.mem_singleton.mp hnew] at hbatch
          exact contract.fair _ hdrained batch hbatch
  | persist i outcome =>
    have hsame : captured ++ (Event.persist i outcome : Event α).captured = captured := List.append_nil captured
    rw [hsame]
    simp only [FlushWorkers.step] at h
    split at h
    · rename_i flush hflush
      split at h
      · rename_i batch rest hpending
        have hstate := Option.some.inj h
        subst hstate
        have hfairBatch : Fair batch := hinv.fair flush (List.mem_of_getElem? hflush) batch (by simp [hpending])
        have hpend : ∀ raised, ∀ other ∈ (flush.afterPersist batch rest raised).pending, other ∈ flush.pending := by
          intro raised other hother
          rw [hpending]
          exact List.mem_cons_of_mem batch hother
        refine ⟨?_, hinv.known, fair_set hinv.fair hflush (hpend _)⟩
        have hheld := held_set hflush (held_afterPersist hpending (worker.persist state.store batch.payload outcome).2)
        cases hraised : (worker.persist state.store batch.payload outcome).2 with
        | true =>
          have hkept' := contract.raised hkept hfairBatch hfine hraised
          refine accounted_iff.mpr ⟨stored, dropped, hkept', hdropped, ?_⟩
          rw [hcaptured, hheld, hraised]
          simp
        | false =>
          have hkept' := contract.returned hkept hfairBatch hfine hraised
          refine accounted_iff.mpr ⟨stored ++ batch.sources, dropped, hkept', hdropped, ?_⟩
          rw [hcaptured, hheld, hraised, ← Multiset.coe_add]
          simp only [Bool.false_eq_true, if_false]
          abel
      · exact absurd h (by simp)
    · exact absurd h (by simp)
  | readd i =>
    have hsame : captured ++ (Event.readd i : Event α).captured = captured := List.append_nil captured
    rw [hsame]
    simp only [FlushWorkers.step] at h
    split at h
    · rename_i flush hflush
      split at h
      · rename_i source retained hpending hretained
        have hstate := Option.some.inj h
        subst hstate
        have hheld : flush.held.Perm ([source] ++ { flush with retained := retained }.held) := by
          simp [Flush.held, hpending, hretained]
        refine ⟨?_, hinv.known, fair_set hinv.fair hflush fun batch hbatch => hbatch⟩
        refine accounted_add { state with flushes := state.flushes.set i { flush with retained := retained } }
          hkept hdropped ?_
        rw [hcaptured, held_set hflush hheld, Multiset.coe_singleton]
        abel
      · exact absurd h (by simp)
    · exact absurd h (by simp)
  | done i =>
    have hsame : captured ++ (Event.done i : Event α).captured = captured := List.append_nil captured
    rw [hsame]
    simp only [FlushWorkers.step] at h
    split at h
    · rename_i flush hflush
      split at h
      · rename_i hempty
        have hstate := Option.some.inj h
        subst hstate
        have hheld : flush.held = [] := by
          have hboth : flush.pending = [] ∧ flush.retained = [] := by simpa using hempty
          simp [Flush.held, hboth.1, hboth.2]
        refine ⟨accounted_iff.mpr ⟨stored, dropped, hkept, hdropped, ?_⟩, hinv.known, ?_⟩
        · rw [hcaptured, flatMap_eraseIdx Flush.held hflush hheld]
        · exact fun other hother => hinv.fair other (List.mem_of_mem_eraseIdx hother)
      · exact absurd h (by simp)
    · exact absurd h (by simp)

/-- A run keeps the account. -/
theorem Contract.run (contract : Contract worker Known fine Fair Kept) (hinv : Invariant Known Fair Kept captured state)
    (hknown : ∀ entry ∈ captures events, Known entry) (hfine : ∀ event ∈ events, event.Meets fine)
    (h : FlushWorkers.run worker state events = some state') :
    Invariant Known Fair Kept (captured ++ captures events) state' := by
  induction events generalizing state captured with
  | nil =>
    have hstate : state = state' := Option.some.inj h
    rw [← hstate, captures, List.flatMap_nil, List.append_nil]
    exact hinv
  | cons event events ih =>
    obtain ⟨next, hstep, hrest⟩ := Option.bind_eq_some_iff.mp h
    have hparts : captures (event :: events) = event.captured ++ captures events := List.flatMap_cons
    rw [hparts] at hknown ⊢
    have hnext := contract.step hinv (fun entry hentry => hknown entry (List.mem_append_left _ hentry))
      (hfine event List.mem_cons_self) hstep
    have hend := ih hnext (fun entry hentry => hknown entry (List.mem_append_right _ hentry))
      (fun event hevent => hfine event (List.mem_cons_of_mem _ hevent)) hrest
    rwa [List.append_assoc] at hend

end Conservation

end RagSystem.FlushWorkers
