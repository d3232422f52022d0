import Mathlib.Data.Nat.Notation
import Mathlib.Logic.Function.Basic
import RagSystem.AtomicProgram

/-!
# Interleaved programs over one shared state

A pool holds the shared state and any number of threads, each the remaining
program of one operation and the actions that operation performed so far.
A run starts operations at any time and lets any thread perform its next
action; the moves of a run are kept in order, each with the pools around it.
-/

namespace RagSystem.ThreadPool

open AtomicProgram

variable {Ω σ ε O α A : Type} {B : A → Type}

/-- One operation in progress, or finished. -/
structure Thread (O ε : Type) {A : Type} (B : A → Type) (α : Type) where
  /-- The operation this thread was started for. -/
  operation : O
  /-- The actions it has performed. -/
  past : History ε B
  /-- What is left to do. -/
  program : Program ε B α

/-- A thread that has returned or raised. -/
def Thread.Finished (th : Thread O ε B α) : Prop :=
  match th.program with
  | .act _ _ => False
  | _ => True

instance (th : Thread O ε B α) : Decidable th.Finished :=
  match h : th.program with
  | .done _ => isTrue (by simp only [Thread.Finished, h])
  | .raise _ => isTrue (by simp only [Thread.Finished, h])
  | .act _ _ => isFalse (by simp only [Thread.Finished, h, not_false_eq_true])

/-- How a finished thread ended. -/
def Thread.result (th : Thread O ε B α) : Option (Except ε α) :=
  match th.program with
  | .done a => some (.ok a)
  | .raise e => some (.error e)
  | .act _ _ => none

/-- The shared state and the threads, by thread number. -/
structure Pool (σ O ε : Type) {A : Type} (B : A → Type) (α : Type) where
  /-- The state every thread acts on. -/
  world : σ
  /-- The threads started so far. -/
  threads : ℕ → Option (Thread O ε B α)

/-- The pool in which no operation has been started. -/
def Pool.idle (w : σ) : Pool σ O ε B α := ⟨w, fun _ => none⟩

/-- The pool once thread `t` has been started for operation `o`. -/
def Pool.start (p : Pool σ O ε B α) (t : ℕ) (o : O) (program : Program ε B α) : Pool σ O ε B α :=
  { p with threads := Function.update p.threads t (some ⟨o, [], program⟩) }

/-- The pool once thread `t`, which was `th`, has performed `e` and has `next` left. -/
def Pool.advance (p : Pool σ O ε B α) (t : ℕ) (th : Thread O ε B α) (e : Event ε B)
    (next : Program ε B α) (w : σ) : Pool σ O ε B α :=
  ⟨w, Function.update p.threads t (some ⟨th.operation, th.past ++ [e], next⟩)⟩

/-- No operation is in progress. -/
def Pool.AtRest (p : Pool σ O ε B α) : Prop :=
  ∀ t th, p.threads t = some th → th.Finished

/-- One action of one thread, with the pools before and after it. -/
structure Move (σ O ε : Type) {A : Type} (B : A → Type) (α : Type) where
  /-- The pool the action was performed in. -/
  source : Pool σ O ε B α
  /-- The pool it led to. -/
  target : Pool σ O ε B α
  /-- The number of the acting thread. -/
  thread : ℕ
  /-- The acting thread before the action. -/
  runner : Thread O ε B α
  /-- The action and its answer. -/
  event : Event ε B

section Runs

variable (M : Machine Ω σ ε B) (code : O → Program ε B α)

/-- A move the machine allows: the runner's next action, answered. -/
inductive Move.Allowed : Move σ O ε B α → Prop where
  /-- Thread `t` of `p` performs its next action `a` and gets `r`. -/
  | act {p : Pool σ O ε B α} {t : ℕ} {th : Thread O ε B α} {a : A}
      {next : Except ε (B a) → Program ε B α} {r : Except ε (B a)} {w : σ}
      (hthread : p.threads t = some th) (hprogram : th.program = .act a next)
      (hstep : M.Exec ⟨a, r⟩ p.world w) :
      Allowed ⟨p, p.advance t th ⟨a, r⟩ (next r) w, t, th, ⟨a, r⟩⟩

/-- The machine performed the event of an allowed move. -/
theorem Move.Allowed.exec {m : Move σ O ε B α} (h : m.Allowed M) :
    M.Exec m.event m.source.world m.target.world := by
  cases h with
  | act _ _ hstep => exact hstep

/-- `Run M code p ms q`: from `p`, starting operations and performing the
moves `ms` in order leads to `q`. -/
inductive Run : Pool σ O ε B α → List (Move σ O ε B α) → Pool σ O ε B α → Prop where
  /-- Nothing has happened yet. -/
  | refl (p : Pool σ O ε B α) : Run p [] p
  /-- An operation is started under an unused thread number. -/
  | start {p q : Pool σ O ε B α} {ms : List (Move σ O ε B α)} (hrun : Run p ms q) (t : ℕ) (o : O)
      (hfree : q.threads t = none) : Run p ms (q.start t o (code o))
  /-- A thread performs its next action. -/
  | move {p : Pool σ O ε B α} {ms : List (Move σ O ε B α)} {m : Move σ O ε B α}
      (hrun : Run p ms m.source) (hm : m.Allowed M) : Run p (ms ++ [m]) m.target

variable {M code}

/-- Runs compose. -/
theorem Run.trans {p q r : Pool σ O ε B α} {ms ns : List (Move σ O ε B α)}
    (h : Run M code p ms q) (h' : Run M code q ns r) : Run M code p (ms ++ ns) r := by
  induction h' with
  | refl => simpa only [List.append_nil] using h
  | start _ t o hfree ih => exact .start ih t o hfree
  | move _ hm ih =>
    rw [← List.append_assoc]
    exact .move ih hm

/-- A thread number in use stays in use, for the same operation, and its
history only grows. -/
theorem Run.thread_grows {p q : Pool σ O ε B α} {ms : List (Move σ O ε B α)}
    (h : Run M code p ms q) {t : ℕ} {th : Thread O ε B α} (ht : p.threads t = some th) :
    ∃ th', q.threads t = some th' ∧ th'.operation = th.operation ∧ th.past <+: th'.past := by
  induction h with
  | refl => exact ⟨th, ht, rfl, List.prefix_refl _⟩
  | @start q ms _ u o hfree ih =>
    obtain ⟨th', ht', ho, hp⟩ := ih
    refine ⟨th', ?_, ho, hp⟩
    have hne : t ≠ u := by rintro rfl; rw [hfree] at ht'; contradiction
    simpa only [Pool.start, Function.update_of_ne hne] using ht'
  | move _ hm ih =>
    obtain ⟨th', ht', ho, hp⟩ := ih
    cases hm with
    | @act q u th₀ a next r w hthread hprogram hstep =>
      by_cases hu : t = u
      · subst hu
        rw [hthread, Option.some.injEq] at ht'
        subst ht'
        refine ⟨⟨th₀.operation, th₀.past ++ [⟨a, r⟩], next r⟩, ?_, ho, hp.trans (List.prefix_append _ _)⟩
        simp only [Pool.advance, Function.update_self]
      · exact ⟨th', by simpa only [Pool.advance, Function.update_of_ne hu] using ht', ho, hp⟩

/-- Every move of a run is allowed, and the run reached its source by an
initial part of the moves. -/
theorem Run.of_mem {p q : Pool σ O ε B α} {ms : List (Move σ O ε B α)} (h : Run M code p ms q)
    {m : Move σ O ε B α} (hm : m ∈ ms) :
    m.Allowed M ∧ ∃ ns, ns <+: ms ∧ Run M code p ns m.source := by
  induction h with
  | refl => contradiction
  | start _ _ _ _ ih => exact ih hm
  | @move ms m' hrun hm' ih =>
    rcases List.mem_append.mp hm with hin | hin
    · obtain ⟨ha, ns, hns, hr⟩ := ih hin
      exact ⟨ha, ns, hns.trans (List.prefix_append _ _), hr⟩
    · rw [List.mem_singleton] at hin
      subst hin
      exact ⟨hm', ms, List.prefix_append _ _, hrun⟩

/-- A run can be cut at any of its moves. -/
theorem Run.split {p q : Pool σ O ε B α} {ms : List (Move σ O ε B α)} (h : Run M code p ms q)
    {ms₁ ms₂ : List (Move σ O ε B α)} {m : Move σ O ε B α} (hms : ms = ms₁ ++ m :: ms₂) :
    Run M code p ms₁ m.source ∧ m.Allowed M ∧ Run M code m.target ms₂ q := by
  induction h generalizing ms₂ with
  | refl =>
    have hin : m ∈ ([] : List (Move σ O ε B α)) := by
      rw [hms]
      exact List.mem_append_right _ List.mem_cons_self
    contradiction
  | start _ t o hfree ih =>
    obtain ⟨hbefore, hallowed, hafter⟩ := ih hms
    exact ⟨hbefore, hallowed, .start hafter t o hfree⟩
  | @move ms m' hrun hm' ih =>
    rcases List.eq_nil_or_concat ms₂ with rfl | ⟨ms₂', m'', rfl⟩
    · obtain ⟨rfl, hlast⟩ := List.append_inj' hms rfl
      cases hlast
      exact ⟨hrun, hm', .refl _⟩
    · rw [List.concat_eq_append, ← List.cons_append, ← List.append_assoc] at hms
      obtain ⟨hinit, hlast⟩ := List.append_inj' hms rfl
      cases hlast
      obtain ⟨hbefore, hallowed, hafter⟩ := ih hinit
      rw [List.concat_eq_append]
      exact ⟨hbefore, hallowed, .move hafter hm'⟩

/-- The state a run ends in is the one it started from or the one its last
move led to. -/
theorem Run.visited {p q : Pool σ O ε B α} {ms : List (Move σ O ε B α)} (h : Run M code p ms q) :
    q.world = p.world ∨ ∃ m ∈ ms, q.world = m.target.world := by
  induction h with
  | refl => exact .inl rfl
  | start _ _ _ _ ih => exact ih
  | move _ _ _ => exact .inr ⟨_, List.mem_append_right _ (List.mem_singleton_self _), rfl⟩

/-- The thread of a move is there ever after, for the operation it ran then,
and its history still begins with what it had done then. -/
theorem Run.runner_kept {p q : Pool σ O ε B α} {ms : List (Move σ O ε B α)}
    (h : Run M code p ms q) {m : Move σ O ε B α} (hm : m ∈ ms) :
    ∃ th, q.threads m.thread = some th ∧ th.operation = m.runner.operation ∧
      m.runner.past ++ [m.event] <+: th.past := by
  induction h with
  | refl => contradiction
  | @start q ms _ u o hfree ih =>
    obtain ⟨th, ht, ho, hp⟩ := ih hm
    obtain ⟨th', ht', ho', hp'⟩ := (Run.start (.refl q) u o hfree : Run M code _ _ _).thread_grows ht
    exact ⟨th', ht', ho'.trans ho, hp.trans hp'⟩
  | move _ hm' ih =>
    rcases List.mem_append.mp hm with hin | hin
    · obtain ⟨th, ht, ho, hp⟩ := ih hin
      obtain ⟨th', ht', ho', hp'⟩ := (Run.move (.refl _) hm' : Run M code _ _ _).thread_grows ht
      exact ⟨th', ht', ho'.trans ho, hp.trans hp'⟩
    · rw [List.mem_singleton] at hin
      subst hin
      cases hm' with
      | @act q u th a next r w =>
        refine ⟨⟨th.operation, th.past ++ [⟨a, r⟩], next r⟩, ?_, rfl, List.prefix_refl _⟩
        simp only [Pool.advance, Function.update_self]

/-- The first event of a thread that had done nothing is that of a move. -/
theorem Run.first_move {p q : Pool σ O ε B α} {ms : List (Move σ O ε B α)} (h : Run M code p ms q)
    {t : ℕ} {th th' : Thread O ε B α} (ht : p.threads t = some th) (hnew : th.past = [])
    (ht' : q.threads t = some th') {e : Event ε B} {es : History ε B} (hpast : th'.past = e :: es) :
    ∃ m ∈ ms, m.thread = t ∧ m.runner.past = [] ∧ m.event = e := by
  induction h generalizing th' es with
  | refl =>
    rw [ht, Option.some.injEq] at ht'
    rw [← ht', hnew] at hpast
    contradiction
  | @start q ms hrun u o hfree ih =>
    obtain ⟨th₀, ht₀, -⟩ := hrun.thread_grows ht
    have hne : t ≠ u := by
      rintro rfl
      rw [hfree] at ht₀
      contradiction
    have hkept : q.threads t = some th' := by simpa only [Pool.start, Function.update_of_ne hne] using ht'
    exact ih hkept hpast
  | move _ hm ih =>
    cases hm with
    | @act q u th₀ a next r w hthread hprogram hstep =>
      by_cases hu : u = t
      · subst hu
        simp only [Pool.advance, Function.update_self, Option.some.injEq] at ht'
        rw [← ht'] at hpast
        cases hth : th₀.past with
        | nil =>
          rw [hth, List.nil_append, List.cons.injEq] at hpast
          exact ⟨_, List.mem_append_right _ (List.mem_singleton_self _), rfl, hth, hpast.1⟩
        | cons e₀ es₀ =>
          rw [hth, List.cons_append, List.cons.injEq] at hpast
          obtain ⟨m, hin, hrest⟩ := ih hthread (hpast.1 ▸ hth)
          exact ⟨m, List.mem_append_left _ hin, hrest⟩
      · simp only [Pool.advance, Function.update_of_ne (Ne.symm hu)] at ht'
        obtain ⟨m, hin, hrest⟩ := ih ht' hpast
        exact ⟨m, List.mem_append_left _ hin, hrest⟩

/-- What the thread with this number has performed, nothing if there is none. -/
def Pool.pastOf (p : Pool σ O ε B α) (t : ℕ) : History ε B := ((p.threads t).map Thread.past).getD []

/-- A thread's history over a run: what it had, then the events of its moves. -/
theorem Run.past_eq {p q : Pool σ O ε B α} {ms : List (Move σ O ε B α)} (h : Run M code p ms q)
    (t : ℕ) : q.pastOf t = p.pastOf t ++ (ms.filter fun m => m.thread = t).map Move.event := by
  induction h with
  | refl => simp only [List.filter_nil, List.map_nil, List.append_nil]
  | @start q ms _ u o hfree ih =>
    rw [← ih]
    by_cases hu : t = u
    · subst hu
      simp only [Pool.pastOf, Pool.start, Function.update_self, hfree, Option.map_some, Option.map_none,
        Option.getD_some, Option.getD_none]
    · simp only [Pool.pastOf, Pool.start, Function.update_of_ne hu]
  | move _ hm ih =>
    cases hm with
    | @act q u th a next r w hthread hprogram hstep =>
      rw [List.filter_append, List.map_append, ← List.append_assoc, ← ih]
      by_cases hu : u = t
      · subst hu
        simp only [Pool.pastOf, Pool.advance, Function.update_self, hthread, Option.map_some,
          Option.getD_some, decide_true, List.filter_cons_of_pos, List.filter_nil, List.map_cons,
          List.map_nil]
      · have hne : t ≠ u := fun he => hu he.symm
        simp only [Pool.pastOf, Pool.advance, Function.update_of_ne hne, hu, decide_false,
          Bool.false_eq_true, not_false_eq_true, List.filter_cons_of_neg, List.filter_nil, List.map_nil,
          List.append_nil]

/-- Whatever a thread started in a run has performed, a move of the run
performed. -/
theorem Run.move_of_past {p q : Pool σ O ε B α} {ms : List (Move σ O ε B α)} (h : Run M code p ms q)
    {t : ℕ} (hfree : p.threads t = none) {th : Thread O ε B α} (hth : q.threads t = some th) {e : Event ε B}
    (he : e ∈ th.past) : ∃ m ∈ ms, m.thread = t ∧ m.event = e := by
  have hpast := h.past_eq t
  simp only [Pool.pastOf, hfree, hth, Option.map_some, Option.map_none, Option.getD_some, Option.getD_none,
    List.nil_append] at hpast
  rw [hpast, List.mem_map] at he
  obtain ⟨m, hm, hme⟩ := he
  rw [List.mem_filter, decide_eq_true_eq] at hm
  exact ⟨m, hm.1, hm.2, hme⟩

/-- What every move keeps, and starting an operation cannot break, holds at
the end of a run. -/
theorem Run.world_invariant {p q : Pool σ O ε B α} {ms : List (Move σ O ε B α)}
    (h : Run M code p ms q) {I : σ → Prop} (h0 : I p.world)
    (hkeep : ∀ m ∈ ms, I m.source.world → I m.target.world) : I q.world := by
  induction h with
  | refl => exact h0
  | start _ _ _ _ ih => exact ih hkeep
  | move _ _ ih =>
    have hs := ih fun m hm => hkeep m (List.mem_append_left _ hm)
    exact hkeep _ (List.mem_append_right _ (List.mem_singleton_self _)) hs

end Runs

/-- A scheduler's choice. -/
inductive Command (Ω O A : Type) where
  /-- Start an operation. -/
  | start (t : ℕ) (o : O)
  /-- Let a thread perform its next action, whatever it is, under a policy. -/
  | step (t : ℕ) (policy : A → Ω)

section Drive

variable (M : Machine Ω σ ε B) (code : O → Program ε B α)

/-- Carry out one scheduler choice, if it is possible. -/
def Pool.command (p : Pool σ O ε B α) : Command Ω O A → Option (Pool σ O ε B α)
  | .start t o =>
    match p.threads t with
    | none => some (p.start t o (code o))
    | some _ => none
  | .step t policy =>
    match p.threads t with
    | none => none
    | some th =>
      match th.program with
      | .act a next =>
        match M a (policy a) p.world with
        | none => none
        | some (r, w) => some (p.advance t th ⟨a, r⟩ (next r) w)
      | _ => none

/-- Carry out a whole schedule. -/
def Pool.drive : Pool σ O ε B α → List (Command Ω O A) → Option (Pool σ O ε B α)
  | p, [] => some p
  | p, c :: cs =>
    match p.command M code c with
    | none => none
    | some q => q.drive cs

/-- The moves a whole schedule makes, as far as it can be carried out. -/
def Pool.moves : Pool σ O ε B α → List (Command Ω O A) → List (Move σ O ε B α)
  | _, [] => []
  | p, .start t o :: cs => (p.start t o (code o)).moves cs
  | p, .step t policy :: cs =>
    match p.threads t with
    | none => []
    | some th =>
      match th.program with
      | .act a next =>
        match M a (policy a) p.world with
        | none => []
        | some (r, w) =>
          ⟨p, p.advance t th ⟨a, r⟩ (next r) w, t, th, ⟨a, r⟩⟩ :: (p.advance t th ⟨a, r⟩ (next r) w).moves cs
      | _ => []

variable {M code}

/-- A computed schedule is a run. -/
theorem Run.of_drive {p q r : Pool σ O ε B α} {ms : List (Move σ O ε B α)}
    (h : Run M code p ms q) {cs : List (Command Ω O A)} (hc : q.drive M code cs = some r) :
    Run M code p (ms ++ q.moves M code cs) r := by
  induction cs generalizing q ms with
  | nil =>
    simp only [Pool.drive, Option.some.injEq] at hc
    subst hc
    simpa only [Pool.moves, List.append_nil] using h
  | cons c cs ih =>
    simp only [Pool.drive] at hc
    split at hc
    · contradiction
    · next q' hq =>
      cases c with
      | start t o =>
        simp only [Pool.command] at hq
        split at hq
        · next hfree =>
          cases hq
          exact ih (.start h t o hfree) hc
        · contradiction
      | step t policy =>
        simp only [Pool.command] at hq
        split at hq
        · contradiction
        · next th hth =>
          split at hq
          · next a next hprog =>
            split at hq
            · contradiction
            · next res w hstep =>
              cases hq
              have hrun := ih (.move h (.act hth hprog ⟨policy a, hstep⟩)) hc
              simpa only [Pool.moves, hth, hprog, hstep, List.append_assoc, List.singleton_append] using hrun
          · contradiction

variable (M code)

/-- The pool a whole schedule leads to, if it can be carried out. -/
def Pool.reached (p : Pool σ O ε B α) (cs : List (Command Ω O A)) : Pool σ O ε B α := (p.drive M code cs).getD p

variable {M code}

/-- A schedule that can be carried out is a run to where it leads. -/
theorem Run.reached {p : Pool σ O ε B α} {cs : List (Command Ω O A)} (h : (p.drive M code cs).isSome = true) :
    Run M code p (p.moves M code cs) (p.reached M code cs) := by
  obtain ⟨q, hq⟩ := Option.isSome_iff_exists.mp h
  have heq : p.reached M code cs = q := by rw [Pool.reached, hq, Option.getD_some]
  rw [heq]
  exact Run.of_drive (.refl p) hq

/-- The thread a scheduler's choice starts. -/
def Command.started : Command Ω O A → Option ℕ
  | .start t _ => some t
  | .step _ _ => none

/-- A thread number that no choice starts stays unused. -/
theorem Pool.threads_of_drive {p q : Pool σ O ε B α} {cs : List (Command Ω O A)} {t : ℕ} (hfree : p.threads t = none)
    (hcs : ∀ c ∈ cs, c.started ≠ some t) (hc : p.drive M code cs = some q) : q.threads t = none := by
  induction cs generalizing p with
  | nil =>
    simp only [Pool.drive, Option.some.injEq] at hc
    rw [← hc]
    exact hfree
  | cons c cs ih =>
    simp only [Pool.drive] at hc
    split at hc
    · contradiction
    · next p' hp' =>
      have hne := hcs c List.mem_cons_self
      refine ih ?_ (fun c hc => hcs c (List.mem_cons_of_mem _ hc)) hc
      cases c with
      | start u o =>
        have hu : t ≠ u := fun he => hne (congrArg some he.symm)
        simp only [Pool.command] at hp'
        split at hp'
        · cases hp'
          simp only [Pool.start, Function.update_of_ne hu]
          exact hfree
        · contradiction
      | step u policy =>
        simp only [Pool.command] at hp'
        split at hp'
        · contradiction
        · next th hth =>
          have hu : t ≠ u := by
            rintro rfl
            rw [hfree] at hth
            contradiction
          split at hp'
          · split at hp'
            · contradiction
            · cases hp'
              simp only [Pool.advance, Function.update_of_ne hu]
              exact hfree
          · contradiction

/-- A schedule whose threads have all finished leads to rest. -/
theorem Pool.atRest_reached {p : Pool σ O ε B α} {cs : List (Command Ω O A)} {n : ℕ} (hidle : ∀ t, p.threads t = none)
    (h : (p.drive M code cs).isSome = true) (hstarted : ∀ c ∈ cs, ∀ t ∈ c.started, t < n)
    (hfinished : ∀ t < n, ∀ th ∈ (p.reached M code cs).threads t, th.Finished) : (p.reached M code cs).AtRest := by
  intro t th hth
  by_cases ht : t < n
  · exact hfinished t ht th hth
  · obtain ⟨q, hq⟩ := Option.isSome_iff_exists.mp h
    have hfree := Pool.threads_of_drive (hidle t) (fun c hc he => ht (hstarted c hc t he)) hq
    rw [Pool.reached, hq, Option.getD_some, hfree] at hth
    contradiction

end Drive

end RagSystem.ThreadPool
