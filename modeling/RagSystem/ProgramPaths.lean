import RagSystem.RelyGuarantee

/-!
# Paths through atomic programs

What a thread has performed is a path through its operation's program, and
what it has left is where that path ends. Which calls came before a call, and
which answers led to a result, can be read off the program.
-/

namespace RagSystem.ProgramPaths

open AtomicProgram ThreadPool RelyGuarantee

set_option autoImplicit false

variable {Ω σ ε O α β A : Type} {B : A → Type}

section Paths

/-- `Path p h p'`: after performing `h`, `p` has `p'` left. -/
inductive Path : Program ε B α → History ε B → Program ε B α → Prop where
  /-- Nothing is performed yet. -/
  | refl (p : Program ε B α) : Path p [] p
  /-- One action, then the rest. -/
  | act {a : A} {next : Except ε (B a) → Program ε B α} {r : Except ε (B a)} {h : History ε B}
      {p : Program ε B α} (hrest : Path (next r) h p) : Path (.act a next) (⟨a, r⟩ :: h) p

/-- One action more. -/
theorem Path.snoc {p : Program ε B α} {h : History ε B} {a : A} {next : Except ε (B a) → Program ε B α}
    (hp : Path p h (.act a next)) (r : Except ε (B a)) : Path p (h ++ [⟨a, r⟩]) (next r) := by
  generalize hq : Program.act a next = q at hp
  induction hp with
  | refl p =>
    subst hq
    exact .act (.refl _)
  | act _ ih => exact .act (ih hq)

/-- A returned value is the end. -/
theorem Path.of_done {a : α} {h : History ε B} {p : Program ε B α} (hp : Path (.done a) h p) :
    h = [] ∧ p = .done a := by
  cases hp with
  | refl => exact ⟨rfl, rfl⟩

/-- So is an exception. -/
theorem Path.of_raise {e : ε} {h : History ε B} {p : Program ε B α} (hp : Path (.raise e) h p) :
    h = [] ∧ p = .raise e := by
  cases hp with
  | refl => exact ⟨rfl, rfl⟩

/-- A program that begins with an action has not begun, has got its answer and
gone on, or has got an exception and raises it. -/
theorem Path.of_perform {a : A} {f : B a → Program ε B α} {h : History ε B} {p : Program ε B α}
    (hp : Path ((perform a).bind f) h p) :
    (h = [] ∧ p = (perform a).bind f) ∨ (∃ b h', h = ⟨a, .ok b⟩ :: h' ∧ Path (f b) h' p) ∨
      ∃ e, h = [⟨a, .error e⟩] ∧ p = .raise e := by
  cases hp with
  | refl => exact .inl ⟨rfl, rfl⟩
  | @act _ _ r h' _ hrest =>
    cases r with
    | ok b => exact .inr (.inl ⟨b, h', rfl, hrest⟩)
    | error e =>
      obtain ⟨rfl, rfl⟩ := Path.of_raise hrest
      exact .inr (.inr ⟨e, rfl, rfl⟩)

/-- A path that ends elsewhere than at the first action, and not in an
exception, has passed that action. -/
theorem Path.past_perform {a : A} {f : B a → Program ε B α} {h : History ε B} {p : Program ε B α}
    (hp : Path ((perform a).bind f) h p) (hact : ∀ next, p ≠ .act a next) (hraise : ∀ e, p ≠ .raise e) :
    ∃ b h', h = ⟨a, .ok b⟩ :: h' ∧ Path (f b) h' p := by
  rcases hp.of_perform with ⟨-, hp⟩ | hp | ⟨e, -, hp⟩
  · exact absurd hp (hact _)
  · exact hp
  · exact absurd hp (hraise e)

/-- A path performs only what its program uses. -/
theorem Path.uses {S : A → Prop} {p p' : Program ε B α} {h : History ε B} (hp : Path p h p') (hS : p.Uses S) :
    ∀ e ∈ h, S e.action := by
  induction hp with
  | refl p => exact fun _ he => (nomatch he)
  | act _ ih =>
    intro e he
    rcases List.mem_cons.mp he with rfl | he
    · exact hS.1
    · exact ih (hS.2 _) e he

/-- So is what it comes to. -/
theorem Path.next_uses {S : A → Prop} {p : Program ε B α} {h : History ε B} {a : A}
    {next : Except ε (B a) → Program ε B α} (hp : Path p h (.act a next)) (hS : p.Uses S) : S a := by
  generalize hq : Program.act a next = q at hp
  induction hp with
  | refl p =>
    subst hq
    exact hS.1
  | act _ ih => exact ih (hS.2 _) hq

/-- A path through a sequence is still in the first program, or that program
has returned. -/
theorem Path.of_bind {p : Program ε B α} {f : α → Program ε B β} {h : History ε B} {q : Program ε B β}
    (hp : Path (p.bind f) h q) : (∃ p', Path p h p' ∧ q = p'.bind f) ∨
      ∃ a h₁ h₂, h = h₁ ++ h₂ ∧ Path p h₁ (.done a) ∧ Path (f a) h₂ q := by
  induction p generalizing h with
  | done a => exact .inr ⟨a, [], h, rfl, .refl _, hp⟩
  | raise e =>
    obtain ⟨rfl, rfl⟩ := Path.of_raise hp
    exact .inl ⟨.raise e, .refl _, rfl⟩
  | act a next ih =>
    cases hp with
    | refl => exact .inl ⟨.act a next, .refl _, rfl⟩
    | @act _ _ r h' _ hrest =>
      rcases ih r hrest with ⟨p', hp', hq⟩ | ⟨b, h₁, h₂, rfl, hp', hq⟩
      · exact .inl ⟨p', .act hp', hq⟩
      · exact .inr ⟨b, ⟨a, r⟩ :: h₁, h₂, rfl, .act hp', hq⟩

/-- A path through a handled program is still in it, or it has raised. -/
theorem Path.of_catchError {p : Program ε B α} {f : ε → Program ε B α} {h : History ε B} {q : Program ε B α}
    (hp : Path (p.catchError f) h q) : (∃ p', Path p h p' ∧ q = p'.catchError f) ∨
      ∃ e h₁ h₂, h = h₁ ++ h₂ ∧ Path p h₁ (.raise e) ∧ Path (f e) h₂ q := by
  induction p generalizing h with
  | done a =>
    obtain ⟨rfl, rfl⟩ := Path.of_done hp
    exact .inl ⟨.done a, .refl _, rfl⟩
  | raise e => exact .inr ⟨e, [], h, rfl, .refl _, hp⟩
  | act a next ih =>
    cases hp with
    | refl => exact .inl ⟨.act a next, .refl _, rfl⟩
    | @act _ _ r h' _ hrest =>
      rcases ih r hrest with ⟨p', hp', hq⟩ | ⟨e, h₁, h₂, rfl, hp', hq⟩
      · exact .inl ⟨p', .act hp', hq⟩
      · exact .inr ⟨e, ⟨a, r⟩ :: h₁, h₂, rfl, .act hp', hq⟩

/-- A path through a program whose value is only mapped is one through that
program. -/
theorem Path.of_map {p : Program ε B α} {g : α → β} {h : History ε B} {q : Program ε B β}
    (hp : Path (p.bind fun a => .done (g a)) h q) : ∃ p', Path p h p' ∧ q = p'.bind fun a => .done (g a) := by
  induction p generalizing h with
  | done a =>
    obtain ⟨rfl, rfl⟩ := Path.of_done hp
    exact ⟨.done a, .refl _, rfl⟩
  | raise e =>
    obtain ⟨rfl, rfl⟩ := Path.of_raise hp
    exact ⟨.raise e, .refl _, rfl⟩
  | act a next ih =>
    cases hp with
    | refl => exact ⟨.act a next, .refl _, rfl⟩
    | @act _ _ r _ _ hrest =>
      obtain ⟨p', hpath, rfl⟩ := ih r hrest
      exact ⟨p', .act hpath, rfl⟩

end Paths

section Ends

/-- A value that is only mapped. -/
theorem of_map_done {p : Program ε B α} {g : α → β} {b : β} (h : (p.bind fun a => .done (g a)) = .done b) :
    ∃ a, p = .done a ∧ g a = b := by
  cases p with
  | done a =>
    injection h with h
    exact ⟨a, rfl, h⟩
  | raise e => contradiction
  | act a next => contradiction

/-- An exception passes. -/
theorem of_map_raise {p : Program ε B α} {g : α → β} {e : ε} (h : (p.bind fun a => .done (g a)) = .raise e) :
    p = .raise e := by
  cases p with
  | done a => contradiction
  | raise e' =>
    injection h with h
    rw [h]
  | act a next => contradiction

/-- The next action is the same. -/
theorem of_map_act {p : Program ε B α} {g : α → β} {a : A} {next : Except ε (B a) → Program ε B β}
    (h : (p.bind fun a => .done (g a)) = .act a next) : ∃ next', p = .act a next' := by
  cases p with
  | done a => contradiction
  | raise e => contradiction
  | act a' next' =>
    injection h with h _
    subst h
    exact ⟨next', rfl⟩

/-- A thread that has returned has a value left. -/
theorem program_of_ok {th : Thread O ε B α} {a : α} (h : th.result = some (.ok a)) : th.program = .done a := by
  unfold Thread.result at h
  split at h
  · next b hb =>
    injection h with h
    injection h with h
    rw [hb, h]
  · cases h
  · contradiction

/-- A thread that has raised has an exception left. -/
theorem program_of_error {th : Thread O ε B α} {e : ε} (h : th.result = some (.error e)) : th.program = .raise e := by
  unfold Thread.result at h
  split at h
  · cases h
  · next e' he =>
    injection h with h
    injection h with h
    rw [he, h]
  · contradiction

end Ends

section Runs

variable {M : Machine Ω σ ε B} {code : O → Program ε B α} {p q : Pool σ O ε B α} {ms : List (Move σ O ε B α)}

/-- What a thread of a run has performed is a path through its program. -/
theorem path_of_thread (hrun : Run M code p ms q) (hidle : ∀ t, p.threads t = none) {t : ℕ}
    {th : Thread O ε B α} (hth : q.threads t = some th) : Path (code th.operation) th.past th.program := by
  induction hrun generalizing t th with
  | refl =>
    rw [hidle t] at hth
    contradiction
  | @start q ms _ u o _ ih =>
    by_cases hu : t = u
    · subst hu
      simp only [Pool.start, Function.update_self, Option.some.injEq] at hth
      subst hth
      exact .refl _
    · simp only [Pool.start, Function.update_of_ne hu] at hth
      exact ih hth
  | @move ms m _ hm ih =>
    cases hm with
    | @act q u th₀ a next r w hthread hprogram hstep =>
      by_cases hu : t = u
      · subst hu
        simp only [Pool.advance, Function.update_self, Option.some.injEq] at hth
        subst hth
        have hpath := ih hthread
        rw [hprogram] at hpath
        exact hpath.snoc r
      · simp only [Pool.advance, Function.update_of_ne hu] at hth
        exact ih hth

/-- The runner of a move is in its source. -/
theorem runner_of_mem (hrun : Run M code p ms q) {m : Move σ O ε B α} (hm : m ∈ ms) :
    m.source.threads m.thread = some m.runner := by
  obtain ⟨hallowed, -⟩ := hrun.of_mem hm
  cases hallowed with
  | act hthread _ _ => exact hthread

/-- A move is the next action on a path through its operation's program. -/
theorem path_of_move (hrun : Run M code p ms q) (hidle : ∀ t, p.threads t = none) {m : Move σ O ε B α} (hm : m ∈ ms)
    {a : A} {r : Except ε (B a)} (he : m.event = ⟨a, r⟩) :
    ∃ next, Path (code m.runner.operation) m.runner.past (.act a next) := by
  obtain ⟨hallowed, ns, -, hbefore⟩ := hrun.of_mem hm
  cases hallowed with
  | @act q u th a' next r' w hthread hprogram hstep =>
    cases he
    have hpath := path_of_thread hbefore hidle hthread
    rw [hprogram] at hpath
    exact ⟨next, hpath⟩

/-- What every move does to the state, it does from the end of each move on. -/
theorem rely_since {R : σ → σ → Prop} (hR : IsRely R) (hrun : Run M code p ms q)
    (hmoves : ∀ m ∈ ms, R m.source.world m.target.world) {m : Move σ O ε B α} (hm : m ∈ ms) :
    R m.target.world q.world := by
  induction hrun with
  | refl => contradiction
  | start _ _ _ _ ih => exact ih hmoves hm
  | @move ms m' _ hm' ih =>
    rcases List.mem_append.mp hm with hold | hnew
    · have hbefore := ih (fun m hm => hmoves m (List.mem_append_left _ hm)) hold
      exact hR.trans hbefore (hmoves m' (List.mem_append_right _ (List.mem_singleton_self _)))
    · rw [List.mem_singleton.mp hnew]
      exact hR.refl _

/-- Whatever the runner of a move had performed, an earlier move performed. -/
theorem earlier_move (hrun : Run M code p ms q) (hidle : ∀ t, p.threads t = none) {m : Move σ O ε B α} (hm : m ∈ ms)
    {e : Event ε B} (he : e ∈ m.runner.past) : ∃ ns m', ns <+: ms ∧ Run M code p ns m.source ∧ m' ∈ ns ∧
      m'.thread = m.thread ∧ m'.event = e := by
  obtain ⟨-, ns, hns, hbefore⟩ := hrun.of_mem hm
  obtain ⟨m', hm', ht, he'⟩ := hbefore.move_of_past (hidle _) (runner_of_mem hrun hm) he
  exact ⟨ns, m', hns, hbefore, hm', ht, he'⟩

/-- What holds of every move held of everything in a thread's past, when it was
performed. -/
theorem forall_past (hrun : Run M code p ms q) (hidle : ∀ t, p.threads t = none) {P : History ε B → Event ε B → Prop}
    (hP : ∀ m ∈ ms, P m.runner.past m.event) {t : ℕ} {th : Thread O ε B α} (hth : q.threads t = some th) :
    ∀ h e es, th.past = h ++ e :: es → P h e := by
  induction hrun generalizing t th with
  | refl =>
    rw [hidle t] at hth
    contradiction
  | @start q ms _ u o _ ih =>
    by_cases hu : t = u
    · subst hu
      simp only [Pool.start, Function.update_self, Option.some.injEq] at hth
      subst hth
      exact fun _ _ _ he => absurd he (by simp)
    · simp only [Pool.start, Function.update_of_ne hu] at hth
      exact ih hP hth
  | @move ms m _ hm ih =>
    have hbefore : ∀ {t th}, m.source.threads t = some th → ∀ h e es, th.past = h ++ e :: es → P h e :=
      ih fun m hm => hP m (List.mem_append_left _ hm)
    have hlast := hP m (List.mem_append_right _ (List.mem_singleton_self _))
    cases hm with
    | @act q u th₀ a next r w hthread hprogram hstep =>
      by_cases hu : t = u
      · subst hu
        simp only [Pool.advance, Function.update_self, Option.some.injEq] at hth
        subst hth
        intro h e es he
        rcases List.eq_nil_or_concat es with rfl | ⟨es', e', rfl⟩
        · obtain ⟨rfl, hlastevent⟩ := List.append_inj' he rfl
          cases hlastevent
          exact hlast
        · rw [List.concat_eq_append, ← List.cons_append, ← List.append_assoc] at he
          obtain ⟨hinit, -⟩ := List.append_inj' he rfl
          exact hbefore hthread h e es' hinit
      · simp only [Pool.advance, Function.update_of_ne hu] at hth
        exact hbefore hth

/-- An earlier move of the same thread is in a move's past. -/
theorem mem_past_of_earlier (hrun : Run M code p ms q) {ns rest : List (Move σ O ε B α)} {m m' : Move σ O ε B α}
    (hms : ms = ns ++ m :: rest) (hm' : m' ∈ ns) (hthread : m'.thread = m.thread) : m'.event ∈ m.runner.past := by
  obtain ⟨hbefore, -, -⟩ := hrun.split hms
  have hm : m ∈ ms := by
    rw [hms]
    exact List.mem_append_right _ List.mem_cons_self
  have hpast := hbefore.past_eq m.thread
  rw [Pool.pastOf, runner_of_mem hrun hm, Option.map_some, Option.getD_some] at hpast
  rw [hpast]
  refine List.mem_append_right _ (List.mem_map_of_mem ?_)
  exact List.mem_filter.mpr ⟨hm', decide_eq_true hthread⟩

/-- What a thread performed first, it had performed at each of its later moves. -/
theorem first_mem_past (hrun : Run M code p ms q) {m : Move σ O ε B α} (hm : m ∈ ms) {th : Thread O ε B α}
    (hth : q.threads m.thread = some th) {e : Event ε B} {h : History ε B} (hpast : th.past = e :: h)
    (hne : m.event ≠ e) : e ∈ m.runner.past := by
  obtain ⟨th', hth', -, hkept⟩ := hrun.runner_kept hm
  rw [hth, Option.some.injEq] at hth'
  rw [← hth', hpast] at hkept
  cases hold : m.runner.past with
  | nil =>
    rw [hold, List.nil_append, List.cons_prefix_cons] at hkept
    exact absurd hkept.1 hne
  | cons e' h' =>
    rw [hold, List.cons_append, List.cons_prefix_cons] at hkept
    rw [hkept.1]
    exact List.mem_cons_self

end Runs

end RagSystem.ProgramPaths
