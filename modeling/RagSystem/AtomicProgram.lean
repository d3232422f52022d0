import Mathlib.Logic.Function.Basic

/-!
# Programs made of atomic actions

A program is a finite tree: it returns, raises, or performs one atomic action
and continues with that action's answer. Any number of programs can then be
interleaved action by action, and one program can be run alone. Nothing here
fixes what the actions are or what they do; a machine says that.
-/

namespace RagSystem.AtomicProgram

/-- A finite program over the actions `A`. Every action is answered either by
a result of type `B action` or by an exception of type `ε`. -/
inductive Program (ε : Type) {A : Type} (B : A → Type) (α : Type) : Type where
  /-- Return a value. -/
  | done (value : α)
  /-- Leave with an exception. -/
  | raise (error : ε)
  /-- Perform one atomic action and continue with its answer. -/
  | act (action : A) (next : Except ε (B action) → Program ε B α)

variable {ε A : Type} {B : A → Type} {α β γ : Type}

/-- Run a second program on the value of the first; exceptions pass through. -/
def Program.bind : Program ε B α → (α → Program ε B β) → Program ε B β
  | .done a, f => f a
  | .raise e, _ => .raise e
  | .act a next, f => .act a fun r => (next r).bind f

/-- Run a handler on the exception of a program; values pass through. -/
def Program.catchError : Program ε B α → (ε → Program ε B α) → Program ε B α
  | .done a, _ => .done a
  | .raise e, f => f e
  | .act a next, f => .act a fun r => (next r).catchError f

instance : Monad (Program ε B) where
  pure := .done
  bind := .bind

instance : MonadExcept ε (Program ε B) where
  throw := .raise
  tryCatch := .catchError

/-- Perform one action, returning its result or raising its exception. -/
def perform (a : A) : Program ε B (B a) :=
  .act a fun
    | .ok b => .done b
    | .error e => .raise e

@[simp] theorem pure_eq (a : α) : (pure a : Program ε B α) = .done a := rfl

@[simp] theorem throw_eq (e : ε) : (throw e : Program ε B α) = .raise e := rfl

@[simp] theorem bind_eq (p : Program ε B α) (f : α → Program ε B β) : p >>= f = p.bind f := rfl

@[simp] theorem tryCatch_eq (p : Program ε B α) (f : ε → Program ε B α) :
    tryCatch p f = p.catchError f := rfl

/-- Sequencing is associative, action by action. -/
theorem Program.bind_assoc (p : Program ε B α) (f : α → Program ε B β) (g : β → Program ε B γ) :
    (p.bind f).bind g = p.bind fun a => (f a).bind g := by
  induction p with
  | done a => rfl
  | raise e => rfl
  | act a next ih => exact congrArg (Program.act a) (funext ih)

/-- Returning the value of a program is that program. -/
theorem Program.bind_done (p : Program ε B α) : p.bind .done = p := by
  induction p with
  | done a => rfl
  | raise e => rfl
  | act a next ih => exact congrArg (Program.act a) (funext ih)

instance : LawfulMonad (Program ε B) :=
  LawfulMonad.mk' _ Program.bind_done (fun _ _ => rfl) Program.bind_assoc

/-- One performed action together with the answer it got. -/
structure Event (ε : Type) {A : Type} (B : A → Type) where
  /-- The action. -/
  action : A
  /-- Its result, or the exception it raised. -/
  answer : Except ε (B action)

/-- The actions a program has performed so far, oldest first. -/
abbrev History (ε : Type) {A : Type} (B : A → Type) := List (Event ε B)

/-- What the actions do. An oracle `Ω` settles everything the state does not
(faults, outside answers); `none` means the oracle's choice is not possible. -/
abbrev Machine (Ω σ ε : Type) {A : Type} (B : A → Type) :=
  (a : A) → Ω → σ → Option (Except ε (B a) × σ)

/-- The machine may answer the event's action with the event's answer. -/
def Machine.Exec {Ω σ : Type} (M : Machine Ω σ ε B) (e : Event ε B) (w w' : σ) : Prop :=
  ∃ o, M e.action o w = some (e.answer, w')

/-- The machine where an action is only possible in the states that `C` allows. -/
def Machine.guarded {Ω σ : Type} (M : Machine Ω σ ε B) (C : A → σ → Prop) [∀ a w, Decidable (C a w)] :
    Machine Ω σ ε B :=
  fun a o w => if C a w then M a o w else none

/-- What it executes, the machine executes in such a state. -/
theorem Machine.exec_guarded {Ω σ : Type} {M : Machine Ω σ ε B} {C : A → σ → Prop} [∀ a w, Decidable (C a w)]
    {e : Event ε B} {w w' : σ} : (M.guarded C).Exec e w w' ↔ C e.action w ∧ M.Exec e w w' := by
  unfold Machine.Exec Machine.guarded
  constructor
  · rintro ⟨o, ho⟩
    split at ho
    · next hc => exact ⟨hc, o, ho⟩
    · contradiction
  · rintro ⟨hc, o, ho⟩
    exact ⟨o, by rw [if_pos hc, ho]⟩

section Alone

variable {Ω σ : Type} (M : Machine Ω σ ε B)

/-- `Outcome M p w es r w'`: running `p` alone from `w`, with nothing
happening in between, performs `es`, ends in `r` and leaves `w'`. -/
inductive Outcome : Program ε B α → σ → History ε B → Except ε α → σ → Prop where
  /-- A finished program changes nothing. -/
  | done (a : α) (w : σ) : Outcome (.done a) w [] (.ok a) w
  /-- A raised exception changes nothing. -/
  | raise (e : ε) (w : σ) : Outcome (.raise e) w [] (.error e) w
  /-- One action, then the rest of the program. -/
  | act {a : A} {next : Except ε (B a) → Program ε B α} {w w' w'' : σ}
      {r : Except ε (B a)} {es : History ε B} {res : Except ε α}
      (hstep : M.Exec ⟨a, r⟩ w w') (hrest : Outcome (next r) w' es res w'') :
      Outcome (.act a next) w (⟨a, r⟩ :: es) res w''

/-- Run a program alone, each action settled by the next policy of a list. -/
def play : Program ε B α → List (A → Ω) → σ → Option (History ε B × Except ε α × σ)
  | .done a, [], w => some ([], .ok a, w)
  | .raise e, [], w => some ([], .error e, w)
  | .act a next, o :: os, w =>
    match M a (o a) w with
    | none => none
    | some (r, w') =>
      match play (next r) os w' with
      | none => none
      | some (es, res, w'') => some (⟨a, r⟩ :: es, res, w'')
  | _, _, _ => none

/-- A computed run is a run. -/
theorem play_sound {p : Program ε B α} {os : List (A → Ω)} {w w' : σ} {es : History ε B}
    {res : Except ε α} (h : play M p os w = some (es, res, w')) : Outcome M p w es res w' := by
  induction p generalizing os w es with
  | done a =>
    cases os with
    | nil => simp only [play, Option.some.injEq, Prod.mk.injEq] at h; obtain ⟨rfl, rfl, rfl⟩ := h; exact .done a w
    | cons o os => simp only [play, reduceCtorEq] at h
  | raise e =>
    cases os with
    | nil => simp only [play, Option.some.injEq, Prod.mk.injEq] at h; obtain ⟨rfl, rfl, rfl⟩ := h; exact .raise e w
    | cons o os => simp only [play, reduceCtorEq] at h
  | act a next ih =>
    cases os with
    | nil => simp only [play, reduceCtorEq] at h
    | cons o os =>
      simp only [play] at h
      split at h
      · contradiction
      · next r w₁ hstep =>
        split at h
        · contradiction
        · next es' res' w₂ hrest =>
          simp only [Option.some.injEq, Prod.mk.injEq] at h
          obtain ⟨rfl, rfl, rfl⟩ := h
          exact .act ⟨o a, hstep⟩ (ih r hrest)

/-- Every action the program can come to is one of `S`. -/
def Program.Uses (S : A → Prop) : Program ε B α → Prop
  | .done _ => True
  | .raise _ => True
  | .act a next => S a ∧ ∀ r, (next r).Uses S

/-- Sequencing uses what the two programs use. -/
theorem Program.Uses.bind {S : A → Prop} {p : Program ε B α} {f : α → Program ε B β} (hp : p.Uses S)
    (hf : ∀ a, (f a).Uses S) : (p.bind f).Uses S := by
  induction p with
  | done a => exact hf a
  | raise e => trivial
  | act a next ih => exact ⟨hp.1, fun r => ih r (hp.2 r)⟩

/-- Handling uses what the body and the handler use. -/
theorem Program.Uses.catchError {S : A → Prop} {p : Program ε B α} {f : ε → Program ε B α}
    (hp : p.Uses S) (hf : ∀ e, (f e).Uses S) : (p.catchError f).Uses S := by
  induction p with
  | done a => trivial
  | raise e => exact hf e
  | act a next ih => exact ⟨hp.1, fun r => ih r (hp.2 r)⟩

/-- More actions may be allowed. -/
theorem Program.Uses.mono {S S' : A → Prop} {p : Program ε B α} (hp : p.Uses S) (hS : ∀ a, S a → S' a) :
    p.Uses S' := by
  induction p with
  | done a => trivial
  | raise e => trivial
  | act a next ih => exact ⟨hS a hp.1, fun r => ih r (hp.2 r)⟩

/-- What it uses under each of many restrictions, it uses under all of them. -/
theorem Program.Uses.all {ι : Sort*} {S : ι → A → Prop} {p : Program ε B α} (hp : ∀ i, p.Uses (S i)) :
    p.Uses fun a => ∀ i, S i a := by
  induction p with
  | done a => trivial
  | raise e => trivial
  | act a next ih => exact ⟨fun i => (hp i).1, fun r => ih r fun i => (hp i).2 r⟩

/-- Nothing else is ever used than some action. -/
theorem Program.uses_true (p : Program ε B α) : p.Uses fun _ => True := by
  induction p with
  | done a => trivial
  | raise e => trivial
  | act a next ih => exact ⟨trivial, ih⟩

/-- One action uses that action. -/
theorem Program.uses_perform {S : A → Prop} {a : A} (h : S a) : (perform a : Program ε B (B a)).Uses S :=
  ⟨h, fun r => by cases r <;> trivial⟩

/-- Some action of the history was answered by an exception. -/
def Failed (h : History ε B) : Prop := ∃ e ∈ h, ∃ err, e.answer = .error err

/-- Once an action failed, it has failed. -/
theorem Failed.append {h : History ε B} (hf : Failed h) (e : Event ε B) : Failed (h ++ [e]) := by
  obtain ⟨e', hin, hr⟩ := hf
  exact ⟨e', List.mem_append_left _ hin, hr⟩

variable {M}

/-- One action alone. -/
theorem Outcome.perform {a : A} {b : B a} {w w' : σ} (hstep : M.Exec ⟨a, .ok b⟩ w w') :
    Outcome M (AtomicProgram.perform a) w [⟨a, .ok b⟩] (.ok b) w' := .act hstep (.done b w')

/-- One program after another. -/
theorem Outcome.bind {p : Program ε B α} {f : α → Program ε B β} {w w' w'' : σ} {es es' : History ε B} {a : α}
    {r : Except ε β} (hp : Outcome M p w es (.ok a) w') (hf : Outcome M (f a) w' es' r w'') :
    Outcome M (p.bind f) w (es ++ es') r w'' := by
  induction p generalizing w es with
  | done a' =>
    cases hp with
    | done => exact hf
  | raise e => cases hp
  | act x next ih =>
    cases hp with
    | act hstep hrest => exact .act hstep (ih _ hrest)

/-- A program that returns is not handled. -/
theorem Outcome.catchError {p : Program ε B α} {f : ε → Program ε B α} {w w' : σ} {es : History ε B} {a : α}
    (hp : Outcome M p w es (.ok a) w') : Outcome M (p.catchError f) w es (.ok a) w' := by
  induction p generalizing w es with
  | done a' => exact hp
  | raise e => cases hp
  | act x next ih =>
    cases hp with
    | act hstep hrest => exact .act hstep (ih _ hrest)

/-- A program whose actions can all succeed can run without any failing. -/
theorem exists_outcome {S : A → Prop} (hS : ∀ a, S a → ∀ w, ∃ b w', M.Exec ⟨a, .ok b⟩ w w')
    {p : Program ε B α} (hp : p.Uses S) (w : σ) :
    ∃ es r w', Outcome M p w es r w' ∧ ¬ Failed es := by
  induction p generalizing w with
  | done a => exact ⟨[], .ok a, w, .done a w, fun ⟨e, he, _⟩ => absurd he List.not_mem_nil⟩
  | raise e => exact ⟨[], .error e, w, .raise e w, fun ⟨e, he, _⟩ => absurd he List.not_mem_nil⟩
  | act a next ih =>
    obtain ⟨b, w', hstep⟩ := hS a hp.1 w
    obtain ⟨es, r, w'', hrest, hok⟩ := ih (.ok b) (hp.2 _) w'
    refine ⟨⟨a, .ok b⟩ :: es, r, w'', .act hstep hrest, ?_⟩
    rintro ⟨e, he, err, herr⟩
    rcases List.mem_cons.mp he with rfl | he
    · contradiction
    · exact hok ⟨e, he, err, herr⟩

end Alone

end RagSystem.AtomicProgram
