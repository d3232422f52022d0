import RagSystem.ProgramPaths

/-!
# Contracts of atomic programs

A judgement without a state: what every action of a program is and how the
program ends, whatever answers it gets, as long as they are answers the
environment gives. It holds along every path of the program. A program can
also be run against one fixed behaviour of everything it calls.
-/

namespace RagSystem.ProgramContracts

open AtomicProgram RelyGuarantee ProgramPaths

set_option autoImplicit false

variable {ε A α β : Type} {B : A → Type}

/-- A property of one action of a program, given what it did before. -/
abbrev ActionPredicate (ε : Type) {A : Type} (B : A → Type) := History ε B → Event ε B → Prop

/-- A property of how a program ends. -/
abbrev EndPredicate (ε : Type) {A : Type} (B : A → Type) (α : Type) := History ε B → Except ε α → Prop

/-- Answered as `T` allows, every action of `p` meets `G` and `p` ends as `Q`
says. The rules below are the way to use it: unfolded, it runs the program. -/
@[irreducible] def Ensures (T G : ActionPredicate ε B) (Q : EndPredicate ε B α) (p : Program ε B α) (h : History ε B) : Prop :=
  Sat (fun h e (_ _ : Unit) => T h e) (fun h e _ _ => G h e) Eq (fun h r _ => Q h r) p h ()

section Rules

variable {T G : ActionPredicate ε B} {Q : EndPredicate ε B α} {h : History ε B}

/-- Returning. -/
theorem Ensures.done {a : α} (hq : Q h (.ok a)) : Ensures T G Q (.done a) h := by
  unfold Ensures
  exact fun _ _ => hq

/-- Raising. -/
theorem Ensures.raise {e : ε} (hq : Q h (.error e)) : Ensures T G Q (.raise e) h := by
  unfold Ensures
  exact fun _ _ => hq

/-- A finished program ended as the judgement says. -/
theorem Ensures.of_done {a : α} (hp : Ensures T G Q (.done a) h) : Q h (.ok a) := by
  unfold Ensures at hp
  exact hp () rfl

/-- So did one that raised. -/
theorem Ensures.of_raise {e : ε} (hp : Ensures T G Q (.raise e) h) : Q h (.error e) := by
  unfold Ensures at hp
  exact hp () rfl

/-- The next action meets the guarantee, and the rest is still judged. -/
theorem Ensures.of_act {a : A} {next : Except ε (B a) → Program ε B α} (hp : Ensures T G Q (.act a next) h)
    {r : Except ε (B a)} (ht : T h ⟨a, r⟩) : G h ⟨a, r⟩ ∧ Ensures T G Q (next r) (h ++ [⟨a, r⟩]) := by
  unfold Ensures at hp ⊢
  exact hp () rfl r () ht

/-- Sequencing. -/
theorem Ensures.bind {Q' : EndPredicate ε B β} {p : Program ε B α} {f : α → Program ε B β}
    (hp : Ensures T G Q p h) (hok : ∀ h a, Q h (.ok a) → Ensures T G Q' (f a) h)
    (herr : ∀ h e, Q h (.error e) → Q' h (.error e)) : Ensures T G Q' (p.bind f) h := by
  unfold Ensures at hp hok ⊢
  exact Sat.bind .eq hp (fun h a _ hq => hok h a hq) fun h e _ hq => herr h e hq

/-- Handling. -/
theorem Ensures.catchError {Q' : EndPredicate ε B α} {p : Program ε B α} {f : ε → Program ε B α}
    (hp : Ensures T G Q p h) (hok : ∀ h a, Q h (.ok a) → Q' h (.ok a))
    (herr : ∀ h e, Q h (.error e) → Ensures T G Q' (f e) h) : Ensures T G Q' (p.catchError f) h := by
  unfold Ensures at hp herr ⊢
  exact Sat.catchError .eq hp (fun h a _ hq => hok h a hq) fun h e _ hq => herr h e hq

/-- One action. -/
theorem Ensures.perform {a : A} {Q : EndPredicate ε B (B a)}
    (hstep : ∀ r, T h ⟨a, r⟩ → G h ⟨a, r⟩ ∧ Q (h ++ [⟨a, r⟩]) r) : Ensures T G Q (perform a) h := by
  unfold Ensures
  exact Sat.perform fun _ _ r _ ht => ⟨(hstep r ht).1, fun _ _ => (hstep r ht).2⟩

/-- A weaker ending. -/
theorem Ensures.ending {Q' : EndPredicate ε B α} {p : Program ε B α} (hp : Ensures T G Q p h)
    (hQ : ∀ h r, Q h r → Q' h r) : Ensures T G Q' p h := by
  unfold Ensures at hp ⊢
  exact Sat.ending hp fun h r _ hq => hQ h r hq

/-- Ending with a value, if at all, that is as `P` says. -/
def Returns (P : History ε B → α → Prop) : EndPredicate ε B α := fun h r => ∀ a, r = .ok a → P h a

/-- Returning a value as `P` says. -/
theorem Ensures.returns {P : History ε B → α → Prop} {a : α} (hp : P h a) : Ensures T G (Returns P) (.done a) h := by
  refine .done fun a' ha => ?_
  cases ha
  exact hp

/-- Raising returns nothing. -/
theorem Ensures.raises {P : History ε B → α → Prop} {e : ε} : Ensures T G (Returns P) (.raise e) h :=
  .raise fun _ he => (nomatch he)

/-- Sequencing, where only values matter. -/
theorem Ensures.andThen {P' : History ε B → β → Prop} {p : Program ε B α} {f : α → Program ε B β}
    (hp : Ensures T G Q p h) (hf : ∀ h a, Q h (.ok a) → Ensures T G (Returns P') (f a) h) :
    Ensures T G (Returns P') (p.bind f) h :=
  hp.bind hf fun _ _ _ _ he => (nomatch he)

/-- A program keeps what each of its actions keeps. -/
theorem Ensures.of_uses {S : A → Prop} {I : History ε B → Prop} {p : Program ε B α} (hp : p.Uses S)
    (hstep : ∀ h e, S e.action → I h → T h e → G h e ∧ I (h ++ [e])) (hi : I h) :
    Ensures T G (fun h _ => I h) p h := by
  unfold Ensures
  exact Keeps.of_uses (I := fun h _ => I h) (fun _ _ _ _ hi => hi) hp
    (fun h e _ _ hs hi ht => hstep h e hs hi ht) h () hi

/-- Once something lasting is true of the past that makes every action meet the
guarantee, any program does. -/
theorem Ensures.of_lasting {I : History ε B → Prop} (hI : ∀ h e, I h → I (h ++ [e])) (hG : ∀ h e, I h → G h e)
    (p : Program ε B α) (hi : I h) : Ensures T G (fun h _ => I h) p h :=
  .of_uses p.uses_true (fun h e _ hi _ => ⟨hG h e hi, hI h e hi⟩) hi

/-- Along a path every action met the guarantee, and the rest of the program
is still judged. -/
theorem Ensures.along {p p' : Program ε B α} {es : History ε B} (hp : Ensures T G Q p h) (hpath : Path p es p')
    (hT : ∀ h' e es', es = h' ++ e :: es' → T (h ++ h') e) :
    Ensures T G Q p' (h ++ es) ∧ ∀ h' e es', es = h' ++ e :: es' → G (h ++ h') e := by
  induction hpath generalizing h with
  | refl p =>
    rw [List.append_nil]
    exact ⟨hp, fun h' _ _ he => absurd he (by simp)⟩
  | @act a next r es p hrest ih =>
    have hfirst := hT [] ⟨a, r⟩ es rfl
    rw [List.append_nil] at hfirst
    obtain ⟨hg, hnext⟩ := hp.of_act hfirst
    have hlater : ∀ h' e es', es = h' ++ e :: es' → T (h ++ [⟨a, r⟩] ++ h') e := by
      intro h' e es' he
      have hshift := hT (⟨a, r⟩ :: h') e es' (by rw [he, List.cons_append])
      rwa [List.append_assoc, List.singleton_append]
    obtain ⟨hend, hall⟩ := ih hnext hlater
    rw [List.append_assoc, List.singleton_append] at hend
    refine ⟨hend, fun h' e es' he => ?_⟩
    cases h' with
    | nil =>
      rw [List.nil_append, List.cons.injEq] at he
      rw [← he.1, List.append_nil]
      exact hg
    | cons e₀ h' =>
      rw [List.cons_append, List.cons.injEq] at he
      have hlate := hall h' e es' he.2
      rwa [List.append_assoc, List.singleton_append, he.1] at hlate

/-- So is the end of a run alone. -/
theorem Ensures.of_outcome {Ω σ : Type} {M : Machine Ω σ ε B} {p : Program ε B α} {w w' : σ} {es : History ε B}
    {r : Except ε α} (hp : Ensures T G Q p h) (hT : ∀ h e, T h e) (hrun : Outcome M p w es r w') : Q (h ++ es) r := by
  induction hrun generalizing h with
  | done a w =>
    rw [List.append_nil]
    exact hp.of_done
  | raise e w =>
    rw [List.append_nil]
    exact hp.of_raise
  | @act a next w w₁ w₂ x es r _ _ ih =>
    have hend := ih (hp.of_act (hT h ⟨a, x⟩)).2
    rwa [List.append_assoc, List.singleton_append] at hend

end Rules

section Pools

open ThreadPool

variable {Ω σ O : Type} {M : Machine Ω σ ε B} {code : O → Program ε B α} {T G : ActionPredicate ε B} {Q : EndPredicate ε B α}
  {I : σ → Prop}

/-- What contracts give in a pool whose state answers as they need it. -/
structure Contracted (T G : ActionPredicate ε B) (Q : EndPredicate ε B α) (I : σ → Prop) (ms : List (Move σ O ε B α))
    (q : Pool σ O ε B α) : Prop where
  /-- The state is as it has to be. -/
  state : I q.world
  /-- Every thread is still under its contract. -/
  threads : ∀ t th, q.threads t = some th → Ensures T G Q th.program th.past
  /-- Every move found the state so, was answered as it had to be and did what
  it was to do. -/
  moves : ∀ m ∈ ms, I m.source.world ∧ T m.runner.past m.event ∧ G m.runner.past m.event

/-- Where the answers of a good state are those the contracts need, and what
the contracts guarantee keeps it good, every run goes by the contracts. -/
theorem contracted_of_run {p q : Pool σ O ε B α} {ms : List (Move σ O ε B α)} (hrun : Run M code p ms q)
    (hidle : ∀ t, p.threads t = none) (hcode : ∀ o, Ensures T G Q (code o) []) (h0 : I p.world)
    (htrust : ∀ h e w w', I w → M.Exec e w w' → T h e)
    (hkeep : ∀ h e w w', I w → M.Exec e w w' → G h e → I w') : Contracted T G Q I ms q := by
  induction hrun with
  | refl =>
    refine ⟨h0, fun t th hth => ?_, fun m hm => (nomatch hm)⟩
    rw [hidle t] at hth
    contradiction
  | @start q ms _ u o _ ih =>
    refine ⟨ih.state, fun t th hth => ?_, ih.moves⟩
    by_cases hu : t = u
    · subst hu
      simp only [Pool.start, Function.update_self, Option.some.injEq] at hth
      subst hth
      exact hcode o
    · simp only [Pool.start, Function.update_of_ne hu] at hth
      exact ih.threads t th hth
  | @move ms m _ hm ih =>
    cases hm with
    | @act q u th₀ a next r w hthread hprogram hstep =>
      have hcontract := ih.threads u th₀ hthread
      rw [hprogram] at hcontract
      have htrusted := htrust th₀.past ⟨a, r⟩ q.world w ih.state hstep
      obtain ⟨hguaranteed, hnext⟩ := hcontract.of_act htrusted
      refine ⟨hkeep th₀.past ⟨a, r⟩ q.world w ih.state hstep hguaranteed, fun t th hth => ?_, fun m hm => ?_⟩
      · by_cases hu : t = u
        · subst hu
          simp only [Pool.advance, Function.update_self, Option.some.injEq] at hth
          subst hth
          exact hnext
        · simp only [Pool.advance, Function.update_of_ne hu] at hth
          exact ih.threads t th hth
      · rcases List.mem_append.mp hm with hold | hnew
        · exact ih.moves m hold
        · rw [List.mem_singleton.mp hnew]
          exact ⟨ih.state, htrusted, hguaranteed⟩

end Pools

section Behaviour

/-- The fixed answers of everything a program can call. -/
abbrev Behaviour (ε : Type) {A : Type} (B : A → Type) := (a : A) → Except ε (B a)

/-- Run a program against a behaviour: what it performs and how it ends. -/
def Program.against (respond : Behaviour ε B) : Program ε B α → History ε B × Except ε α
  | .done a => ([], .ok a)
  | .raise e => ([], .error e)
  | .act a next =>
    let rest := Program.against respond (next (respond a))
    (⟨a, respond a⟩ :: rest.1, rest.2)

/-- What is left of a program that ended so. -/
def ended : Except ε α → Program ε B α
  | .ok a => .done a
  | .error e => .raise e

/-- A run against a behaviour is a path to the end. -/
theorem path_against (respond : Behaviour ε B) (p : Program ε B α) :
    Path p (Program.against respond p).1 (ended (Program.against respond p).2) := by
  induction p with
  | done a => exact .refl _
  | raise e => exact .refl _
  | act a next ih => exact .act (ih (respond a))

/-- Everything that was performed was answered by the behaviour. -/
theorem answer_against (respond : Behaviour ε B) (p : Program ε B α) :
    ∀ e ∈ (Program.against respond p).1, e.answer = respond e.action := by
  induction p with
  | done a => exact fun _ he => (nomatch he)
  | raise e => exact fun _ he => (nomatch he)
  | act a next ih =>
    intro e he
    rcases List.mem_cons.mp he with rfl | he
    · rfl
    · exact ih (respond a) e he

section Sequencing

variable {respond : Behaviour ε B} {e : Event ε B}

/-- A call is answered by the behaviour. -/
theorem against_perform (a : A) : Program.against respond (perform a) = ([⟨a, respond a⟩], respond a) := by
  cases hr : respond a with
  | ok b => simp only [perform, Program.against, hr]
  | error e => simp only [perform, Program.against, hr]

/-- A program that returns goes on. -/
theorem against_bind_of_ok {p : Program ε B α} {f : α → Program ε B β} {a : α}
    (hp : (Program.against respond p).2 = .ok a) :
    Program.against respond (p.bind f) =
      ((Program.against respond p).1 ++ (Program.against respond (f a)).1, (Program.against respond (f a)).2) := by
  induction p with
  | done a' =>
    cases hp
    rfl
  | raise e => cases hp
  | act x next ih =>
    have hnext := ih (respond x) hp
    simp only [Program.bind, Program.against, hnext, List.cons_append]

/-- What returns in sequence. -/
theorem against_bind {p : Program ε B α} {f : α → Program ε B β} {a : α} {b : β}
    (hp : (Program.against respond p).2 = .ok a) (hf : (Program.against respond (f a)).2 = .ok b) :
    (Program.against respond (p.bind f)).2 = .ok b := by
  rw [against_bind_of_ok hp, hf]

/-- What the second program performs, the sequence performs. -/
theorem mem_against_bind {p : Program ε B α} {f : α → Program ε B β} {a : α}
    (hp : (Program.against respond p).2 = .ok a) (he : e ∈ (Program.against respond (f a)).1) :
    e ∈ (Program.against respond (p.bind f)).1 := by
  rw [against_bind_of_ok hp]
  exact List.mem_append_right _ he

/-- What the first program performs, the sequence performs. -/
theorem mem_against_first {p : Program ε B α} {f : α → Program ε B β}
    (he : e ∈ (Program.against respond p).1) : e ∈ (Program.against respond (p.bind f)).1 := by
  induction p with
  | done a => exact absurd he List.not_mem_nil
  | raise e' => exact absurd he List.not_mem_nil
  | act x next ih =>
    rcases List.mem_cons.mp he with rfl | he
    · exact List.mem_cons_self
    · exact List.mem_cons_of_mem _ (ih (respond x) he)

/-- What the body performs, the handled body performs. -/
theorem mem_against_catch {p : Program ε B α} {f : ε → Program ε B α}
    (he : e ∈ (Program.against respond p).1) : e ∈ (Program.against respond (p.catchError f)).1 := by
  induction p with
  | done a => exact absurd he List.not_mem_nil
  | raise e' => exact absurd he List.not_mem_nil
  | act x next ih =>
    rcases List.mem_cons.mp he with rfl | he
    · exact List.mem_cons_self
    · exact List.mem_cons_of_mem _ (ih (respond x) he)

/-- A body that returns is not handled. -/
theorem against_catch_of_ok {p : Program ε B α} {f : ε → Program ε B α} {a : α}
    (hp : (Program.against respond p).2 = .ok a) : (Program.against respond (p.catchError f)).2 = .ok a := by
  induction p with
  | done a' => exact hp
  | raise e => cases hp
  | act x next ih => exact ih (respond x) hp

/-- A program that raises goes no further. -/
theorem against_bind_of_error {p : Program ε B α} {f : α → Program ε B β} {x : ε}
    (hp : (Program.against respond p).2 = .error x) :
    Program.against respond (p.bind f) = ((Program.against respond p).1, .error x) := by
  induction p with
  | done a => cases hp
  | raise e' =>
    cases hp
    rfl
  | act a next ih =>
    have hnext := ih (respond a) hp
    simp only [Program.bind, Program.against, hnext]

/-- What a program comes to. -/
def result (respond : Behaviour ε B) (p : Program ε B α) : Except ε α := (Program.against respond p).2

@[simp] theorem result_done (a : α) : result respond (.done a) = .ok a := rfl

@[simp] theorem result_raise (x : ε) : result respond (.raise x : Program ε B α) = .error x := rfl

@[simp] theorem result_perform (a : A) : result respond (perform a) = respond a := by
  rw [result, against_perform]

/-- A run that returns is a path to what it returns. -/
theorem path_of_result {p : Program ε B α} {a : α} (hp : result respond p = .ok a) :
    Path p (Program.against respond p).1 (.done a) := by
  have hpath := path_against respond p
  rw [result] at hp
  rw [hp] at hpath
  exact hpath

/-- Of a sequence. -/
theorem result_bind (p : Program ε B α) (f : α → Program ε B β) :
    result respond (p.bind f) = (result respond p).bind fun a => result respond (f a) := by
  cases hp : result respond p with
  | ok a => rw [result, against_bind_of_ok hp]; rfl
  | error x => rw [result, against_bind_of_error hp]; rfl

/-- Of a sequence whose first part is known. -/
theorem result_bind_of_ok {p : Program ε B α} {f : α → Program ε B β} {a : α} (hp : result respond p = .ok a) :
    result respond (p.bind f) = result respond (f a) := by
  rw [result_bind, hp]
  rfl

/-- Of a handled program that returns. -/
theorem result_catch_of_ok {p : Program ε B α} {f : ε → Program ε B α} {a : α} (hp : result respond p = .ok a) :
    result respond (p.catchError f) = .ok a := against_catch_of_ok hp

/-- A program that raises is handled. -/
theorem against_catch_of_error {p : Program ε B α} {f : ε → Program ε B α} {x : ε}
    (hp : (Program.against respond p).2 = .error x) :
    Program.against respond (p.catchError f) =
      ((Program.against respond p).1 ++ (Program.against respond (f x)).1, (Program.against respond (f x)).2) := by
  induction p with
  | done a => cases hp
  | raise e' =>
    cases hp
    rfl
  | act a next ih =>
    have hnext := ih (respond a) hp
    simp only [Program.catchError, Program.against, hnext, List.cons_append]

/-- Of a handled program that raises. -/
theorem result_catch_of_error {p : Program ε B α} {f : ε → Program ε B α} {x : ε} (hp : result respond p = .error x) :
    result respond (p.catchError f) = result respond (f x) := by
  rw [result, against_catch_of_error hp]
  rfl

/-- Only what a program uses is performed. -/
theorem uses_of_mem_against {S : A → Prop} {p : Program ε B α} (hp : p.Uses S)
    (he : e ∈ (Program.against respond p).1) : S e.action := by
  induction p with
  | done a => exact absurd he List.not_mem_nil
  | raise e' => exact absurd he List.not_mem_nil
  | act x next ih =>
    rcases List.mem_cons.mp he with rfl | he
    · exact hp.1
    · exact ih (respond x) (hp.2 _) he

end Sequencing

end Behaviour

end RagSystem.ProgramContracts
