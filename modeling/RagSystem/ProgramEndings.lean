import RagSystem.ProgramContracts

/-!
# Finished runs of atomic programs

What a program performed from its beginning to its end, and how it ended. The
runs of a program put together are put together from the runs of its parts.
-/

namespace RagSystem.ProgramEndings

open AtomicProgram ProgramPaths ProgramContracts

set_option autoImplicit false

variable {ε A α β : Type} {B : A → Type}

/-- `Ends p h r`: `p` performed `h` and then ended as `r`. -/
def Ends (p : Program ε B α) (h : History ε B) (r : Except ε α) : Prop := Path p h (ended r)

section Rules

variable {h : History ε B} {r : Except ε α}

/-- Returning. -/
theorem ends_done {a : α} : Ends (.done a : Program ε B α) h r ↔ h = [] ∧ r = .ok a := by
  constructor
  · intro hends
    obtain ⟨rfl, he⟩ := Path.of_done hends
    refine ⟨rfl, ?_⟩
    cases r with
    | ok a' =>
      injection he with he
      rw [he]
    | error e => contradiction
  · rintro ⟨rfl, rfl⟩
    exact .refl _

/-- Raising. -/
theorem ends_raise {e : ε} : Ends (.raise e : Program ε B α) h r ↔ h = [] ∧ r = .error e := by
  constructor
  · intro hends
    obtain ⟨rfl, he⟩ := Path.of_raise hends
    refine ⟨rfl, ?_⟩
    cases r with
    | ok a => contradiction
    | error e' =>
      injection he with he
      rw [he]
  · rintro ⟨rfl, rfl⟩
    exact .refl _

/-- One action, then the rest. -/
theorem ends_act {a : A} {next : Except ε (B a) → Program ε B α} :
    Ends (.act a next) h r ↔ ∃ x h', h = ⟨a, x⟩ :: h' ∧ Ends (next x) h' r := by
  constructor
  · intro hends
    unfold Ends at hends
    generalize hq : ended r = q at hends
    cases hends with
    | refl =>
      cases r with
      | ok a' => contradiction
      | error e => contradiction
    | @act _ _ x h' _ hrest =>
      refine ⟨x, h', rfl, ?_⟩
      rw [← hq] at hrest
      exact hrest
  · rintro ⟨x, h', rfl, hrest⟩
    exact Path.act hrest

/-- One action. -/
theorem ends_perform {a : A} {x : Except ε (B a)} : Ends (perform a) h x ↔ h = [⟨a, x⟩] := by
  unfold perform
  rw [ends_act]
  constructor
  · rintro ⟨y, h', rfl, hrest⟩
    cases y with
    | ok b =>
      obtain ⟨rfl, rfl⟩ := ends_done.mp hrest
      rfl
    | error e =>
      obtain ⟨rfl, rfl⟩ := ends_raise.mp hrest
      rfl
  · rintro rfl
    refine ⟨x, [], rfl, ?_⟩
    cases x with
    | ok b => exact ends_done.mpr ⟨rfl, rfl⟩
    | error e => exact ends_raise.mpr ⟨rfl, rfl⟩

/-- Sequencing: the first program returned and the second ended so, or the
first one raised. -/
theorem ends_bind {p : Program ε B α} {f : α → Program ε B β} {x : Except ε β} :
    Ends (p.bind f) h x ↔
      (∃ a h₁ h₂, h = h₁ ++ h₂ ∧ Ends p h₁ (.ok a) ∧ Ends (f a) h₂ x) ∨ ∃ e, x = .error e ∧ Ends p h (.error e) := by
  induction p generalizing h with
  | done a =>
    constructor
    · intro hends
      exact .inl ⟨a, [], h, rfl, ends_done.mpr ⟨rfl, rfl⟩, hends⟩
    · rintro (⟨a', h₁, h₂, rfl, hp, hf⟩ | ⟨e, -, hp⟩)
      · obtain ⟨rfl, ha⟩ := ends_done.mp hp
        injection ha with ha
        exact ha ▸ hf
      · exact nomatch (ends_done.mp hp).2
  | raise e =>
    constructor
    · intro hends
      have hraised := ends_raise.mp hends
      exact .inr ⟨e, hraised.2, ends_raise.mpr ⟨hraised.1, rfl⟩⟩
    · rintro (⟨a, h₁, h₂, rfl, hp, -⟩ | ⟨e', rfl, hp⟩)
      · exact nomatch (ends_raise.mp hp).2
      · obtain ⟨rfl, he⟩ := ends_raise.mp hp
        injection he with he
        exact ends_raise.mpr ⟨rfl, by rw [he]⟩
  | act a next ih =>
    constructor
    · intro hends
      obtain ⟨y, h', rfl, hrest⟩ := ends_act.mp hends
      rcases (ih y).mp hrest with ⟨b, h₁, h₂, rfl, hp, hf⟩ | ⟨e, rfl, hp⟩
      · exact .inl ⟨b, ⟨a, y⟩ :: h₁, h₂, rfl, ends_act.mpr ⟨y, h₁, rfl, hp⟩, hf⟩
      · exact .inr ⟨e, rfl, ends_act.mpr ⟨y, h', rfl, hp⟩⟩
    · rintro (⟨b, h₁, h₂, rfl, hp, hf⟩ | ⟨e, rfl, hp⟩)
      · obtain ⟨y, h', rfl, hrest⟩ := ends_act.mp hp
        exact ends_act.mpr ⟨y, h' ++ h₂, rfl, (ih y).mpr (.inl ⟨b, h', h₂, rfl, hrest, hf⟩)⟩
      · obtain ⟨y, h', rfl, hrest⟩ := ends_act.mp hp
        exact ends_act.mpr ⟨y, h', rfl, (ih y).mpr (.inr ⟨e, rfl, hrest⟩)⟩

/-- An action, and what is made of its result. -/
theorem ends_perform_bind {a : A} {f : B a → Program ε B α} :
    Ends ((perform a).bind f) h r ↔
      (∃ b h', h = ⟨a, .ok b⟩ :: h' ∧ Ends (f b) h' r) ∨ ∃ e, r = .error e ∧ h = [⟨a, .error e⟩] := by
  rw [ends_bind]
  constructor
  · rintro (⟨b, h₁, h₂, rfl, hp, hf⟩ | ⟨e, he, hp⟩)
    · rw [ends_perform.mp hp]
      exact .inl ⟨b, h₂, rfl, hf⟩
    · exact .inr ⟨e, he, ends_perform.mp hp⟩
  · rintro (⟨b, h', rfl, hf⟩ | ⟨e, he, rfl⟩)
    · exact .inl ⟨b, [⟨a, .ok b⟩], h', rfl, ends_perform.mpr rfl, hf⟩
    · exact .inr ⟨e, he, ends_perform.mpr rfl⟩

/-- Handling: the body returned, or it raised and the handler ended so. -/
theorem ends_catchError {p : Program ε B α} {f : ε → Program ε B α} :
    Ends (p.catchError f) h r ↔
      (∃ a, r = .ok a ∧ Ends p h (.ok a)) ∨ ∃ e h₁ h₂, h = h₁ ++ h₂ ∧ Ends p h₁ (.error e) ∧ Ends (f e) h₂ r := by
  induction p generalizing h with
  | done a =>
    constructor
    · intro hends
      have hdone := ends_done.mp hends
      exact .inl ⟨a, hdone.2, ends_done.mpr ⟨hdone.1, rfl⟩⟩
    · rintro (⟨a', rfl, hp⟩ | ⟨e, h₁, h₂, rfl, hp, -⟩)
      · obtain ⟨rfl, ha⟩ := ends_done.mp hp
        exact ends_done.mpr ⟨rfl, ha⟩
      · exact nomatch (ends_done.mp hp).2
  | raise e =>
    constructor
    · intro hends
      exact .inr ⟨e, [], h, rfl, ends_raise.mpr ⟨rfl, rfl⟩, hends⟩
    · rintro (⟨a, -, hp⟩ | ⟨e', h₁, h₂, rfl, hp, hf⟩)
      · exact nomatch (ends_raise.mp hp).2
      · obtain ⟨rfl, he⟩ := ends_raise.mp hp
        injection he with he
        exact he ▸ hf
  | act a next ih =>
    constructor
    · intro hends
      obtain ⟨y, h', rfl, hrest⟩ := ends_act.mp hends
      rcases (ih y).mp hrest with ⟨b, rfl, hp⟩ | ⟨e, h₁, h₂, rfl, hp, hf⟩
      · exact .inl ⟨b, rfl, ends_act.mpr ⟨y, h', rfl, hp⟩⟩
      · exact .inr ⟨e, ⟨a, y⟩ :: h₁, h₂, rfl, ends_act.mpr ⟨y, h₁, rfl, hp⟩, hf⟩
    · rintro (⟨b, rfl, hp⟩ | ⟨e, h₁, h₂, rfl, hp, hf⟩)
      · obtain ⟨y, h', rfl, hrest⟩ := ends_act.mp hp
        exact ends_act.mpr ⟨y, h', rfl, (ih y).mpr (.inl ⟨b, rfl, hrest⟩)⟩
      · obtain ⟨y, h', rfl, hrest⟩ := ends_act.mp hp
        exact ends_act.mpr ⟨y, h' ++ h₂, rfl, (ih y).mpr (.inr ⟨e, h', h₂, rfl, hrest, hf⟩)⟩

/-- A run against a behaviour is one. -/
theorem ends_against (respond : Behaviour ε B) (p : Program ε B α) :
    Ends p (Program.against respond p).1 (Program.against respond p).2 := path_against respond p

end Rules

end RagSystem.ProgramEndings
