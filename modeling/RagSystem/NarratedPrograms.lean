import RagSystem.AtomicProgram

/-!
# Programs that narrate

One program does what another does and says in between how far it is, and at
the end what came of it, unless it fails to. Where somebody listens and saying
changes nothing, the two have the same runs, up to what is said.
-/

namespace RagSystem.NarratedPrograms

open AtomicProgram

set_option autoImplicit false

variable {Ω σ ε A N α β γ : Type} {B : A → Type}

/-- How a program says something. -/
structure Voice (N : Type) {A : Type} (B : A → Type) where
  /-- The action of saying it. -/
  say : N → A
  /-- The answer when it is heard. -/
  taken : (n : N) → B (say n)
  /-- What an action says. -/
  heard : A → Option N
  /-- Saying something says it. -/
  heard_say : ∀ n, heard (say n) = some n

/-- `Narrates V quiet last fails p s`: `s` does what `p` does, says quiet things
in between, and where `p` returns `a`, it says some `n` at last and returns some
`b` with `last a n b`, or raises some `e` with `fails a e`. -/
inductive Narrates (V : Voice N B) (quiet : N → Prop) (last : α → N → β → Prop) (fails : α → ε → Prop) :
    Program ε B α → Program ε B β → Prop where
  /-- The last word. -/
  | done {a : α} {n : N} {b : β} {next : Except ε (B (V.say n)) → Program ε B β} (hlast : last a n b)
      (hnext : next (.ok (V.taken n)) = .done b) : Narrates V quiet last fails (.done a) (.act (V.say n) next)
  /-- There is no last word. -/
  | fail {a : α} {e : ε} (hfails : fails a e) : Narrates V quiet last fails (.done a) (.raise e)
  /-- An exception is not told. -/
  | raise (e : ε) : Narrates V quiet last fails (.raise e) (.raise e)
  /-- A word in between. -/
  | note {p : Program ε B α} {n : N} {next : Except ε (B (V.say n)) → Program ε B β} (hquiet : quiet n)
      (hrest : Narrates V quiet last fails p (next (.ok (V.taken n)))) :
      Narrates V quiet last fails p (.act (V.say n) next)
  /-- The same action. -/
  | act {a : A} {next : Except ε (B a) → Program ε B α} {next' : Except ε (B a) → Program ε B β} (ha : V.heard a = none)
      (hrest : ∀ r, Narrates V quiet last fails (next r) (next' r)) :
      Narrates V quiet last fails (.act a next) (.act a next')

/-- Every value a program may return is as `P` says. -/
def Program.Yields (P : α → Prop) : Program ε B α → Prop
  | .done a => P a
  | .raise _ => True
  | .act _ next => ∀ r, Program.Yields P (next r)

section Rules

variable {V : Voice N B} {quiet : N → Prop} {last : α → N → β → Prop} {fails : α → ε → Prop} {P : α → Prop}

/-- Every value is one. -/
theorem yields_true (p : Program ε B α) : Program.Yields (fun _ => True) p := by
  induction p with
  | done a => trivial
  | raise e => trivial
  | act a next ih => exact ih

/-- Sequencing. -/
theorem Program.Yields.bind {P' : β → Prop} {p : Program ε B α} {f : α → Program ε B β} (hp : Program.Yields P p)
    (hf : ∀ a, P a → Program.Yields P' (f a)) : Program.Yields P' (p.bind f) := by
  induction p with
  | done a => exact hf a hp
  | raise e => trivial
  | act a next ih => exact fun r => ih r (hp r)

/-- What both begin with is not told. -/
theorem Narrates.bind {p : Program ε B γ} {f : γ → Program ε B α} {g : γ → Program ε B β} {P : γ → Prop}
    (hp : p.Uses fun a => V.heard a = none) (hyields : Program.Yields P p)
    (hf : ∀ c, P c → Narrates V quiet last fails (f c) (g c)) : Narrates V quiet last fails (p.bind f) (p.bind g) := by
  induction p with
  | done c => exact hf c hyields
  | raise e => exact .raise e
  | act a next ih => exact .act hp.1 fun r => ih r (hp.2 r) (hyields r)

/-- Something is said first. -/
theorem Narrates.say {p : Program ε B α} {n : N} {g : B (V.say n) → Program ε B β} (hquiet : quiet n)
    (hrest : Narrates V quiet last fails p (g (V.taken n))) :
    Narrates V quiet last fails p ((perform (V.say n)).bind g) :=
  .note hquiet hrest

end Rules

section Runs

variable {V : Voice N B} {quiet : N → Prop} {last : α → N → β → Prop} {fails : α → ε → Prop} {M : Machine Ω σ ε B}

/-- Somebody listens, and saying changes nothing. -/
def Listens (M : Machine Ω σ ε B) (V : Voice N B) : Prop :=
  ∀ n r w w', M.Exec ⟨V.say n, r⟩ w w' ↔ r = .ok (V.taken n) ∧ w' = w

/-- What was said. -/
def said (V : Voice N B) (h : History ε B) : List N := h.filterMap fun e => V.heard e.action

/-- What was done besides. -/
def unsaid (V : Voice N B) (h : History ε B) : History ε B := h.filter fun e => (V.heard e.action).isNone

/-- What was said about a run that ended so, and the end of the one that told it. -/
inductive Told (quiet : N → Prop) (last : α → N → β → Prop) (fails : α → ε → Prop) :
    Except ε α → List N → Except ε β → Prop
  /-- The last word was said. -/
  | said {a : α} {before : List N} {n : N} {b : β} (hquiet : ∀ m ∈ before, quiet m) (hlast : last a n b) :
      Told quiet last fails (.ok a) (before ++ [n]) (.ok b)
  /-- It failed. -/
  | failed {a : α} {ns : List N} {e : ε} (hquiet : ∀ m ∈ ns, quiet m) (hfails : fails a e) :
      Told quiet last fails (.ok a) ns (.error e)
  /-- An exception. -/
  | raised {ns : List N} {e : ε} (hquiet : ∀ m ∈ ns, quiet m) : Told quiet last fails (.error e) ns (.error e)

/-- The last word and no other. -/
theorem Told.only {a : α} {n : N} {b : β} (hlast : last a n b) : Told quiet last fails (.ok a) [n] (.ok b) := by
  have hsaid : Told quiet last fails (.ok a) ([] ++ [n]) (.ok b) := .said (fun _ hx => (nomatch hx)) hlast
  exact hsaid

/-- One quiet word more. -/
theorem Told.cons {r : Except ε α} {ns : List N} {r' : Except ε β} {n : N} (hn : quiet n)
    (h : Told quiet last fails r ns r') : Told quiet last fails r (n :: ns) r' := by
  have hcons : ∀ {ms : List N}, (∀ m ∈ ms, quiet m) → ∀ m ∈ n :: ms, quiet m := by
    intro ms hms
    exact List.forall_mem_cons.mpr ⟨hn, hms⟩
  cases h with
  | @said a before m b hquiet hlast =>
    have hsaid : Told quiet last fails (.ok a) ((n :: before) ++ [m]) (.ok b) := .said (hcons hquiet) hlast
    exact hsaid
  | failed hquiet hfails => exact .failed (hcons hquiet) hfails
  | raised hquiet => exact .raised (hcons hquiet)

/-- A word is said. -/
theorem said_say (n : N) (r : Except ε (B (V.say n))) (h : History ε B) : said V (⟨V.say n, r⟩ :: h) = n :: said V h :=
  List.filterMap_cons_some (V.heard_say n)

/-- And not done besides. -/
theorem unsaid_say (n : N) (r : Except ε (B (V.say n))) (h : History ε B) : unsaid V (⟨V.say n, r⟩ :: h) = unsaid V h := by
  refine List.filter_cons_of_neg ?_
  simp only [V.heard_say, Option.isNone_some, Bool.false_eq_true, not_false_eq_true]

/-- Another action says nothing. -/
theorem said_act {e : Event ε B} (he : V.heard e.action = none) (h : History ε B) : said V (e :: h) = said V h :=
  List.filterMap_cons_none he

/-- But is done. -/
theorem unsaid_act {e : Event ε B} (he : V.heard e.action = none) (h : History ε B) :
    unsaid V (e :: h) = e :: unsaid V h := by
  refine List.filter_cons_of_pos ?_
  rw [he, Option.isNone_none]

/-- Every run of a program is told by a run of the narrating one, from the same
state to the same state. -/
theorem Narrates.told {p : Program ε B α} {s : Program ε B β} (hn : Narrates V quiet last fails p s)
    (hlistens : Listens M V) {w w' : σ} {h : History ε B} {r : Except ε α} (hrun : Outcome M p w h r w') :
    ∃ h' r', Outcome M s w h' r' w' ∧ unsaid V h' = h ∧ Told quiet last fails r (said V h') r' := by
  induction hn generalizing w h with
  | @done a n b next hlast hnext =>
    cases hrun with
    | done =>
      have hsay : M.Exec ⟨V.say n, .ok (V.taken n)⟩ w' w' := (hlistens n _ w' w').mpr ⟨rfl, rfl⟩
      have hrest : Outcome M (next (.ok (V.taken n))) w' [] (.ok b) w' := by
        rw [hnext]
        exact .done b w'
      refine ⟨[⟨V.say n, .ok (V.taken n)⟩], .ok b, .act hsay hrest, unsaid_say n _ [], ?_⟩
      rw [said_say]
      exact .only hlast
  | @fail a e hfails =>
    cases hrun with
    | done => exact ⟨[], .error e, .raise e w', rfl, .failed (fun _ hx => (nomatch hx)) hfails⟩
  | raise e =>
    cases hrun with
    | raise => exact ⟨[], .error e, .raise e w', rfl, .raised fun _ hx => (nomatch hx)⟩
  | @note p n next hquiet _ ih =>
    obtain ⟨h', r', hrest, hunsaid, htold⟩ := ih hrun
    have hsay : M.Exec ⟨V.say n, .ok (V.taken n)⟩ w w := (hlistens n _ w w).mpr ⟨rfl, rfl⟩
    refine ⟨⟨V.say n, .ok (V.taken n)⟩ :: h', r', .act hsay hrest, ?_, ?_⟩
    · rw [unsaid_say]
      exact hunsaid
    · rw [said_say]
      exact htold.cons hquiet
  | @act a next next' ha _ ih =>
    cases hrun with
    | @act _ _ _ w₁ _ x es _ hstep hrest =>
      obtain ⟨h', r', hrest', hunsaid, htold⟩ := ih x hrest
      refine ⟨⟨a, x⟩ :: h', r', .act hstep hrest', ?_, ?_⟩
      · rw [unsaid_act ha, hunsaid]
      · rw [said_act ha]
        exact htold

/-- Every run of the narrating program tells one. -/
theorem Narrates.tells {p : Program ε B α} {s : Program ε B β} (hn : Narrates V quiet last fails p s)
    (hlistens : Listens M V) {w w' : σ} {h' : History ε B} {r' : Except ε β} (hrun : Outcome M s w h' r' w') :
    ∃ r, Outcome M p w (unsaid V h') r w' ∧ Told quiet last fails r (said V h') r' := by
  induction hn generalizing w h' with
  | @done a n b next hlast hnext =>
    cases hrun with
    | @act _ _ _ w₁ _ x es _ hstep hrest =>
      obtain ⟨rfl, rfl⟩ := (hlistens n x w w₁).mp hstep
      rw [hnext] at hrest
      cases hrest with
      | done =>
        refine ⟨.ok a, ?_, ?_⟩
        · rw [unsaid_say]
          exact .done a _
        · rw [said_say]
          exact .only hlast
  | @fail a e hfails =>
    cases hrun with
    | raise => exact ⟨.ok a, .done a w', .failed (fun _ hx => (nomatch hx)) hfails⟩
  | raise e =>
    cases hrun with
    | raise => exact ⟨.error e, .raise e w', .raised fun _ hx => (nomatch hx)⟩
  | @note p n next hquiet _ ih =>
    cases hrun with
    | @act _ _ _ w₁ _ x es _ hstep hrest =>
      obtain ⟨rfl, rfl⟩ := (hlistens n x w w₁).mp hstep
      obtain ⟨r, hrun', htold⟩ := ih hrest
      refine ⟨r, ?_, ?_⟩
      · rw [unsaid_say]
        exact hrun'
      · rw [said_say]
        exact htold.cons hquiet
  | @act a next next' ha _ ih =>
    cases hrun with
    | @act _ _ _ w₁ _ x es _ hstep hrest =>
      obtain ⟨r, hrun', htold⟩ := ih x hrest
      refine ⟨r, ?_, ?_⟩
      · rw [unsaid_act ha]
        exact .act hstep hrun'
      · rw [said_act ha]
        exact htold

/-- Where every exception is raised again as another, the runs are the same up
to that. -/
theorem outcome_rethrow {p : Program ε B α} {f : ε → ε} {w w' : σ} {h : History ε B} {r : Except ε α} :
    Outcome M (p.catchError fun e => .raise (f e)) w h r w' ↔ ∃ r₀, Outcome M p w h r₀ w' ∧ r = r₀.mapError f := by
  constructor
  · intro hrun
    induction p generalizing w h with
    | done a =>
      cases hrun with
      | done => exact ⟨.ok a, .done a w', rfl⟩
    | raise e =>
      cases hrun with
      | raise => exact ⟨.error e, .raise e w', rfl⟩
    | act a next ih =>
      cases hrun with
      | @act _ _ _ w₁ _ x es _ hstep hrest =>
        obtain ⟨r₀, hrest₀, hr⟩ := ih x hrest
        exact ⟨r₀, .act hstep hrest₀, hr⟩
  · rintro ⟨r₀, hrun, rfl⟩
    induction hrun with
    | done a w => exact .done a w
    | raise e w => exact .raise (f e) w
    | act hstep _ ih => exact .act hstep ih

end Runs

end RagSystem.NarratedPrograms
