import RagSystem.ThreadPool

/-!
# Rely–guarantee reasoning about atomic programs

A judgement says what every action of a program is, and how the program ends,
when other threads may change the state between any two of its actions as the
rely allows. Knowledge about the program's own past is part of the judgement.
The rules follow the program; the two soundness theorems carry a judgement to
one thread of a run, and to a run in which the program is alone.
-/

namespace RagSystem.RelyGuarantee

open AtomicProgram ThreadPool

set_option autoImplicit false

variable {Ω σ ε O α β A : Type} {B : A → Type}

/-- A property of one action: the program's past, the action with its answer,
and the states before and after. -/
abbrev StepPredicate (σ ε : Type) {A : Type} (B : A → Type) :=
  History ε B → Event ε B → σ → σ → Prop

/-- What is known at the end of a program: its past, its result, the state. -/
abbrev Ending (σ ε : Type) {A : Type} (B : A → Type) (α : Type) :=
  History ε B → Except ε α → σ → Prop

/-- Actions happen as `T` says; between them others change the state as `R`
says; then every action meets `G` and the program ends as `Q` says. -/
def Sat (T G : StepPredicate σ ε B) (R : σ → σ → Prop) (Q : Ending σ ε B α) :
    Program ε B α → History ε B → σ → Prop
  | .done a, h, w => ∀ w', R w w' → Q h (.ok a) w'
  | .raise e, h, w => ∀ w', R w w' → Q h (.error e) w'
  | .act a next, h, w => ∀ w', R w w' → ∀ r w'', T h ⟨a, r⟩ w' w'' →
      G h ⟨a, r⟩ w' w'' ∧ Sat T G R Q (next r) (h ++ [⟨a, r⟩]) w''

/-- The rely may happen any number of times, or not at all. -/
structure IsRely (R : σ → σ → Prop) : Prop where
  /-- Nothing happened. -/
  refl : ∀ w, R w w
  /-- One change after another. -/
  trans : ∀ {w w' w''}, R w w' → R w' w'' → R w w''

/-- Nothing happens between the actions of a program that runs alone. -/
theorem IsRely.eq : IsRely (Eq : σ → σ → Prop) := ⟨fun _ => rfl, Eq.trans⟩

section Rules

variable {T G : StepPredicate σ ε B} {R : σ → σ → Prop}

/-- A judgement survives what others do. -/
theorem Sat.stable (hR : IsRely R) {Q : Ending σ ε B α} {p : Program ε B α} {h : History ε B}
    {w w' : σ} (hp : Sat T G R Q p h w) (hw : R w w') : Sat T G R Q p h w' := by
  cases p with
  | done a => exact fun v hv => hp v (hR.trans hw hv)
  | raise e => exact fun v hv => hp v (hR.trans hw hv)
  | act a next => exact fun v hv => hp v (hR.trans hw hv)

/-- Weaken the guarantee and the ending. -/
theorem Sat.weaken {G' : StepPredicate σ ε B} {Q Q' : Ending σ ε B α} {p : Program ε B α}
    {h : History ε B} {w : σ} (hp : Sat T G R Q p h w)
    (hG : ∀ h e w w', T h e w w' → G h e w w' → G' h e w w')
    (hQ : ∀ h r w, Q h r w → Q' h r w) : Sat T G' R Q' p h w := by
  induction p generalizing h w with
  | done a => exact fun v hv => hQ _ _ _ (hp v hv)
  | raise e => exact fun v hv => hQ _ _ _ (hp v hv)
  | act a next ih =>
    intro v hv r v' ht
    obtain ⟨hg, hn⟩ := hp v hv r v' ht
    exact ⟨hG _ _ _ _ ht hg, ih r hn⟩

/-- Let the actions happen in fewer ways. -/
theorem Sat.restrict {T' : StepPredicate σ ε B} {Q : Ending σ ε B α} {p : Program ε B α} {h : History ε B} {w : σ}
    (hp : Sat T G R Q p h w) (hT : ∀ h e w w', T' h e w w' → T h e w w') : Sat T' G R Q p h w := by
  induction p generalizing h w with
  | done a => exact hp
  | raise e => exact hp
  | act a next ih =>
    intro v hv r v' ht
    obtain ⟨hg, hn⟩ := hp v hv r v' (hT _ _ _ _ ht)
    exact ⟨hg, ih r hn⟩

/-- Weaken the ending alone. -/
theorem Sat.ending {Q Q' : Ending σ ε B α} {p : Program ε B α} {h : History ε B} {w : σ}
    (hp : Sat T G R Q p h w) (hQ : ∀ h r w, Q h r w → Q' h r w) : Sat T G R Q' p h w :=
  hp.weaken (fun _ _ _ _ _ hg => hg) hQ

/-- Two judgements about one program, taken together. -/
theorem Sat.both {G' : StepPredicate σ ε B} {Q Q' : Ending σ ε B α} {p : Program ε B α}
    {h : History ε B} {w : σ} (hp : Sat T G R Q p h w) (hp' : Sat T G' R Q' p h w) :
    Sat T (fun h e w w' => G h e w w' ∧ G' h e w w') R (fun h r w => Q h r w ∧ Q' h r w) p h w := by
  induction p generalizing h w with
  | done a => exact fun v hv => ⟨hp v hv, hp' v hv⟩
  | raise e => exact fun v hv => ⟨hp v hv, hp' v hv⟩
  | act a next ih =>
    intro v hv r v' ht
    obtain ⟨hg, hn⟩ := hp v hv r v' ht
    obtain ⟨hg', hn'⟩ := hp' v hv r v' ht
    exact ⟨⟨hg, hg'⟩, ih r hn hn'⟩

/-- Returning. -/
theorem Sat.done {Q : Ending σ ε B α} {a : α} {h : History ε B} {w : σ}
    (hq : ∀ w', R w w' → Q h (.ok a) w') : Sat T G R Q (.done a) h w := hq

/-- Raising. -/
theorem Sat.raise {Q : Ending σ ε B α} {e : ε} {h : History ε B} {w : σ}
    (hq : ∀ w', R w w' → Q h (.error e) w') : Sat T G R Q (.raise e) h w := hq

/-- Sequencing: the second program starts from any normal ending of the first. -/
theorem Sat.bind (hR : IsRely R) {Q : Ending σ ε B α} {P : Ending σ ε B β}
    {p : Program ε B α} {f : α → Program ε B β} {h : History ε B} {w : σ}
    (hp : Sat T G R Q p h w)
    (hok : ∀ h a w, Q h (.ok a) w → Sat T G R P (f a) h w)
    (herr : ∀ h e w, Q h (.error e) w → P h (.error e) w) : Sat T G R P (p.bind f) h w := by
  induction p generalizing h w with
  | done a => exact hok _ _ _ (hp w (hR.refl w))
  | raise e => exact fun v hv => herr _ _ _ (hp v hv)
  | act a next ih =>
    intro v hv r v' ht
    obtain ⟨hg, hn⟩ := hp v hv r v' ht
    exact ⟨hg, ih r hn⟩

/-- Handling: the handler starts from any exceptional ending of the body. -/
theorem Sat.catchError (hR : IsRely R) {Q Q' : Ending σ ε B α}
    {p : Program ε B α} {f : ε → Program ε B α} {h : History ε B} {w : σ}
    (hp : Sat T G R Q p h w)
    (hok : ∀ h a w, Q h (.ok a) w → Q' h (.ok a) w)
    (herr : ∀ h e w, Q h (.error e) w → Sat T G R Q' (f e) h w) :
    Sat T G R Q' (p.catchError f) h w := by
  induction p generalizing h w with
  | done a => exact fun v hv => hok _ _ _ (hp v hv)
  | raise e => exact herr _ _ _ (hp w (hR.refl w))
  | act a next ih =>
    intro v hv r v' ht
    obtain ⟨hg, hn⟩ := hp v hv r v' ht
    exact ⟨hg, ih r hn⟩

/-- One action: its guarantee, and what is known once others had their say. -/
theorem Sat.perform {a : A} {Q : Ending σ ε B (B a)} {h : History ε B} {w : σ}
    (hstep : ∀ w', R w w' → ∀ r w'', T h ⟨a, r⟩ w' w'' → G h ⟨a, r⟩ w' w'' ∧
      ∀ v, R w'' v → Q (h ++ [⟨a, r⟩]) r v) : Sat T G R Q (perform a) h w := by
  intro w' hw r w'' ht
  obtain ⟨hg, hq⟩ := hstep w' hw r w'' ht
  exact ⟨hg, by cases r <;> exact hq⟩

/-- What more actions cannot falsify of a past stays true of it. -/
theorem Sat.of_past {P : History ε B → Prop} (hP : ∀ h e, P h → P (h ++ [e])) (p : Program ε B α)
    {h : History ε B} {w : σ} (hh : P h) : Sat T (fun _ _ _ _ => True) R (fun h _ _ => P h) p h w := by
  induction p generalizing h w with
  | done a => exact fun _ _ => hh
  | raise e => exact fun _ _ => hh
  | act a next ih => exact fun _ _ r _ _ => ⟨trivial, ih r (hP _ _ hh)⟩

/-- Every exception the program can end with is one of `P`, if those its
actions are answered with are. -/
def Raises (P : ε → Prop) : Program ε B α → Prop
  | .done _ => True
  | .raise e => P e
  | .act _ next => ∀ r, (∀ e, r = .error e → P e) → Raises P (next r)

/-- Sequencing raises what the two programs raise. -/
theorem Raises.bind {P : ε → Prop} {p : Program ε B α} {f : α → Program ε B β} (hp : Raises P p)
    (hf : ∀ a, Raises P (f a)) : Raises P (p.bind f) := by
  induction p with
  | done a => exact hf a
  | raise e => exact hp
  | act a next ih => exact fun r hr => ih r (hp r hr)

/-- A handler raises what it raises on what the body may raise. -/
theorem Raises.catchError {P : ε → Prop} {p : Program ε B α} {f : ε → Program ε B α}
    (hf : ∀ e, Raises P (f e)) : Raises P (p.catchError f) := by
  induction p with
  | done a => trivial
  | raise e => exact hf e
  | act a next ih => exact fun r _ => ih r

/-- One action raises what it is answered with. -/
theorem Raises.perform {P : ε → Prop} {a : A} : Raises P (perform a : Program ε B (B a)) := by
  intro r hr
  cases r with
  | ok b => trivial
  | error e => exact hr e rfl

/-- A program ends with the exceptions it raises only. -/
theorem Raises.sat {P : ε → Prop} (hT : ∀ h e w w', T h e w w' → ∀ err, e.answer = .error err → P err)
    {p : Program ε B α} (hp : Raises P p) (h : History ε B) (w : σ) :
    Sat T (fun _ _ _ _ => True) R (fun _ r _ => ∀ e, r = .error e → P e) p h w := by
  induction p generalizing h w with
  | done a => exact fun _ _ => nofun
  | raise e =>
    intro w' _ e' he
    rw [Except.error.injEq] at he
    exact he ▸ hp
  | act a next ih => exact fun w' _ r w'' ht => ⟨trivial, ih r (hp r (hT _ _ _ _ ht)) _ _⟩

end Rules

/-- An assertion over a program's own past and the state. -/
abbrev Assertion (σ ε : Type) {A : Type} (B : A → Type) := History ε B → σ → Prop

/-- A program whose actions all meet `G` and that keeps the assertion `I`,
however it ends. -/
def Keeps (T G : StepPredicate σ ε B) (R : σ → σ → Prop) (I : Assertion σ ε B)
    (p : Program ε B α) : Prop :=
  ∀ h w, I h w → Sat T G R (fun h _ w => I h w) p h w

/-- Others cannot falsify the assertion. -/
def Stable (R : σ → σ → Prop) (I : Assertion σ ε B) : Prop :=
  ∀ h w w', R w w' → I h w → I h w'

section Invariants

variable {T G : StepPredicate σ ε B} {R : σ → σ → Prop} {I : Assertion σ ε B}

/-- Returning keeps every stable assertion. -/
theorem Keeps.done (hI : Stable R I) (a : α) : Keeps T G R I (.done a : Program ε B α) :=
  fun h w hi w' hw => hI h w w' hw hi

/-- Raising keeps every stable assertion. -/
theorem Keeps.raise (hI : Stable R I) (e : ε) : Keeps T G R I (.raise e : Program ε B α) :=
  fun h w hi w' hw => hI h w w' hw hi

/-- Programs in sequence keep what each of them keeps. -/
theorem Keeps.bind (hR : IsRely R) {p : Program ε B α} {f : α → Program ε B β}
    (hp : Keeps T G R I p) (hf : ∀ a, Keeps T G R I (f a)) : Keeps T G R I (p.bind f) :=
  fun h w hi => (hp h w hi).bind hR (fun h a w => hf a h w) fun _ _ _ hi => hi

/-- A handled program keeps what the body and the handler keep. -/
theorem Keeps.catchError (hR : IsRely R) {p : Program ε B α} {f : ε → Program ε B α}
    (hp : Keeps T G R I p) (hf : ∀ e, Keeps T G R I (f e)) : Keeps T G R I (p.catchError f) :=
  fun h w hi => (hp h w hi).catchError hR (fun _ _ _ hi => hi) fun h e w => hf e h w

/-- One action keeps the assertion when the machine's step does. -/
theorem Keeps.perform (hI : Stable R I) {a : A}
    (hstep : ∀ h w r w', I h w → T h ⟨a, r⟩ w w' →
      G h ⟨a, r⟩ w w' ∧ I (h ++ [⟨a, r⟩]) w') : Keeps T G R I (perform a) := by
  intro h w hi
  refine Sat.perform fun w' hw r w'' ht => ?_
  obtain ⟨hg, hi'⟩ := hstep h w' r w'' (hI h w w' hw hi) ht
  exact ⟨hg, fun v hv => hI _ _ _ hv hi'⟩

/-- A program keeps the assertion when every action it uses does. -/
theorem Keeps.of_uses (hI : Stable R I) {S : A → Prop} {p : Program ε B α} (hp : p.Uses S)
    (hstep : ∀ h e w w', S e.action → I h w → T h e w w' → G h e w w' ∧ I (h ++ [e]) w') :
    Keeps T G R I p := by
  induction p with
  | done a => exact .done hI a
  | raise e => exact .raise hI e
  | act a next ih =>
    intro h w hi w' hw r w'' ht
    obtain ⟨hg, hn⟩ := hstep h ⟨a, r⟩ w' w'' hp.1 (hI h w w' hw hi) ht
    exact ⟨hg, ih r (hp.2 r) _ _ hn⟩

/-- Programs put together from the programs of `L` by sequencing and handling. -/
inductive Composed (L : (β : Type) → Program ε B β → Prop) : {α : Type} → Program ε B α → Prop
  /-- One of the parts. -/
  | part {α : Type} {p : Program ε B α} (h : L α p) : Composed L p
  /-- Returning. -/
  | done {α : Type} (a : α) : Composed L (.done a)
  /-- Raising. -/
  | raise {α : Type} (e : ε) : Composed L (.raise e : Program ε B α)
  /-- One after the other. -/
  | bind {α β : Type} {p : Program ε B α} {f : α → Program ε B β} (hp : Composed L p)
      (hf : ∀ a, Composed L (f a)) : Composed L (p.bind f)
  /-- One with a handler. -/
  | catchError {α : Type} {p : Program ε B α} {f : ε → Program ε B α} (hp : Composed L p)
      (hf : ∀ e, Composed L (f e)) : Composed L (p.catchError f)

/-- Parts may be taken from a larger stock. -/
theorem Composed.mono {L L' : (β : Type) → Program ε B β → Prop} (hL : ∀ β p, L β p → L' β p)
    {p : Program ε B α} (hp : Composed L p) : Composed L' p := by
  induction hp with
  | part h => exact .part (hL _ _ h)
  | done a => exact .done a
  | raise e => exact .raise e
  | bind _ _ ihp ihf => exact .bind ihp ihf
  | catchError _ _ ihp ihf => exact .catchError ihp ihf

/-- What all parts use, the whole uses. -/
theorem Composed.uses {L : (β : Type) → Program ε B β → Prop} {S : A → Prop}
    (hL : ∀ β p, L β p → p.Uses S) {p : Program ε B α} (hp : Composed L p) : p.Uses S := by
  induction hp with
  | part h => exact hL _ _ h
  | done a => trivial
  | raise e => trivial
  | bind _ _ ihp ihf => exact ihp.bind ihf
  | catchError _ _ ihp ihf => exact ihp.catchError ihf

/-- What all parts keep, the whole keeps. -/
theorem Composed.keeps {L : (β : Type) → Program ε B β → Prop} (hR : IsRely R) (hI : Stable R I)
    (hL : ∀ β p, L β p → Keeps T G R I p) {p : Program ε B α} (hp : Composed L p) :
    Keeps T G R I p := by
  induction hp with
  | part h => exact hL _ _ h
  | done a => exact .done hI a
  | raise e => exact .raise hI e
  | bind _ _ ihp ihf => exact ihp.bind hR ihf
  | catchError _ _ ihp ihf => exact ihp.catchError hR ihf

end Invariants

section Triples

variable {T G : StepPredicate σ ε B} {R : σ → σ → Prop} {I P P' : σ → Prop} {Q Q' : α → σ → Prop} {Q'' : β → σ → Prop}

/-- Started where `P` holds, the program keeps the invariant `I` however it
ends, and where it returns `a`, `Q a` holds. -/
def Brings (T G : StepPredicate σ ε B) (R : σ → σ → Prop) (I P : σ → Prop) (Q : α → σ → Prop)
    (p : Program ε B α) : Prop :=
  ∀ h w, I w → P w → Sat T G R (fun _ r w => I w ∧ ∀ a, r = .ok a → Q a w) p h w

/-- Less may be needed, and more promised. -/
theorem Brings.weaken {p : Program ε B α} (hp : Brings T G R I P Q p) (hP : ∀ w, P' w → P w)
    (hQ : ∀ a w, Q a w → Q' a w) : Brings T G R I P' Q' p :=
  fun h w hi hpre => (hp h w hi (hP w hpre)).ending fun _ _ w hq => ⟨hq.1, fun a ha => hQ a w (hq.2 a ha)⟩

/-- Returning what holds already. -/
theorem Brings.done (hI : ∀ w w', R w w' → I w → I w') {a : α} (hQ : ∀ w w', R w w' → Q a w → Q a w') :
    Brings T G R I (Q a) Q (.done a : Program ε B α) := by
  intro h w hi hq w' hw
  refine ⟨hI w w' hw hi, fun a' ha => ?_⟩
  injection ha with ha
  exact ha ▸ hQ w w' hw hq

/-- Raising promises nothing. -/
theorem Brings.raise (hI : ∀ w w', R w w' → I w → I w') (e : ε) : Brings T G R I P Q (.raise e : Program ε B α) :=
  fun _ w hi _ w' hw => ⟨hI w w' hw hi, fun _ ha => by contradiction⟩

/-- Sequencing. -/
theorem Brings.bind (hR : IsRely R) {p : Program ε B α} {f : α → Program ε B β} (hp : Brings T G R I P Q p)
    (hf : ∀ a, Brings T G R I (Q a) Q'' (f a)) : Brings T G R I P Q'' (p.bind f) :=
  fun h w hi hpre => (hp h w hi hpre).bind hR (fun h a w hq => hf a h w hq.1 (hq.2 a rfl)) fun _ _ _ hq =>
    ⟨hq.1, fun _ ha => by contradiction⟩

/-- Handling: what held at the start need not hold at the handler. -/
theorem Brings.catchError (hR : IsRely R) {p : Program ε B α} {f : ε → Program ε B α} (hp : Brings T G R I P Q p)
    (hf : ∀ e, Brings T G R I (fun _ => True) Q (f e)) : Brings T G R I P Q (p.catchError f) :=
  fun h w hi hpre => (hp h w hi hpre).catchError hR (fun _ _ _ hq => hq) fun h e w hq => hf e h w hq.1 trivial

/-- One action. -/
theorem Brings.perform (hI : ∀ w w', R w w' → I w → I w') (hP : ∀ w w', R w w' → P w → P w') {a : A}
    {Q : B a → σ → Prop} (hQ : ∀ b w w', R w w' → Q b w → Q b w')
    (hstep : ∀ h r w w', I w → P w → T h ⟨a, r⟩ w w' → G h ⟨a, r⟩ w w' ∧ I w' ∧ ∀ b, r = .ok b → Q b w') :
    Brings T G R I P Q (perform a : Program ε B (B a)) := by
  intro h w hi hpre
  refine Sat.perform fun w' hw r w'' ht => ?_
  obtain ⟨hg, hi', hq⟩ := hstep h r w' w'' (hI w w' hw hi) (hP w w' hw hpre) ht
  exact ⟨hg, fun v hv => ⟨hI w'' v hv hi', fun b hb => hQ b w'' v hv (hq b hb)⟩⟩

/-- A program of actions that all keep `P` keeps it. -/
theorem Brings.of_uses (hI : ∀ w w', R w w' → I w → I w') (hP : ∀ w w', R w w' → P w → P w') {S : A → Prop}
    {p : Program ε B α} (hp : p.Uses S)
    (hstep : ∀ h e w w', S e.action → I w → P w → T h e w w' → G h e w w' ∧ I w' ∧ P w') :
    Brings T G R I P (fun _ => P) p := by
  have hkeeps : Keeps T G R (fun _ w => I w ∧ P w) p := by
    refine Keeps.of_uses (fun _ w w' hw hi => ⟨hI w w' hw hi.1, hP w w' hw hi.2⟩) hp fun h e w w' hs hi ht => ?_
    obtain ⟨hg, hi', hp'⟩ := hstep h e w w' hs hi.1 hi.2 ht
    exact ⟨hg, hi', hp'⟩
  exact fun h w hi hpre => (hkeeps h w ⟨hi, hpre⟩).ending fun _ _ _ hq => ⟨hq.1, fun _ _ => hq.2⟩

/-- What is known of the value, whatever else happens, is known besides. -/
theorem Brings.both {p : Program ε B α} {V : α → Prop} (hp : Brings T G R I P Q p)
    (hV : ∀ h w, Sat T (fun _ _ _ _ => True) R (fun _ r _ => ∀ a, r = .ok a → V a) p h w) :
    Brings T G R I P (fun a w => Q a w ∧ V a) p :=
  fun h w hi hpre => ((hp h w hi hpre).both (hV h w)).weaken (fun _ _ _ _ _ hg => hg.1) fun _ _ _ hq =>
    ⟨hq.1.1, fun a ha => ⟨hq.1.2 a ha, hq.2 a ha⟩⟩

end Triples

section Soundness

/-- What a judgement says of a thread that has ended. -/
theorem Sat.ended {T G : StepPredicate σ ε B} {R : σ → σ → Prop} (hR : IsRely R) {Q : Ending σ ε B α}
    {th : Thread O ε B α} {w : σ} {res : Except ε α} (hp : Sat T G R Q th.program th.past w)
    (hres : th.result = some res) : Q th.past res w := by
  unfold Thread.result at hres
  split at hres
  · next a ha =>
    rw [ha] at hp
    rw [Option.some.injEq] at hres
    exact hres ▸ hp w (hR.refl w)
  · next e he =>
    rw [he] at hp
    rw [Option.some.injEq] at hres
    exact hres ▸ hp w (hR.refl w)
  · contradiction

variable {M : Machine Ω σ ε B} {code : O → Program ε B α}

/-- A program run alone ends as its judgement says, and every one of its
actions meets the guarantee where it is taken. -/
theorem Sat.outcome {G : StepPredicate σ ε B} {R : σ → σ → Prop} (hR : ∀ w, R w w)
    {Q : Ending σ ε B α} {p : Program ε B α} {h es : History ε B} {w w' : σ} {r : Except ε α}
    (hp : Sat (fun _ e w w' => M.Exec e w w') G R Q p h w) (ho : Outcome M p w es r w') :
    Q (h ++ es) r w' := by
  induction ho generalizing h with
  | done a w => simpa only [List.append_nil] using hp w (hR w)
  | raise e w => simpa only [List.append_nil] using hp w (hR w)
  | act hstep _ ih =>
    have hn := (hp _ (hR _) _ _ hstep).2
    simpa only [List.append_assoc, List.singleton_append] using ih hn

/-- So does one whose actions all happened as the judgement has them happen. -/
theorem Sat.outcome_of {T G : StepPredicate σ ε B} {R : σ → σ → Prop} (hR : ∀ w, R w w) {S : Event ε B → Prop}
    (hT : ∀ h e w w', S e → M.Exec e w w' → T h e w w') {Q : Ending σ ε B α} {p : Program ε B α} {h es : History ε B}
    {w w' : σ} {r : Except ε α} (hp : Sat T G R Q p h w) (ho : Outcome M p w es r w') (hes : ∀ e ∈ es, S e) :
    Q (h ++ es) r w' := by
  induction ho generalizing h with
  | done a w => simpa only [List.append_nil] using hp w (hR w)
  | raise e w => simpa only [List.append_nil] using hp w (hR w)
  | act hstep _ ih =>
    have hn := (hp _ (hR _) _ _ (hT _ _ _ _ (hes _ List.mem_cons_self) hstep)).2
    simpa only [List.append_assoc, List.singleton_append] using ih hn fun e he => hes e (List.mem_cons_of_mem _ he)

/-- One thread of a run: as long as the others keep to its rely and its own
actions happen as `T` says, its judgement still holds of what it has left, and
every action it took met the guarantee. -/
theorem thread_sound {T G : StepPredicate σ ε B} {R : σ → σ → Prop} (hR : IsRely R)
    {Q : Ending σ ε B α} {p q : Pool σ O ε B α} {ms : List (Move σ O ε B α)}
    (hrun : Run M code p ms q) {t : ℕ} {th : Thread O ε B α} (ht : p.threads t = some th)
    (hsat : Sat T G R Q th.program th.past p.world)
    (hown : ∀ m ∈ ms, m.thread = t → T m.runner.past m.event m.source.world m.target.world)
    (hothers : ∀ m ∈ ms, m.thread ≠ t → R m.source.world m.target.world) :
    (∃ th', q.threads t = some th' ∧ Sat T G R Q th'.program th'.past q.world) ∧
      ∀ m ∈ ms, m.thread = t → G m.runner.past m.event m.source.world m.target.world := by
  induction hrun with
  | refl => exact ⟨⟨th, ht, hsat⟩, fun m hm => absurd hm (List.not_mem_nil)⟩
  | @start q ms _ u o hfree ih =>
    obtain ⟨⟨th', ht', hs⟩, hg⟩ := ih hown hothers
    refine ⟨⟨th', ?_, hs⟩, hg⟩
    have hne : t ≠ u := by rintro rfl; rw [hfree] at ht'; contradiction
    simpa only [Pool.start, Function.update_of_ne hne] using ht'
  | @move ms m _ hm ih =>
    have hin : m ∈ ms ++ [m] := List.mem_append_right _ (List.mem_singleton_self _)
    obtain ⟨⟨th', ht', hs⟩, hg⟩ := ih (fun m hm => hown m (List.mem_append_left _ hm))
      fun m hm => hothers m (List.mem_append_left _ hm)
    have hsplit : ∀ G' : Move σ O ε B α → Prop, (∀ m ∈ ms, G' m) → G' m →
        ∀ m' ∈ ms ++ [m], G' m' := by
      intro G' h₁ h₂ m' hm'
      rcases List.mem_append.mp hm' with h | h
      · exact h₁ m' h
      · rw [List.mem_singleton] at h; exact h ▸ h₂
    have ho := hown m hin
    have hr := hothers m hin
    cases hm with
    | @act q u th₀ a next r w hthread hprogram hstep =>
      by_cases hu : u = t
      · subst hu
        rw [hthread, Option.some.injEq] at ht'
        subst ht'
        rw [hprogram] at hs
        obtain ⟨hg', hn⟩ := hs _ (hR.refl _) r w (ho rfl)
        refine ⟨⟨⟨th₀.operation, th₀.past ++ [⟨a, r⟩], next r⟩, ?_, hn⟩, ?_⟩
        · simp only [Pool.advance, Function.update_self]
        · exact hsplit (fun m => m.thread = u → G m.runner.past m.event m.source.world m.target.world)
            hg fun _ => hg'
      · refine ⟨⟨th', ?_, hs.stable hR (hr hu)⟩, ?_⟩
        · simpa only [Pool.advance, Function.update_of_ne (Ne.symm hu)] using ht'
        · exact hsplit (fun m => m.thread = t → G m.runner.past m.event m.source.world m.target.world)
            hg fun h => absurd h hu

/-- A whole run from a pool with nothing started: when every operation's code
is judged from every state of the invariant, and what it guarantees is what
all rely on, then every action of the run meets its operation's guarantee and
every thread's judgement still holds of what it has left. -/
theorem run_sound {T : StepPredicate σ ε B} {G : O → StepPredicate σ ε B} {R : σ → σ → Prop}
    {Q : O → Ending σ ε B α} {I : σ → Prop} (hR : IsRely R)
    (hcode : ∀ o w, I w → Sat T (G o) R (Q o) (code o) [] w)
    (hrely : ∀ o h e w w', G o h e w w' → R w w')
    (hI : ∀ w w', R w w' → I w → I w')
    {p q : Pool σ O ε B α} {ms : List (Move σ O ε B α)} (hrun : Run M code p ms q)
    (hidle : ∀ t, p.threads t = none) (h0 : I p.world)
    (hT : ∀ m ∈ ms, T m.runner.past m.event m.source.world m.target.world) :
    (∀ t th, q.threads t = some th → Sat T (G th.operation) R (Q th.operation) th.program th.past q.world) ∧
      (∀ m ∈ ms, G m.runner.operation m.runner.past m.event m.source.world m.target.world) ∧ I q.world := by
  induction hrun with
  | refl =>
    refine ⟨fun t th ht => ?_, fun m hm => absurd hm List.not_mem_nil, h0⟩
    rw [hidle t] at ht
    contradiction
  | @start q ms _ u o hfree ih =>
    obtain ⟨hs, hg, hi⟩ := ih hT
    refine ⟨fun t th ht => ?_, hg, hi⟩
    by_cases hu : t = u
    · subst hu
      simp only [Pool.start, Function.update_self, Option.some.injEq] at ht
      subst ht
      exact hcode o _ hi
    · simp only [Pool.start, Function.update_of_ne hu] at ht
      exact hs t th ht
  | @move ms m _ hm ih =>
    obtain ⟨hs, hg, hi⟩ := ih fun m hm => hT m (List.mem_append_left _ hm)
    have ht₀ := hT m (List.mem_append_right _ (List.mem_singleton_self _))
    cases hm with
    | @act q u th₀ a next r w hthread hprogram hstep =>
      have h₀ := hs u th₀ hthread
      rw [hprogram] at h₀
      obtain ⟨hg', hn⟩ := h₀ _ (hR.refl _) r w ht₀
      have hrel := hrely _ _ _ _ _ hg'
      refine ⟨fun t th ht => ?_, fun m hm => ?_, hI _ _ hrel hi⟩
      · by_cases hu : t = u
        · subst hu
          simp only [Pool.advance, Function.update_self, Option.some.injEq] at ht
          subst ht
          exact hn
        · simp only [Pool.advance, Function.update_of_ne hu] at ht
          exact (hs t th ht).stable hR hrel
      · rcases List.mem_append.mp hm with hin | hin
        · exact hg m hin
        · rw [List.mem_singleton] at hin
          subst hin
          exact hg'

end Soundness

end RagSystem.RelyGuarantee
