import RagSystem.RelyGuarantee
import RagSystem.Storage

/-!
# Writes whose reply is lost

A write may be applied although its caller does not hear so: the reply is lost
and the call raises, or its own retry finds the object written and is refused.
A run in which every caller heard what became of its writes is a run of the
store that loses nothing.
-/

namespace RagSystem.LostWrites

open AtomicProgram ThreadPool VersionedCell Storage

set_option autoImplicit false

variable {K E X τ Ω O α : Type} {P : K → Type} {XB : X → Type}

/-- What becomes of a call. -/
inductive Delivery (Ω : Type) where
  /-- The caller hears what the store did. -/
  | heard (choice : Choice Ω)
  /-- A write is applied, and the call raises. -/
  | lost (message : String)
  /-- A conditional write is applied, and its retry is refused. -/
  | echoed

variable [DecidableEq K]

/-- What the calls do when replies can be lost. -/
def lossy (other : (x : X) → Ω → StoreState P τ → Option (Except (StoreError K E) (XB x) × τ)) :
    Machine (Delivery Ω) (StoreState P τ) (StoreError K E) (StoreAnswer (P := P) XB)
  | a, .heard choice, w => machine other a choice w
  | .putJson k v, .lost m, w => some (.error (.raised m), { w with objects := put w.objects k v })
  | .putJsonConditional k v c, .lost m, w =>
    if (w.objects k).admits c then some (.error (.raised m), { w with objects := put w.objects k v }) else none
  | .putJsonConditional k v c, .echoed, w =>
    if (w.objects k).admits c then some (.error (.preconditionFailed k), { w with objects := put w.objects k v })
    else none
  | _, _, _ => none

/-- A write is applied, and its caller gets an exception. -/
inductive Unheard : Event (StoreError K E) (StoreAnswer (P := P) XB) → StoreState P τ → StoreState P τ → Prop
  /-- A plain write. -/
  | plain (k : K) (v : P k) (err : StoreError K E) (w : StoreState P τ) :
      Unheard ⟨.putJson k v, .error err⟩ w { w with objects := put w.objects k v }
  /-- A conditional one, whose condition held. -/
  | conditional (k : K) (v : P k) (c : Precondition) (err : StoreError K E) (w : StoreState P τ)
      (ha : (w.objects k).admits c = true) :
      Unheard ⟨.putJsonConditional k v c, .error err⟩ w { w with objects := put w.objects k v }

variable {other : (x : X) → Ω → StoreState P τ → Option (Except (StoreError K E) (XB x) × τ)}
  {e : Event (StoreError K E) (StoreAnswer (P := P) XB)} {w w' : StoreState P τ}

/-- A call is heard, or it is a write that is not. -/
theorem exec_lossy (h : (lossy other).Exec e w w') : (machine other).Exec e w w' ∨ Unheard e w w' := by
  obtain ⟨a, r⟩ := e
  obtain ⟨delivery, hd⟩ := h
  cases delivery with
  | heard choice => exact .inl ⟨choice, hd⟩
  | lost m =>
    cases a with
    | putJson k v =>
      cases hd
      exact .inr (.plain k v _ w)
    | putJsonConditional k v c =>
      simp only [lossy] at hd
      split at hd
      · next ha =>
        cases hd
        exact .inr (.conditional k v c _ w ha)
      · contradiction
    | _ => contradiction
  | echoed =>
    cases a with
    | putJsonConditional k v c =>
      simp only [lossy] at hd
      split at hd
      · next ha =>
        cases hd
        exact .inr (.conditional k v c _ w ha)
      · contradiction
    | _ => contradiction

/-- What the other store does, this one may do. -/
theorem exec_heard (h : (machine other).Exec e w w') : (lossy other).Exec e w w' := by
  obtain ⟨choice, hc⟩ := h
  exact ⟨.heard choice, hc⟩

/-- Heard or not, a call leaves the objects as they are or is a write that is
applied. -/
theorem exec_lossy_objects (h : (lossy other).Exec e w w') : w'.objects = w.objects ∨
    (∃ k v r, e = ⟨.putJson k v, r⟩ ∧ w'.objects = put w.objects k v) ∨
    ∃ k v c r, e = ⟨.putJsonConditional k v c, r⟩ ∧ (w.objects k).admits c = true ∧ w'.objects = put w.objects k v := by
  rcases exec_lossy h with hheard | hunheard
  · obtain ⟨a, r⟩ := e
    cases a with
    | getJson k => exact .inl (congrArg StoreState.objects (exec_getJson hheard).1)
    | getJsonWithEtag k => exact .inl (congrArg StoreState.objects (exec_getJsonWithEtag hheard).1)
    | putJson k v =>
      rcases exec_putJson hheard with ⟨-, rfl⟩ | ⟨rfl, -⟩
      · exact .inr (.inl ⟨k, v, r, rfl, rfl⟩)
      · exact .inl rfl
    | putJsonConditional k v c =>
      rcases exec_putJsonConditional hheard with ⟨-, ha, rfl⟩ | ⟨rfl, -⟩
      · exact .inr (.inr ⟨k, v, c, r, rfl, ha, rfl⟩)
      · exact .inl rfl
    | other x =>
      obtain ⟨o, rest, -, rfl⟩ := exec_other hheard
      exact .inl rfl
  · cases hunheard with
    | plain k v err w => exact .inr (.inl ⟨k, v, .error err, rfl, rfl⟩)
    | conditional k v c err w ha => exact .inr (.inr ⟨k, v, c, .error err, rfl, ha, rfl⟩)

/-- So a value is replaced, never removed. -/
theorem exec_lossy_later (h : (lossy other).Exec e w w') : Later w.objects w'.objects := by
  rcases exec_lossy_objects h with hsame | ⟨k, v, r, -, hput⟩ | ⟨k, v, c, r, -, -, hput⟩
  · rw [hsame]
    exact .refl _
  · rw [hput]
    exact later_put _ _ _
  · rw [hput]
    exact later_put _ _ _

section Runs

variable {code : O → StoreProgram E P XB α} {p q : Pool (StoreState P τ) O (StoreError K E) (StoreAnswer (P := P) XB) α}
  {ms : List (Move (StoreState P τ) O (StoreError K E) (StoreAnswer (P := P) XB) α)}

/-- The caller of a write heard what became of it: where it got an exception,
the object is as it was. -/
def heard (m : Move (StoreState P τ) O (StoreError K E) (StoreAnswer (P := P) XB) α) : Bool :=
  match m.event with
  | ⟨.putJson k _, .error _⟩ => (m.target.world.objects k).generation = (m.source.world.objects k).generation
  | ⟨.putJsonConditional k _ _, .error _⟩ => (m.target.world.objects k).generation = (m.source.world.objects k).generation
  | _ => true

/-- A run in which everything is heard is one of the store that loses nothing. -/
theorem run_of_heard (hrun : Run (lossy other) code p ms q) (hheard : ∀ m ∈ ms, heard m = true) :
    Run (machine other) code p ms q := by
  induction hrun with
  | refl => exact .refl p
  | start _ t o hfree ih => exact .start (ih hheard) t o hfree
  | @move ms m _ hm ih =>
    refine .move (ih fun m' hm' => hheard m' (List.mem_append_left _ hm')) ?_
    have hlast := hheard m (List.mem_append_right _ (List.mem_singleton_self m))
    cases hm with
    | act hthread hprogram hstep =>
      refine .act hthread hprogram ((exec_lossy hstep).resolve_right fun hunheard => ?_)
      cases hunheard with
      | plain k v err =>
        have hsame := of_decide_eq_true hlast
        simp only [Pool.advance, put_self, Cell.write_generation] at hsame
        omega
      | conditional k v c err _ ha =>
        have hsame := of_decide_eq_true hlast
        simp only [Pool.advance, put_self, Cell.write_generation] at hsame
        omega

/-- A run alone of that store is one of this. -/
theorem outcome_lossy {p : StoreProgram E P XB α} {es : History (StoreError K E) (StoreAnswer (P := P) XB)}
    {r : Except (StoreError K E) α} (hrun : Outcome (machine other) p w es r w') : Outcome (lossy other) p w es r w' := by
  induction hrun with
  | done a w => exact .done a w
  | raise e w => exact .raise e w
  | act hstep _ ih => exact .act (exec_heard hstep) ih

end Runs

end RagSystem.LostWrites
