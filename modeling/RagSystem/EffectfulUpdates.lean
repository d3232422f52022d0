import RagSystem.CompareAndSwap

/-!
# Compare-and-swap loops whose update makes calls

The update a caller hands to `update_json_cas` may read the clock. It runs
between the read and the conditional write, once in every attempt, and others
may write meanwhile. What is written was still computed from exactly the
content it replaces.
-/

namespace RagSystem.EffectfulUpdates

open AtomicProgram RelyGuarantee VersionedCell Storage CompareAndSwap

set_option autoImplicit false

variable {K E X τ Ω : Type} {P : K → Type} {XB : X → Type}

/-- `update_json_cas` with an update that makes calls of its own. -/
def updateJsonCasBy (k : K) (mutate : Option (P k) → StoreProgram E P XB (P k)) : ℕ → StoreProgram E P XB (P k)
  | 0 => throw (.preconditionFailed k)
  | attempts + 1 => do
    let current ← getJsonWithEtag k
    let payload ← mutate (current.map Prod.fst)
    let written ← putUnlessRaced k payload (conditionOf current)
    if written then pure payload else updateJsonCasBy k mutate attempts

/-- An update that only computes. -/
def computed {k : K} (mutate : Option (P k) → Except (StoreError K E) (P k)) (current : Option (P k)) :
    StoreProgram E P XB (P k) :=
  match mutate current with
  | .ok payload => pure payload
  | .error e => throw e

/-- With such an update the loop is the plain one. -/
theorem updateJsonCasBy_computed (k : K) (mutate : Option (P k) → Except (StoreError K E) (P k)) (n : ℕ) :
    (updateJsonCasBy k (computed mutate) n : StoreProgram E P XB (P k)) = updateJsonCas k mutate n := by
  induction n with
  | zero => rfl
  | succ n ih =>
    refine congrArg (Program.bind _) (funext fun current => ?_)
    have hupdate : (computed mutate (current.map Prod.fst) : StoreProgram E P XB (P k)) =
        match mutate (current.map Prod.fst) with
        | .ok payload => .done payload
        | .error e => .raise e := rfl
    rw [hupdate]
    cases mutate (current.map Prod.fst) with
    | error e => rfl
    | ok payload =>
      have hretry (written : Bool) : (if written then pure payload else updateJsonCasBy k (computed mutate) n :
          StoreProgram E P XB (P k)) = if written then pure payload else updateJsonCas k mutate n := by rw [ih]
      exact congrArg (Program.bind _) (funext hretry)

section Loop

variable [DecidableEq K]
  {other : (x : X) → Ω → StoreState P τ → Option (Except (StoreError K E) (XB x) × τ)}
  {T G : StepPredicate (StoreState P τ) (StoreError K E) (StoreAnswer XB)}
  {R : StoreState P τ → StoreState P τ → Prop} {k : K}
  {I : Assertion (StoreState P τ) (StoreError K E) (StoreAnswer (P := P) XB)}

/-- `cell` was read, and since then `k` has only been written. -/
def Since (k : K) (cell : Cell (P k)) (I : Assertion (StoreState P τ) (StoreError K E) (StoreAnswer (P := P) XB)) :
    Assertion (StoreState P τ) (StoreError K E) (StoreAnswer (P := P) XB) :=
  fun h w => I h w ∧ cell.Later (w.objects k)

omit [DecidableEq K] in
/-- Others cannot change that. -/
theorem Since.stable (hlater : ∀ w w', R w w' → (w.objects k).Later (w'.objects k)) (hI : Stable R I)
    (cell : Cell (P k)) : Stable R (Since k cell I) :=
  fun h w w' hw hi => ⟨hI h w w' hw hi.1, hi.2.trans (hlater w w' hw)⟩

/-- The loop keeps an assertion that its reads, its refused and raising writes,
its update and its one write keep. `U` says what the update makes of what was
read. -/
theorem updateJsonCasBy_keeps {mutate : Option (P k) → StoreProgram E P XB (P k)} {U : Option (P k) → P k → Prop}
    (hR : IsRely R) (hT : ∀ h e w w', T h e w w' → (machine other).Exec e w w')
    (hlater : ∀ w w', R w w' → (w.objects k).Later (w'.objects k)) (hI : Stable R I)
    (hread : ∀ h w r, I h w → T h ⟨.getJsonWithEtag k, r⟩ w w →
      G h ⟨.getJsonWithEtag k, r⟩ w w ∧ I (h ++ [⟨.getJsonWithEtag k, r⟩]) w)
    (hmutate : ∀ cell h w, Since k cell I h w → Sat T G R
      (fun h res w => Since k cell I h w ∧ ∀ v, res = .ok v → U cell.content v) (mutate cell.content) h w)
    (hrefused : ∀ h w v c e, I h w → T h ⟨.putJsonConditional k v c, .error e⟩ w w →
      G h ⟨.putJsonConditional k v c, .error e⟩ w w ∧ I (h ++ [⟨.putJsonConditional k v c, .error e⟩]) w)
    (hwritten : ∀ h w v c, I h w → U (w.objects k).content v →
      T h ⟨.putJsonConditional k v c, .ok ()⟩ w { w with objects := put w.objects k v } →
      G h ⟨.putJsonConditional k v c, .ok ()⟩ w { w with objects := put w.objects k v } ∧
        I (h ++ [⟨.putJsonConditional k v c, .ok ()⟩]) { w with objects := put w.objects k v })
    (attempts : ℕ) : Keeps T G R I (updateJsonCasBy k mutate attempts) := by
  induction attempts with
  | zero => exact .raise hI _
  | succ attempts ih =>
    intro h w hi w₁ hw₁ r w₂ ht
    have hi₁ := hI _ _ _ hw₁ hi
    obtain ⟨rfl, rfl | ⟨m, rfl⟩⟩ := exec_getJsonWithEtag (hT _ _ _ _ ht)
    · obtain ⟨hg, hi₂⟩ := hread h w₂ _ hi₁ ht
      refine ⟨hg, ?_⟩
      change Sat T G R _ ((mutate ((tagged (w₂.objects k)).map Prod.fst)).bind fun payload =>
        (putUnlessRaced k payload (conditionOf (tagged (w₂.objects k)))).bind fun written =>
          if written then .done payload else updateJsonCasBy k mutate attempts) _ _
      rw [tagged_map_fst]
      have hupdate := hmutate (w₂.objects k) _ w₂ ⟨hi₂, .refl _⟩
      refine hupdate.bind hR (fun h v w hq => ?_) fun h e w hq => hq.1.1
      obtain ⟨⟨hi₃, hsince⟩, hmade⟩ := hq
      rw [putUnlessRaced_eq]
      intro w₃ hw₃ r w₄ ht
      have hi₄ := hI _ _ _ hw₃ hi₃
      rcases exec_putJsonConditional (hT _ _ _ _ ht) with ⟨rfl, ha, rfl⟩ | ⟨rfl, ⟨rfl, -⟩ | ⟨m, rfl⟩⟩
      · rw [conditionOf_tagged] at ha
        have hsame := (hsince.trans (hlater _ _ hw₃)).content_of_admits ha
        have hover : U (w₃.objects k).content v := by
          rw [hsame]
          exact hmade v rfl
        obtain ⟨hg', hi₅⟩ := hwritten _ _ v _ hi₄ hover ht
        exact ⟨hg', .done fun u hu => hI _ _ _ hu hi₅⟩
      · obtain ⟨hg', hi₅⟩ := hrefused _ _ v _ _ hi₄ ht
        exact ⟨hg', ih _ _ hi₅⟩
      · obtain ⟨hg', hi₅⟩ := hrefused _ _ v _ _ hi₄ ht
        exact ⟨hg', .raise fun u hu => hI _ _ _ hu hi₅⟩
    · obtain ⟨hg, hi₂⟩ := hread h w₂ _ hi₁ ht
      exact ⟨hg, .raise fun u hu => hI _ _ _ hu hi₂⟩

end Loop

end RagSystem.EffectfulUpdates
