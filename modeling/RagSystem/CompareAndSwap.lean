import RagSystem.Storage

/-!
# The compare-and-swap loop under interference

What has to be checked once about reading, refusing, writing and losing a race
for the whole loop to be judged, with any number of other writers in between.
The step that carries it: a conditional write that goes through replaces
exactly the content that was read.
-/

namespace RagSystem.CompareAndSwap

open AtomicProgram RelyGuarantee VersionedCell Storage

set_option autoImplicit false

variable {K E X τ Ω : Type} {P : K → Type} {XB : X → Type}

/-- The answer of `get_json_with_etag` on a cell. -/
def tagged {α : Type} (c : Cell α) : Option (α × ℕ) := c.content.map fun v => (v, c.generation)

/-- The content in an answer of `get_json_with_etag`. -/
@[simp] theorem tagged_map_fst {α : Type} (c : Cell α) : (tagged c).map Prod.fst = c.content := by
  unfold tagged
  cases c.content <;> rfl

/-- A writer asks for exactly the cell it read. -/
theorem conditionOf_tagged {k : K} (c : Cell (P k)) : conditionOf (tagged c) = c.precondition := by
  unfold tagged conditionOf Cell.precondition
  cases c.content <;> rfl

/-- The loop's write, as one action and what is made of its answer. -/
theorem putUnlessRaced_eq (k : K) (v : P k) (c : Precondition) :
    (putUnlessRaced k v c : StoreProgram E P XB Bool) = .act (.putJsonConditional k v c) fun
      | .ok _ => .done true
      | .error (.preconditionFailed _) => .done false
      | .error e => .raise e := by
  unfold putUnlessRaced putJsonConditional perform
  refine congrArg (Program.act _) (funext fun r => ?_)
  cases r with
  | ok u => rfl
  | error e => cases e <;> rfl

/-- The obligations of a compare-and-swap loop on the object at `k`. `I` holds
before each attempt, `J` once the attempt has read, `Q` at the end. -/
structure CasRule [DecidableEq K] (T G : StepPredicate (StoreState P τ) (StoreError K E) (StoreAnswer XB))
    (R : StoreState P τ → StoreState P τ → Prop) (k : K)
    (mutate : Option (P k) → Except (StoreError K E) (P k))
    (I : Assertion (StoreState P τ) (StoreError K E) (StoreAnswer XB))
    (J : Option (P k × ℕ) → Assertion (StoreState P τ) (StoreError K E) (StoreAnswer XB))
    (Q : Ending (StoreState P τ) (StoreError K E) (StoreAnswer XB) (P k)) : Prop where
  /-- Others cannot falsify `I`. -/
  stableI : Stable R I
  /-- Others cannot falsify `J`. -/
  stableJ : ∀ cur, Stable R (J cur)
  /-- Reading. -/
  read : ∀ h w, I h w → T h ⟨.getJsonWithEtag k, .ok (tagged (w.objects k))⟩ w w →
    G h ⟨.getJsonWithEtag k, .ok (tagged (w.objects k))⟩ w w ∧
      J (tagged (w.objects k)) (h ++ [⟨.getJsonWithEtag k, .ok (tagged (w.objects k))⟩]) w
  /-- The read raises. -/
  readRaised : ∀ h w m, I h w → T h ⟨.getJsonWithEtag k, .error (.raised m)⟩ w w →
    G h ⟨.getJsonWithEtag k, .error (.raised m)⟩ w w ∧
      ∀ v, R w v → Q (h ++ [⟨.getJsonWithEtag k, .error (.raised m)⟩]) (.error (.raised m)) v
  /-- The current payload is not to be replaced. -/
  rejected : ∀ h w cur e, J cur h w → mutate (cur.map Prod.fst) = .error e → Q h (.error e) w
  /-- The write goes through, over the content that was read. -/
  written : ∀ h w cur v, J cur h w → (w.objects k).content = cur.map Prod.fst →
    mutate (cur.map Prod.fst) = .ok v →
    T h ⟨.putJsonConditional k v (conditionOf cur), .ok ()⟩ w { w with objects := put w.objects k v } →
    G h ⟨.putJsonConditional k v (conditionOf cur), .ok ()⟩ w { w with objects := put w.objects k v } ∧
      ∀ u, R { w with objects := put w.objects k v } u →
        Q (h ++ [⟨.putJsonConditional k v (conditionOf cur), .ok ()⟩]) (.ok v) u
  /-- The race is lost. -/
  refused : ∀ h w cur v, J cur h w → mutate (cur.map Prod.fst) = .ok v →
    T h ⟨.putJsonConditional k v (conditionOf cur), .error (.preconditionFailed k)⟩ w w →
    G h ⟨.putJsonConditional k v (conditionOf cur), .error (.preconditionFailed k)⟩ w w ∧
      I (h ++ [⟨.putJsonConditional k v (conditionOf cur), .error (.preconditionFailed k)⟩]) w
  /-- The write raises. -/
  putRaised : ∀ h w cur v m, J cur h w → mutate (cur.map Prod.fst) = .ok v →
    T h ⟨.putJsonConditional k v (conditionOf cur), .error (.raised m)⟩ w w →
    G h ⟨.putJsonConditional k v (conditionOf cur), .error (.raised m)⟩ w w ∧
      ∀ u, R w u →
        Q (h ++ [⟨.putJsonConditional k v (conditionOf cur), .error (.raised m)⟩]) (.error (.raised m)) u
  /-- Every attempt lost its race. -/
  exhausted : ∀ h w, I h w → Q h (.error (.preconditionFailed k)) w

/-- The loop reads and conditionally writes one object, nothing else. -/
theorem uses_updateJsonCas {S : StoreAction P X → Prop} {k : K}
    {mutate : Option (P k) → Except (StoreError K E) (P k)} (hread : S (.getJsonWithEtag k))
    (hput : ∀ current v c, mutate current = .ok v → S (.putJsonConditional k v c)) (n : ℕ) :
    (updateJsonCas k mutate n : StoreProgram E P XB (P k)).Uses S := by
  induction n with
  | zero => trivial
  | succ n ih =>
    refine (Program.uses_perform hread).bind fun current => ?_
    cases hm : mutate (current.map Prod.fst) with
    | error e => trivial
    | ok v =>
      refine Program.Uses.bind ?_ fun written => ?_
      · refine Program.Uses.catchError (Program.Uses.bind (Program.uses_perform (hput _ v _ hm)) fun _ => ?_)
          fun e => ?_
        · trivial
        · cases e <;> trivial
      · cases written with
        | true => trivial
        | false => exact ih

section Loop

variable [DecidableEq K]
  {other : (x : X) → Ω → StoreState P τ → Option (Except (StoreError K E) (XB x) × τ)}
  {T G : StepPredicate (StoreState P τ) (StoreError K E) (StoreAnswer XB)}
  {R : StoreState P τ → StoreState P τ → Prop} {k : K}
  {mutate : Option (P k) → Except (StoreError K E) (P k)}
  {I : Assertion (StoreState P τ) (StoreError K E) (StoreAnswer XB)}
  {J : Option (P k × ℕ) → Assertion (StoreState P τ) (StoreError K E) (StoreAnswer XB)}
  {Q : Ending (StoreState P τ) (StoreError K E) (StoreAnswer XB) (P k)}

/-- The write of one attempt, from a state where `k` still holds what was read
or has been written since. -/
theorem CasRule.put_sat (rule : CasRule T G R k mutate I J Q)
    (hT : ∀ h e w w', T h e w w' → (machine other).Exec e w w')
    (hlater : ∀ w w', R w w' → (w.objects k).Later (w'.objects k))
    {c : Cell (P k)} {v : P k} {next : StoreProgram E P XB (P k)}
    (hm : mutate c.content = .ok v)
    (hnext : ∀ h w, I h w → Sat T G R Q next h w)
    {h : History (StoreError K E) (StoreAnswer XB)} {w : StoreState P τ}
    (hj : J (tagged c) h w) (hc : c.Later (w.objects k)) :
    Sat T G R Q ((putUnlessRaced k v (conditionOf (tagged c))).bind fun written =>
      if written then .done v else next) h w := by
  rw [putUnlessRaced_eq]
  intro w₁ hw₁ r w₂ ht
  have hj₁ := rule.stableJ _ _ _ _ hw₁ hj
  have hm' : mutate ((tagged c).map Prod.fst) = .ok v := by rw [tagged_map_fst]; exact hm
  rcases exec_putJsonConditional (hT _ _ _ _ ht) with ⟨rfl, ha, rfl⟩ | ⟨rfl, ⟨rfl, -⟩ | ⟨m, rfl⟩⟩
  · rw [conditionOf_tagged] at ha
    have hcont := (hc.trans (hlater _ _ hw₁)).content_of_admits ha
    obtain ⟨hg, hq⟩ := rule.written h w₁ _ v hj₁ (by rw [tagged_map_fst, hcont]) hm' ht
    exact ⟨hg, hq⟩
  · obtain ⟨hg, hi⟩ := rule.refused h w₂ _ v hj₁ hm' ht
    exact ⟨hg, hnext _ _ hi⟩
  · obtain ⟨hg, hq⟩ := rule.putRaised h w₂ _ v m hj₁ hm' ht
    exact ⟨hg, hq⟩

/-- The whole loop, for any number of attempts. -/
theorem CasRule.sat (rule : CasRule T G R k mutate I J Q)
    (hT : ∀ h e w w', T h e w w' → (machine other).Exec e w w')
    (hlater : ∀ w w', R w w' → (w.objects k).Later (w'.objects k)) (attempts : ℕ)
    {h : History (StoreError K E) (StoreAnswer XB)} {w : StoreState P τ} (hi : I h w) :
    Sat T G R Q (updateJsonCas k mutate attempts) h w := by
  induction attempts generalizing h w with
  | zero => exact fun w' hw => rule.exhausted h w' (rule.stableI h w w' hw hi)
  | succ attempts ih =>
    intro w₁ hw₁ r w₂ ht
    have hi₁ := rule.stableI _ _ _ hw₁ hi
    obtain ⟨rfl, rfl | ⟨m, rfl⟩⟩ := exec_getJsonWithEtag (hT _ _ _ _ ht)
    · obtain ⟨hg, hj⟩ := rule.read h w₂ hi₁ ht
      refine ⟨hg, ?_⟩
      show Sat T G R Q ((Program.done (tagged (w₂.objects k))).bind _) _ _
      dsimp only [Program.bind]
      cases hm : mutate ((tagged (w₂.objects k)).map Prod.fst) with
      | error e =>
        exact fun v hv => rule.rejected _ _ _ e (rule.stableJ _ _ _ _ hv hj) hm
      | ok v =>
        rw [tagged_map_fst] at hm
        exact rule.put_sat hT hlater hm (fun h w hi => ih hi) hj (.refl _)
    · obtain ⟨hg, hq⟩ := rule.readRaised h w₂ m hi₁ ht
      exact ⟨hg, hq⟩

/-- The loop keeps an assertion that its reads, its refused and raising writes
and its one write keep. -/
theorem updateJsonCas_keeps
    (hT : ∀ h e w w', T h e w w' → (machine other).Exec e w w')
    (hlater : ∀ w w', R w w' → (w.objects k).Later (w'.objects k)) (hI : Stable R I)
    (hread : ∀ h w r, I h w → T h ⟨.getJsonWithEtag k, r⟩ w w →
      G h ⟨.getJsonWithEtag k, r⟩ w w ∧ I (h ++ [⟨.getJsonWithEtag k, r⟩]) w)
    (hrefused : ∀ h w v c e, I h w → T h ⟨.putJsonConditional k v c, .error e⟩ w w →
      G h ⟨.putJsonConditional k v c, .error e⟩ w w ∧
        I (h ++ [⟨.putJsonConditional k v c, .error e⟩]) w)
    (hwritten : ∀ h w v c, I h w → mutate (w.objects k).content = .ok v →
      T h ⟨.putJsonConditional k v c, .ok ()⟩ w { w with objects := put w.objects k v } →
      G h ⟨.putJsonConditional k v c, .ok ()⟩ w { w with objects := put w.objects k v } ∧
        I (h ++ [⟨.putJsonConditional k v c, .ok ()⟩]) { w with objects := put w.objects k v })
    (attempts : ℕ) : Keeps T G R I (updateJsonCas k mutate attempts) := by
  intro h w hi
  have rule : CasRule T G R k mutate I (fun _ => I) (fun h _ w => I h w) :=
    { stableI := hI
      stableJ := fun _ => hI
      read := fun h w hi ht => hread h w _ hi ht
      readRaised := fun h w m hi ht =>
        ⟨(hread h w _ hi ht).1, fun v hv => hI _ _ _ hv (hread h w _ hi ht).2⟩
      rejected := fun _ _ _ _ hi _ => hi
      written := fun h w cur v hi hc hm ht => by
        rw [← hc] at hm
        obtain ⟨hg, hi'⟩ := hwritten h w v _ hi hm ht
        exact ⟨hg, fun u hu => hI _ _ _ hu hi'⟩
      refused := fun h w cur v hi _ ht => hrefused h w v _ _ hi ht
      putRaised := fun h w cur v m hi _ ht =>
        ⟨(hrefused h w v _ _ hi ht).1, fun u hu => hI _ _ _ hu (hrefused h w v _ _ hi ht).2⟩
      exhausted := fun _ _ hi => hi }
  exact rule.sat hT hlater attempts hi

omit [DecidableEq K] in
/-- The admission of a writer's own read. -/
theorem admits_conditionOf {k : K} (c : Cell (P k)) : c.admits (conditionOf (tagged c)) = true := by
  rw [conditionOf_tagged]
  unfold Cell.precondition Cell.admits
  cases hc : c.content with
  | none => simp only [Option.isNone_none]
  | some v => simp only [Option.isSome_some, beq_self_eq_true, Bool.and_self]

/-- Alone, the loop needs one attempt: it reads, and raises, is refused by its
update, raises in the write, or writes. -/
theorem updateJsonCas_alone {n : ℕ}
    (hT : ∀ h e w w', T h e w w' → (machine other).Exec e w w')
    {h : History (StoreError K E) (StoreAnswer XB)} {w : StoreState P τ}
    (hread : ∀ m, T h ⟨.getJsonWithEtag k, .error (.raised m)⟩ w w →
      Q (h ++ [⟨.getJsonWithEtag k, .error (.raised m)⟩]) (.error (.raised m)) w)
    (hrejected : ∀ e, mutate (w.objects k).content = .error e →
      Q (h ++ [⟨.getJsonWithEtag k, .ok (tagged (w.objects k))⟩]) (.error e) w)
    (hraised : ∀ v c m, mutate (w.objects k).content = .ok v →
      T (h ++ [⟨.getJsonWithEtag k, .ok (tagged (w.objects k))⟩]) ⟨.putJsonConditional k v c, .error (.raised m)⟩ w w →
      Q (h ++ [⟨.getJsonWithEtag k, .ok (tagged (w.objects k))⟩] ++ [⟨.putJsonConditional k v c, .error (.raised m)⟩])
        (.error (.raised m)) w)
    (hwritten : ∀ v c, mutate (w.objects k).content = .ok v →
      Q (h ++ [⟨.getJsonWithEtag k, .ok (tagged (w.objects k))⟩] ++ [⟨.putJsonConditional k v c, .ok ()⟩])
        (.ok v) { w with objects := put w.objects k v }) :
    Sat T (fun _ _ _ _ => True) Eq Q (updateJsonCas k mutate (n + 1)) h w := by
  rintro _ rfl r w₁ ht
  obtain ⟨rfl, rfl | ⟨m, rfl⟩⟩ := exec_getJsonWithEtag (hT _ _ _ _ ht)
  · refine ⟨trivial, ?_⟩
    show Sat T (fun _ _ _ _ => True) Eq Q ((Program.done (tagged (w₁.objects k))).bind _) _ _
    dsimp only [Program.bind]
    rw [tagged_map_fst]
    cases hm : mutate (w₁.objects k).content with
    | error e => exact .raise fun _ heq => heq ▸ hrejected e hm
    | ok v =>
      dsimp only
      rw [putUnlessRaced_eq]
      rintro _ rfl r w₂ ht₂
      refine ⟨trivial, ?_⟩
      rcases exec_putJsonConditional (hT _ _ _ _ ht₂) with ⟨rfl, -, rfl⟩ | ⟨rfl, ⟨rfl, hnot⟩ | ⟨m, rfl⟩⟩
      · exact .done fun _ heq => heq ▸ hwritten v _ hm
      · rw [admits_conditionOf] at hnot
        contradiction
      · exact .raise fun _ heq => heq ▸ hraised v _ m hm ht₂
  · exact ⟨trivial, .raise fun _ heq => heq ▸ hread m ht⟩

/-- Alone and without a failing call, the loop writes at its first attempt. -/
theorem updateJsonCas_succeeds
    (other : (x : X) → Ω → StoreState P τ → Option (Except (StoreError K E) (XB x) × τ)) {n : ℕ} {w : StoreState P τ}
    {v : P k} (hm : mutate (w.objects k).content = .ok v) :
    Outcome (machine other) (updateJsonCas k mutate (n + 1)) w
      [⟨.getJsonWithEtag k, .ok (tagged (w.objects k))⟩, ⟨.putJsonConditional k v (conditionOf (tagged (w.objects k))), .ok ()⟩]
      (.ok v) { w with objects := put w.objects k v } := by
  have hread : (machine other).Exec ⟨.getJsonWithEtag k, .ok (tagged (w.objects k))⟩ w w := ⟨.proceed, rfl⟩
  have hwrite : (machine other).Exec ⟨.putJsonConditional k v (conditionOf (tagged (w.objects k))), .ok ()⟩ w
      { w with objects := put w.objects k v } := by
    refine ⟨.proceed, ?_⟩
    simp only [machine, admits_conditionOf, if_true]
  refine .act hread ?_
  show Outcome (machine other) ((Program.done (tagged (w.objects k))).bind _) _ _ _ _
  dsimp only [Program.bind]
  rw [tagged_map_fst, hm]
  dsimp only
  rw [putUnlessRaced_eq]
  exact .act hwrite (.done v _)

end Loop

end RagSystem.CompareAndSwap
