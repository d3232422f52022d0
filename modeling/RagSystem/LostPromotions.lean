import RagSystem.FeedbackPromotion
import RagSystem.LostWrites

/-!
# Promotions whose replies are lost

Promotions over a store whose writes may be applied unheard. The case of an
item is written at most once, whatever is lost. Where every write is heard and
no promotion fails between its two writes, the cases are in the end those the
items point to.
-/

namespace RagSystem.LostPromotions

open AtomicProgram ThreadPool ProgramPaths ProgramContracts VersionedCell Storage LostWrites QueryModels FeedbackReview
  FeedbackPromotion

set_option autoImplicit false

section Runs

/-- The store of the inbox, with replies that can be lost. -/
abbrev lossyInbox : Machine (Delivery Fate) World Err Answer := lossy answer?

/-- A run of promotions into one set over it. -/
abbrev Promoted (setId : String) := Run (O := String) lossyInbox (promoteFeedback setId)

/-- The move writes the case of an item. -/
def writesCase (setId f : String) (m : PromotionMove) : Bool :=
  (m.target.world.objects (.case setId (benchmarkCaseIdFor f))).generation ≠
    (m.source.world.objects (.case setId (benchmarkCaseIdFor f))).generation

variable {setId f : String} {listed : List (String × String)} {h : History Err Answer} {e : CallEvent} {w w' : World}
  {p q : PromotionPool} {ms : List PromotionMove}

/-- What is not heard is a write, and no write shows an item. -/
theorem trusted_of_lossy (he : lossyInbox.Exec e w w') (hw : Filed listed w) : Trusted listed h e := by
  rcases exec_lossy he with hheard | hunheard
  · exact trusted_of_exec hheard hw
  · cases hunheard with
    | plain k v err w => trivial
    | conditional k v c err w ha => trivial

/-- Careful calls keep items filed, heard or not. -/
theorem filed_of_lossy (he : lossyInbox.Exec e w w') (hc : Careful setId h e) (hw : Filed listed w) : Filed listed w' := by
  rcases exec_lossy he with hheard | hunheard
  · exact filed_of_careful hheard hc hw
  · cases hunheard with
    | plain k v err w => exact hc.2.elim
    | conditional k v c err w ha =>
      refine ⟨fun t f r hr => ?_, hw.listing⟩
      by_cases hk : FeedbackKey.feedback t f = k
      · subst hk
        obtain ⟨-, current, n, -, -, -, hfiled⟩ := hc.2
        simp only [World.item, put_self, Cell.write_content, Option.some.injEq] at hr
        rw [← hr]
        exact hfiled
      · simp only [World.item, put_of_ne _ _ hk] at hr
        exact hw.own t f r hr

/-- So every move of a promotion is careful. -/
theorem careful_of_lossy (hrun : Promoted setId p ms q) (hidle : ∀ t, p.threads t = none)
    (hfiled : Filed p.world.rest p.world) {m : PromotionMove} (hm : m ∈ ms) :
    lossyInbox.Exec m.event m.source.world m.target.world ∧ Careful setId m.runner.past m.event := by
  have hcontracted := contracted_of_run hrun hidle
    (fun feedbackId => promoting_promoteFeedback setId feedbackId p.world.rest) hfiled
    (fun _ _ _ _ hw he => trusted_of_lossy he hw) fun _ _ _ _ hw he hc => filed_of_lossy he hc hw
  exact ⟨(hrun.of_mem hm).1.exec, (hcontracted.moves m hm).2.2⟩

/-- A case is written where there was none. -/
theorem case_of_writesCase (hrun : Promoted setId p ms q) (hidle : ∀ t, p.threads t = none)
    (hfiled : Filed p.world.rest p.world) {m : PromotionMove} (hm : m ∈ ms) (hwrites : writesCase setId f m = true) :
    World.case m.source.world setId f = none ∧ (World.case m.target.world setId f).isSome = true := by
  obtain ⟨hexec, hcareful⟩ := careful_of_lossy hrun hidle hfiled hm
  have hwritten := of_decide_eq_true hwrites
  generalize m.source.world = w at *
  generalize m.target.world = w' at *
  rcases exec_lossy_objects hexec with hsame | ⟨k, v, r, he, -⟩ | ⟨k, v, c, r, he, ha, hput⟩
  · rw [hsame] at hwritten
    exact absurd rfl hwritten
  · rw [he] at hcareful
    exact hcareful.2.elim
  · rw [he] at hcareful
    rw [hput] at hwritten
    by_cases hk : FeedbackKey.case setId (benchmarkCaseIdFor f) = k
    · subst hk
      obtain ⟨-, -, -, rfl, -⟩ := hcareful
      refine ⟨Option.isNone_iff_eq_none.mp ha, ?_⟩
      rw [World.case, hput, put_self, Cell.write_content, Option.isSome_some]
    · rw [put_of_ne _ _ hk] at hwritten
      exact absurd rfl hwritten

/-- Nothing before it has written it. -/
theorem first_write (hrun : Promoted setId p ms q) (hidle : ∀ t, p.threads t = none)
    (hfiled : Filed p.world.rest p.world) {ns rest : List PromotionMove} {m : PromotionMove} (hms : ms = ns ++ m :: rest)
    (hwrites : writesCase setId f m = true) : ∀ m' ∈ ns, writesCase setId f m' = false := by
  intro m' hm'
  by_contra hwritten
  rw [Bool.not_eq_false] at hwritten
  have hm : m ∈ ms := by
    rw [hms]
    exact List.mem_append_right _ List.mem_cons_self
  have hnone := (case_of_writesCase hrun hidle hfiled hm hwrites).1
  obtain ⟨hbefore, -, -⟩ := hrun.split hms
  have hsome := (case_of_writesCase hbefore hidle hfiled hm' hwritten).2
  obtain ⟨ns', rest', rfl⟩ := List.append_of_mem hm'
  obtain ⟨-, -, hafter⟩ := hbefore.split rfl
  have hkept := hafter.world_invariant (I := fun w => (World.case w setId f).isSome = true) hsome fun _ hmove hw =>
    (exec_lossy_later (hafter.of_mem hmove).1.exec _).isSome hw
  rw [hnone] at hkept
  contradiction

/-- What nothing before it has is counted once. -/
theorem length_filter_of_first {α : Type} {l : List α} {P : α → Bool}
    (h : ∀ ns a rest, l = ns ++ a :: rest → P a = true → ∀ b ∈ ns, P b = false) : (l.filter P).length ≤ 1 := by
  induction l with
  | nil => exact Nat.zero_le 1
  | cons a l ih =>
    have hrest := ih fun ns b rest hl hb c hc => h (a :: ns) b rest (by rw [hl, List.cons_append]) hb c (List.mem_cons_of_mem _ hc)
    by_cases ha : P a = true
    · have hnone : l.filter P = [] := by
        rw [List.filter_eq_nil_iff]
        intro b hb hpb
        obtain ⟨ns, rest, hl⟩ := List.append_of_mem hb
        have hno := h (a :: ns) b rest (by rw [hl, List.cons_append]) hpb a List.mem_cons_self
        rw [ha] at hno
        contradiction
      rw [List.filter_cons_of_pos ha, hnone]
      exact Nat.le_refl 1
    · rw [List.filter_cons_of_neg ha]
      exact hrest

/-- Promotions of any items in any interleaving, any call failing and any reply
lost. Each item's case is written at most once. If every write is heard and no
call of a promotion that has created its case raises, then at rest the cases
are those the items point to, and every item that can still be promoted is, by
a promotion whose calls go through. -/
theorem promotions_settle (hrun : Promoted setId p ms q) (hidle : ∀ t, p.threads t = none)
    (hfiled : Filed p.world.rest p.world)
    (hunique : ∀ t t' f, (World.item p.world t f).isSome = true → (World.item p.world t' f).isSome = true → t = t')
    (hsettled : Settled setId p.world) :
    (∀ f, (ms.filter (writesCase setId f)).length ≤ 1) ∧
    ((∀ m ∈ ms, heard m = true ∧ ((∃ f, HasCreated setId f m.runner.past) → raised m.event = false)) → q.AtRest →
      Settled setId q.world ∧ ∀ feedbackId t f r, keyFor q.world.rest feedbackId = some (t, f) →
        World.item q.world t f = some r → r.Promotable → ∃ es case w',
          Outcome lossyInbox (promoteFeedback setId feedbackId) q.world es (.ok (some case)) w' ∧
            World.case w' setId f = some case) := by
  refine ⟨fun f => length_filter_of_first fun ns m rest hms hwrites => first_write hrun hidle hfiled hms hwrites, ?_⟩
  intro hcalm hrest
  have hheard := run_of_heard hrun fun m hm => (hcalm m hm).1
  have hsettled' := settled_at_rest hheard hidle hfiled hunique hsettled (fun m hm => (hcalm m hm).2) hrest
  have hend : Filed p.world.rest q.world := (contracted hheard hidle hfiled).state
  have hfiled' : Filed q.world.rest q.world := ⟨hend.own, rfl⟩
  refine ⟨hsettled', fun feedbackId t f r hkey hr hp => ?_⟩
  obtain ⟨es, case, w', hout, hcase⟩ := promoteFeedback_succeeds hfiled' hsettled' hkey hr hp
  exact ⟨es, case, w', outcome_lossy hout, hcase⟩

/-- An item that can be promoted. -/
def sampleItem (f : String) : FeedbackReviewRecord where
  rating := 1
  expectedAnswer := some "yes"
  traceId := "t"
  feedbackId := f
  createdAt := "now"

/-- A store with two items. -/
def sampleInbox : World where
  objects := put (put (fun _ => ⟨0, none⟩) (.feedback "t" "f") (sampleItem "f")) (.feedback "t" "g") (sampleItem "g")
  rest := [("t", "f"), ("t", "g")]

/-- It holds no other. -/
theorem sampleInbox_item {t f : String} {r : FeedbackReviewRecord} (h : World.item sampleInbox t f = some r) :
    t = "t" ∧ r = sampleItem f := by
  by_cases hg : FeedbackKey.feedback t f = .feedback "t" "g"
  · injection hg with ht hf
    subst ht hf
    simp only [World.item, sampleInbox, put_self, Cell.write_content, Option.some.injEq] at h
    exact ⟨rfl, h.symm⟩
  · by_cases hf : FeedbackKey.feedback t f = .feedback "t" "f"
    · injection hf with ht hf
      subst ht hf
      simp only [World.item, sampleInbox, put_of_ne _ _ hg, put_self, Cell.write_content, Option.some.injEq] at h
      exact ⟨rfl, h.symm⟩
    · simp only [World.item, sampleInbox, put_of_ne _ _ hg, put_of_ne _ _ hf, reduceCtorEq] at h

/-- Its items lie where they belong. -/
theorem sampleInbox_filed : Filed sampleInbox.rest sampleInbox := by
  refine ⟨fun t f r hr => ?_, rfl⟩
  rw [(sampleInbox_item hr).2]
  rfl

/-- Under one trace each. -/
theorem sampleInbox_unique : ∀ t t' f, (World.item sampleInbox t f).isSome = true →
    (World.item sampleInbox t' f).isSome = true → t = t' := by
  intro t t' f ht ht'
  obtain ⟨r, hr⟩ := Option.isSome_iff_exists.mp ht
  obtain ⟨r', hr'⟩ := Option.isSome_iff_exists.mp ht'
  rw [(sampleInbox_item hr).1, (sampleInbox_item hr').1]

/-- There are no cases, and no item points to one. -/
theorem sampleInbox_settled : Settled "default" sampleInbox := by
  intro t f r hr
  have hnone : World.case sampleInbox "default" f = none := by
    have hf : FeedbackKey.case "default" (benchmarkCaseIdFor f) ≠ .feedback "t" "f" := FeedbackKey.noConfusion
    have hg : FeedbackKey.case "default" (benchmarkCaseIdFor f) ≠ .feedback "t" "g" := FeedbackKey.noConfusion
    simp only [World.case, sampleInbox, put_of_ne _ _ hg, put_of_ne _ _ hf]
  rw [hnone, (sampleInbox_item hr).2]
  exact iff_of_false Bool.false_ne_true (Option.some_ne_none _).symm

/-- Every call goes through, and is heard. -/
def calm : Action → Delivery Fate
  | .other _ => .heard (.other .list)
  | _ => .heard .proceed

/-- A scheduler's choice. -/
abbrev Turn := Command (Delivery Fate) String Action

/-- Two promotions of one item that both read it before either creates the case. -/
def promotionTurns : List Turn :=
  .start 0 "f" :: .start 1 "f" :: List.replicate 4 (.step 0 calm) ++ List.replicate 4 (.step 1 calm) ++
    [.step 0 calm, .step 1 calm, .step 0 calm, .step 0 calm]

/-- The pool after them. -/
def promotedPool : PromotionPool := (Pool.idle sampleInbox).reached lossyInbox (promoteFeedback "default") promotionTurns

theorem promotions_settle_sample : ∃ ms, Promoted "default" (Pool.idle sampleInbox) ms promotedPool ∧ promotedPool.AtRest ∧
    (World.case promotedPool.world "default" "f").isSome = true ∧
    (promotedPool.threads 1).bind Thread.result = some (.error (.app alreadyInSet)) ∧
    (∀ f, (ms.filter (writesCase "default" f)).length ≤ 1) ∧ Settled "default" promotedPool.world ∧
    ∃ es case w', Outcome lossyInbox (promoteFeedback "default" "g") promotedPool.world es (.ok (some case)) w' ∧
      World.case w' "default" "g" = some case := by
  have hdriven : ((Pool.idle sampleInbox : PromotionPool).drive lossyInbox (promoteFeedback "default")
      promotionTurns).isSome = true := by decide +kernel
  have hstarted : ∀ c ∈ promotionTurns, ∀ t ∈ c.started, t < 2 := by decide +kernel
  have hfinished : ∀ t < 2, ∀ th ∈ promotedPool.threads t, th.Finished := by decide +kernel
  have hcase : (World.case promotedPool.world "default" "f").isSome = true := by decide +kernel
  have hrefused : (promotedPool.threads 1).bind Thread.result = some (.error (.app alreadyInSet)) := by decide +kernel
  have hcalm : ∀ m ∈ (Pool.idle sampleInbox : PromotionPool).moves lossyInbox (promoteFeedback "default") promotionTurns,
      heard m = true ∧ raised m.event = false := by decide +kernel
  have hkey : keyFor promotedPool.world.rest "g" = some ("t", "g") := by decide +kernel
  have hitem : World.item promotedPool.world "t" "g" = some (sampleItem "g") := by decide +kernel
  have hrest : promotedPool.AtRest := Pool.atRest_reached (fun _ => rfl) hdriven hstarted hfinished
  obtain ⟨honce, hsettle⟩ := promotions_settle (Run.reached hdriven) (fun _ => rfl) sampleInbox_filed sampleInbox_unique
    sampleInbox_settled
  obtain ⟨hsettled, hretry⟩ := hsettle (fun m hm => ⟨(hcalm m hm).1, fun _ => (hcalm m hm).2⟩) hrest
  exact ⟨_, Run.reached hdriven, hrest, hcase, hrefused, honce, hsettled, hretry "g" "t" "g" _ hkey hitem (by decide +kernel)⟩

/-- A promotion whose second look at the item raises, and another one. -/
def brokenTurns : List Turn :=
  .start 0 "f" :: List.replicate 5 (.step 0 calm) ++ .step 0 (fun _ => .heard (.raise "timeout")) ::
    .start 1 "f" :: List.replicate 5 (.step 1 calm)

/-- The pool after them. -/
def brokenPool : PromotionPool := (Pool.idle sampleInbox).reached lossyInbox (promoteFeedback "default") brokenTurns

/-- The case is there, the item does not point to it, and promoting the item
again is refused. -/
theorem case_without_pointer : (∃ ms, Promoted "default" (Pool.idle sampleInbox) ms brokenPool) ∧ brokenPool.AtRest ∧
    (World.case brokenPool.world "default" "f").isSome = true ∧ World.item brokenPool.world "t" "f" = some (sampleItem "f") ∧
    (brokenPool.threads 1).bind Thread.result = some (.error (.app alreadyInSet)) := by
  have hdriven : ((Pool.idle sampleInbox : PromotionPool).drive lossyInbox (promoteFeedback "default")
      brokenTurns).isSome = true := by decide +kernel
  have hstarted : ∀ c ∈ brokenTurns, ∀ t ∈ c.started, t < 2 := by decide +kernel
  have hfinished : ∀ t < 2, ∀ th ∈ brokenPool.threads t, th.Finished := by decide +kernel
  have hcase : (World.case brokenPool.world "default" "f").isSome = true := by decide +kernel
  have hitem : World.item brokenPool.world "t" "f" = some (sampleItem "f") := by decide +kernel
  have hrefused : (brokenPool.threads 1).bind Thread.result = some (.error (.app alreadyInSet)) := by decide +kernel
  exact ⟨⟨_, Run.reached hdriven⟩, Pool.atRest_reached (fun _ => rfl) hdriven hstarted hfinished, hcase, hitem, hrefused⟩

end Runs

end RagSystem.LostPromotions
