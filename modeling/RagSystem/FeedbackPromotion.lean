import RagSystem.FeedbackReview
import RagSystem.CompareAndSwap
import RagSystem.ProgramContracts

/-!
# Cases and pointers

Promotions in any interleaving, over a store that loses no reply. As long as no
promotion fails between creating a case and pointing to it, at rest the cases
are those the items point to.
-/

namespace RagSystem.FeedbackPromotion

open AtomicProgram ThreadPool RelyGuarantee ProgramPaths ProgramContracts VersionedCell Storage CompareAndSwap QueryModels
  FeedbackReview

set_option autoImplicit false

section Events

variable (setId : String)

/-- The call created the case of this feedback. -/
def createsCase (f : String) : CallEvent → Bool
  | ⟨.putJsonConditional (.case s id) _ _, .ok _⟩ => s = setId ∧ id = benchmarkCaseIdFor f
  | _ => false

/-- The call made the item point to its case. -/
def pointsItem (f : String) : CallEvent → Bool
  | ⟨.putJsonConditional (.feedback _ f') _ _, .ok _⟩ => f' = f
  | _ => false

/-- A case was created. -/
def HasCreated (f : String) (h : History Err Answer) : Prop := ∃ e ∈ h, createsCase setId f e = true

/-- An item was made to point to its case. -/
def HasPointed (f : String) (h : History Err Answer) : Prop := ∃ e ∈ h, pointsItem f e = true

/-- The item was read, and could be promoted. -/
def HasRead (t f : String) (h : History Err Answer) : Prop :=
  ∃ r : FeedbackReviewRecord, ⟨.getJson (.feedback t f), .ok (some r)⟩ ∈ h ∧ r.Promotable

/-- What is read is filed under its own id, and the listing stays the same. -/
def Trusted (listed : List (String × String)) : ActionPredicate Err Answer := fun _ e =>
  match e with
  | ⟨.getJson (.feedback _ f), .ok (some r)⟩ => r.feedbackId = f
  | ⟨.getJsonWithEtag (.feedback _ f), .ok (some (r, _))⟩ => r.feedbackId = f
  | ⟨.other .listFeedbackRecordKeys, .ok keys⟩ => keys = listed
  | _ => True

/-- A case is created for an item that was read, only once; the item is updated
after that, on condition that it is as it was read again, and then nothing is
called any more. -/
def Careful : ActionPredicate Err Answer := fun h e =>
  (∀ f, ¬ HasPointed f h) ∧
  match e.action with
  | .putJson _ _ => False
  | .putJsonConditional (.trace _) _ _ => False
  | .putJsonConditional (.case s id) _ c => (∀ f, ¬ HasCreated setId f h) ∧ s = setId ∧ c = .ifNoneMatch ∧
      ∃ f, id = benchmarkCaseIdFor f
  | .putJsonConditional (.feedback t f) v c => HasCreated setId f h ∧ ∃ current n,
      ⟨.getJsonWithEtag (.feedback t f), .ok (some (current, n))⟩ ∈ h ∧ c = .ifMatch n ∧
        v = { current with promotedCaseId := some (benchmarkCaseIdFor f) } ∧ v.feedbackId = f
  | .getJsonWithEtag k => ∃ t f, k = .feedback t f ∧ HasRead t f h ∧ HasCreated setId f h
  | _ => True

/-- After a creation no call fails, and the item is found as it was. -/
def Helpful : ActionPredicate Err Answer := fun h e =>
  (∃ f, HasCreated setId f h) →
    match e with
    | ⟨_, .error _⟩ => False
    | ⟨.getJsonWithEtag (.feedback _ _), .ok current⟩ => ∃ r n, current = some (r, n) ∧ r.Promotable
    | _ => True

/-- It was so at every call. -/
def AllHelpful (h : History Err Answer) : Prop := ∀ h' e es, h = h' ++ e :: es → Helpful setId h' e

/-- Then whatever was created is pointed to. -/
def Pointing (h : History Err Answer) : Prop := AllHelpful setId h → ∀ f, HasCreated setId f h → HasPointed f h

end Events

section Contract

variable {setId t f : String} {listed : List (String × String)} {h : History Err Answer} {e : CallEvent}

/-- A creation lasts. -/
theorem HasCreated.append (hc : HasCreated setId f h) (h' : History Err Answer) : HasCreated setId f (h ++ h') := by
  obtain ⟨e, he, hcreates⟩ := hc
  exact ⟨e, List.mem_append_left _ he, hcreates⟩

/-- So does a read. -/
theorem HasRead.append (hr : HasRead t f h) (h' : History Err Answer) : HasRead t f (h ++ h') := by
  obtain ⟨r, hin, hpromotable⟩ := hr
  exact ⟨r, List.mem_append_left _ hin, hpromotable⟩

/-- One call more. -/
theorem hasCreated_concat : HasCreated setId f (h ++ [e]) ↔ HasCreated setId f h ∨ createsCase setId f e = true := by
  constructor
  · rintro ⟨e', he', hcreates⟩
    rcases List.mem_append.mp he' with hold | hnew
    · exact .inl ⟨e', hold, hcreates⟩
    · rw [List.mem_singleton] at hnew
      exact .inr (hnew ▸ hcreates)
  · rintro (hold | hnew)
    · exact hold.append _
    · exact ⟨e, List.mem_append_right _ (List.mem_singleton_self _), hnew⟩

/-- One call more. -/
theorem hasPointed_concat : HasPointed f (h ++ [e]) ↔ HasPointed f h ∨ pointsItem f e = true := by
  constructor
  · rintro ⟨e', he', hpoints⟩
    rcases List.mem_append.mp he' with hold | hnew
    · exact .inl ⟨e', hold, hpoints⟩
    · rw [List.mem_singleton] at hnew
      exact .inr (hnew ▸ hpoints)
  · rintro (⟨e', he', hpoints⟩ | hnew)
    · exact ⟨e', List.mem_append_left _ he', hpoints⟩
    · exact ⟨e, List.mem_append_right _ (List.mem_singleton_self _), hnew⟩

/-- The last call was helpful, and so were those before it. -/
theorem AllHelpful.last (ha : AllHelpful setId (h ++ [e])) : Helpful setId h e := ha h e [] rfl

/-- Nothing is created or pointed to yet. -/
structure Early (setId : String) (h : History Err Answer) : Prop where
  /-- No case. -/
  created : ∀ f, ¬ HasCreated setId f h
  /-- No pointer. -/
  pointed : ∀ f, ¬ HasPointed f h

/-- Then nothing is missing. -/
theorem Early.pointing (he : Early setId h) : Pointing setId h := fun _ f hc => absurd hc (he.created f)

/-- A part of a promotion. -/
abbrev Promoting {α : Type} (setId : String) (listed : List (String × String)) (Q : EndPredicate Err Answer α) :
    Prog α → History Err Answer → Prop := Ensures (Trusted listed) (Careful setId) Q

/-- A listing or a plain read, before anything is created. -/
theorem promoting_read (listed : List (String × String)) {a : Action} (ha : ∀ h, (∀ f, ¬ HasPointed f h) → ∀ r, Careful setId h ⟨a, r⟩)
    (hcreates : ∀ f r, createsCase setId f ⟨a, r⟩ = false) (hpoints : ∀ f r, pointsItem f ⟨a, r⟩ = false)
    (he : Early setId h) :
    Promoting setId listed (fun h' r => Early setId h' ∧ Trusted listed h ⟨a, r⟩ ∧ h' = h ++ [⟨a, r⟩]) (perform a) h := by
  refine .perform fun r ht => ⟨ha h he.pointed r, ⟨fun f hc => ?_, fun f hp => ?_⟩, ht, rfl⟩
  · rcases hasCreated_concat.mp hc with hold | hnew
    · exact he.created f hold
    · rw [hcreates] at hnew
      contradiction
  · rcases hasPointed_concat.mp hp with hold | hnew
    · exact he.pointed f hold
    · rw [hpoints] at hnew
      contradiction

/-- The key of a feedback is looked up in the listing. -/
theorem promoting_feedbackKeyFor (feedbackId : String) (he : Early setId h) :
    Promoting setId listed (fun h' r => Early setId h' ∧ ∀ key, r = .ok key → key = keyFor listed feedbackId)
      (feedbackKeyFor feedbackId) h := by
  have hlist := promoting_read listed (a := .other .listFeedbackRecordKeys)
    (fun h hp _ => ⟨hp, trivial⟩) (fun _ _ => rfl) (fun _ _ => rfl) he
  refine hlist.bind (fun h' keys hq => .done ⟨hq.1, fun key hkey => ?_⟩) fun h' e hq => ⟨hq.1, fun _ he => (nomatch he)⟩
  injection hkey with hkey
  have hkeys : keys = listed := hq.2.1
  rw [← hkey, hkeys]

/-- The record of a feedback is the one under that key. -/
theorem promoting_getFeedbackReviewRecord (feedbackId : String) (key : String × String)
    (hkey : keyFor listed feedbackId = some key) (he : Early setId h) :
    Promoting setId listed (fun h' r => Early setId h' ∧ ∀ record, r = .ok (some record) → record.feedbackId = key.2 ∧
        (record.Promotable → HasRead key.1 key.2 h'))
      (getFeedbackReviewRecord feedbackId) h := by
  refine (promoting_feedbackKeyFor feedbackId he).bind (fun h' found hq => ?_) fun h' e hq => ⟨hq.1, fun _ he => (nomatch he)⟩
  obtain ⟨he', hfound⟩ := hq
  rw [hfound found rfl, hkey]
  have hget := promoting_read listed (a := .getJson (.feedback key.1 key.2))
    (fun h hp _ => ⟨hp, trivial⟩) (fun _ _ => rfl) (fun _ _ => rfl) he'
  refine hget.ending fun h'' r hq => ⟨hq.1, fun record hr => ?_⟩
  obtain ⟨-, htrusted, rfl⟩ := hq
  subst hr
  exact ⟨htrusted, fun hp => ⟨record, List.mem_append_right _ (List.mem_singleton_self _), hp⟩⟩

/-- The case is created and nothing else has happened since the item was read. -/
structure Created (setId t f : String) (h : History Err Answer) : Prop where
  /-- The item was read. -/
  read : HasRead t f h
  /-- Its case is created. -/
  created : HasCreated setId f h
  /-- No other is. -/
  only : ∀ f', HasCreated setId f' h → f' = f
  /-- Nothing is pointed to yet. -/
  pointed : ∀ f, ¬ HasPointed f h

/-- A call that neither creates nor points leaves it so. -/
theorem Created.concat (hc : Created setId t f h) (hcreates : ∀ f, createsCase setId f e = false)
    (hpoints : ∀ f, pointsItem f e = false) : Created setId t f (h ++ [e]) := by
  refine ⟨hc.read.append _, hc.created.append _, fun f' hf' => ?_, fun f' hf' => ?_⟩
  · rcases hasCreated_concat.mp hf' with hold | hnew
    · exact hc.only f' hold
    · rw [hcreates] at hnew
      contradiction
  · rcases hasPointed_concat.mp hf' with hold | hnew
    · exact hc.pointed f' hold
    · rw [hpoints] at hnew
      contradiction

/-- How the creation of a case ends. -/
def Creating (setId t f : String) : EndPredicate Err Answer Unit := fun h r =>
  (∀ u, r = .ok u → Created setId t f h) ∧ ∀ x, r = .error x → Early setId h

/-- The creation. -/
theorem promoting_createCase {case : BenchmarkCase} (hid : case.id = benchmarkCaseIdFor f) (hread : HasRead t f h)
    (he : Early setId h) :
    Promoting setId listed (Creating setId t f) (createCase setId case) h := by
  have hput : Promoting setId listed (Creating setId t f) (createJson (P := Payload) (.case setId case.id) case) h := by
    refine Ensures.perform (B := Answer) (a := StoreAction.putJsonConditional (.case setId case.id) case .ifNoneMatch)
      (Q := Creating setId t f) fun r _ => ⟨⟨he.pointed, he.created, rfl, rfl, f, hid⟩, fun u hu => ?_, fun x hx => ?_⟩
    · subst hu
      have hcreates : createsCase setId f ⟨.putJsonConditional (.case setId case.id) case .ifNoneMatch, .ok u⟩ = true := by
        simp only [createsCase, hid, and_self, decide_true]
      refine ⟨hread.append _, hasCreated_concat.mpr (.inr hcreates), fun f' hf' => ?_, fun f' hf' => ?_⟩
      · rcases hasCreated_concat.mp hf' with hold | hnew
        · exact absurd hold (he.created f')
        · have hsame : benchmarkCaseIdFor f = benchmarkCaseIdFor f' := by
            simpa only [createsCase, hid, true_and, decide_eq_true_eq] using hnew
          exact (String.append_right_inj _).mp hsame.symm
      · rcases hasPointed_concat.mp hf' with hold | hnew
        · exact he.pointed f' hold
        · contradiction
    · subst hx
      refine ⟨fun f' hf' => ?_, fun f' hf' => ?_⟩
      · rcases hasCreated_concat.mp hf' with hold | hnew
        · exact he.created f' hold
        · contradiction
      · rcases hasPointed_concat.mp hf' with hold | hnew
        · exact he.pointed f' hold
        · contradiction
  refine hput.catchError (fun h' u hq => hq) fun h' x hq => ?_
  have hearly := hq.2 x rfl
  cases x with
  | preconditionFailed k => exact .raise ⟨fun _ he => (nomatch he), fun _ _ => hearly⟩
  | raised m => exact .raise ⟨fun _ he => (nomatch he), fun _ _ => hearly⟩
  | app e => exact .raise ⟨fun _ he => (nomatch he), fun _ _ => hearly⟩

/-- What the update makes of an item that can be promoted. -/
theorem pointToCase_ok {question : String} {current : Option FeedbackReviewRecord} {v : FeedbackReviewRecord}
    (h : pointToCase question current = .ok v) : ∃ r, current = some r ∧ r.Promotable ∧
      v = { r with promotedCaseId := some (benchmarkCaseIdFor r.feedbackId) } := by
  unfold pointToCase at h
  split at h
  · contradiction
  · next r =>
    split at h
    · contradiction
    · next updated case hpromote =>
      injection h with h
      obtain ⟨hpromotable, hresult⟩ := promoteFeedbackRecord_ok hpromote
      injection hresult with hupdated _
      exact ⟨r, rfl, hpromotable, h ▸ hupdated⟩

/-- One attempt to write the item that was read. -/
theorem promoting_write (listed : List (String × String)) {v current : FeedbackReviewRecord} {etag : ℕ} (hc : Created setId t f h)
    (hin : ⟨.getJsonWithEtag (.feedback t f), .ok (some (current, etag))⟩ ∈ h)
    (hv : v = { current with promotedCaseId := some (benchmarkCaseIdFor f) }) (hfiled : v.feedbackId = f) :
    Promoting setId listed
      (fun h' r => (r ≠ .ok false → Pointing setId h') ∧ (r = .ok false → Created setId t f h' ∧ ¬ AllHelpful setId h'))
      (putUnlessRaced (P := Payload) (.feedback t f) v (.ifMatch etag)) h := by
  have hput : Promoting setId listed
      (fun h' (r : Except Err Unit) => (∀ u, r = .ok u → Pointing setId h') ∧
        ∀ x, r = .error x → Created setId t f h' ∧ ¬ AllHelpful setId h')
      (putJsonConditional (P := Payload) (.feedback t f) v (.ifMatch etag)) h := by
    refine Ensures.perform (B := Answer) (a := StoreAction.putJsonConditional (.feedback t f) v (.ifMatch etag))
      fun r _ => ⟨⟨hc.pointed, hc.created, current, etag, hin, rfl, hv, hfiled⟩, fun u hu _ f' hf' => ?_, fun x hx => ?_⟩
    · subst hu
      rcases hasCreated_concat.mp hf' with hold | hnew
      · rw [hc.only f' hold]
        exact hasPointed_concat.mpr (.inr (decide_eq_true rfl))
      · contradiction
    · subst hx
      exact ⟨hc.concat (fun _ => rfl) fun _ => rfl, fun ha => ha.last ⟨f, hc.created⟩⟩
  have hwritten : Promoting setId listed
      (fun h' (r : Except Err Bool) => (∀ b, r = .ok b → b = true ∧ Pointing setId h') ∧
        ∀ x, r = .error x → Created setId t f h' ∧ ¬ AllHelpful setId h')
      ((putJsonConditional (P := Payload) (.feedback t f) v (.ifMatch etag)).bind fun _ => .done true)
      h := by
    refine hput.bind (fun h' u hq => .done ⟨fun b hb => ?_, fun _ he => (nomatch he)⟩) fun h' x hq => ?_
    · injection hb with hb
      exact ⟨hb.symm, hq.1 u rfl⟩
    · exact ⟨fun _ he => (nomatch he), fun x' hx => hq.2 x rfl⟩
  refine hwritten.catchError (fun h' b hq => ?_) fun h' x hq => ?_
  · obtain ⟨rfl, hpointing⟩ := hq.1 b rfl
    exact ⟨fun _ => hpointing, fun he => (nomatch he)⟩
  · obtain ⟨hcreated, hhelpless⟩ := hq.2 x rfl
    cases x with
    | preconditionFailed k => exact .done ⟨fun hne => absurd rfl hne, fun _ => ⟨hcreated, hhelpless⟩⟩
    | raised m => exact .raise ⟨fun _ ha => absurd ha hhelpless, fun he => (nomatch he)⟩
    | app e => exact .raise ⟨fun _ ha => absurd ha hhelpless, fun he => (nomatch he)⟩

/-- The update of the item: it points to the case, unless something was not as
it should be. -/
theorem promoting_update (listed : List (String × String)) (question : String) {n : ℕ} (hc : Created setId t f h) (hn : n = 0 → ¬ AllHelpful setId h) :
    Promoting setId listed (fun h' _ => Pointing setId h')
      (updateJsonCas (P := Payload) (.feedback t f) (pointToCase question) n) h := by
  induction n generalizing h with
  | zero => exact .raise fun ha => absurd ha (hn rfl)
  | succ n ih =>
    have hread : Promoting setId listed
        (fun h' r => h' = h ++ [⟨.getJsonWithEtag (.feedback t f), r⟩] ∧ Trusted listed h ⟨.getJsonWithEtag (.feedback t f), r⟩)
        (getJsonWithEtag (P := Payload) (.feedback t f)) h :=
      .perform fun r ht => ⟨⟨hc.pointed, t, f, rfl, hc.read, hc.created⟩, rfl, ht⟩
    refine hread.bind (fun h' current hq => ?_) fun h' e hq ha => ?_
    · obtain ⟨rfl, htrusted⟩ := hq
      have hread' : Created setId t f (h ++ [⟨.getJsonWithEtag (.feedback t f), .ok current⟩]) :=
        hc.concat (fun _ => rfl) fun _ => rfl
      cases hm : pointToCase question (current.map Prod.fst) with
      | error e =>
        refine .raise fun ha => ?_
        obtain ⟨r, n, hcurrent, hpromotable⟩ := ha.last ⟨f, hc.created⟩
        rw [hcurrent, Option.map_some] at hm
        simp only [pointToCase, promoteFeedbackRecord_of_promotable hpromotable, reduceCtorEq] at hm
      | ok v =>
        obtain ⟨r, hr, hpromotable, hv⟩ := pointToCase_ok hm
        obtain ⟨⟨r', etag⟩, rfl, rfl⟩ := Option.map_eq_some_iff.mp hr
        have hfiled : r'.feedbackId = f := htrusted
        have hvalue : v = { r' with promotedCaseId := some (benchmarkCaseIdFor f) } := by rw [hv, hfiled]
        have hwrite := promoting_write listed hread' (List.mem_append_right _ (List.mem_singleton_self _)) hvalue
          (by rw [hvalue]; exact hfiled)
        refine hwrite.bind (fun h' written hq => ?_) fun h' x hq => hq.1 (fun he => (nomatch he))
        cases written with
        | true => exact .done (hq.1 (fun he => (nomatch he)))
        | false =>
          obtain ⟨hcreated, hhelpless⟩ := hq.2 rfl
          exact ih hcreated fun _ => hhelpless
    · obtain ⟨rfl, -⟩ := hq
      exact absurd ⟨f, hc.created⟩ ha.last

/-- Every promotion keeps the contract. -/
theorem promoting_promoteFeedback (setId feedbackId : String) (listed : List (String × String)) :
    Promoting setId listed (fun h _ => Pointing setId h) (promoteFeedback setId feedbackId) [] := by
  have hstart : Early setId [] := ⟨fun _ ⟨_, he, _⟩ => (nomatch he), fun _ ⟨_, he, _⟩ => (nomatch he)⟩
  refine (promoting_feedbackKeyFor feedbackId hstart).bind (fun h₁ found hq => ?_) fun _ _ hq => hq.1.pointing
  obtain ⟨he₁, hfound⟩ := hq
  cases found with
  | none => exact .done he₁.pointing
  | some key =>
    have hkey := (hfound _ rfl).symm
    refine (promoting_getFeedbackReviewRecord feedbackId key hkey he₁).bind (fun h₂ record hq => ?_)
      fun _ _ hq => hq.1.pointing
    obtain ⟨he₂, hrecord⟩ := hq
    cases record with
    | none => exact .done he₂.pointing
    | some record =>
      obtain ⟨hfiled, hread⟩ := hrecord record rfl
      have htrace := promoting_read listed (a := .getJson (.trace record.traceId))
        (fun h hp _ => ⟨hp, trivial⟩) (fun _ _ => rfl) (fun _ _ => rfl) he₂
      refine htrace.bind (fun h₃ trace hq => ?_) fun _ _ hq => hq.1.pointing
      obtain ⟨he₃, -, rfl⟩ := hq
      have hlater := fun hp => (hread hp).append [⟨.getJson (.trace record.traceId), .ok trace⟩]
      dsimp only
      generalize (trace.map QueryTraceRecord.question).getD "" = question
      cases hp : promoteFeedbackRecord record question with
      | error e => exact .raise he₃.pointing
      | ok result =>
        obtain ⟨hpromotable, rfl⟩ := promoteFeedbackRecord_ok hp
        have hid : (buildBenchmarkCase record question).id = benchmarkCaseIdFor key.2 := by
          rw [← hfiled]
          rfl
        refine (promoting_createCase hid (hlater hpromotable) he₃).bind (fun h₄ u hq => ?_)
          fun _ x hq => (hq.2 x rfl).pointing
        have hupdate := promoting_update listed (n := maxAttempts) question (hq.1 u rfl) fun he => absurd he (by decide)
        exact hupdate.bind (fun _ _ hq => .done hq) fun _ _ hq => hq

end Contract

section Calls

variable {setId t f : String} {listed : List (String × String)} {h : History Err Answer} {e : CallEvent} {w w' : World}

/-- The case of an item, if there is one. -/
def World.case (w : World) (setId f : String) : Option BenchmarkCase := (w.objects (.case setId (benchmarkCaseIdFor f))).content

/-- The stored item. -/
def World.item (w : World) (t f : String) : Option FeedbackReviewRecord := (w.objects (.feedback t f)).content

/-- Items lie under their own ids, and are listed so. -/
structure Filed (listed : List (String × String)) (w : World) : Prop where
  /-- The id of an item. -/
  own : ∀ t f r, World.item w t f = some r → r.feedbackId = f
  /-- The listing. -/
  listing : w.rest = listed

/-- So reads show them. -/
theorem trusted_of_exec (he : inbox.Exec e w w') (hw : Filed listed w) : Trusted listed h e := by
  unfold Trusted
  split
  · next t f r =>
    obtain ⟨-, hr | ⟨m, hr⟩⟩ := exec_getJson he
    · injection hr with hr
      exact hw.own t f r hr.symm
    · contradiction
  · next t f r n =>
    obtain ⟨-, hr | ⟨m, hr⟩⟩ := exec_getJsonWithEtag he
    · injection hr with hr
      obtain ⟨r', hr', hpair⟩ := Option.map_eq_some_iff.mp hr.symm
      injection hpair with hrr _
      exact hw.own t f r (hrr ▸ hr')
    · contradiction
  · next keys =>
    obtain ⟨o, rest, hr, -⟩ := exec_other he
    cases o with
    | list =>
      injection hr with hr
      injection hr with hkeys _
      injection hkeys with hkeys
      rw [← hkeys]
      exact hw.listing
    | raise m =>
      injection hr with hr
      injection hr with hkeys _
      contradiction
  · trivial

/-- A careful call writes an item only by making it point to its case. -/
theorem item_of_careful (he : inbox.Exec e w w') (hc : Careful setId h e) (t f : String) :
    w'.objects (.feedback t f) = w.objects (.feedback t f) ∨ pointsItem f e = true ∧
      ∃ r, World.item w' t f = some r ∧ r.feedbackId = f ∧ r.promotedCaseId = some (benchmarkCaseIdFor f) := by
  obtain ⟨a, r⟩ := e
  cases a with
  | getJson k =>
    rw [(exec_getJson he).1]
    exact .inl rfl
  | getJsonWithEtag k =>
    rw [(exec_getJsonWithEtag he).1]
    exact .inl rfl
  | putJson k v => exact hc.2.elim
  | putJsonConditional k v c =>
    rcases exec_putJsonConditional he with ⟨rfl, -, rfl⟩ | ⟨rfl, -⟩
    · by_cases hk : FeedbackKey.feedback t f = k
      · subst hk
        obtain ⟨-, current, n, -, -, hv, hfiled⟩ := hc.2
        refine .inr ⟨decide_eq_true rfl, v, ?_, hfiled, by rw [hv]⟩
        simp only [World.item, put_self, Cell.write_content]
      · exact .inl (put_of_ne _ _ hk)
    · exact .inl rfl
  | other x =>
    obtain ⟨o, rest, -, rfl⟩ := exec_other he
    exact .inl rfl

/-- It writes a case only by creating it, where there was none. -/
theorem case_of_careful (he : inbox.Exec e w w') (hc : Careful setId h e) (f : String) :
    World.case w' setId f = World.case w setId f ∨ createsCase setId f e = true := by
  obtain ⟨a, r⟩ := e
  cases a with
  | getJson k =>
    rw [(exec_getJson he).1]
    exact .inl rfl
  | getJsonWithEtag k =>
    rw [(exec_getJsonWithEtag he).1]
    exact .inl rfl
  | putJson k v => exact hc.2.elim
  | putJsonConditional k v c =>
    rcases exec_putJsonConditional he with ⟨rfl, -, rfl⟩ | ⟨rfl, -⟩
    · by_cases hk : FeedbackKey.case setId (benchmarkCaseIdFor f) = k
      · subst hk
        exact .inr (decide_eq_true ⟨rfl, rfl⟩)
      · left
        simp only [World.case, put_of_ne _ _ hk]
    · exact .inl rfl
  | other x =>
    obtain ⟨o, rest, -, rfl⟩ := exec_other he
    exact .inl rfl

/-- A creation finds no case and leaves one. -/
theorem case_of_createsCase (he : inbox.Exec e w w') (hc : Careful setId h e) (hcreates : createsCase setId f e = true) :
    World.case w setId f = none ∧ (World.case w' setId f).isSome = true := by
  obtain ⟨a, r⟩ := e
  unfold createsCase at hcreates
  split at hcreates
  · next s id v c u heq =>
    injection heq with ha hr
    subst ha
    rw [decide_eq_true_eq] at hcreates
    obtain ⟨rfl, rfl⟩ := hcreates
    obtain ⟨-, -, -, rfl, -⟩ := hc
    subst hr
    rcases exec_putJsonConditional he with ⟨-, hadmits, rfl⟩ | ⟨-, ⟨hr, -⟩ | ⟨m, hr⟩⟩
    · refine ⟨Option.isNone_iff_eq_none.mp hadmits, ?_⟩
      simp only [World.case, put_self, Cell.write_content, Option.isSome_some]
    · contradiction
    · contradiction
  · contradiction

/-- What points to a case comes after its creation. -/
theorem created_of_points (hc : Careful setId h e) (hpoints : pointsItem f e = true) : HasCreated setId f h := by
  unfold pointsItem at hpoints
  split at hpoints
  · next t f' v c u =>
    rw [decide_eq_true_eq] at hpoints
    rw [← hpoints]
    exact hc.2.1
  · contradiction

/-- Careful calls keep items filed. -/
theorem filed_of_careful (he : inbox.Exec e w w') (hc : Careful setId h e) (hw : Filed listed w) : Filed listed w' := by
  constructor
  · intro t f r hr
    rcases item_of_careful he hc t f with hsame | ⟨-, r', hr', hown, -⟩
    · rw [World.item, hsame] at hr
      exact hw.own t f r hr
    · rw [hr, Option.some.injEq] at hr'
      rw [hr']
      exact hown
  · obtain ⟨a, r⟩ := e
    cases a with
    | getJson k =>
      rw [(exec_getJson he).1]
      exact hw.listing
    | getJsonWithEtag k =>
      rw [(exec_getJsonWithEtag he).1]
      exact hw.listing
    | putJson k v => exact hc.2.elim
    | putJsonConditional k v c =>
      rcases exec_putJsonConditional he with ⟨-, -, rfl⟩ | ⟨rfl, -⟩
      · exact hw.listing
      · exact hw.listing
    | other x =>
      obtain ⟨o, rest, hr, rfl⟩ := exec_other he
      cases x with
      | listFeedbackRecordKeys =>
        cases o with
        | list =>
          injection hr with hr
          injection hr with _ hrest
          rw [← hrest]
          exact hw.listing
        | raise m =>
          injection hr with hr
          injection hr with _ hrest
          rw [← hrest]
          exact hw.listing

end Calls

section Runs

variable {setId f : String} {p q : PromotionPool} {ms : List PromotionMove}

/-- A run goes by the contract of promotions. -/
theorem contracted (hrun : Promotes setId p ms q) (hidle : ∀ t, p.threads t = none) (hfiled : Filed p.world.rest p.world) :
    Contracted (Trusted p.world.rest) (Careful setId) (fun h _ => Pointing setId h) (Filed p.world.rest) ms q :=
  contracted_of_run hrun hidle (fun feedbackId => promoting_promoteFeedback setId feedbackId p.world.rest) hfiled
    (fun _ _ _ _ hw he => trusted_of_exec he hw) fun _ _ _ _ hw he hc => filed_of_careful he hc hw

/-- Cases stay. -/
theorem case_isSome_of_run (hrun : Promotes setId p ms q) (hcase : (World.case p.world setId f).isSome = true) :
    (World.case q.world setId f).isSome = true :=
  hrun.world_invariant (I := fun w => (World.case w setId f).isSome = true) hcase fun _ hm hw =>
    (exec_later (hrun.of_mem hm).1.exec _).isSome hw

/-- What is in a run is careful. -/
theorem careful_of_mem (hrun : Promotes setId p ms q) (hidle : ∀ t, p.threads t = none) (hfiled : Filed p.world.rest p.world)
    {m : PromotionMove} (hm : m ∈ ms) : inbox.Exec m.event m.source.world m.target.world ∧
      Careful setId m.runner.past m.event :=
  ⟨(hrun.of_mem hm).1.exec, ((contracted hrun hidle hfiled).moves m hm).2.2⟩

/-- Before a creation there is no case, and nothing has created one. -/
theorem first_creation (hrun : Promotes setId p ms q) (hidle : ∀ t, p.threads t = none)
    (hfiled : Filed p.world.rest p.world) {ns rest : List PromotionMove} {m : PromotionMove} (hms : ms = ns ++ m :: rest)
    (hcreates : createsCase setId f m.event = true) :
    World.case p.world setId f = none ∧ ∀ m' ∈ ns, createsCase setId f m'.event = false := by
  have hm : m ∈ ms := by
    rw [hms]
    exact List.mem_append_right _ List.mem_cons_self
  obtain ⟨hexec, hcareful⟩ := careful_of_mem hrun hidle hfiled hm
  obtain ⟨hnone, -⟩ := case_of_createsCase hexec hcareful hcreates
  obtain ⟨hbefore, -, -⟩ := hrun.split hms
  constructor
  · by_contra hsome
    have hkept := case_isSome_of_run hbefore (Option.isSome_iff_ne_none.mpr hsome)
    rw [hnone] at hkept
    contradiction
  · intro m' hm'
    by_contra hcreated
    rw [Bool.not_eq_false] at hcreated
    obtain ⟨ns', rest', rfl⟩ := List.append_of_mem hm'
    obtain ⟨-, hallowed, hafter⟩ := hbefore.split rfl
    obtain ⟨-, hcareful'⟩ := careful_of_mem hbefore hidle hfiled hm'
    have hkept := case_isSome_of_run hafter (case_of_createsCase hallowed.exec hcareful' hcreated).2
    rw [hnone] at hkept
    contradiction

/-- What nothing before it has is only one. -/
theorem eq_of_first {α : Type} {l : List α} {P : α → Bool}
    (h : ∀ ns a rest, l = ns ++ a :: rest → P a = true → ∀ b ∈ ns, P b = false) {a b : α} (ha : a ∈ l) (hb : b ∈ l)
    (hpa : P a = true) (hpb : P b = true) : a = b := by
  obtain ⟨ns, rest, rfl⟩ := List.append_of_mem ha
  rcases List.mem_append.mp hb with hbefore | hafter
  · rw [h ns a rest rfl hpa b hbefore] at hpb
    contradiction
  · rcases List.mem_cons.mp hafter with rfl | hafter
    · rfl
    · obtain ⟨mid, rest', rfl⟩ := List.append_of_mem hafter
      have hsplit : ns ++ a :: (mid ++ b :: rest') = (ns ++ a :: mid) ++ b :: rest' := by
        rw [List.append_assoc, List.cons_append]
      rw [h (ns ++ a :: mid) b rest' hsplit hpb a (List.mem_append_right _ List.mem_cons_self)] at hpa
      contradiction

/-- What a thread has created, an earlier move of it created. -/
theorem creation_of_past (hrun : Promotes setId p ms q) (hidle : ∀ t, p.threads t = none) {m : PromotionMove} (hm : m ∈ ms)
    (hcreated : HasCreated setId f m.runner.past) :
    ∃ m₀ ∈ ms, m₀.thread = m.thread ∧ createsCase setId f m₀.event = true := by
  obtain ⟨e, he, hcreates⟩ := hcreated
  obtain ⟨ns, m₀, hns, -, hm₀, hthread, rfl⟩ := earlier_move hrun hidle hm he
  exact ⟨m₀, hns.subset hm₀, hthread, hcreates⟩

/-- Only one thread creates the case of an item. -/
theorem same_creator (hrun : Promotes setId p ms q) (hidle : ∀ t, p.threads t = none) (hfiled : Filed p.world.rest p.world)
    {m m' : PromotionMove} (hm : m ∈ ms) (hm' : m' ∈ ms) (hcreated : HasCreated setId f m.runner.past)
    (hcreated' : HasCreated setId f m'.runner.past) : m'.thread = m.thread := by
  obtain ⟨m₀, hm₀, hthread, hc⟩ := creation_of_past hrun hidle hm hcreated
  obtain ⟨m₀', hm₀', hthread', hc'⟩ := creation_of_past hrun hidle hm' hcreated'
  have hfirst : ∀ ns a rest, ms = ns ++ a :: rest → createsCase setId f a.event = true →
      ∀ b ∈ ns, createsCase setId f b.event = false :=
    fun ns a rest hms ha => (first_creation hrun hidle hfiled hms ha).2
  have hsame := eq_of_first hfirst hm₀ hm₀' hc hc'
  rw [← hthread, ← hthread', hsame]

/-- A thread that has created a case comes before anything that points to it. -/
theorem not_pointed_before (hrun : Promotes setId p ms q) (hidle : ∀ t, p.threads t = none)
    (hfiled : Filed p.world.rest p.world) {ns rest : List PromotionMove} {m : PromotionMove} (hms : ms = ns ++ m :: rest)
    (hcreated : HasCreated setId f m.runner.past) {m' : PromotionMove} (hm' : m' ∈ ns) : pointsItem f m'.event = false := by
  by_contra hpoints
  rw [Bool.not_eq_false] at hpoints
  have hm : m ∈ ms := by
    rw [hms]
    exact List.mem_append_right _ List.mem_cons_self
  have hin' : m' ∈ ms := by
    rw [hms]
    exact List.mem_append_left _ hm'
  have hcreated' := created_of_points (careful_of_mem hrun hidle hfiled hin').2 hpoints
  have hthread := same_creator hrun hidle hfiled hm hin' hcreated hcreated'
  exact (careful_of_mem hrun hidle hfiled hm).2.1 f ⟨m'.event, mem_past_of_earlier hrun hms hm' hthread, hpoints⟩

/-- An item nobody makes point to its case stays as it is. -/
theorem item_of_not_pointed (hrun : Promotes setId p ms q) (hcareful : ∀ m ∈ ms, Careful setId m.runner.past m.event)
    (hms : ∀ m ∈ ms, pointsItem f m.event = false) (t : String) :
    q.world.objects (.feedback t f) = p.world.objects (.feedback t f) := by
  refine hrun.world_invariant (I := fun w => w.objects (.feedback t f) = p.world.objects (.feedback t f)) rfl fun m hm hw => ?_
  rcases item_of_careful (hrun.of_mem hm).1.exec (hcareful m hm) t f with hsame | ⟨hpoints, -⟩
  · rw [hsame, hw]
  · rw [hms m hm] at hpoints
    contradiction

/-- So it is for a thread that has created the case, now and at whatever it has
done before. -/
theorem item_of_created (hrun : Promotes setId p ms q) (hidle : ∀ t, p.threads t = none)
    (hfiled : Filed p.world.rest p.world) {m : PromotionMove} (hm : m ∈ ms) (hcreated : HasCreated setId f m.runner.past)
    (t : String) : m.source.world.objects (.feedback t f) = p.world.objects (.feedback t f) ∧
      ∀ e ∈ m.runner.past, ∃ m', inbox.Exec e m'.source.world m'.target.world ∧ m' ∈ ms ∧
        m'.source.world.objects (.feedback t f) = p.world.objects (.feedback t f) := by
  obtain ⟨ns, rest, hms⟩ := List.append_of_mem hm
  obtain ⟨hbefore, -, -⟩ := hrun.split hms
  have hquiet : ∀ m' ∈ ns, pointsItem f m'.event = false := fun m' hm' =>
    not_pointed_before hrun hidle hfiled hms hcreated hm'
  have hcareful : ∀ m' ∈ ns, Careful setId m'.runner.past m'.event := fun m' hm' =>
    (careful_of_mem hbefore hidle hfiled hm').2
  refine ⟨item_of_not_pointed hbefore hcareful hquiet t, fun e he => ?_⟩
  obtain ⟨m', hm', -, rfl⟩ := hbefore.move_of_past (hidle _) (runner_of_mem hrun hm) he
  obtain ⟨ns', rest', rfl⟩ := List.append_of_mem hm'
  obtain ⟨hbefore', hallowed, -⟩ := hbefore.split rfl
  have hin : m' ∈ ms := by
    rw [hms]
    exact List.mem_append_left _ hm'
  exact ⟨m', hallowed.exec, hin,
    item_of_not_pointed hbefore' (fun m hm => hcareful m (List.mem_append_left _ hm))
      (fun m hm => hquiet m (List.mem_append_left _ hm)) t⟩

/-- The call raised. -/
def raised (e : CallEvent) : Bool :=
  match e.answer with
  | .error (.raised _) => true
  | _ => false

/-- Such a thread reads an item that can be promoted. -/
theorem read_promotable (hrun : Promotes setId p ms q) (hidle : ∀ t, p.threads t = none)
    (hfiled : Filed p.world.rest p.world) {m : PromotionMove} (hm : m ∈ ms) {t : String} (hread : HasRead t f m.runner.past)
    (hcreated : HasCreated setId f m.runner.past) : ∃ r, World.item m.source.world t f = some r ∧ r.Promotable := by
  obtain ⟨r, hin, hpromotable⟩ := hread
  obtain ⟨hnow, hpast⟩ := item_of_created hrun hidle hfiled hm hcreated t
  obtain ⟨m', hexec, -, hthen⟩ := hpast _ hin
  obtain ⟨-, hr | ⟨message, hr⟩⟩ := exec_getJson hexec
  · injection hr with hr
    refine ⟨r, ?_, hpromotable⟩
    rw [World.item, hnow, ← hthen]
    exact hr.symm
  · contradiction

/-- Its update is not refused. -/
theorem update_admitted (hrun : Promotes setId p ms q) (hidle : ∀ t, p.threads t = none)
    (hfiled : Filed p.world.rest p.world) {m : PromotionMove} (hm : m ∈ ms) {t : String} {r : FeedbackReviewRecord} {n : ℕ}
    (hin : ⟨.getJsonWithEtag (.feedback t f), .ok (some (r, n))⟩ ∈ m.runner.past)
    (hcreated : HasCreated setId f m.runner.past) : (m.source.world.objects (.feedback t f)).admits (.ifMatch n) = true := by
  obtain ⟨hnow, hpast⟩ := item_of_created hrun hidle hfiled hm hcreated t
  obtain ⟨m', hexec, -, hthen⟩ := hpast _ hin
  obtain ⟨-, hr | ⟨message, hr⟩⟩ := exec_getJsonWithEtag hexec
  · injection hr with hr
    obtain ⟨r', hr', hpair⟩ := Option.map_eq_some_iff.mp hr.symm
    injection hpair with _ hn
    rw [hnow, ← hthen, ← hn]
    simp only [Cell.admits, hr', Option.isSome_some, beq_self_eq_true, Bool.and_self]
  · contradiction

/-- A thread that has created a case finds everything as it needs it, as long
as no call of it raises. -/
theorem helpful_of_mem (hrun : Promotes setId p ms q) (hidle : ∀ t, p.threads t = none)
    (hfiled : Filed p.world.rest p.world) {m : PromotionMove} (hm : m ∈ ms)
    (hcalm : (∃ f, HasCreated setId f m.runner.past) → raised m.event = false) : Helpful setId m.runner.past m.event := by
  intro hcreated
  have hnot := hcalm hcreated
  obtain ⟨hexec, hcareful⟩ := careful_of_mem hrun hidle hfiled hm
  have hread := fun {t f} => read_promotable (f := f) hrun hidle hfiled hm (t := t)
  have hadmitted := fun {t f r n} => update_admitted (f := f) hrun hidle hfiled hm (t := t) (r := r) (n := n)
  generalize m.event = e at *
  obtain ⟨a, r⟩ := e
  cases a with
  | getJson k =>
    obtain ⟨-, rfl | ⟨message, rfl⟩⟩ := exec_getJson hexec
    · trivial
    · exact nomatch hnot
  | getJsonWithEtag k =>
    obtain ⟨-, rfl | ⟨message, rfl⟩⟩ := exec_getJsonWithEtag hexec
    · obtain ⟨-, t, f, rfl, hin, hc⟩ := hcareful
      obtain ⟨r, hr, hpromotable⟩ := hread hin hc
      refine ⟨r, (m.source.world.objects (.feedback t f)).generation, ?_, hpromotable⟩
      rw [World.item] at hr
      rw [hr, Option.map_some]
    · exact nomatch hnot
  | putJson k v => exact hcareful.2.elim
  | putJsonConditional k v c =>
    rcases exec_putJsonConditional hexec with ⟨rfl, -, -⟩ | ⟨-, ⟨rfl, hrefused⟩ | ⟨message, rfl⟩⟩
    · trivial
    · cases k with
      | feedback t f =>
        obtain ⟨-, hc, current, n, hin, rfl, -⟩ := hcareful
        rw [hadmitted hin hc] at hrefused
        contradiction
      | trace t => exact hcareful.2.elim
      | case s id =>
        obtain ⟨f, hc⟩ := hcreated
        exact absurd hc (hcareful.2.1 f)
    · exact nomatch hnot
  | other x =>
    obtain ⟨o, rest, hr, -⟩ := exec_other hexec
    cases x with
    | listFeedbackRecordKeys =>
      cases o with
      | list =>
        injection hr with hr
        injection hr with hr _
        rw [← hr]
        trivial
      | raise message =>
        injection hr with hr
        injection hr with hr _
        subst hr
        exact nomatch hnot

/-- A promotion that has finished points to what it created. -/
theorem pointed_of_finished (hrun : Promotes setId p ms q) (hidle : ∀ t, p.threads t = none)
    (hfiled : Filed p.world.rest p.world)
    (hcalm : ∀ m ∈ ms, (∃ f, HasCreated setId f m.runner.past) → raised m.event = false) {t : ℕ}
    {th : Thread String Err Answer (Option BenchmarkCase)} (hth : q.threads t = some th) (hfinished : th.Finished)
    (hcreated : HasCreated setId f th.past) : HasPointed f th.past := by
  have hensures := (contracted hrun hidle hfiled).threads t th hth
  have hhelpful : AllHelpful setId th.past :=
    forall_past hrun hidle (fun m hm => helpful_of_mem hrun hidle hfiled hm (hcalm m hm)) hth
  cases hprogram : th.program with
  | done a =>
    rw [hprogram] at hensures
    exact hensures.of_done hhelpful f hcreated
  | raise e =>
    rw [hprogram] at hensures
    exact hensures.of_raise hhelpful f hcreated
  | act a next => 
    rw [Thread.Finished, hprogram] at hfinished
    exact hfinished.elim

/-- The evaluation cases are those the items point to. -/
def Settled (setId : String) (w : World) : Prop := ∀ t f r, World.item w t f = some r →
  ((World.case w setId f).isSome = true ↔ r.promotedCaseId = some (benchmarkCaseIdFor f))

/-- Where nothing is created there are the cases there were. -/
theorem case_of_not_created (hrun : Promotes setId p ms q) (hidle : ∀ t, p.threads t = none)
    (hfiled : Filed p.world.rest p.world) (hms : ∀ m ∈ ms, createsCase setId f m.event = false) :
    World.case q.world setId f = World.case p.world setId f := by
  refine hrun.world_invariant (I := fun w => World.case w setId f = World.case p.world setId f) rfl fun m hm hw => ?_
  obtain ⟨hexec, hcareful⟩ := careful_of_mem hrun hidle hfiled hm
  rcases case_of_careful hexec hcareful f with hsame | hcreates
  · rw [hsame, hw]
  · rw [hms m hm] at hcreates
    contradiction

/-- At rest every creation has been followed by its pointer. -/
theorem exists_points (hrun : Promotes setId p ms q) (hidle : ∀ t, p.threads t = none) (hfiled : Filed p.world.rest p.world)
    (hcalm : ∀ m ∈ ms, (∃ f, HasCreated setId f m.runner.past) → raised m.event = false) (hrest : q.AtRest)
    {m : PromotionMove} (hm : m ∈ ms) (hcreates : createsCase setId f m.event = true) :
    ∃ m' ∈ ms, pointsItem f m'.event = true := by
  obtain ⟨th, hth, -, hpast⟩ := hrun.runner_kept hm
  have hin : m.event ∈ th.past := hpast.subset (List.mem_append_right _ (List.mem_singleton_self _))
  obtain ⟨e, he, hpoints⟩ := pointed_of_finished hrun hidle hfiled hcalm hth (hrest _ _ hth) ⟨m.event, hin, hcreates⟩
  obtain ⟨m', hm', -, rfl⟩ := hrun.move_of_past (hidle _) hth he
  exact ⟨m', hm', hpoints⟩

/-- A pointer is written on an item that was there from the start. -/
theorem item_of_points (hrun : Promotes setId p ms q) (hidle : ∀ t, p.threads t = none) (hfiled : Filed p.world.rest p.world)
    {m : PromotionMove} (hm : m ∈ ms) (hpoints : pointsItem f m.event = true) :
    ∃ t, (World.item p.world t f).isSome = true ∧ ∃ r, World.item m.target.world t f = some r ∧
      r.promotedCaseId = some (benchmarkCaseIdFor f) := by
  obtain ⟨hexec, hcareful⟩ := careful_of_mem hrun hidle hfiled hm
  have hcreated := created_of_points hcareful hpoints
  have hstart := item_of_created hrun hidle hfiled hm hcreated
  generalize m.event = e at *
  unfold pointsItem at hpoints
  split at hpoints
  · next t f' v c u =>
    rw [decide_eq_true_eq] at hpoints
    subst hpoints
    obtain ⟨-, -, current, n, hin, -, hv, -⟩ := hcareful
    obtain ⟨m', hread, -, hthen⟩ := (hstart t).2 _ hin
    refine ⟨t, ?_, v, ?_, by rw [hv]⟩
    · obtain ⟨-, hr | ⟨message, hr⟩⟩ := exec_getJsonWithEtag hread
      · injection hr with hr
        obtain ⟨r', hr', -⟩ := Option.map_eq_some_iff.mp hr.symm
        rw [World.item, ← hthen, hr', Option.isSome_some]
      · contradiction
    · rcases exec_putJsonConditional hexec with ⟨-, -, htarget⟩ | ⟨-, ⟨hr, -⟩ | ⟨message, hr⟩⟩
      · rw [htarget]
        simp only [World.item, put_self, Cell.write_content]
      · contradiction
      · contradiction
  · contradiction

/-- At rest the cases are those the items point to. -/
theorem settled_at_rest (hrun : Promotes setId p ms q) (hidle : ∀ t, p.threads t = none) (hfiled : Filed p.world.rest p.world)
    (hunique : ∀ t t' f, (World.item p.world t f).isSome = true → (World.item p.world t' f).isSome = true → t = t')
    (hsettled : Settled setId p.world)
    (hcalm : ∀ m ∈ ms, (∃ f, HasCreated setId f m.runner.past) → raised m.event = false) (hrest : q.AtRest) :
    Settled setId q.world := by
  intro t f r hr
  by_cases hpointed : ∃ m ∈ ms, pointsItem f m.event = true
  · obtain ⟨m, hm, hpoints⟩ := hpointed
    obtain ⟨ns, rest, hms⟩ := List.append_of_mem hm
    obtain ⟨hbefore, hallowed, hafter⟩ := hrun.split hms
    obtain ⟨hexec, hcareful⟩ := careful_of_mem hrun hidle hfiled hm
    have hcreated := created_of_points hcareful hpoints
    have hcase : (World.case q.world setId f).isSome = true := by
      obtain ⟨m₀, hm₀, -, hcreates⟩ := creation_of_past hrun hidle hm hcreated
      obtain ⟨ns₀, rest₀, hms₀⟩ := List.append_of_mem hm₀
      obtain ⟨-, -, hafter₀⟩ := hrun.split hms₀
      obtain ⟨hexec₀, hcareful₀⟩ := careful_of_mem hrun hidle hfiled hm₀
      exact case_isSome_of_run hafter₀ (case_of_createsCase hexec₀ hcareful₀ hcreates).2
    have hafterwards : ∀ m' ∈ rest, pointsItem f m'.event = false := by
      intro m' hm'
      by_contra hpoints'
      rw [Bool.not_eq_false] at hpoints'
      obtain ⟨mid, rest', rfl⟩ := List.append_of_mem hm'
      have hsplit : ms = (ns ++ m :: mid) ++ m' :: rest' := by rw [hms, List.append_assoc, List.cons_append]
      have hin : m' ∈ ms := by
        rw [hsplit]
        exact List.mem_append_right _ List.mem_cons_self
      have hcreated' := created_of_points (careful_of_mem hrun hidle hfiled hin).2 hpoints'
      have hno := not_pointed_before hrun hidle hfiled hsplit hcreated' (List.mem_append_right _ List.mem_cons_self)
      rw [hpoints] at hno
      contradiction
    have hcarefulrest : ∀ m' ∈ rest, Careful setId m'.runner.past m'.event := by
      intro m' hm'
      refine (careful_of_mem hrun hidle hfiled ?_).2
      rw [hms]
      exact List.mem_append_right _ (List.mem_cons_of_mem _ hm')
    have hlast := item_of_not_pointed hafter hcarefulrest hafterwards
    rw [World.item, hlast t] at hr
    have hpointer : r.promotedCaseId = some (benchmarkCaseIdFor f) := by
      rcases item_of_careful hexec hcareful t f with hsame | ⟨-, r', hr', -, hpointer⟩
      · obtain ⟨t', hstart', r', hr', hpointer⟩ := item_of_points hrun hidle hfiled hm hpoints
        have hstart : (World.item p.world t f).isSome = true := by
          rw [World.item, ← ((item_of_created hrun hidle hfiled hm hcreated) t).1, ← hsame, hr, Option.isSome_some]
        rw [hunique t' t f hstart' hstart, World.item, hr, Option.some.injEq] at hr'
        rw [hr']
        exact hpointer
      · rw [World.item, hr, Option.some.injEq] at hr'
        rw [hr']
        exact hpointer
    exact ⟨fun _ => hpointer, fun _ => hcase⟩
  · have hquiet : ∀ m ∈ ms, pointsItem f m.event = false := fun m hm => by
      rw [Bool.eq_false_iff]
      exact fun hpoints => hpointed ⟨m, hm, hpoints⟩
    have hnone : ∀ m ∈ ms, createsCase setId f m.event = false := fun m hm => by
      rw [Bool.eq_false_iff]
      exact fun hcreates => hpointed (exists_points hrun hidle hfiled hcalm hrest hm hcreates)
    have hcareful : ∀ m ∈ ms, Careful setId m.runner.past m.event := fun m hm => (careful_of_mem hrun hidle hfiled hm).2
    rw [World.item, item_of_not_pointed hrun hcareful hquiet] at hr
    rw [case_of_not_created hrun hidle hfiled hnone]
    exact hsettled t f r hr

/-- The lookup, alone. -/
theorem feedbackKeyFor_succeeds (w : World) (feedbackId : String) :
    ∃ es, Outcome inbox (feedbackKeyFor feedbackId) w es (.ok (keyFor w.rest feedbackId)) w := by
  have hlist : inbox.Exec ⟨.other .listFeedbackRecordKeys, .ok w.rest⟩ w w := ⟨.other .list, rfl⟩
  exact ⟨_, (Outcome.perform hlist).bind (.done _ w)⟩

/-- Where the cases are those the items point to, an item that can be promoted
is promoted by a promotion whose calls all go through. -/
theorem promoteFeedback_succeeds {w : World} (hfiled : Filed w.rest w) (hsettled : Settled setId w) {feedbackId t f : String}
    (hkey : keyFor w.rest feedbackId = some (t, f)) {r : FeedbackReviewRecord} (hr : World.item w t f = some r)
    (hp : r.Promotable) : ∃ es case w', Outcome inbox (promoteFeedback setId feedbackId) w es (.ok (some case)) w' ∧
      World.case w' setId f = some case := by
  obtain ⟨es₁, hlookup⟩ := feedbackKeyFor_succeeds w feedbackId
  rw [hkey] at hlookup
  have hget : inbox.Exec ⟨.getJson (.feedback t f), .ok (some r)⟩ w w := by
    refine ⟨.proceed, ?_⟩
    rw [← hr]
    rfl
  have htrace : inbox.Exec ⟨.getJson (.trace r.traceId), .ok (w.objects (.trace r.traceId)).content⟩ w w := ⟨.proceed, rfl⟩
  have hown := hfiled.own t f r hr
  have hnone : World.case w setId f = none := by
    have hno : ¬ (World.case w setId f).isSome = true := fun hsome => by
      have hpointer := (hsettled t f r hr).mp hsome
      rw [hp.1] at hpointer
      contradiction
    rwa [Option.isSome_iff_ne_none, not_not] at hno
  generalize hq : ((w.objects (.trace r.traceId)).content.map QueryTraceRecord.question).getD "" = question
  have hid : (buildBenchmarkCase r question).id = benchmarkCaseIdFor f := by
    rw [← hown]
    rfl
  let w₁ : World := { w with
    objects := put w.objects (.case setId (buildBenchmarkCase r question).id) (buildBenchmarkCase r question) }
  have hcreate : inbox.Exec ⟨.putJsonConditional (.case setId (buildBenchmarkCase r question).id)
      (buildBenchmarkCase r question) .ifNoneMatch, .ok ()⟩ w w₁ := by
    have hadmits : (w.objects (.case setId (buildBenchmarkCase r question).id)).admits .ifNoneMatch = true := by
      rw [hid]
      exact Option.isNone_iff_eq_none.mpr hnone
    exact ⟨.proceed, if_pos hadmits⟩
  have hmutate : pointToCase question (w₁.objects (.feedback t f)).content =
      .ok { r with promotedCaseId := some (benchmarkCaseIdFor r.feedbackId) } := by
    have hkept : (w₁.objects (.feedback t f)).content = some r := by
      simp only [w₁, put_of_ne _ _ (FeedbackKey.noConfusion : FeedbackKey.feedback t f ≠ .case _ _)]
      exact hr
    rw [hkept]
    simp only [pointToCase, promoteFeedbackRecord_of_promotable hp]
  have hupdate := updateJsonCas_succeeds answer? (n := 7) hmutate
  obtain ⟨es₂, w₂, hlast, hw₂⟩ : ∃ es w', Outcome inbox (do
        createCase setId (buildBenchmarkCase r question)
        let _ ← updateJsonCas (P := Payload) (.feedback t f) (pointToCase question) maxAttempts
        pure (some (buildBenchmarkCase r question))) w es (.ok (some (buildBenchmarkCase r question))) w' ∧
      World.case w' setId f = some (buildBenchmarkCase r question) := by
    refine ⟨_, _, (Outcome.perform hcreate).catchError.bind (hupdate.bind (.done _ _)), ?_⟩
    have hne : FeedbackKey.case setId (benchmarkCaseIdFor f) ≠ .feedback t f := FeedbackKey.noConfusion
    have hstored : World.case w₁ setId f = some (buildBenchmarkCase r question) := by
      rw [World.case, ← hid]
      simp only [w₁, put_self, Cell.write_content]
    simp only [World.case, put_of_ne _ _ hne]
    exact hstored
  have hpair := promoteFeedbackRecord_of_promotable hp question
  subst hq
  have hrecord : Outcome inbox (getFeedbackReviewRecord feedbackId) w _ (.ok (some r)) w :=
    hlookup.bind (Outcome.perform hget)
  refine ⟨_ ++ (_ ++ (_ ++ es₂)), _, w₂, hlookup.bind (hrecord.bind ((Outcome.perform htrace).bind ?_)), hw₂⟩
  dsimp only
  rw [hpair]
  exact hlast

end Runs

end RagSystem.FeedbackPromotion
