import RagSystem.StoreRequests
import RagSystem.AIConfiguration

/-!
# Compare-and-swap when replies are lost

An upload that was applied but whose reply was lost is repeated, and then
refused because of itself. As long as no upload is refused for that reason, a
successful update has been applied exactly once and a lost race not at all.
-/

namespace RagSystem.LostReplies

open AtomicProgram ThreadPool RelyGuarantee VersionedCell Storage CompareAndSwap StoreRequests AIConfiguration

set_option autoImplicit false

variable {K E α : Type} {P : K → Type}

section Counting

/-- The past of a caller. -/
abbrev Past (E : Type) (P : K → Type) := History (RequestError K E) (RequestAnswer (P := P))

/-- How many of the caller's uploads the store has applied. -/
def tally (h : Past E P) : ℕ := h.countP applied

/-- One request more. -/
theorem tally_append (h : Past E P) (e : RequestEvent E P) :
    tally (h ++ [e]) = tally h + if applied e = true then 1 else 0 := by
  simp only [tally, List.countP_append, List.countP_singleton]

/-- A request that is not applied does not count. -/
theorem tally_of_not_applied (h : Past E P) {e : RequestEvent E P} (he : applied e = false) :
    tally (h ++ [e]) = tally h := by
  simp only [tally_append, he, Bool.false_eq_true, if_false, Nat.add_zero]

/-- An applied one does. -/
theorem tally_of_applied (h : Past E P) {e : RequestEvent E P} (he : applied e = true) :
    tally (h ++ [e]) = tally h + 1 := by
  simp only [tally_append, he, if_true]

/-- The caller's upload of `v` was applied. -/
def Uploaded (k : K) (v : P k) (h : Past E P) : Prop := ∃ e ∈ h, applied e = true ∧ ∃ c, e.action = .upload k v c

variable [DecidableEq K]

/-- A request happens, and no upload is refused after one of the caller's own
was applied. -/
def Unechoed : StepPredicate (Cells P) (RequestError K E) (RequestAnswer (P := P)) :=
  fun h e w w' => requests.Exec e w w' ∧ (refused e = true → tally h = 0)

/-- What is applied is an upload to `k` of something that may replace the
content. -/
def Applies (k : K) (allowed : Option (P k) → P k → Prop) :
    StepPredicate (Cells P) (RequestError K E) (RequestAnswer (P := P)) := fun _ e w w' =>
  applied e = true → ∃ v c, e.action = .upload k v c ∧ allowed (w k).content v ∧ w' = put w k v

/-- A program of a caller that writes to `k` as `allowed` says. -/
abbrev Writes (k : K) (allowed : Option (P k) → P k → Prop)
    (Q : Ending (Cells P) (RequestError K E) (RequestAnswer (P := P)) α) :
    RequestProgram E P α → Past E P → Cells P → Prop := Sat Unechoed (Applies k allowed) Later Q

omit [DecidableEq K] in
/-- Others change the cells by writing. -/
theorem later_rely : IsRely (Later (P := P)) := ⟨.refl, .trans⟩

end Counting

section Loops

variable [DecidableEq K] {k : K} {allowed : Option (P k) → P k → Prop}

/-- An upload loop between two attempts: nothing was applied since `cell` was
read, or one attempt was and the next ones will be refused. -/
def Pending (k : K) (cell : Cell (P k)) (c : Precondition) (h : Past E P) (w : Cells P) : Prop :=
  (tally h = 0 ∧ cell.Later (w k)) ∨ (0 < tally h ∧ (w k).Surpassed c)

omit [DecidableEq K] in
/-- Others cannot change that. -/
theorem Pending.later {cell : Cell (P k)} {c : Precondition} {h : Past E P} {w w' : Cells P}
    (hp : Pending k cell c h w) (hl : Later w w') : Pending k cell c h w' := by
  rcases hp with ⟨h0, hc⟩ | ⟨h1, hs⟩
  · exact .inl ⟨h0, hc.trans (hl k)⟩
  · exact .inr ⟨h1, hs.later (hl k)⟩

/-- How a loop of uploads of `v` may end. -/
structure UploadEnds (k : K) (v : P k) (c : Precondition) (h : Past E P) (res : Except (RequestError K E) Unit)
    (w : Cells P) : Prop where
  /-- It went through, once. -/
  written : res = .ok () → tally h = 1 ∧ Uploaded k v h
  /-- It was refused, and was never applied. -/
  refused : ∀ k', res = .error (.preconditionFailed k') →
    tally h = 0 ∧ (c = .ifNoneMatch → (w k).content.isSome = true)

/-- One attempt: it ends the loop as it may, or the loop goes on. -/
theorem upload_step {cell : Cell (P k)} {v : P k} {c : Precondition}
    (hv : ∀ c', cell.Later c' → c'.admits c = true → allowed c'.content v) {h : Past E P} {w w' : Cells P}
    {r : Except (RequestError K E) Unit} (hp : Pending k cell c h w) (ht : Unechoed h ⟨.upload k v c, r⟩ w w') :
    Applies k allowed h ⟨.upload k v c, r⟩ w w' ∧
      ((r = .ok () ∧ tally (h ++ [⟨.upload k v c, r⟩]) = 1 ∧ Uploaded k v (h ++ [⟨.upload k v c, r⟩])) ∨
        (r = .error (.preconditionFailed k) ∧ tally (h ++ [⟨.upload k v c, r⟩]) = 0 ∧
          (c = .ifNoneMatch → (w' k).content.isSome = true)) ∨
        ((∃ b m, r = .error (.transient b m)) ∧ Pending k cell c (h ++ [⟨.upload k v c, r⟩]) w')) := by
  rcases exec_upload ht.1 with ⟨ha, rfl, hr⟩ | ⟨rfl, ⟨rfl, ha⟩ | ⟨m, rfl⟩⟩
  · -- applied: nothing of this loop was applied before, or it would have been refused
    rcases hp with ⟨h0, hc⟩ | ⟨-, hs⟩
    · have happlied : applied (⟨.upload k v c, r⟩ : RequestEvent E P) = true := by
        rcases hr with rfl | ⟨m, rfl⟩
        · rfl
        · rfl
      have htally := tally_of_applied h happlied
      rw [h0] at htally
      refine ⟨fun _ => ⟨v, c, rfl, hv _ hc ha, rfl⟩, ?_⟩
      rcases hr with rfl | ⟨m, rfl⟩
      · have hin := List.mem_append_right h (List.mem_singleton_self (⟨.upload k v c, .ok ()⟩ : RequestEvent E P))
        exact .inl ⟨rfl, htally, _, hin, rfl, c, rfl⟩
      · have hs : (put w k v k).Surpassed c := by
          rw [put_self]
          exact Cell.surpassed_write ha v
        exact .inr (.inr ⟨⟨true, m, rfl⟩, .inr ⟨by omega, hs⟩⟩)
    · rw [hs.admits] at ha
      contradiction
  · have h0 := ht.2 rfl
    refine ⟨fun he => by contradiction, .inr (.inl ⟨rfl, ?_, fun hnone => ?_⟩)⟩
    · rw [tally_of_not_applied h rfl, h0]
    · subst hnone
      simpa only [Cell.admits, Option.isNone_eq_false_iff] using ha
  · have hsame : tally (h ++ [⟨.upload k v c, .error (.transient false m)⟩]) = tally h := tally_of_not_applied h rfl
    refine ⟨fun he => by contradiction, .inr (.inr ⟨⟨false, m, rfl⟩, ?_⟩)⟩
    unfold Pending
    rw [hsame]
    exact hp

/-- The whole loop of uploads. -/
theorem writes_putBytesConditional {cell : Cell (P k)} {v : P k} {c : Precondition}
    (hv : ∀ c', cell.Later c' → c'.admits c = true → allowed c'.content v) (left : ℕ) {h : Past E P} {w : Cells P}
    (hp : Pending k cell c h w) :
    Writes k allowed (UploadEnds k v c)
      (retryOnTransient isPreconditionFailed (perform (Request.upload k v c)) left) h w := by
  induction left generalizing h w with
  | zero =>
    refine Sat.perform fun w₁ hw r w₂ ht => ?_
    obtain ⟨hg, hr⟩ := upload_step hv (hp.later hw) ht
    refine ⟨hg, fun w₃ hw₃ => ?_⟩
    rcases hr with ⟨rfl, hone⟩ | ⟨rfl, h0, hsome⟩ | ⟨⟨b, m, rfl⟩, -⟩
    · exact ⟨fun _ => hone, fun _ he => (nomatch he)⟩
    · exact ⟨fun he => (nomatch he), fun _ _ => ⟨h0, fun hc => (hw₃ k).isSome (hsome hc)⟩⟩
    · exact ⟨fun he => (nomatch he), fun _ he => (nomatch he)⟩
  | succ left ih =>
    intro w₁ hw r w₂ ht
    obtain ⟨hg, hr⟩ := upload_step hv (hp.later hw) ht
    refine ⟨hg, ?_⟩
    rcases hr with ⟨rfl, hone⟩ | ⟨rfl, h0, hsome⟩ | ⟨⟨b, m, rfl⟩, hnext⟩
    · exact .done fun _ _ => ⟨fun _ => hone, fun _ he => (nomatch he)⟩
    · exact .raise fun _ hw₃ => ⟨fun he => (nomatch he), fun _ _ => ⟨h0, fun hc => (hw₃ k).isSome (hsome hc)⟩⟩
    · exact ih hnext

/-- A read finds the cell as it is or fails, and applies nothing. -/
theorem writes_getJsonWithEtag (left : ℕ) {h : Past E P} {w : Cells P} (h0 : tally h = 0) :
    Writes k allowed (fun h res w => tally h = 0 ∧ (∀ cur, res = .ok cur → ∃ c : Cell (P k), cur = tagged c ∧
        c.Later (w k)) ∧ ∀ e, res = .error e → ∃ b m, e = .transient b m)
      (retryOnTransient (fun _ => false) (perform (Request.getBlob k)) left) h w := by
  have hstep (h : Past E P) (h0 : tally h = 0) (w₁ : Cells P) (r : Except (RequestError K E) (Option (P k × ℕ)))
      (w₂ : Cells P) (ht : Unechoed h ⟨.getBlob k, r⟩ w₁ w₂) :
      Applies k allowed h ⟨.getBlob k, r⟩ w₁ w₂ ∧ tally (h ++ [⟨.getBlob k, r⟩]) = 0 := by
    have hnot : applied (⟨.getBlob k, r⟩ : RequestEvent E P) = false := rfl
    refine ⟨fun he => ?_, ?_⟩
    · rw [hnot] at he
      contradiction
    · rw [tally_of_not_applied h hnot, h0]
  induction left generalizing h w with
  | zero =>
    refine Sat.perform fun w₁ _ r w₂ ht => ?_
    obtain ⟨hg, hnext⟩ := hstep h h0 w₁ r w₂ ht
    refine ⟨hg, fun w₃ hw₃ => ⟨hnext, fun cur hcur => ?_, fun e he => ?_⟩⟩
    · obtain ⟨rfl, rfl | ⟨m, rfl⟩⟩ := exec_getBlob ht.1
      · injection hcur with hcur
        exact ⟨w₂ k, hcur.symm, hw₃ k⟩
      · contradiction
    · obtain ⟨rfl, rfl | ⟨m, rfl⟩⟩ := exec_getBlob ht.1
      · contradiction
      · injection he with he
        exact ⟨false, m, he.symm⟩
  | succ left ih =>
    intro w₁ _ r w₂ ht
    obtain ⟨hg, hnext⟩ := hstep h h0 w₁ r w₂ ht
    refine ⟨hg, ?_⟩
    obtain ⟨rfl, rfl | ⟨m, rfl⟩⟩ := exec_getBlob ht.1
    · refine .done fun w₃ hw₃ => ⟨hnext, fun cur hcur => ?_, fun e he => (nomatch he)⟩
      injection hcur with hcur
      exact ⟨w₂ k, hcur.symm, hw₃ k⟩
    · exact ih hnext

/-- How an update may end. -/
structure UpdateEnds (k : K) (h : Past E P) (res : Except (RequestError K E) (P k)) : Prop where
  /-- It went through, once. -/
  written : ∀ v, res = .ok v → tally h = 1 ∧ Uploaded k v h
  /-- It lost its races, and was never applied. -/
  raced : ∀ k', res = .error (.preconditionFailed k') → tally h = 0

/-- The write of one round: through once, or lost and not applied. -/
theorem writes_putUnlessRaced {cell : Cell (P k)} {v : P k} (maxRetries : ℕ)
    (hv : ∀ c', cell.Later c' → c'.admits (conditionOf (tagged cell)) = true → allowed c'.content v)
    {h : Past E P} {w : Cells P} (h0 : tally h = 0) (hc : cell.Later (w k)) :
    Writes k allowed (fun h res _ => (res = .ok true → tally h = 1 ∧ Uploaded k v h) ∧
        (res = .ok false → tally h = 0) ∧ ∀ k', res ≠ .error (.preconditionFailed k'))
      (putUnlessRaced maxRetries k v (conditionOf (tagged cell))) h w := by
  have hput := writes_putBytesConditional hv (maxRetries - 1) (.inl ⟨h0, hc⟩ : Pending k cell _ h w)
  have hbody : Writes k allowed (fun h res _ => (∀ b, res = .ok b → b = true ∧ tally h = 1 ∧ Uploaded k v h) ∧
        ∀ k', res = .error (.preconditionFailed k') → tally h = 0)
      ((putBytesConditional maxRetries k v (conditionOf (tagged cell))).bind fun _ => .done true) h w := by
    refine Sat.bind later_rely hput (fun h _ w hq => .done fun _ _ => ⟨fun b hb => ?_, fun _ he => (nomatch he)⟩)
      fun h e w hq => ⟨fun _ hb => (nomatch hb), fun k' he => ?_⟩
    · injection hb with hb
      exact ⟨hb.symm, hq.written rfl⟩
    · injection he with he
      exact (hq.refused k' (by rw [he])).1
  refine Sat.catchError later_rely hbody (fun h b w hq => ⟨fun hb => ?_, fun hb => ?_, fun _ he => (nomatch he)⟩)
    fun h e w hq => ?_
  · injection hb with hb
    exact (hq.1 b rfl).2
  · injection hb with hb
    rw [(hq.1 b rfl).1] at hb
    contradiction
  · cases e with
    | preconditionFailed k' =>
      exact .done fun _ _ => ⟨fun hb => (nomatch hb), fun _ => hq.2 k' rfl, fun _ he => (nomatch he)⟩
    | transient b m => exact .raise fun _ _ => ⟨fun hb => (nomatch hb), fun hb => (nomatch hb), fun _ he => (nomatch he)⟩
    | app e => exact .raise fun _ _ => ⟨fun hb => (nomatch hb), fun hb => (nomatch hb), fun _ he => (nomatch he)⟩

/-- The whole of `update_json_cas`. -/
theorem writes_updateJsonCas (maxRetries : ℕ) (mutate : Option (P k) → Except (RequestError K E) (P k)) (attempts : ℕ)
    {h : Past E P} {w : Cells P} (h0 : tally h = 0) :
    Writes k (fun cur v => mutate cur = .ok v) (fun h res _ => UpdateEnds k h res)
      (updateJsonCas maxRetries k mutate attempts) h w := by
  induction attempts generalizing h w with
  | zero => exact .raise fun _ _ => ⟨fun _ he => (nomatch he), fun _ _ => h0⟩
  | succ attempts ih =>
    refine Sat.bind later_rely (writes_getJsonWithEtag (maxRetries - 1) h0) (fun h cur w hq => ?_) fun h e w hq => ?_
    · obtain ⟨h0, hcur, -⟩ := hq
      obtain ⟨cell, rfl, hcell⟩ := hcur cur rfl
      cases hm : mutate ((tagged cell).map Prod.fst) with
      | error e => exact .raise fun _ _ => ⟨fun _ he => (nomatch he), fun _ _ => h0⟩
      | ok payload =>
        have hallowed (c' : Cell (P k)) (hl : cell.Later c') (ha : c'.admits (conditionOf (tagged cell)) = true) :
            mutate c'.content = .ok payload := by
          rw [conditionOf_tagged] at ha
          rw [hl.content_of_admits ha, ← tagged_map_fst, hm]
        refine Sat.bind later_rely (writes_putUnlessRaced maxRetries hallowed h0 hcell) (fun h written w hq => ?_)
          fun h e w hq => ?_
        · cases written with
          | true =>
            refine .done fun _ _ => ⟨fun v he => ?_, fun _ he => (nomatch he)⟩
            injection he with he
            exact he ▸ hq.1 rfl
          | false => exact ih (hq.2.1 rfl)
        · refine ⟨fun _ he => (nomatch he), fun k' he => ?_⟩
          injection he with he
          exact absurd (by rw [he]) (hq.2.2 k')
    · obtain ⟨b, m, rfl⟩ := hq.2.2 e rfl
      exact ⟨fun _ he => (nomatch he), fun _ he => (nomatch he)⟩

/-- The whole of `create_json`. -/
theorem writes_createJson (maxRetries : ℕ) (payload : P k) {h : Past E P} {w : Cells P} (h0 : tally h = 0) :
    Writes k (fun cur v => cur = none ∧ v = payload) (UploadEnds k payload .ifNoneMatch)
      (createJson maxRetries k payload) h w := by
  have hallowed (c' : Cell (P k)) (_ : (w k).Later c') (ha : c'.admits .ifNoneMatch = true) :
      c'.content = none ∧ payload = payload := by
    simp only [Cell.admits, Option.isNone_iff_eq_none] at ha
    exact ⟨ha, rfl⟩
  exact writes_putBytesConditional hallowed (maxRetries - 1) (.inl ⟨h0, .refl _⟩)

end Loops

section Runs

/-- The object an operation writes. -/
def key : Operation E P → K
  | .updateJsonCas k _ _ => k
  | .createJson k _ => k

/-- What an operation may make of the content of its object. -/
def allows : (o : Operation E P) → Option (P (key o)) → P (key o) → Prop
  | .updateJsonCas _ mutate _ => fun cur v => mutate cur = .ok v
  | .createJson _ payload => fun cur v => cur = none ∧ v = payload

/-- What an operation knows at its end. -/
def Ends : Operation E P → Ending (Cells P) (RequestError K E) (RequestAnswer (P := P)) (Reply P)
  | .updateJsonCas k _ _ => fun h res _ => (∀ v, res = .ok (.updated k v) → tally h = 1 ∧ Uploaded k v h) ∧
      ∀ k', res = .error (.preconditionFailed k') → tally h = 0
  | .createJson k _ => fun h res w => ∀ k', res = .error (.preconditionFailed k') →
      tally h = 0 ∧ (w k).content.isSome = true

variable [DecidableEq K] {maxRetries : ℕ}

/-- Every operation writes its object as it may, and knows how often. -/
theorem writes_code (maxRetries : ℕ) (o : Operation E P) (w : Cells P) :
    Writes (key o) (allows o) (Ends o) (code maxRetries o) [] w := by
  cases o with
  | updateJsonCas k mutate maxAttempts =>
    refine Sat.bind later_rely (writes_updateJsonCas maxRetries mutate maxAttempts rfl) (fun h v w hq => ?_) fun h e w hq => ?_
    · refine .done fun _ _ => ⟨fun v' he => ?_, fun _ he => (nomatch he)⟩
      injection he with he
      injection he with _ he
      exact hq.written v' (by rw [he])
    · refine ⟨fun _ he => (nomatch he), fun k' he => ?_⟩
      injection he with he
      exact hq.raced k' (by rw [he])
  | createJson k payload =>
    refine Sat.bind later_rely (writes_createJson maxRetries payload rfl) (fun h v w hq => ?_) fun h e w hq => ?_
    · exact .done fun _ _ _ he => (nomatch he)
    · intro k' he
      injection he with he
      obtain ⟨h0, hsome⟩ := hq.refused k' (by rw [he])
      exact ⟨h0, hsome rfl⟩

/-- A pool of callers. -/
abbrev Callers (E : Type) (P : K → Type) :=
  Pool (Cells P) (Operation E P) (RequestError K E) (RequestAnswer (P := P)) (Reply P)

/-- One request of one caller. -/
abbrev CallerMove (E : Type) (P : K → Type) :=
  Move (Cells P) (Operation E P) (RequestError K E) (RequestAnswer (P := P)) (Reply P)

/-- The move is one of thread `t`, and the object at `k` was written. -/
def writesTo (k : K) (t : ℕ) (m : CallerMove E P) : Bool :=
  m.thread = t && (m.source.world k).generation ≠ (m.target.world k).generation

variable {p q : Callers E P} {ms : List (CallerMove E P)}

/-- Unless a caller's upload is refused because of an applied one of its own,
all its requests are as it expects. -/
theorem sound_of_run (hrun : Run requests (code maxRetries) p ms q) (hidle : ∀ t, p.threads t = none)
    (hecho : ∀ m ∈ ms, refused m.event = true → ∀ e ∈ m.runner.past, applied e = false) :
    (∀ t th, q.threads t = some th → Writes (key th.operation) (allows th.operation) (Ends th.operation) th.program
        th.past q.world) ∧
      ∀ m ∈ ms, Applies (key m.runner.operation) (allows m.runner.operation) m.runner.past m.event m.source.world
        m.target.world ∧ requests.Exec m.event m.source.world m.target.world := by
  have hcode (o : Operation E P) (w : Cells P) (_ : True) : Sat Unechoed
      (fun h e w w' => Applies (key o) (allows o) h e w w' ∧ requests.Exec e w w') Later (Ends o)
      (code maxRetries o) [] w :=
    (writes_code maxRetries o w).weaken (fun _ _ _ _ ht hg => ⟨hg, ht.1⟩) fun _ _ _ hq => hq
  have hsound := run_sound (I := fun _ => True) later_rely hcode (fun _ _ _ _ _ hg => exec_later hg.2)
    (fun _ _ _ _ => trivial) hrun hidle trivial fun m hm => ⟨(hrun.of_mem hm).1.exec, fun hr => ?_⟩
  · refine ⟨fun t th hth => ?_, hsound.2.1⟩
    exact (hsound.1 t th hth).weaken (fun _ _ _ _ _ hg => hg.1) fun _ _ _ hq => hq
  · rw [tally, List.countP_eq_zero]
    intro e he
    simp only [hecho m hm hr e he, Bool.false_eq_true, not_false_eq_true]

/-- The writes of a caller are its applied uploads. -/
theorem writesTo_eq (hrun : Run requests (code maxRetries) p ms q)
    (happlies : ∀ m ∈ ms, Applies (key m.runner.operation) (allows m.runner.operation) m.runner.past m.event
      m.source.world m.target.world ∧ requests.Exec m.event m.source.world m.target.world)
    {t : ℕ} {th : Thread (Operation E P) (RequestError K E) (RequestAnswer (P := P)) (Reply P)}
    (hth : q.threads t = some th) {m : CallerMove E P} (hm : m ∈ ms) :
    writesTo (key th.operation) t m = (decide (m.thread = t) && applied m.event) := by
  by_cases ht : m.thread = t
  · obtain ⟨th', hth', hop, -⟩ := hrun.runner_kept hm
    rw [ht, hth, Option.some.injEq] at hth'
    subst hth'
    obtain ⟨hg, hexec⟩ := happlies m hm
    rw [← hop] at hg
    simp only [writesTo, ht, decide_true, Bool.true_and]
    by_cases ha : applied m.event = true
    · obtain ⟨v, c, -, -, hput⟩ := hg ha
      rw [ha, hput, put_self, Cell.write_generation, decide_eq_true_eq]
      omega
    · rw [Bool.not_eq_true] at ha
      rw [ha, eq_of_not_applied hexec ha, decide_eq_false_iff_not, ne_eq, not_not]
  · simp only [writesTo, ht, decide_false, Bool.false_and]

/-- There are as many of them as the caller's past counts. -/
theorem length_writes (hrun : Run requests (code maxRetries) p ms q) (hidle : ∀ t, p.threads t = none)
    (happlies : ∀ m ∈ ms, Applies (key m.runner.operation) (allows m.runner.operation) m.runner.past m.event
      m.source.world m.target.world ∧ requests.Exec m.event m.source.world m.target.world)
    {t : ℕ} {th : Thread (Operation E P) (RequestError K E) (RequestAnswer (P := P)) (Reply P)}
    (hth : q.threads t = some th) : (ms.filter (writesTo (key th.operation) t)).length = tally th.past := by
  have hpast := hrun.past_eq t
  simp only [Pool.pastOf, hidle t, hth, Option.map_some, Option.map_none, Option.getD_some, Option.getD_none,
    List.nil_append] at hpast
  rw [hpast, tally, List.countP_map, List.countP_filter, List.countP_eq_length_filter]
  refine congrArg List.length (List.filter_congr fun m hm => ?_)
  rw [writesTo_eq hrun happlies hth hm, Bool.and_comm]
  rfl

/-- An object that is there was there before, or a move created it. -/
theorem created_of_isSome (hrun : Run requests (code maxRetries) p ms q) {k : K}
    (hq : (q.world k).content.isSome = true) :
    (p.world k).content.isSome = true ∨
      ∃ m ∈ ms, (m.source.world k).content = none ∧ (m.target.world k).content.isSome = true := by
  induction hrun with
  | refl => exact .inl hq
  | start _ _ _ _ ih => exact ih hq
  | @move ms m _ hm ih =>
    cases hsource : (m.source.world k).content with
    | none => exact .inr ⟨m, List.mem_append_right _ (List.mem_singleton_self _), hsource, hq⟩
    | some v =>
      rcases ih (by rw [hsource]; rfl) with hold | ⟨m', hin, hm'⟩
      · exact .inl hold
      · exact .inr ⟨m', List.mem_append_left _ hin, hm'⟩

/-- When no upload is refused after an earlier upload of the same call was
applied: an update that returns has written its object exactly once, what its
mutation makes of the content it replaced; one that reports a lost race has
not written it; and a creation reports a lost race only if it wrote nothing
and somebody else created the object. -/
theorem cas_exactly_once (hrun : Run requests (code maxRetries) p ms q) (hidle : ∀ t, p.threads t = none)
    (hecho : ∀ m ∈ ms, refused m.event = true → ∀ e ∈ m.runner.past, applied e = false)
    {t : ℕ} {th : Thread (Operation E P) (RequestError K E) (RequestAnswer (P := P)) (Reply P)}
    (hth : q.threads t = some th) :
    (∀ k mutate maxAttempts, th.operation = .updateJsonCas k mutate maxAttempts →
      (∀ v, th.result = some (.ok (.updated k v)) → ∃ m, ms.filter (writesTo k t) = [m] ∧
        mutate (m.source.world k).content = .ok v ∧ (m.target.world k).content = some v) ∧
      (th.result = some (.error (.preconditionFailed k)) → ms.filter (writesTo k t) = [])) ∧
    ∀ k payload, th.operation = .createJson k payload → th.result = some (.error (.preconditionFailed k)) →
      ms.filter (writesTo k t) = [] ∧ ((p.world k).content.isSome = true ∨ ∃ m ∈ ms, m.thread ≠ t ∧
        (m.source.world k).content = none ∧ (m.target.world k).content.isSome = true) := by
  obtain ⟨hsat, happlies⟩ := sound_of_run hrun hidle hecho
  have hends (res : Except (RequestError K E) (Reply P)) (hres : th.result = some res) :
      Ends th.operation th.past res q.world := (hsat t th hth).ended later_rely hres
  have hlength := length_writes hrun hidle happlies hth
  have hnone (h0 : tally th.past = 0) : ms.filter (writesTo (key th.operation) t) = [] := by
    rw [← List.length_eq_zero_iff, hlength, h0]
  constructor
  · intro k mutate maxAttempts hop
    rw [hop] at hends hnone hlength
    refine ⟨fun v hres => ?_, fun hres => hnone ((hends _ hres).2 k rfl)⟩
    obtain ⟨hone, e, hin, happlied, c, haction⟩ := (hends _ hres).1 v rfl
    obtain ⟨m, hm⟩ := List.length_eq_one_iff.mp (hlength.trans hone)
    -- the one write is the applied upload the caller remembers
    obtain ⟨m', hm', ht', rfl⟩ := hrun.move_of_past (hidle t) hth hin
    have hwrites := writesTo_eq hrun happlies hth hm'
    rw [hop, happlied, Bool.and_true, decide_eq_true ht'] at hwrites
    have hsame : m' = m := by
      have hfilter : m' ∈ [m] := hm ▸ List.mem_filter.mpr ⟨hm', hwrites⟩
      exact List.mem_singleton.mp hfilter
    obtain ⟨th', hth', hop', -⟩ := hrun.runner_kept hm'
    rw [ht', hth, Option.some.injEq] at hth'
    subst hth'
    have hg := (happlies m' hm').1
    rw [← hop', hop] at hg
    obtain ⟨v', c', haction', hallowed, hput⟩ := hg happlied
    have hpayload : Request.upload k v c = Request.upload k v' c' := haction.symm.trans haction'
    injection hpayload with _ hv _
    subst hv
    refine ⟨m, hm, hsame ▸ hallowed, ?_⟩
    rw [← hsame, hput]
    exact congrArg Cell.content (put_self m'.source.world k v)
  · intro k payload hop hres
    rw [hop] at hends hnone
    obtain ⟨h0, hsome⟩ := hends _ hres k rfl
    have hempty := hnone h0
    refine ⟨hempty, ?_⟩
    rcases created_of_isSome hrun hsome with hold | ⟨m, hm, hsource, htarget⟩
    · exact .inl hold
    · refine .inr ⟨m, hm, fun ht => ?_, hsource, htarget⟩
      have happlied : applied m.event = true := by
        by_contra hnot
        rw [Bool.not_eq_true] at hnot
        rw [eq_of_not_applied (happlies m hm).2 hnot, hsource] at htarget
        contradiction
      have hwrites := writesTo_eq hrun happlies hth hm
      rw [hop, happlied, Bool.and_true, decide_eq_true ht] at hwrites
      exact List.filter_eq_nil_iff.mp hempty m hm hwrites

end Runs

section Sample

/-- The objects of the sample runs. -/
inductive SampleKey where
  /-- `ai_config_index_key`. -/
  | aiConfigIndex (configId : String)
  /-- `evaluation_set_case_key`. -/
  | evaluationSetCase (setId caseId : String)
  deriving DecidableEq

/-- What is stored under them; a case is its JSON text. -/
abbrev SamplePayload : SampleKey → Type
  | .aiConfigIndex _ => AIConfigurationIndex
  | .evaluationSetCase _ _ => String

/-- The index of a configuration with two versions, and no case. -/
def sampleCells : Cells SamplePayload
  | .aiConfigIndex _ => ⟨1, some ⟨"c", some "v1", ["v1", "v2"], []⟩⟩
  | .evaluationSetCase _ _ => ⟨0, none⟩

/-- The compare-and-swap of a rollback to the second version. -/
def rollbackToV2 : Operation AIConfigError SamplePayload :=
  .updateJsonCas (.aiConfigIndex "c")
    (fun current => (activate "c" "v2" "op" "2026-01-01T00:00:00+00:00" "bad answers" current).mapError .app) 8

/-- The create-only write of a promotion. -/
def createCase : Operation AIConfigError SamplePayload := .createJson (.evaluationSetCase "default" "x") "{}"

/-- A turn of a scheduler. -/
abbrev Turn := Command Fate (Operation AIConfigError SamplePayload) (Request SamplePayload)

/-- Thread 0 runs `o`, its requests fare like this. -/
def alone (o : Operation AIConfigError SamplePayload) (fates : List Fate) : List Turn :=
  .start 0 o :: fates.map fun f => .step 0 fun _ => f

/-- The pool in which `o` has run alone. -/
def ranAlone (o : Operation AIConfigError SamplePayload) (fates : List Fate) : Callers AIConfigError SamplePayload :=
  (Pool.idle sampleCells).reached requests (code 3) (alone o fates)

theorem cas_exactly_once_sample : ∃ ms th index,
    Run requests (code 3) (Pool.idle sampleCells) ms (ranAlone rollbackToV2 [.reply, .drop "reset", .reply]) ∧
      (ranAlone rollbackToV2 [.reply, .drop "reset", .reply]).threads 0 = some th ∧
      th.result = some (.ok (.updated (.aiConfigIndex "c") index)) ∧
      ∃ m, ms.filter (writesTo (.aiConfigIndex "c") 0) = [m] ∧
        (m.target.world (.aiConfigIndex "c")).content = some index := by
  have hdriven : ((Pool.idle sampleCells).drive requests (code 3)
      (alone rollbackToV2 [.reply, .drop "reset", .reply])).isSome = true := by decide +kernel
  have hrun := Run.reached hdriven
  have hecho : ∀ m ∈ (Pool.idle sampleCells).moves requests (code 3) (alone rollbackToV2 [.reply, .drop "reset", .reply]),
      refused m.event = true → ∀ e ∈ m.runner.past, applied e = false := by decide +kernel
  have hth : (ranAlone rollbackToV2 [.reply, .drop "reset", .reply]).threads 0 = some _ := rfl
  have honce := (cas_exactly_once hrun (fun _ => rfl) hecho hth).1 _ _ _ rfl
  obtain ⟨m, hm, -, hcontent⟩ := honce.1 _ rfl
  exact ⟨_, _, _, hrun, hth, rfl, m, hm, hcontent⟩

/-- One rollback whose first reply is lost leaves two activation events, and
one promotion whose first reply is lost reports that the case it has just
created exists already. -/
theorem lost_replies :
    (∃ ms th index, Run requests (code 3) (Pool.idle sampleCells) ms
        (ranAlone rollbackToV2 [.reply, .lose "timeout", .reply, .reply, .reply]) ∧
      (ranAlone rollbackToV2 [.reply, .lose "timeout", .reply, .reply, .reply]).threads 0 = some th ∧
      th.operation = rollbackToV2 ∧ th.result = some (.ok (.updated (.aiConfigIndex "c") index)) ∧
      (ms.filter (writesTo (.aiConfigIndex "c") 0)).length = 2 ∧
      index.activationEvents.map ActivationEvent.selectedVersionId = ["v2", "v2"]) ∧
    ∃ ms th, Run requests (code 3) (Pool.idle sampleCells) ms (ranAlone createCase [.lose "timeout", .reply]) ∧
      (ranAlone createCase [.lose "timeout", .reply]).threads 0 = some th ∧ th.operation = createCase ∧
      th.result = some (.error (.preconditionFailed (.evaluationSetCase "default" "x"))) ∧
      (sampleCells (.evaluationSetCase "default" "x")).content = none ∧ ∀ m ∈ ms, m.thread = 0 := by
  have hrollback : ((Pool.idle sampleCells).drive requests (code 3)
      (alone rollbackToV2 [.reply, .lose "timeout", .reply, .reply, .reply])).isSome = true := by decide +kernel
  have hcreate : ((Pool.idle sampleCells).drive requests (code 3)
      (alone createCase [.lose "timeout", .reply])).isSome = true := by decide +kernel
  refine ⟨⟨_, _, _, Run.reached hrollback, rfl, rfl, rfl, by decide +kernel, by decide +kernel⟩,
    _, _, Run.reached hcreate, rfl, rfl, rfl, rfl, by decide +kernel⟩

end Sample

end RagSystem.LostReplies
