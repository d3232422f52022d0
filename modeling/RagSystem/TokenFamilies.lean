import Mathlib.Logic.Relation
import RagSystem.TokenRotation

/-!
# Token families

A rotation hangs a new token on the one it spends. A call that detects reuse
revokes the rows that are there; a rotation that has won its token but not yet
inserted the successor is not, and a logout does nothing about a token that was
rotated. Apart from these two cases a family that was ended stays dead.
-/

namespace RagSystem.TokenFamilies

open AtomicProgram ThreadPool RelyGuarantee ProgramPaths RefreshTokens TokenRotation

set_option autoImplicit false

section Families

/-- The call touched the row. -/
def isWin (id : String) : CallEvent → Bool
  | ⟨.revoke id', .ok won⟩ => id' = id && won
  | _ => false

/-- A refresh call spends the token with this id. -/
def rotates (id : String) (m : AuthMove) : Bool :=
  (match m.runner.operation with
    | .refresh _ => true
    | _ => false) && isWin id m.event

/-- A refresh call that got so far inserts nothing more. -/
def settles : CallEvent → Bool
  | ⟨.create _ _ _, _⟩ => true
  | ⟨_, .error _⟩ => true
  | _ => false

/-- The move inserts `id'` as the successor of `id`. -/
def Inserts (id id' : String) (m : AuthMove) : Prop :=
  ⟨.revoke id, .ok true⟩ ∈ m.runner.past ∧
    ∃ u h t row, m.event = ⟨.create u h t, .ok row⟩ ∧ row.id = id'

/-- One of the moves inserted `id'` as the successor of `id`. -/
def Successor (ms : List AuthMove) (id id' : String) : Prop := ∃ m ∈ ms, Inserts id id' m

/-- `id'` descends from `id` by rotation. -/
def Descends (ms : List AuthMove) : String → String → Prop := Relation.TransGen (Successor ms)

/-- `id'` is `id` or descends from it. -/
def Family (ms : List AuthMove) : String → String → Prop := Relation.ReflTransGen (Successor ms)

/-- More moves, more descendants. -/
theorem Family.mono {ms ms' : List AuthMove} {id id' : String} (h : Family ms id id') (hms : ms ⊆ ms') :
    Family ms' id id' := by
  have hle : Successor ms ≤ Successor ms' := fun _ _ hs => by
    obtain ⟨m, hm, hi⟩ := hs
    exact ⟨m, hms hm, hi⟩
  exact Relation.ReflTransGen.mono hle id id' h

/-- A winning call is one that was answered so. -/
theorem isWin_iff {id : String} {e : CallEvent} : isWin id e = true ↔ e = ⟨.revoke id, .ok true⟩ := by
  constructor
  · intro h
    unfold isWin at h
    split at h
    · next id' won =>
      simp only [Bool.and_eq_true, decide_eq_true_eq] at h
      rw [h.1, h.2]
    · contradiction
  · rintro rfl
    simp only [isWin, decide_true, Bool.and_self]

end Families

section Inserting

variable {settings : AuthSettings} {p q : AuthPool} {ms : List AuthMove}

/-- The issuing of a pair revokes nothing. -/
theorem uses_issueTokenPair (u : UserRecord) : (issueTokenPair settings u).Uses fun a => ∀ id, a ≠ .revoke id := by
  refine Program.Uses.bind (Program.uses_perform fun _ he => (nomatch he)) fun _ => ?_
  refine Program.Uses.bind (Program.uses_perform fun _ he => (nomatch he)) fun _ => ?_
  refine Program.Uses.bind (Program.uses_perform fun _ he => (nomatch he)) fun _ => ?_
  exact Program.Uses.bind (Program.uses_perform fun _ he => (nomatch he)) fun _ => trivial

/-- Nor does a login. -/
theorem uses_login (email password : String) : (login settings email password).Uses fun a => ∀ id, a ≠ .revoke id := by
  refine Program.Uses.bind ?_ fun u => uses_issueTokenPair u
  refine Program.Uses.bind (Program.uses_perform fun _ he => (nomatch he)) fun user => ?_
  refine Program.Uses.bind (Program.uses_perform fun _ he => (nomatch he)) fun ok => ?_
  cases user with
  | none => trivial
  | some u =>
    dsimp only
    split
    · trivial
    · split
      · trivial
      · trivial

/-- A logout inserts nothing. -/
theorem uses_logout (tok : String) : (logout settings tok).Uses fun a => ∀ u h t, a ≠ .create u h t := by
  refine Program.Uses.bind (Program.uses_perform fun _ _ _ he => (nomatch he)) fun x => ?_
  cases x with
  | none => trivial
  | some record =>
    dsimp only
    split
    · trivial
    · exact Program.Uses.bind (Program.uses_perform fun _ _ _ he => (nomatch he)) fun _ => trivial

/-- Successors are inserted by the refresh call that won the token, once it has
done everything else. -/
theorem insert_path (hrun : Serves settings p ms q) (hidle : ∀ t, p.threads t = none) {m : AuthMove} (hm : m ∈ ms)
    {id id' : String} (hi : Inserts id id' m) : ∃ tok record t u a plain t' h exp row,
      m.runner.operation = .refresh tok ∧ m.runner.past = winning settings tok record t u ++ issuing u a plain t' ∧
        record.id = id ∧ m.event = ⟨.create u.id h exp, .ok row⟩ ∧ row.id = id' := by
  obtain ⟨hwon, u₀, h₀, t₀, row, hevent, hrow⟩ := hi
  obtain ⟨next, hpath⟩ := path_of_move hrun hidle hm hevent
  cases hop : m.runner.operation with
  | login email password =>
    rw [hop] at hpath
    obtain ⟨rest, hrest, -⟩ := Path.of_map hpath
    exact absurd rfl (hrest.uses (uses_login email password) _ hwon id)
  | logout tok =>
    rw [hop] at hpath
    obtain ⟨rest, hrest, hprogram⟩ := Path.of_map hpath
    obtain ⟨next', rfl⟩ := of_map_act hprogram.symm
    exact absurd rfl (hrest.next_uses (uses_logout tok) u₀ h₀ t₀)
  | refresh tok =>
    rw [hop] at hpath
    obtain ⟨rest, hrest, hprogram⟩ := Path.of_map hpath
    obtain ⟨next', rfl⟩ := of_map_act hprogram.symm
    have hnext : OnlyInserts (.act (.create u₀ h₀ t₀) next' : Prog TokenResponse) := by
      intro a next he
      injection he with he _
      exact ⟨u₀, h₀, t₀, he.symm⟩
    obtain ⟨record, t, u, h', hpast, -, -, hissue⟩ := refresh_won hrest hnext fun _ he => (nomatch he)
    obtain ⟨a, plain, t', ⟨rfl, next₂, hcreate⟩ | ⟨_, -, he⟩⟩ := issue_path hissue hnext fun _ he => (nomatch he)
    · injection hcreate with hcreate _
      injection hcreate with huser _ _
      rw [huser] at hevent
      refine ⟨tok, record, t, u, a, plain, t', h₀, t₀, row, rfl, hpast, ?_, hevent, hrow⟩
      rw [hpast] at hwon
      simp only [winning, issuing, found, List.cons_append, List.nil_append, List.mem_cons, List.not_mem_nil,
        or_false, Event.mk.injEq, reduceCtorEq, false_and, false_or, AuthCall.revoke.injEq] at hwon
      exact hwon.1.symm
    · contradiction

/-- The successor is a row of the user whose token was spent. -/
theorem user_of_insert (hrun : Serves settings p ms q) (hidle : ∀ t, p.threads t = none) {m : AuthMove} (hm : m ∈ ms)
    {id id' : String} (hi : Inserts id id' m) : ∃ r ∈ q.world.tokens.rows, ∃ r' ∈ q.world.tokens.rows,
      r.id = id ∧ r'.id = id' ∧ r'.userId = r.userId := by
  obtain ⟨tok, record, t, u, a, plain, t', h, exp, row, hop, hpast, hid, hevent, hrow⟩ := insert_path hrun hidle hm hi
  obtain ⟨-, ns, hns, hbefore⟩ := hrun.of_mem hm
  have hrunner := runner_of_mem hrun hm
  have hfound : found settings tok record ∈ m.runner.past := by
    simp only [hpast, winning, List.cons_append, List.mem_cons, true_or]
  have haccount : ⟨.getById record.userId, .ok (some u)⟩ ∈ m.runner.past := by
    simp only [hpast, winning, List.cons_append, List.mem_cons, true_or, or_true]
  obtain ⟨m₁, hm₁, -, he₁⟩ := hbefore.move_of_past (hidle _) hrunner haccount
  have huser : u.id = record.userId := by
    have hexec := (hbefore.of_mem hm₁).1.exec
    rw [he₁] at hexec
    exact exec_getById hexec
  obtain ⟨-, r, hr, hb⟩ := row_of_found hbefore hidle hrunner hfound
  have hkept := kept_of_move hrun hm
  have hsince := rely_since kept_rely hrun (fun m hm => kept_of_move hrun hm) hm
  obtain ⟨r₁, hr₁, hb₁⟩ := (kept_rely.trans hkept hsince).rows r hr
  have hexec := (hrun.of_mem hm).1.exec
  rw [hevent] at hexec
  obtain ⟨hinsert, -, hrowUser, -⟩ := exec_create hexec
  have hin : row ∈ m.target.world.tokens.rows := by
    rw [(TokenTable.of_insert? hinsert).1]
    exact List.mem_cons_self
  obtain ⟨r₂, hr₂, hb₂⟩ := hsince.rows row hin
  refine ⟨r₁, hr₁, r₂, hr₂, ?_, hb₂.id.trans hrow, ?_⟩
  · rw [hb₁.id, hb.id, hid]
  · rw [hb₂.userId, hrowUser, huser, hb₁.userId, hb.userId]

/-- A family is the family of one user. -/
theorem user_of_family (hrun : Serves settings p ms q) (hidle : ∀ t, p.threads t = none) {r : RefreshTokenRecord}
    (hr : r ∈ q.world.tokens.rows) {id : String} (hf : Family ms r.id id) :
    ∃ r' ∈ q.world.tokens.rows, r'.id = id ∧ r'.userId = r.userId := by
  induction hf with
  | refl => exact ⟨r, hr, rfl, rfl⟩
  | tail _ hstep ih =>
    obtain ⟨r₁, hr₁, hid₁, huser₁⟩ := ih
    obtain ⟨m, hm, hi⟩ := hstep
    obtain ⟨r₂, hr₂, r₃, hr₃, hid₂, hid₃, huser⟩ := user_of_insert hrun hidle hm hi
    have hsame : r₂ = r₁ := TokenTable.eq_of_id hr₂ hr₁ (hid₂.trans hid₁.symm)
    exact ⟨r₃, hr₃, hid₃, by rw [huser, hsame, huser₁]⟩

end Inserting

section Death

variable {settings : AuthSettings} {p q r : AuthPool} {ms ns : List AuthMove}

/-- The family of `id₀` is dead: its rows are revoked, and no rotation of one
of them is still to insert. -/
structure Dead (ms : List AuthMove) (w : AuthState) (id₀ : String) : Prop where
  /-- The rows are revoked. -/
  revoked : ∀ id, Family ms id₀ id → ∃ row ∈ w.tokens.rows, row.id = id ∧ row.isRevoked = true
  /-- The rotations have inserted or failed. -/
  settled : ∀ id, Family ms id₀ id → ∀ m ∈ ms, rotates id m = true → ∃ m' ∈ ms, m'.thread = m.thread ∧
    settles m'.event = true

/-- What a move of a thread performed is in the thread's past. -/
theorem event_mem_past (hrun : Serves settings p ms q) {m : AuthMove} (hm : m ∈ ms) {th : AuthThread}
    (hth : q.threads m.thread = some th) : m.event ∈ th.past ∧ th.operation = m.runner.operation := by
  obtain ⟨th', hth', hop, hkept⟩ := hrun.runner_kept hm
  rw [hth, Option.some.injEq] at hth'
  subst hth'
  exact ⟨hkept.subset (List.mem_append_right _ (List.mem_singleton_self _)), hop⟩

/-- Who inserts a successor won the token before, in a move of the same thread
that is not settled yet. -/
theorem win_of_insert (hrun : Serves settings p ms q) (hidle : ∀ t, p.threads t = none) {m : AuthMove}
    (hm : m.Allowed auth) (hsource : m.source = q) {id id' : String} (hi : Inserts id id' m) :
    ∃ m' ∈ ms, m'.thread = m.thread ∧ rotates id m' = true ∧
      ∀ m'' ∈ ms, m''.thread = m.thread → settles m''.event = false := by
  subst hsource
  have hrun' : Serves settings p (ms ++ [m]) m.target := .move hrun hm
  have hin : m ∈ ms ++ [m] := List.mem_append_right _ (List.mem_singleton_self _)
  have hrunner := runner_of_mem hrun' hin
  obtain ⟨tok, record, t, u, a, plain, t', h, exp, row, hop, hpast, rfl, -⟩ := insert_path hrun' hidle hin hi
  obtain ⟨m', hm', ht, he⟩ := hrun.move_of_past (hidle _) hrunner hi.1
  refine ⟨m', hm', ht, ?_, fun m'' hm'' ht'' => ?_⟩
  · rw [← ht] at hrunner
    have hsame := (event_mem_past hrun hm' hrunner).2
    rw [rotates, ← hsame, hop, isWin_iff.mpr he]
    rfl
  · rw [← ht''] at hrunner
    have hold := (event_mem_past hrun hm'' hrunner).1
    rw [hpast] at hold
    simp only [winning, issuing, found, List.cons_append, List.nil_append, List.mem_cons, List.not_mem_nil,
      or_false] at hold
    rcases hold with he | he | he | he | he | he | he
    all_goals
      rw [he]
      rfl

/-- A dead family gets no new members. -/
theorem Dead.frozen (hrun : Serves settings p ms q) (hidle : ∀ t, p.threads t = none) {id₀ : String}
    (hd : Dead ms q.world id₀) {m : AuthMove} (hm : m.Allowed auth) (hsource : m.source = q) {id : String}
    (hf : Family (ms ++ [m]) id₀ id) : Family ms id₀ id := by
  induction hf with
  | refl => exact .refl
  | @tail a b _ hstep ih =>
    obtain ⟨m', hm', hi⟩ := hstep
    rcases List.mem_append.mp hm' with hold | hnew
    · exact .tail ih ⟨m', hold, hi⟩
    · rw [List.mem_singleton.mp hnew] at hi
      obtain ⟨m₁, hm₁, ht₁, hrotates, hopen⟩ := win_of_insert hrun hidle hm hsource hi
      obtain ⟨m₂, hm₂, ht₂, hsettles⟩ := hd.settled a ih m₁ hm₁ hrotates
      rw [hopen m₂ hm₂ (ht₂.trans ht₁)] at hsettles
      contradiction

/-- A dead family stays dead, whatever call comes next. -/
theorem Dead.step (hrun : Serves settings p ms q) (hidle : ∀ t, p.threads t = none) {id₀ : String}
    (hd : Dead ms q.world id₀) {m : AuthMove} (hm : m.Allowed auth) (hsource : m.source = q) :
    Dead (ms ++ [m]) m.target.world id₀ := by
  have hkept : Kept q.world m.target.world := hsource ▸ kept_of_exec hm.exec
  constructor
  · intro id hf
    obtain ⟨row, hrow, hid, hrev⟩ := hd.revoked id (hd.frozen hrun hidle hm hsource hf)
    obtain ⟨row', hrow', hb⟩ := hkept.rows row hrow
    exact ⟨row', hrow', hb.id.trans hid, hb.isRevoked hrev⟩
  · intro id hf m' hm' hrotates
    have hfamily := hd.frozen hrun hidle hm hsource hf
    rcases List.mem_append.mp hm' with hold | hnew
    · obtain ⟨m₂, hm₂, ht₂, hsettles⟩ := hd.settled id hfamily m' hold hrotates
      exact ⟨m₂, List.mem_append_left _ hm₂, ht₂, hsettles⟩
    · -- a new rotation would have found the row active
      rw [List.mem_singleton.mp hnew, rotates, Bool.and_eq_true] at hrotates
      have hexec := hm.exec
      rw [isWin_iff.mp hrotates.2, hsource] at hexec
      obtain ⟨⟨row, hrow, hid, hactive⟩, -⟩ := revoked_of_won hexec
      obtain ⟨row', hrow', hid', hrev⟩ := hd.revoked id hfamily
      rw [TokenTable.eq_of_id hrow' hrow (hid'.trans hid.symm), hactive] at hrev
      contradiction

/-- A dead family stays dead and as it is over a whole run. -/
theorem Dead.run (hrun : Serves settings p ms q) (hrest : Serves settings q ns r) (hidle : ∀ t, p.threads t = none)
    {id₀ : String} (hd : Dead ms q.world id₀) :
    Dead (ms ++ ns) r.world id₀ ∧ ∀ id, Family (ms ++ ns) id₀ id → Family ms id₀ id := by
  induction hrest with
  | refl =>
    rw [List.append_nil]
    exact ⟨hd, fun _ hf => hf⟩
  | start _ _ _ _ ih => exact ih
  | @move ns m hrest hm ih =>
    obtain ⟨hdead, hfamily⟩ := ih
    have hbefore := hrun.trans hrest
    rw [← List.append_assoc]
    exact ⟨hdead.step hbefore hidle hm rfl, fun id hf => hfamily id (hdead.frozen hbefore hidle hm rfl hf)⟩

end Death

section Endings

variable {settings : AuthSettings} {p q r : AuthPool} {ms ns : List AuthMove} {tok : String}

/-- A logout that returned after finding a record found it revoked, or tried to
revoke it. -/
theorem logout_path {h : History AuthError AuthAnswer} (hp : Path (logout settings tok) h (.done ()))
    {record : RefreshTokenRecord} (hin : found settings tok record ∈ h) :
    (h = [found settings tok record] ∧ record.isRevoked = true) ∨
      ∃ b, h = [found settings tok record, ⟨.revoke record.id, .ok b⟩] := by
  obtain ⟨x, h', rfl, hrest⟩ := hp.past_perform (fun _ he => (nomatch he)) fun _ he => (nomatch he)
  cases x with
  | none =>
    obtain ⟨rfl, -⟩ := Path.of_done hrest
    cases List.mem_singleton.mp hin
  | some record' =>
    dsimp only at hrest
    split at hrest
    · next hrevoked =>
      obtain ⟨rfl, -⟩ := Path.of_done hrest
      cases List.mem_singleton.mp hin
      exact .inl ⟨rfl, hrevoked⟩
    · obtain ⟨b, h'', rfl, hend⟩ := hrest.past_perform (fun _ he => (nomatch he)) fun _ he => (nomatch he)
      obtain ⟨rfl, -⟩ := Path.of_done hend
      rcases List.mem_cons.mp hin with he | he
      · cases he
        exact .inr ⟨b, rfl⟩
      · cases List.mem_singleton.mp he

/-- The call has ended the family of this record: it is a refresh that detected
its reuse, or a logout that found it, and it has returned. -/
def Spent (settings : AuthSettings) (th : AuthThread) (record : RefreshTokenRecord) : Prop :=
  (∃ tok, th.operation = .refresh tok ∧ found settings tok record ∈ th.past ∧ record.isRevoked = true ∧
      th.result = some (.error (.invalidRefreshToken "Refresh token has been revoked."))) ∨
    ∃ tok, th.operation = .logout tok ∧ found settings tok record ∈ th.past ∧ th.result = some (.ok .done)

/-- After the moves `ms`, `m` ends no family that still has a token on its way. -/
structure Timely (settings : AuthSettings) (ms : List AuthMove) (m : AuthMove) : Prop where
  /-- Where reuse of a record is answered, every rotation in its family has
  inserted its successor or failed. -/
  reuse : ∀ tok record n, m.runner.operation = .refresh tok → found settings tok record ∈ m.runner.past →
    m.event = ⟨.revokeAllForUser record.userId, .ok n⟩ → ∀ id, Family ms record.id id →
      ∀ m' ∈ ms, rotates id m' = true → ∃ m'' ∈ ms, m''.thread = m'.thread ∧ settles m''.event = true
  /-- A record that a logout finds revoked was not rotated. -/
  lookup : ∀ tok record, m.runner.operation = .logout tok → m.event = found settings tok record →
    record.isRevoked = true → ∀ m' ∈ ms, rotates record.id m' = false
  /-- Nor was one that it comes too late to revoke. -/
  update : ∀ tok id, m.runner.operation = .logout tok → m.event = ⟨.revoke id, .ok false⟩ →
    ∀ m' ∈ ms, rotates id m' = false

/-- A revoked record that was not rotated is a dead family. -/
theorem dead_of_unrotated (hrun : Serves settings p ms q) (hidle : ∀ t, p.threads t = none) {id : String}
    (hrow : ∃ row ∈ q.world.tokens.rows, row.id = id ∧ row.isRevoked = true)
    (hnot : ∀ m ∈ ms, rotates id m = false) : Dead ms q.world id := by
  have honly (id' : String) (hf : Family ms id id') : id = id' := by
    rcases Relation.ReflTransGen.cases_head hf with he | ⟨b, ⟨m, hm, hi⟩, -⟩
    · exact he
    · obtain ⟨ms₁, ms₂, hms⟩ := List.append_of_mem hm
      obtain ⟨hbefore, hallowed, -⟩ := hrun.split hms
      obtain ⟨m', hm', -, hrotates, -⟩ := win_of_insert hbefore hidle hallowed rfl hi
      have hin : m' ∈ ms := by
        rw [hms]
        exact List.mem_append_left _ hm'
      rw [hnot m' hin] at hrotates
      contradiction
  constructor
  · intro id' hf
    rw [← honly id' hf]
    exact hrow
  · intro id' hf m hm hrotates
    rw [← honly id' hf, hnot m hm] at hrotates
    contradiction

/-- A family whose reuse was answered in time is dead. -/
theorem dead_of_reuse (hrun : Serves settings p ms q) (hidle : ∀ t, p.threads t = none) {m : AuthMove}
    (hm : m.Allowed auth) (hsource : m.source = q) {record : RefreshTokenRecord} {n : ℕ}
    (hop : m.runner.operation = .refresh tok) (hin : found settings tok record ∈ m.runner.past)
    (he : m.event = ⟨.revokeAllForUser record.userId, .ok n⟩) (htimely : Timely settings ms m) :
    Dead (ms ++ [m]) m.target.world record.id := by
  subst hsource
  have hafter : Serves settings p (ms ++ [m]) m.target := .move hrun hm
  have hlast : m ∈ ms ++ [m] := List.mem_append_right _ (List.mem_singleton_self _)
  have hexec := hm.exec
  rw [he] at hexec
  have hfamily (id : String) (hf : Family (ms ++ [m]) record.id id) : Family ms record.id id := by
    induction hf with
    | refl => exact .refl
    | tail _ hstep ih =>
      obtain ⟨m', hm', hi⟩ := hstep
      rcases List.mem_append.mp hm' with hold | hnew
      · exact .tail ih ⟨m', hold, hi⟩
      · obtain ⟨-, u, h, t, row, hevent, -⟩ := hi
        rw [List.mem_singleton.mp hnew, he] at hevent
        cases hevent
  obtain ⟨-, row, hrow, hb⟩ := row_of_found hrun hidle (runner_of_mem hafter hlast) hin
  obtain ⟨row', hrow', hb'⟩ := (kept_of_exec hm.exec).rows row hrow
  constructor
  · intro id hf
    rw [← hb.id, ← hb'.id] at hf
    obtain ⟨r', hr', hid, huser⟩ := user_of_family hafter hidle hrow' hf
    rw [hb'.userId, hb.userId] at huser
    exact ⟨r', hr', hid, revoked_of_revokeAll hexec r' hr' huser⟩
  · intro id hf m' hm' hrotates
    rcases List.mem_append.mp hm' with hold | hnew
    · obtain ⟨m'', hm'', ht, hsettles⟩ := htimely.reuse tok record n hop hin he id (hfamily id hf) m' hold hrotates
      exact ⟨m'', List.mem_append_left _ hm'', ht, hsettles⟩
    · rw [List.mem_singleton.mp hnew, rotates, Bool.and_eq_true, isWin_iff, he] at hrotates
      cases hrotates.2

/-- What a logout tried to revoke is a dead family, if it was not rotated. -/
theorem dead_of_logout (hrun : Serves settings p ms q) (hidle : ∀ t, p.threads t = none) {m : AuthMove}
    (hm : m.Allowed auth) (hsource : m.source = q) {record : RefreshTokenRecord} {b : Bool}
    (hop : m.runner.operation = .logout tok) (hin : found settings tok record ∈ m.runner.past)
    (he : m.event = ⟨.revoke record.id, .ok b⟩) (htimely : Timely settings ms m) :
    Dead (ms ++ [m]) m.target.world record.id := by
  subst hsource
  have hafter : Serves settings p (ms ++ [m]) m.target := .move hrun hm
  have hlast : m ∈ ms ++ [m] := List.mem_append_right _ (List.mem_singleton_self _)
  have hexec := hm.exec
  rw [he] at hexec
  have hself : rotates record.id m = false := by rw [rotates, hop, Bool.false_and]
  obtain ⟨-, row, hrow, hb⟩ := row_of_found hrun hidle (runner_of_mem hafter hlast) hin
  refine dead_of_unrotated hafter hidle ?_ fun m' hm' => ?_
  · cases b with
    | true => exact (revoked_of_won hexec).2
    | false =>
      -- the update touched nothing, so the row was revoked
      have hnone := (exec_revoke hexec).2.symm
      have hinactive : activeRow record.id row = false := by
        have hall := List.any_eq_false.mp hnone row hrow
        simpa only [Bool.not_eq_true] using hall
      have hrev : row.isRevoked = true := by
        rw [RefreshTokenRecord.isRevoked]
        simpa only [activeRow, hb.id, decide_true, Bool.true_and, Option.isNone_eq_false_iff] using hinactive
      obtain ⟨row', hrow', hb'⟩ := (kept_of_exec hm.exec).rows row hrow
      exact ⟨row', hrow', hb'.id.trans hb.id, hb'.isRevoked hrev⟩
  · rcases List.mem_append.mp hm' with hold | hnew
    · cases b with
      | false => exact htimely.update tok record.id hop he m' hold
      | true =>
        -- it touched the row, so nobody had before
        by_contra hrotates
        rw [Bool.not_eq_false, rotates, Bool.and_eq_true, isWin_iff] at hrotates
        obtain ⟨row₁, hrow₁, hid₁, hrev₁⟩ := (revoke_once hrun record.id).1 m' hold hrotates.2
        obtain ⟨⟨row₂, hrow₂, hid₂, hrev₂⟩, -⟩ := revoked_of_won hexec
        rw [TokenTable.eq_of_id hrow₁ hrow₂ (hid₁.trans hid₂.symm), hrev₂] at hrev₁
        contradiction
    · rw [List.mem_singleton.mp hnew]
      exact hself

/-- A family that a call has ended in time is dead. -/
theorem dead_of_spent (hrun : Serves settings p ms q) (hidle : ∀ t, p.threads t = none)
    (htimely : ∀ ms₁ m ms₂, ms = ms₁ ++ m :: ms₂ → Timely settings ms₁ m) {t : ℕ} {th : AuthThread}
    (hth : q.threads t = some th) {record : RefreshTokenRecord} (hspent : Spent settings th record) :
    Dead ms q.world record.id := by
  -- the family is dead past the call's last move, and stays so
  have hsuffices (m : AuthMove) (hm : m ∈ ms) (hdead : ∀ ms₁ ms₂, ms = ms₁ ++ m :: ms₂ →
      Serves settings p ms₁ m.source → m.Allowed auth → Dead (ms₁ ++ [m]) m.target.world record.id) :
      Dead ms q.world record.id := by
    obtain ⟨ms₁, ms₂, hms⟩ := List.append_of_mem hm
    obtain ⟨hbefore, hallowed, hafter⟩ := hrun.split hms
    have hrest := (hdead ms₁ ms₂ hms hbefore hallowed).run (.move hbefore hallowed) hafter hidle
    have heq : ms₁ ++ [m] ++ ms₂ = ms := by rw [hms, List.append_assoc, List.singleton_append]
    exact heq ▸ hrest.1
  rcases hspent with ⟨tok, hop, hin, hrevoked, hres⟩ | ⟨tok, hop, hin, hres⟩
  · obtain ⟨rest, hpath, hprogram⟩ := path_of_refresh hrun hidle hth hop
    rw [program_of_error hres] at hprogram
    rw [of_map_raise hprogram.symm] at hpath
    rcases refresh_reused hpath hin hrevoked with ⟨-, next, he⟩ | ⟨x, hpast, hend⟩
    · contradiction
    · have hlast : ⟨.revokeAllForUser record.userId, x⟩ ∈ th.past := by
        simp only [hpast, List.mem_cons, true_or, or_true]
      obtain ⟨m, hm, ht, he⟩ := hrun.move_of_past (hidle t) hth hlast
      have hthread : q.threads m.thread = some th := ht.symm ▸ hth
      have hold : found settings tok record ∈ m.runner.past := by
        refine first_mem_past hrun hm hthread hpast fun hsame => ?_
        rw [he] at hsame
        cases hsame
      have hop' := (event_mem_past hrun hm hthread).2.symm.trans hop
      rcases hend with ⟨⟨n, rfl⟩, -⟩ | ⟨e, rfl, heq⟩
      · exact hsuffices m hm fun ms₁ ms₂ hms hbefore hallowed =>
          dead_of_reuse hbefore hidle hallowed rfl hop' hold he (htimely ms₁ m ms₂ hms)
      · -- the store raises nothing of the service's own
        have hexec := (hrun.of_mem hm).1.exec
        rw [he] at hexec
        obtain ⟨text, rfl⟩ := (exec_error hexec).2
        cases heq
  · have hpath := path_of_thread hrun hidle hth
    rw [hop, program_of_ok hres] at hpath
    obtain ⟨rest, hlogout, hprogram⟩ := Path.of_map hpath
    obtain ⟨u, rfl, -⟩ := of_map_done hprogram.symm
    rcases logout_path hlogout hin with ⟨hpast, hrevoked⟩ | ⟨b, hpast⟩
    · obtain ⟨m, hm, ht, he⟩ := hrun.move_of_past (hidle t) hth hin
      have hop' := (event_mem_past hrun hm (ht.symm ▸ hth)).2.symm.trans hop
      refine hsuffices m hm fun ms₁ ms₂ hms hbefore hallowed => ?_
      have hexec := hallowed.exec
      rw [he] at hexec
      obtain ⟨hsame, hfound⟩ := exec_getByHash hexec
      have hrow := (TokenTable.of_getByHash hfound.symm).1
      refine dead_of_unrotated (.move hbefore hallowed) hidle ⟨record, by rw [hsame]; exact hrow, rfl, hrevoked⟩ ?_
      intro m' hm'
      rcases List.mem_append.mp hm' with hold | hnew
      · exact (htimely ms₁ m ms₂ hms).lookup tok record hop' he hrevoked m' hold
      · rw [List.mem_singleton.mp hnew, rotates, hop', Bool.false_and]
    · have hlast : ⟨.revoke record.id, .ok b⟩ ∈ th.past := by
        simp only [hpast, List.mem_cons, true_or, or_true]
      obtain ⟨m, hm, ht, he⟩ := hrun.move_of_past (hidle t) hth hlast
      have hthread : q.threads m.thread = some th := ht.symm ▸ hth
      have hold : found settings tok record ∈ m.runner.past := by
        refine first_mem_past hrun hm hthread hpast fun hsame => ?_
        rw [he] at hsame
        cases hsame
      have hop' := (event_mem_past hrun hm hthread).2.symm.trans hop
      exact hsuffices m hm fun ms₁ ms₂ hms hbefore hallowed =>
        dead_of_logout hbefore hidle hallowed rfl hop' hold he (htimely ms₁ m ms₂ hms)

/-- In a run in which every answer to reuse finds the rotations of the family
done, and every logout finds its token not rotated: once such a call on a
record has returned, no refresh call started later that presents a token
descended from it by rotation returns a pair. -/
theorem family_ended (hrun : Serves settings p ms q) (hrest : Serves settings q ns r) (hidle : ∀ t, p.threads t = none)
    (htimely : ∀ ms₁ m ms₂, ms = ms₁ ++ m :: ms₂ → Timely settings ms₁ m) {t t' : ℕ} {th th' : AuthThread}
    (hth : q.threads t = some th) {record record' : RefreshTokenRecord} (hspent : Spent settings th record)
    (hlater : q.threads t' = none) (hth' : r.threads t' = some th') (hop : th'.operation = .refresh tok)
    (hin : found settings tok record' ∈ th'.past) (hdescends : Descends (ms ++ ns) record.id record'.id)
    (reply : Reply) : th'.result ≠ some (.ok reply) := by
  intro hres
  have hdead := dead_of_spent hrun hidle htimely hth hspent
  have hall := hrun.trans hrest
  obtain ⟨record'', time, u, h', hpast, -⟩ := won_of_pair hall hidle hth' hop hres
  have hsame : record'' = record' := by
    obtain ⟨rest, hpath, -⟩ := path_of_refresh hall hidle hth' hop
    obtain ⟨h'', hpast', -⟩ := refresh_found hpath hin
    rw [hpast', winning, List.cons_append, List.cons.injEq] at hpast
    cases hpast.1
    rfl
  have hwon : ⟨.revoke record''.id, .ok true⟩ ∈ th'.past := by
    simp only [hpast, winning, List.cons_append, List.mem_cons, true_or, or_true]
  -- the call won its token after the family was dead
  obtain ⟨m, hm, -, he⟩ := hrest.move_of_past hlater hth' hwon
  obtain ⟨ns₁, ns₂, hns⟩ := List.append_of_mem hm
  obtain ⟨hbefore, hallowed, -⟩ := hrest.split hns
  have hfamily := (hdead.run hrun hrest hidle).2 record'.id hdescends.to_reflTransGen
  have hrevoked := (hdead.run hrun hbefore hidle).1.revoked record'.id
    (hfamily.mono (List.subset_append_left ms ns₁))
  obtain ⟨row, hrow, hid, hrev⟩ := hrevoked
  have hexec := hallowed.exec
  rw [he, hsame] at hexec
  obtain ⟨⟨row', hrow', hid', hactive⟩, -⟩ := revoked_of_won hexec
  rw [TokenTable.eq_of_id hrow hrow' (hid.trans hid'.symm), hactive] at hrev
  contradiction

end Endings

section Sample

/-- After `ms`, the move is no logout's, and if it revokes a family then every
call that won a token is settled. -/
def settledAt (ms : List AuthMove) (m : AuthMove) : Bool :=
  (match m.runner.operation with
    | .logout _ => false
    | _ => true) &&
  match m.event with
  | ⟨.revokeAllForUser _, _⟩ => ms.all fun m' => match m'.event with
    | ⟨.revoke _, _⟩ => ms.any fun m'' => m''.thread = m'.thread && settles m''.event
    | _ => true
  | _ => true

/-- Such moves are timely. -/
theorem timely_of_settledAt {settings : AuthSettings} {ms : List AuthMove} {m : AuthMove}
    (h : settledAt ms m = true) : Timely settings ms m := by
  rw [settledAt, Bool.and_eq_true] at h
  obtain ⟨hop, hsettled⟩ := h
  constructor
  · intro tok record n _ _ he id _ m' hm' hrotates
    rw [he] at hsettled
    have hm := List.all_eq_true.mp hsettled m' hm'
    rw [rotates, Bool.and_eq_true, isWin_iff] at hrotates
    rw [hrotates.2] at hm
    obtain ⟨m'', hm'', hboth⟩ := List.any_eq_true.mp hm
    rw [Bool.and_eq_true, decide_eq_true_eq] at hboth
    exact ⟨m'', hm'', hboth.1, hboth.2⟩
  · intro tok record hlogout
    rw [hlogout] at hop
    contradiction
  · intro tok id hlogout
    rw [hlogout] at hop
    contradiction

/-- The row a call inserted. -/
def insertedId : CallEvent → Option String
  | ⟨.create _ _ _, .ok row⟩ => some row.id
  | _ => none

/-- A move of a winner that inserts a row inserts a successor. -/
theorem descends_of_any {ms : List AuthMove} {id id' : String}
    (h : (ms.any fun m => m.runner.past.any (isWin id) && insertedId m.event = some id') = true) :
    Descends ms id id' := by
  obtain ⟨m, hm, hboth⟩ := List.any_eq_true.mp h
  rw [Bool.and_eq_true, decide_eq_true_eq] at hboth
  obtain ⟨e, he, hwin⟩ := List.any_eq_true.mp hboth.1
  refine .single ⟨m, hm, isWin_iff.mp hwin ▸ he, ?_⟩
  have hinserted := hboth.2
  unfold insertedId at hinserted
  split at hinserted
  · next u h t row hevent => exact ⟨u, h, t, row, hevent, Option.some.inj hinserted⟩
  · contradiction

/-- The token `t1`, rotated from `t0`, is presented after the reuse of `t0`. -/
def lateTurns : List Turn := .start 2 (.refresh "t1") :: turns 2 2 "" ""

/-- The pool these turns lead to. -/
def latePool : AuthPool := replayedPool.reached auth (code sampleSettings) lateTurns

/-- The row of `t1` after the reuse of `t0`. -/
def spentRow : RefreshTokenRecord where
  id := "row1"
  userId := "u"
  tokenHash := sampleSettings.hashRefreshToken "t1"
  expiresAt := 0 + sampleSettings.refreshTokenTtl
  revokedAt := some 0

theorem family_ended_sample : ∃ ms ns th th' record record', Serves sampleSettings (Pool.idle sampleState) ms replayedPool ∧
    Serves sampleSettings replayedPool ns latePool ∧ replayedPool.threads 1 = some th ∧
    Spent sampleSettings th record ∧ latePool.threads 2 = some th' ∧ found sampleSettings "t1" record' ∈ th'.past ∧
    Descends (ms ++ ns) record.id record'.id ∧ ∀ reply, th'.result ≠ some (.ok reply) := by
  have hdriven : ((Pool.idle sampleState).drive auth (code sampleSettings) replayTurns).isSome = true := by
    decide +kernel
  have hlate : (replayedPool.drive auth (code sampleSettings) lateTurns).isSome = true := by decide +kernel
  have hrun := Run.reached hdriven
  have hrest := Run.reached hlate
  have hlength : ((Pool.idle sampleState).moves auth (code sampleSettings) replayTurns).length = 10 := by decide +kernel
  have hsettled : ∀ i < 10, ((Pool.idle sampleState).moves auth (code sampleSettings) replayTurns)[i]?.all
      (settledAt (((Pool.idle sampleState).moves auth (code sampleSettings) replayTurns).take i)) = true := by
    decide +kernel
  have htimely (ms₁ : List AuthMove) (m : AuthMove) (ms₂ : List AuthMove)
      (hms : (Pool.idle sampleState).moves auth (code sampleSettings) replayTurns = ms₁ ++ m :: ms₂) :
      Timely sampleSettings ms₁ m := by
    rw [hms] at hlength hsettled
    have hat := hsettled ms₁.length (by
      rw [← hlength, List.length_append, List.length_cons]
      omega)
    rw [List.getElem?_append_right (Nat.le_refl _), Nat.sub_self, List.getElem?_cons_zero, List.take_left,
      Option.all_some] at hat
    exact timely_of_settledAt hat
  have hdescends : Descends ((Pool.idle sampleState).moves auth (code sampleSettings) replayTurns ++
      replayedPool.moves auth (code sampleSettings) lateTurns) "row0" "row1" := descends_of_any (by decide +kernel)
  have hth : replayedPool.threads 1 = some _ := rfl
  have hth' : latePool.threads 2 = some _ := rfl
  have hended := family_ended hrun hrest (fun _ => rfl) htimely hth
    (.inl ⟨"t0", rfl, List.mem_cons_self, rfl, rfl⟩ : Spent sampleSettings _ (sampleRow.revoke 0)) rfl hth' rfl
    (List.mem_cons_self : found sampleSettings "t1" spentRow ∈ _) hdescends
  exact ⟨_, _, _, _, sampleRow.revoke 0, spentRow, hrun, hrest, hth, .inl ⟨"t0", rfl, List.mem_cons_self, rfl, rfl⟩,
    hth', List.mem_cons_self, hdescends, hended⟩

/-- A call of `o` ends a family, and a refresh call started later that presents
a descendant returns a pair all the same. -/
def Survives (settings : AuthSettings) (p : AuthPool) (o : Operation) : Prop :=
  ∃ ms ns q r t th record t' th' tok record' reply, Serves settings p ms q ∧ Serves settings q ns r ∧
    q.threads t = some th ∧ th.operation = o ∧ Spent settings th record ∧ q.threads t' = none ∧
    r.threads t' = some th' ∧ th'.operation = .refresh tok ∧ found settings tok record' ∈ th'.past ∧
    Descends (ms ++ ns) record.id record'.id ∧ th'.result = some (.ok reply)

/-- A rotation of `t0` wins the token; reuse of `t0` is detected and answered. -/
def raceTurns : List Turn :=
  .start 0 (.refresh "t0") :: turns 0 4 "row1" "t1" ++ .start 1 (.refresh "t0") :: turns 1 2 "" ""

/-- Then the rotation inserts `t1`, which is presented. -/
def survivorTurns : List Turn := turns 0 4 "row1" "t1" ++ .start 2 (.refresh "t1") :: turns 2 8 "row2" "t2"

/-- `t0` is rotated, and then logged out. -/
def logoutTurns : List Turn :=
  .start 0 (.refresh "t0") :: turns 0 8 "row1" "t1" ++ .start 1 (.logout "t0") :: turns 1 1 "" ""

/-- Then `t1` is presented. -/
def afterLogoutTurns : List Turn := .start 2 (.refresh "t1") :: turns 2 8 "row2" "t2"

/-- A successor that a rotation inserts after the family was revoked is
accepted, and so is the successor of a token that was logged out. -/
theorem family_survives : Survives sampleSettings (Pool.idle sampleState) (.refresh "t0") ∧
    Survives sampleSettings (Pool.idle sampleState) (.logout "t0") := by
  have hrace : ((Pool.idle sampleState).drive auth (code sampleSettings) raceTurns).isSome = true := by decide +kernel
  have hsurvivor : (((Pool.idle sampleState).reached auth (code sampleSettings) raceTurns).drive auth
      (code sampleSettings) survivorTurns).isSome = true := by decide +kernel
  have hlogout : ((Pool.idle sampleState).drive auth (code sampleSettings) logoutTurns).isSome = true := by
    decide +kernel
  have hafter : (((Pool.idle sampleState).reached auth (code sampleSettings) logoutTurns).drive auth
      (code sampleSettings) afterLogoutTurns).isSome = true := by decide +kernel
  have hended : ((Pool.idle sampleState).reached auth (code sampleSettings) raceTurns).threads 1 = some _ := rfl
  have haccepted : (((Pool.idle sampleState).reached auth (code sampleSettings) raceTurns).reached auth
      (code sampleSettings) survivorTurns).threads 2 = some _ := rfl
  have hleft : ((Pool.idle sampleState).reached auth (code sampleSettings) logoutTurns).threads 1 = some _ := rfl
  have hreturned : (((Pool.idle sampleState).reached auth (code sampleSettings) logoutTurns).reached auth
      (code sampleSettings) afterLogoutTurns).threads 2 = some _ := rfl
  constructor
  · refine ⟨_, _, _, _, 1, _, _, 2, _, "t1", _, _, Run.reached hrace, Run.reached hsurvivor, hended, rfl,
      .inl ⟨"t0", rfl, List.mem_cons_self, rfl, rfl⟩, rfl, haccepted, rfl, List.mem_cons_self, ?_, rfl⟩
    exact descends_of_any (by decide +kernel)
  · refine ⟨_, _, _, _, 1, _, _, 2, _, "t1", _, _, Run.reached hlogout, Run.reached hafter, hleft, rfl,
      .inr ⟨"t0", rfl, List.mem_cons_self, rfl⟩, rfl, hreturned, rfl, List.mem_cons_self, ?_, rfl⟩
    exact descends_of_any (by decide +kernel)

end Sample

end RagSystem.TokenFamilies
