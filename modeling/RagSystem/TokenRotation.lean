import RagSystem.ProgramPaths
import RagSystem.RefreshTokens

/-!
# Refresh tokens are spent once

The conditional update decides which of the competing refresh calls issues the
successor. What every call leaves of the table, what a call has done by the
time it inserts or returns, and the order of the updates in a run give that a
token yields one pair at most.
-/

namespace RagSystem.TokenRotation

open AtomicProgram ThreadPool RelyGuarantee ProgramPaths RefreshTokens

set_option autoImplicit false

section Steps

/-- What a row can become: it may be revoked, and then stays so. -/
structure Becomes (r r' : RefreshTokenRecord) : Prop where
  /-- It keeps its id. -/
  id : r'.id = r.id
  /-- It keeps its user. -/
  userId : r'.userId = r.userId
  /-- It keeps its hash. -/
  tokenHash : r'.tokenHash = r.tokenHash
  /-- It keeps its expiry. -/
  expiresAt : r'.expiresAt = r.expiresAt
  /-- It is not restored. -/
  isRevoked : r.isRevoked = true → r'.isRevoked = true

/-- Nothing happened. -/
theorem Becomes.refl (r : RefreshTokenRecord) : Becomes r r := ⟨rfl, rfl, rfl, rfl, fun h => h⟩

/-- One change after another. -/
theorem Becomes.trans {r r' r'' : RefreshTokenRecord} (h : Becomes r r') (h' : Becomes r' r'') : Becomes r r'' :=
  ⟨h'.id.trans h.id, h'.userId.trans h.userId, h'.tokenHash.trans h.tokenHash, h'.expiresAt.trans h.expiresAt,
    fun hr => h'.isRevoked (h.isRevoked hr)⟩

/-- A revocation is such a change. -/
theorem Becomes.revoke (r : RefreshTokenRecord) (now : ℕ) : Becomes r (r.revoke now) :=
  ⟨rfl, rfl, rfl, rfl, fun _ => rfl⟩

/-- What every call leaves of the table and the clock. -/
structure Kept (w w' : AuthState) : Prop where
  /-- The clock does not go back. -/
  clock : w.clock ≤ w'.clock
  /-- No row is lost or restored. -/
  rows : ∀ r ∈ w.tokens.rows, ∃ r' ∈ w'.tokens.rows, Becomes r r'

/-- Nothing happened. -/
theorem Kept.refl (w : AuthState) : Kept w w := ⟨Nat.le_refl _, fun r hr => ⟨r, hr, .refl r⟩⟩

/-- Calls may follow one another. -/
theorem kept_rely : IsRely Kept := by
  refine ⟨Kept.refl, fun h h' => ⟨Nat.le_trans h.clock h'.clock, fun r hr => ?_⟩⟩
  obtain ⟨r', hr', hb⟩ := h.rows r hr
  obtain ⟨r'', hr'', hb'⟩ := h'.rows r' hr'
  exact ⟨r'', hr'', hb.trans hb'⟩

/-- A row of an updated table is a row it had, revoked if it was selected. -/
theorem kept_revokeWhere (w : AuthState) (P : RefreshTokenRecord → Bool) :
    Kept w { w with tokens := w.tokens.revokeWhere P w.clock } := by
  refine ⟨Nat.le_refl _, fun r hr => ⟨_, List.mem_map_of_mem hr, ?_⟩⟩
  split
  · exact .revoke r _
  · exact .refl r

/-- Every row that is selected is revoked. -/
theorem isRevoked_of_revokeWhere {table : TokenTable} {P : RefreshTokenRecord → Bool} {now : ℕ} {r : RefreshTokenRecord}
    (hr : r ∈ (table.revokeWhere P now).rows) :
    ∃ r₀ ∈ table.rows, Becomes r₀ r ∧ (P r₀ = true → r.isRevoked = true) := by
  obtain ⟨r₀, hr₀, rfl⟩ := List.mem_map.mp hr
  refine ⟨r₀, hr₀, ?_⟩
  split
  · exact ⟨.revoke r₀ now, fun _ => rfl⟩
  · next hP => exact ⟨.refl r₀, fun h => absurd h hP⟩

/-- A lookup that goes through finds what is there. -/
theorem exec_getByHash {h : String} {x : Option RefreshTokenRecord} {w w' : AuthState}
    (he : auth.Exec ⟨.getByHash h, .ok x⟩ w w') : w' = w ∧ x = w.tokens.getByHash h := by
  obtain ⟨o, ho⟩ := he
  cases o with
  | proceed =>
    cases ho
    exact ⟨rfl, rfl⟩
  | _ => cases ho

/-- A conditional update that goes through says whether it touched the row. -/
theorem exec_revoke {id : String} {b : Bool} {w w' : AuthState} (he : auth.Exec ⟨.revoke id, .ok b⟩ w w') :
    w' = { w with tokens := w.tokens.revokeWhere (activeRow id) w.clock } ∧ b = w.tokens.rows.any (activeRow id) := by
  obtain ⟨o, ho⟩ := he
  cases o with
  | proceed =>
    cases ho
    exact ⟨rfl, rfl⟩
  | _ => cases ho

/-- A family revocation that goes through touches every active row of the user. -/
theorem exec_revokeAllForUser {u : String} {n : ℕ} {w w' : AuthState}
    (he : auth.Exec ⟨.revokeAllForUser u, .ok n⟩ w w') :
    w' = { w with tokens := w.tokens.revokeWhere (activeOf u) w.clock } := by
  obtain ⟨o, ho⟩ := he
  cases o with
  | proceed =>
    cases ho
    rfl
  | _ => cases ho

/-- An insertion that goes through adds one active row. -/
theorem exec_create {u h : String} {t : ℕ} {row : RefreshTokenRecord} {w w' : AuthState}
    (he : auth.Exec ⟨.create u h t, .ok row⟩ w w') :
    w.tokens.insert? row = some w'.tokens ∧ w'.clock = w.clock ∧ row.userId = u ∧ row.tokenHash = h := by
  obtain ⟨o, ho⟩ := he
  cases o with
  | inserted id =>
    obtain ⟨table, htable, heq⟩ := Option.map_eq_some_iff.mp ho
    cases heq
    exact ⟨htable, rfl, rfl, rfl⟩
  | _ => cases ho

/-- An account is found under its own id. -/
theorem exec_getById {id : String} {u : UserRecord} {w w' : AuthState} (he : auth.Exec ⟨.getById id, .ok (some u)⟩ w w') :
    u.id = id := by
  obtain ⟨o, ho⟩ := he
  cases o with
  | user x =>
    simp only [auth] at ho
    split at ho
    · next hall =>
      cases ho
      simpa only [Option.all_some, decide_eq_true_eq] using hall
    · contradiction
  | _ => cases ho

/-- A reading is not before the last one. -/
theorem exec_now {t : ℕ} {w w' : AuthState} (he : auth.Exec ⟨.now, .ok t⟩ w w') :
    w.clock ≤ t ∧ w' = { w with clock := t } := by
  obtain ⟨o, ho⟩ := he
  cases o with
  | reading t' =>
    simp only [auth] at ho
    split at ho
    · next hle =>
      cases ho
      exact ⟨hle, rfl⟩
    · contradiction
  | _ => cases ho

/-- A call that raises changes nothing, and raises no exception of the service. -/
theorem exec_error {a : AuthCall} {e : AuthError} {w w' : AuthState} (he : auth.Exec ⟨a, .error e⟩ w w') :
    w' = w ∧ ∃ m, e = .raised m := by
  obtain ⟨o, ho⟩ := he
  cases a with
  | create u h t =>
    cases o with
    | inserted id =>
      obtain ⟨table, -, heq⟩ := Option.map_eq_some_iff.mp ho
      cases heq
    | raise m =>
      cases ho
      exact ⟨rfl, m, rfl⟩
    | _ => cases ho
  | getById id =>
    cases o with
    | user x =>
      simp only [auth] at ho
      split at ho
      · cases ho
      · contradiction
    | raise m =>
      cases ho
      exact ⟨rfl, m, rfl⟩
    | _ => cases ho
  | now =>
    cases o with
    | reading t =>
      simp only [auth] at ho
      split at ho
      · cases ho
      · contradiction
    | _ => cases ho
  | _ =>
    cases o with
    | raise m =>
      cases ho
      exact ⟨rfl, m, rfl⟩
    | _ => cases ho

/-- Every call keeps the table and the clock. -/
theorem kept_of_exec {e : CallEvent} {w w' : AuthState} (he : auth.Exec e w w') : Kept w w' := by
  obtain ⟨a, r⟩ := e
  cases r with
  | error err =>
    rw [(exec_error he).1]
    exact .refl w
  | ok b =>
    cases a with
    | getByHash h =>
      rw [(exec_getByHash he).1]
      exact .refl w
    | revoke id =>
      rw [(exec_revoke he).1]
      exact kept_revokeWhere w _
    | revokeAllForUser u =>
      rw [exec_revokeAllForUser he]
      exact kept_revokeWhere w _
    | create u h t =>
      obtain ⟨hinsert, hclock, -⟩ := exec_create he
      have hrows := (TokenTable.of_insert? hinsert).1
      refine ⟨Nat.le_of_eq hclock.symm, fun r hr => ⟨r, ?_, .refl r⟩⟩
      rw [hrows]
      exact List.mem_cons_of_mem _ hr
    | now =>
      obtain ⟨hle, rfl⟩ := exec_now he
      exact ⟨hle, fun r hr => ⟨r, hr, .refl r⟩⟩
    | getById id =>
      obtain ⟨o, ho⟩ := he
      cases o with
      | user x =>
        simp only [auth] at ho
        split at ho
        · cases ho
          exact .refl w
        · contradiction
      | _ => cases ho
    | getByEmail email =>
      obtain ⟨o, ho⟩ := he
      cases o with
      | user x =>
        cases ho
        exact .refl w
      | _ => cases ho
    | verifyPassword password storedHash =>
      obtain ⟨o, ho⟩ := he
      cases o with
      | verified ok =>
        cases ho
        exact .refl w
      | _ => cases ho
    | createAccessToken subject email =>
      obtain ⟨o, ho⟩ := he
      cases o with
      | access token =>
        cases ho
        exact .refl w
      | _ => cases ho
    | generateRefreshToken =>
      obtain ⟨o, ho⟩ := he
      cases o with
      | random token =>
        cases ho
        exact .refl w
      | _ => cases ho

end Steps

section Paths

variable {settings : AuthSettings} {tok : String} {h : History AuthError AuthAnswer} {p : Prog TokenResponse}

/-- The lookup of a presented token that finds a record. -/
def found (settings : AuthSettings) (tok : String) (record : RefreshTokenRecord) : CallEvent :=
  ⟨.getByHash (settings.hashRefreshToken tok), .ok (some record)⟩

/-- What a refresh call has done when it has won the token: it found the record
neither revoked nor expired, found the account, and revoked the record. -/
def winning (settings : AuthSettings) (tok : String) (record : RefreshTokenRecord) (t : ℕ) (u : UserRecord) :
    History AuthError AuthAnswer :=
  [found settings tok record, ⟨.now, .ok t⟩, ⟨.getById record.userId, .ok (some u)⟩, ⟨.revoke record.id, .ok true⟩]

/-- What the issuing of a pair has done when it inserts. -/
def issuing (u : UserRecord) (a : AccessToken) (plain : String) (t : ℕ) : History AuthError AuthAnswer :=
  [⟨.createAccessToken u.id u.email, .ok a⟩, ⟨.generateRefreshToken, .ok plain⟩, ⟨.now, .ok t⟩]

/-- The next action is an insertion, if there is one. -/
def OnlyInserts {α : Type} (p : Prog α) : Prop := ∀ a next, p = .act a next → ∃ u h t, a = .create u h t

/-- Then it is not another one. -/
theorem OnlyInserts.ne_act {α : Type} {p : Prog α} (hp : OnlyInserts p) {a : AuthCall}
    (ha : ∀ u h t, a ≠ .create u h t) (next : Except AuthError (AuthAnswer a) → Prog α) : p ≠ .act a next := by
  intro he
  obtain ⟨u, h, t, hc⟩ := hp a next he
  exact ha u h t hc

/-- Only the first call of a refresh is a lookup. -/
theorem uses_refreshRecord (record : RefreshTokenRecord) :
    (refreshRecord settings record).Uses fun a => ∀ h, a ≠ .getByHash h := by
  have hissue (u : UserRecord) : (issueTokenPair settings u).Uses fun a => ∀ h, a ≠ .getByHash h := by
    refine Program.Uses.bind (Program.uses_perform fun _ he => (nomatch he)) fun _ => ?_
    refine Program.Uses.bind (Program.uses_perform fun _ he => (nomatch he)) fun _ => ?_
    refine Program.Uses.bind (Program.uses_perform fun _ he => (nomatch he)) fun _ => ?_
    exact Program.Uses.bind (Program.uses_perform fun _ he => (nomatch he)) fun _ => trivial
  unfold refreshRecord
  split
  · exact Program.Uses.bind (Program.uses_perform fun _ he => (nomatch he)) fun _ => trivial
  · refine Program.Uses.bind (Program.uses_perform fun _ he => (nomatch he)) fun _ => ?_
    split
    · trivial
    · refine Program.Uses.bind (Program.uses_perform fun _ he => (nomatch he)) fun x => ?_
      cases x with
      | none => trivial
      | some u =>
        dsimp only
        split
        · trivial
        · refine Program.Uses.bind (Program.uses_perform fun _ he => (nomatch he)) fun b => ?_
          cases b with
          | false => trivial
          | true => exact hissue u

/-- A refresh call that has found a record goes on with it. -/
theorem refresh_found (hp : Path (refresh settings tok) h p) {record : RefreshTokenRecord}
    (hin : found settings tok record ∈ h) :
    ∃ h', h = found settings tok record :: h' ∧ Path (refreshRecord settings record) h' p := by
  rcases hp.of_perform with ⟨rfl, -⟩ | ⟨x, h', rfl, hrest⟩ | ⟨e, rfl, -⟩
  · contradiction
  · cases x with
    | none =>
      obtain ⟨rfl, -⟩ := Path.of_raise hrest
      cases List.mem_singleton.mp hin
    | some record' =>
      rcases List.mem_cons.mp hin with he | hlater
      · cases he
        exact ⟨h', rfl, hrest⟩
      · exact absurd rfl (hrest.uses (uses_refreshRecord record') _ hlater _)
  · cases List.mem_singleton.mp hin

/-- What a refresh call that reads a revoked record does: it revokes the family,
and raises. -/
theorem refresh_reused (hp : Path (refresh settings tok) h p) {record : RefreshTokenRecord}
    (hin : found settings tok record ∈ h) (hrevoked : record.isRevoked = true) :
    (h = [found settings tok record] ∧ ∃ next, p = .act (.revokeAllForUser record.userId) next) ∨
      ∃ r, h = [found settings tok record, ⟨.revokeAllForUser record.userId, r⟩] ∧
        ((∃ n, r = .ok n) ∧ p = .raise (.invalidRefreshToken "Refresh token has been revoked.") ∨
          ∃ e, r = .error e ∧ p = .raise e) := by
  obtain ⟨h', rfl, hrest⟩ := refresh_found hp hin
  unfold refreshRecord at hrest
  rw [if_pos hrevoked] at hrest
  rcases hrest.of_perform with ⟨rfl, rfl⟩ | ⟨n, h'', rfl, hend⟩ | ⟨e, rfl, rfl⟩
  · exact .inl ⟨rfl, _, rfl⟩
  · obtain ⟨rfl, rfl⟩ := Path.of_raise hend
    exact .inr ⟨_, rfl, .inl ⟨⟨n, rfl⟩, rfl⟩⟩
  · exact .inr ⟨_, rfl, .inr ⟨e, rfl, rfl⟩⟩

/-- A refresh call that is about to insert, or has returned, has won. -/
theorem refresh_won (hp : Path (refresh settings tok) h p) (hnext : OnlyInserts p) (hraise : ∀ e, p ≠ .raise e) :
    ∃ record t u h', h = winning settings tok record t u ++ h' ∧ record.isRevoked = false ∧
      record.isExpired t = false ∧ Path (issueTokenPair settings u) h' p := by
  obtain ⟨x, h₁, rfl, hfound⟩ := hp.past_perform (hnext.ne_act fun _ _ _ he => (nomatch he)) hraise
  cases x with
  | none => exact absurd (Path.of_raise hfound).2 (hraise _)
  | some record =>
    dsimp only at hfound
    unfold refreshRecord at hfound
    split at hfound
    · obtain ⟨n, h₂, -, hend⟩ := hfound.past_perform (hnext.ne_act fun _ _ _ he => (nomatch he)) hraise
      exact absurd (Path.of_raise hend).2 (hraise _)
    · next hrevoked =>
      obtain ⟨t, h₂, rfl, hread⟩ := hfound.past_perform (hnext.ne_act fun _ _ _ he => (nomatch he)) hraise
      split at hread
      · exact absurd (Path.of_raise hread).2 (hraise _)
      · next hexpired =>
        obtain ⟨x, h₃, rfl, huser⟩ := hread.past_perform (hnext.ne_act fun _ _ _ he => (nomatch he)) hraise
        cases x with
        | none => exact absurd (Path.of_raise huser).2 (hraise _)
        | some u =>
          dsimp only at huser
          split at huser
          · exact absurd (Path.of_raise huser).2 (hraise _)
          · obtain ⟨b, h₄, rfl, hwon⟩ := huser.past_perform (hnext.ne_act fun _ _ _ he => (nomatch he)) hraise
            cases b with
            | false => exact absurd (Path.of_raise hwon).2 (hraise _)
            | true =>
              refine ⟨record, t, u, h₄, rfl, ?_, ?_, hwon⟩
              · simpa only [Bool.not_eq_true] using hrevoked
              · simpa only [Bool.not_eq_true] using hexpired

/-- The issuing of a pair that is about to insert, or has returned. -/
theorem issue_path {u : UserRecord} (hp : Path (issueTokenPair settings u) h p) (hnext : OnlyInserts p)
    (hraise : ∀ e, p ≠ .raise e) : ∃ a plain t, (h = issuing u a plain t ∧ ∃ next, p = .act (.create u.id
        (settings.hashRefreshToken plain) (t + settings.refreshTokenTtl)) next) ∨
      ∃ row, h = issuing u a plain t ++ [⟨.create u.id (settings.hashRefreshToken plain) (t + settings.refreshTokenTtl), .ok row⟩] ∧
        p = .done ⟨a.token, plain, a.tokenType, a.expiresIn⟩ := by
  obtain ⟨a, h₁, rfl, hsigned⟩ := hp.past_perform (hnext.ne_act fun _ _ _ he => (nomatch he)) hraise
  obtain ⟨plain, h₂, rfl, hrandom⟩ := hsigned.past_perform (hnext.ne_act fun _ _ _ he => (nomatch he)) hraise
  obtain ⟨t, h₃, rfl, hread⟩ := hrandom.past_perform (hnext.ne_act fun _ _ _ he => (nomatch he)) hraise
  refine ⟨a, plain, t, ?_⟩
  rcases hread.of_perform with ⟨rfl, rfl⟩ | ⟨row, h₄, rfl, hend⟩ | ⟨e, -, hend⟩
  · exact .inl ⟨rfl, _, rfl⟩
  · obtain ⟨rfl, rfl⟩ := Path.of_done hend
    exact .inr ⟨row, rfl, rfl⟩
  · exact absurd hend (hraise e)

end Paths

section Runs

/-- A pool of calls to the service. -/
abbrev AuthPool := Pool AuthState Operation AuthError AuthAnswer Reply

/-- A thread of such a pool. -/
abbrev AuthThread := Thread Operation AuthError AuthAnswer Reply

/-- A move of such a pool. -/
abbrev AuthMove := Move AuthState Operation AuthError AuthAnswer Reply

/-- A run of the service. -/
abbrev Serves (settings : AuthSettings) := Run (O := Operation) auth (code settings)

variable {settings : AuthSettings} {p q : AuthPool} {ms : List AuthMove} {t t' : ℕ} {th th' : AuthThread} {tok : String}

/-- Every move keeps the table and the clock. -/
theorem kept_of_move (hrun : Serves settings p ms q) {m : AuthMove} (hm : m ∈ ms) :
    Kept m.source.world m.target.world := kept_of_exec (hrun.of_mem hm).1.exec

/-- A refresh thread follows the path of its call. -/
theorem path_of_refresh (hrun : Serves settings p ms q) (hidle : ∀ t, p.threads t = none)
    (hth : q.threads t = some th) (hop : th.operation = .refresh tok) :
    ∃ rest, Path (refresh settings tok) th.past rest ∧ th.program = rest.bind fun a => .done (.pair a) := by
  have hpath := path_of_thread hrun hidle hth
  rw [hop] at hpath
  exact Path.of_map hpath

/-- A refresh thread that returned a pair has won its token. -/
theorem won_of_pair (hrun : Serves settings p ms q) (hidle : ∀ t, p.threads t = none)
    (hth : q.threads t = some th) (hop : th.operation = .refresh tok) {reply : Reply}
    (hres : th.result = some (.ok reply)) : ∃ record time u h', th.past = winning settings tok record time u ++ h' ∧
      record.isRevoked = false ∧ record.isExpired time = false := by
  obtain ⟨rest, hpath, hprogram⟩ := path_of_refresh hrun hidle hth hop
  rw [program_of_ok hres] at hprogram
  obtain ⟨response, rfl, -⟩ := of_map_done hprogram.symm
  obtain ⟨record, time, u, h', hpast, hrevoked, hexpired, -⟩ := refresh_won hpath (fun _ _ he => (nomatch he))
    fun _ he => (nomatch he)
  exact ⟨record, time, u, h', hpast, hrevoked, hexpired⟩

/-- A record that a thread has found is still a row, perhaps revoked since. -/
theorem row_of_found (hrun : Serves settings p ms q) (hidle : ∀ t, p.threads t = none)
    (hth : q.threads t = some th) {record : RefreshTokenRecord} (hin : found settings tok record ∈ th.past) :
    record.tokenHash = settings.hashRefreshToken tok ∧ ∃ row ∈ q.world.tokens.rows, Becomes record row := by
  obtain ⟨m, hm, -, hevent⟩ := hrun.move_of_past (hidle t) hth hin
  have hexec := (hrun.of_mem hm).1.exec
  rw [hevent] at hexec
  obtain ⟨hsame, hfound⟩ := exec_getByHash hexec
  obtain ⟨hrow, hhash⟩ := TokenTable.of_getByHash hfound.symm
  have hkept := rely_since kept_rely hrun (fun m hm => kept_of_move hrun hm) hm
  rw [hsame] at hkept
  exact ⟨hhash, hkept.rows record hrow⟩

/-- A conditional update that touched a row found it active and leaves it
revoked. -/
theorem revoked_of_won {id : String} {w w' : AuthState} (he : auth.Exec ⟨.revoke id, .ok true⟩ w w') :
    (∃ row ∈ w.tokens.rows, row.id = id ∧ row.isRevoked = false) ∧
      ∃ row ∈ w'.tokens.rows, row.id = id ∧ row.isRevoked = true := by
  obtain ⟨rfl, hb⟩ := exec_revoke he
  obtain ⟨row, hrow, hactive⟩ := List.any_eq_true.mp hb.symm
  have hid : row.id = id := by
    simp only [activeRow, Bool.and_eq_true, decide_eq_true_eq] at hactive
    exact hactive.1
  have hunrevoked : row.isRevoked = false := by
    simp only [activeRow, Bool.and_eq_true, Option.isNone_iff_eq_none] at hactive
    rw [RefreshTokenRecord.isRevoked, hactive.2, Option.isSome_none]
  refine ⟨⟨row, hrow, hid, hunrevoked⟩, row.revoke w.clock, ?_, hid, rfl⟩
  have hmap := List.mem_map_of_mem (f := fun r => if activeRow id r then r.revoke w.clock else r) hrow
  rwa [if_pos hactive] at hmap

/-- Only one update touches a row: past it the row is revoked. -/
theorem revoke_once (hrun : Serves settings p ms q) (id : String) :
    (∀ m ∈ ms, m.event = ⟨.revoke id, .ok true⟩ → ∃ row ∈ q.world.tokens.rows, row.id = id ∧ row.isRevoked = true) ∧
      ∀ m ∈ ms, ∀ m' ∈ ms, m.event = ⟨.revoke id, .ok true⟩ → m'.event = ⟨.revoke id, .ok true⟩ →
        m.thread = m'.thread := by
  induction hrun with
  | refl => exact ⟨fun m hm => (nomatch hm), fun m hm => (nomatch hm)⟩
  | start _ _ _ _ ih => exact ih
  | @move ms m hrun hm ih =>
    obtain ⟨hrevoked, honce⟩ := ih
    have hkept := kept_of_exec hm.exec
    -- an update of this move that touches the row finds it active
    have hfirst (he : m.event = ⟨.revoke id, .ok true⟩) : ∀ m' ∈ ms, m'.event ≠ ⟨.revoke id, .ok true⟩ := by
      intro m' hm' he'
      obtain ⟨row, hrow, hid, hrev⟩ := hrevoked m' hm' he'
      have hexec := hm.exec
      rw [he] at hexec
      obtain ⟨⟨row', hrow', hid', hrev'⟩, -⟩ := revoked_of_won hexec
      rw [TokenTable.eq_of_id hrow hrow' (hid.trans hid'.symm), hrev'] at hrev
      contradiction
    constructor
    · intro m' hm' he'
      rcases List.mem_append.mp hm' with hold | hnew
      · obtain ⟨row, hrow, hid, hrev⟩ := hrevoked m' hold he'
        obtain ⟨row', hrow', hb⟩ := hkept.rows row hrow
        exact ⟨row', hrow', hb.id.trans hid, hb.isRevoked hrev⟩
      · rw [List.mem_singleton.mp hnew] at he'
        have hexec := hm.exec
        rw [he'] at hexec
        exact (revoked_of_won hexec).2
    · intro m₁ hm₁ m₂ hm₂ he₁ he₂
      rcases List.mem_append.mp hm₁ with hold₁ | hnew₁
      · rcases List.mem_append.mp hm₂ with hold₂ | hnew₂
        · exact honce m₁ hold₁ m₂ hold₂ he₁ he₂
        · rw [List.mem_singleton.mp hnew₂] at he₂
          exact absurd he₁ (hfirst he₂ m₁ hold₁)
      · rw [List.mem_singleton.mp hnew₁] at he₁ ⊢
        rcases List.mem_append.mp hm₂ with hold₂ | hnew₂
        · exact absurd he₂ (hfirst he₁ m₂ hold₂)
        · rw [List.mem_singleton.mp hnew₂]

/-- Past a family revocation every row of the user is revoked. -/
theorem revoked_of_revokeAll {u : String} {n : ℕ} {w w' : AuthState}
    (he : auth.Exec ⟨.revokeAllForUser u, .ok n⟩ w w') :
    ∀ row ∈ w'.tokens.rows, row.userId = u → row.isRevoked = true := by
  intro row hrow huser
  rw [exec_revokeAllForUser he] at hrow
  obtain ⟨row₀, -, hb, hactive⟩ := isRevoked_of_revokeWhere hrow
  cases hrev : row₀.isRevoked with
  | true => exact hb.isRevoked hrev
  | false =>
    refine hactive ?_
    rw [RefreshTokenRecord.isRevoked, Option.isSome_eq_false_iff] at hrev
    simp only [activeOf, ← hb.userId, huser, decide_true, hrev, Bool.and_self]

/-- Two refresh calls that return a pair for one token are one call. -/
theorem eq_of_pairs (hrun : Serves settings p ms q) (hidle : ∀ t, p.threads t = none)
    (hth : q.threads t = some th) (hth' : q.threads t' = some th') (hop : th.operation = .refresh tok)
    (hop' : th'.operation = .refresh tok) {reply reply' : Reply} (hres : th.result = some (.ok reply))
    (hres' : th'.result = some (.ok reply')) : t = t' := by
  obtain ⟨record, time, u, h, hpast, -⟩ := won_of_pair hrun hidle hth hop hres
  obtain ⟨record', time', u', h', hpast', -⟩ := won_of_pair hrun hidle hth' hop' hres'
  have hfound : found settings tok record ∈ th.past := by simp only [hpast, winning, List.cons_append, List.mem_cons, true_or]
  have hfound' : found settings tok record' ∈ th'.past := by simp only [hpast', winning, List.cons_append, List.mem_cons, true_or]
  obtain ⟨hhash, row, hrow, hb⟩ := row_of_found hrun hidle hth hfound
  obtain ⟨hhash', row', hrow', hb'⟩ := row_of_found hrun hidle hth' hfound'
  -- both found the one row with the token's hash, and both updates touched it
  have hsame : row = row' := by
    refine TokenTable.eq_of_hash hrow hrow' ?_
    rw [hb.tokenHash, hb'.tokenHash, hhash, hhash']
  have hid : record'.id = record.id := by rw [← hb'.id, ← hsame, hb.id]
  have hwon : ⟨.revoke record.id, .ok true⟩ ∈ th.past := by
    simp only [hpast, winning, List.cons_append, List.mem_cons, true_or, or_true]
  have hwon' : ⟨.revoke record'.id, .ok true⟩ ∈ th'.past := by
    simp only [hpast', winning, List.cons_append, List.mem_cons, true_or, or_true]
  obtain ⟨m, hm, ht, he⟩ := hrun.move_of_past (hidle t) hth hwon
  obtain ⟨m', hm', ht', he'⟩ := hrun.move_of_past (hidle t') hth' hwon'
  rw [hid] at he'
  rw [← ht, ← ht', (revoke_once hrun record.id).2 m hm m' hm' he he']

/-- A refresh call that returns a pair looked its token up where it was stored,
active, and not yet expired. -/
theorem live_of_pair (hrun : Serves settings p ms q) (hidle : ∀ t, p.threads t = none)
    (hth : q.threads t = some th) (hop : th.operation = .refresh tok) {reply : Reply}
    (hres : th.result = some (.ok reply)) : ∃ m ∈ ms, m.thread = t ∧
      m.event.action = .getByHash (settings.hashRefreshToken tok) ∧ ∃ row ∈ m.source.world.tokens.rows,
        row.tokenHash = settings.hashRefreshToken tok ∧ row.isRevoked = false ∧
          m.source.world.clock < row.expiresAt := by
  obtain ⟨record, time, u, h, hpast, hrevoked, hexpired⟩ := won_of_pair hrun hidle hth hop hres
  have hclock : ⟨.now, .ok time⟩ ∈ th.past := by
    simp only [hpast, winning, List.cons_append, List.mem_cons, true_or, or_true]
  obtain ⟨m₂, hm₂, ht₂, he₂⟩ := hrun.move_of_past (hidle t) hth hclock
  -- when it read the clock it had looked the token up
  have hold : found settings tok record ∈ m₂.runner.past := by
    refine first_mem_past hrun hm₂ (ht₂.symm ▸ hth) hpast fun he => ?_
    rw [he₂] at he
    cases he
  obtain ⟨ns, m, hns, hrun₂, hm, ht, he⟩ := earlier_move hrun hidle hm₂ hold
  have hexec := (hrun₂.of_mem hm).1.exec
  rw [he] at hexec
  obtain ⟨hsame, hfound⟩ := exec_getByHash hexec
  obtain ⟨hrow, hhash⟩ := TokenTable.of_getByHash hfound.symm
  have hkept := rely_since kept_rely hrun₂ (fun m hm => kept_of_move hrun₂ hm) hm
  have hexec₂ := (hrun.of_mem hm₂).1.exec
  rw [he₂] at hexec₂
  have hread := (exec_now hexec₂).1
  have hlive : ¬ record.expiresAt ≤ time := by
    simpa only [RefreshTokenRecord.isExpired, decide_eq_false_iff_not] using hexpired
  refine ⟨m, hns.subset hm, ht.trans ht₂, by rw [he, found], record, hrow, hhash, hrevoked, ?_⟩
  rw [hsame] at hkept
  have hclock := hkept.clock
  omega

/-- A refresh call that has read a revoked record returns no pair; at its end
it has revoked its user's tokens, or that operation raised. -/
theorem reused_ends (hrun : Serves settings p ms q) (hidle : ∀ t, p.threads t = none)
    (hth : q.threads t = some th) (hop : th.operation = .refresh tok) {record : RefreshTokenRecord}
    (hin : found settings tok record ∈ th.past) (hrevoked : record.isRevoked = true) :
    (∀ reply, th.result ≠ some (.ok reply)) ∧
      (th.Finished → ∃ m ∈ ms, m.thread = t ∧
        ((∃ n, m.event = ⟨.revokeAllForUser record.userId, .ok n⟩) ∧
            th.result = some (.error (.invalidRefreshToken "Refresh token has been revoked.")) ∨
          ∃ e, m.event = ⟨.revokeAllForUser record.userId, .error e⟩ ∧ th.result = some (.error e))) := by
  obtain ⟨rest, hpath, hprogram⟩ := path_of_refresh hrun hidle hth hop
  constructor
  · intro reply hres
    rw [program_of_ok hres] at hprogram
    obtain ⟨response, rfl, -⟩ := of_map_done hprogram.symm
    rcases refresh_reused hpath hin hrevoked with ⟨-, next, he⟩ | ⟨r, -, ⟨-, he⟩ | ⟨e, -, he⟩⟩
    · contradiction
    · contradiction
    · contradiction
  · intro hfinished
    rcases refresh_reused hpath hin hrevoked with ⟨-, next, rfl⟩ | ⟨r, hpast, hend⟩
    · rw [Thread.Finished, hprogram] at hfinished
      contradiction
    · have hlast : ⟨.revokeAllForUser record.userId, r⟩ ∈ th.past := by
        simp only [hpast, List.mem_cons, true_or, or_true]
      obtain ⟨m, hm, ht, he⟩ := hrun.move_of_past (hidle t) hth hlast
      refine ⟨m, hm, ht, ?_⟩
      rcases hend with ⟨⟨n, rfl⟩, rfl⟩ | ⟨e, rfl, rfl⟩
      · exact .inl ⟨⟨n, he⟩, by rw [Thread.result, hprogram]; rfl⟩
      · exact .inr ⟨e, he, by rw [Thread.result, hprogram]; rfl⟩

/-- Any number of login, refresh and logout calls in any order of their store
operations. Two refresh calls that return a pair for one token are one call; a
call that returns a pair looked its token up where it was stored, active and
not expired; and a call that reads a revoked record returns no pair, and at its
end has revoked every token its user had at that moment, unless that very
operation raised. -/
theorem refresh_spent_once (hrun : Serves settings p ms q) (hidle : ∀ t, p.threads t = none) :
    (∀ t t' th th' tok reply reply', q.threads t = some th → q.threads t' = some th' →
        th.operation = .refresh tok → th'.operation = .refresh tok → th.result = some (.ok reply) →
        th'.result = some (.ok reply') → t = t') ∧
      (∀ t th tok reply, q.threads t = some th → th.operation = .refresh tok → th.result = some (.ok reply) →
        ∃ m ∈ ms, m.thread = t ∧ m.event.action = .getByHash (settings.hashRefreshToken tok) ∧
          ∃ row ∈ m.source.world.tokens.rows, row.tokenHash = settings.hashRefreshToken tok ∧
            row.isRevoked = false ∧ m.source.world.clock < row.expiresAt) ∧
      ∀ t th tok record, q.threads t = some th → th.operation = .refresh tok → found settings tok record ∈ th.past →
        record.isRevoked = true → (∀ reply, th.result ≠ some (.ok reply)) ∧
          (th.Finished → ∃ m ∈ ms, m.thread = t ∧ m.event.action = .revokeAllForUser record.userId ∧
            ((∀ row ∈ m.target.world.tokens.rows, row.userId = record.userId → row.isRevoked = true) ∨
              ∃ e, m.event = ⟨.revokeAllForUser record.userId, .error e⟩ ∧ th.result = some (.error e))) := by
  refine ⟨?_, ?_, ?_⟩
  · intro t t' th th' tok reply reply' hth hth' hop hop' hres hres'
    exact eq_of_pairs hrun hidle hth hth' hop hop' hres hres'
  · intro t th tok reply hth hop hres
    exact live_of_pair hrun hidle hth hop hres
  · intro t th tok record hth hop hin hrevoked
    obtain ⟨hnone, hends⟩ := reused_ends hrun hidle hth hop hin hrevoked
    refine ⟨hnone, fun hfinished => ?_⟩
    obtain ⟨m, hm, ht, hend⟩ := hends hfinished
    rcases hend with ⟨⟨n, he⟩, -⟩ | ⟨e, he, hres⟩
    · have hexec := (hrun.of_mem hm).1.exec
      rw [he] at hexec
      exact ⟨m, hm, ht, by rw [he], .inl (revoked_of_revokeAll hexec)⟩
    · exact ⟨m, hm, ht, by rw [he], .inr ⟨e, he, hres⟩⟩

/-- The sample token is rotated, and then presented again. -/
def replayTurns : List Turn :=
  .start 0 (.refresh "t0") :: turns 0 8 "row1" "t1" ++ .start 1 (.refresh "t0") :: turns 1 2 "" ""

/-- The pool these turns lead to. -/
def replayedPool : AuthPool := (Pool.idle sampleState).reached auth (code sampleSettings) replayTurns

theorem refresh_spent_once_sample : ∃ ms th th', Serves sampleSettings (Pool.idle sampleState) ms replayedPool ∧
    replayedPool.threads 0 = some th ∧ th.result = some (.ok (.pair ⟨"jwt", "t1", "bearer", 900⟩)) ∧
    replayedPool.threads 1 = some th' ∧ (∀ reply, th'.result ≠ some (.ok reply)) ∧
    ∃ m ∈ ms, m.thread = 1 ∧ m.event.action = .revokeAllForUser "u" := by
  have hdriven : ((Pool.idle sampleState).drive auth (code sampleSettings) replayTurns).isSome = true := by
    decide +kernel
  have hrun := Run.reached hdriven
  have hth : replayedPool.threads 0 = some _ := rfl
  have hth' : replayedPool.threads 1 = some _ := rfl
  obtain ⟨-, -, hreused⟩ := refresh_spent_once hrun fun _ => rfl
  obtain ⟨hnone, hends⟩ := hreused 1 _ "t0" _ hth' rfl List.mem_cons_self rfl
  obtain ⟨m, hm, ht, he, -⟩ := hends trivial
  exact ⟨_, _, _, hrun, hth, rfl, hth', hnone, m, hm, ht, he⟩

end Runs

end RagSystem.TokenRotation
