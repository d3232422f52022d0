import Mathlib.Data.Int.Notation
import Mathlib.Data.Nat.Notation
import Mathlib.Data.List.Nodup
import RagSystem.ThreadPool

/-!
# Refresh tokens

The token table and the calls of the authentication service around it: login,
refresh with rotation and reuse detection, and logout, as programs of single
store operations. Passwords, accounts, signing and randomness answer anything. Times
are in microseconds.
-/

namespace RagSystem.RefreshTokens

open AtomicProgram ThreadPool

set_option autoImplicit false

section Models

/-- `UserRecord`, as far as a token depends on it. -/
structure UserRecord where
  /-- The user. -/
  id : String
  /-- The address. -/
  email : String
  /-- The stored hash of the password. -/
  passwordHash : String
  /-- Not deactivated. -/
  isActive : Bool
  deriving DecidableEq

/-- `RefreshTokenRecord`. -/
structure RefreshTokenRecord where
  /-- The row. -/
  id : String
  /-- Whose token it is. -/
  userId : String
  /-- The hash of the token. -/
  tokenHash : String
  /-- When it expires. -/
  expiresAt : ℕ
  /-- When it was revoked. -/
  revokedAt : Option ℕ := none
  deriving DecidableEq

/-- `is_revoked`. -/
def RefreshTokenRecord.isRevoked (r : RefreshTokenRecord) : Bool := r.revokedAt.isSome

/-- `is_expired`. -/
def RefreshTokenRecord.isExpired (r : RefreshTokenRecord) (now : ℕ) : Bool := r.expiresAt ≤ now

/-- `AccessToken`. -/
structure AccessToken where
  /-- The signed token. -/
  token : String
  /-- Its kind. -/
  tokenType : String
  /-- Seconds until it expires. -/
  expiresIn : ℤ
  deriving DecidableEq

/-- `TokenResponse`. -/
structure TokenResponse where
  /-- The access token. -/
  accessToken : String
  /-- The refresh token. -/
  refreshToken : String
  /-- The kind of the access token. -/
  tokenType : String
  /-- Seconds until the access token expires. -/
  expiresIn : ℤ
  deriving DecidableEq

/-- What the service takes from its configuration and from Python's library. -/
structure AuthSettings where
  /-- `refresh_token_ttl_days`, in microseconds. -/
  refreshTokenTtl : ℕ
  /-- `hash_refresh_token`. -/
  hashRefreshToken : String → String
  /-- `_dummy_hash`. -/
  dummyHash : String

end Models

section Table

/-- The `refresh_tokens` table: `id` is its primary key, `token_hash` unique. -/
structure TokenTable where
  /-- The rows. -/
  rows : List RefreshTokenRecord
  /-- The primary key. -/
  ids_nodup : (rows.map RefreshTokenRecord.id).Nodup
  /-- The unique column. -/
  hashes_nodup : (rows.map RefreshTokenRecord.tokenHash).Nodup

/-- `revoked_at = now()`, unless it is set. -/
def RefreshTokenRecord.revoke (r : RefreshTokenRecord) (now : ℕ) : RefreshTokenRecord :=
  { r with revokedAt := some (r.revokedAt.getD now) }

/-- Revoke the rows that `P` selects. -/
def TokenTable.revokeWhere (table : TokenTable) (P : RefreshTokenRecord → Bool) (now : ℕ) : TokenTable where
  rows := table.rows.map fun r => if P r then r.revoke now else r
  ids_nodup := by
    have hids : (fun r => RefreshTokenRecord.id (if P r then r.revoke now else r)) = RefreshTokenRecord.id := by
      funext r
      split
      · rfl
      · rfl
    rw [List.map_map, Function.comp_def, hids]
    exact table.ids_nodup
  hashes_nodup := by
    have hhashes : (fun r => RefreshTokenRecord.tokenHash (if P r then r.revoke now else r)) =
        RefreshTokenRecord.tokenHash := by
      funext r
      split
      · rfl
      · rfl
    rw [List.map_map, Function.comp_def, hhashes]
    exact table.hashes_nodup

/-- `_INSERT_SQL`: refused where the id or the hash is taken. -/
def TokenTable.insert? (table : TokenTable) (row : RefreshTokenRecord) : Option TokenTable :=
  if hid : row.id ∈ table.rows.map RefreshTokenRecord.id then none
  else if hhash : row.tokenHash ∈ table.rows.map RefreshTokenRecord.tokenHash then none
  else some ⟨row :: table.rows, List.nodup_cons.mpr ⟨hid, table.ids_nodup⟩,
    List.nodup_cons.mpr ⟨hhash, table.hashes_nodup⟩⟩

/-- `_SELECT_BY_HASH_SQL`. -/
def TokenTable.getByHash (table : TokenTable) (tokenHash : String) : Option RefreshTokenRecord :=
  table.rows.find? fun r => r.tokenHash = tokenHash

/-- The rows that `_REVOKE_SQL` touches. -/
def activeRow (tokenId : String) (r : RefreshTokenRecord) : Bool := r.id = tokenId && r.revokedAt.isNone

/-- The rows that `_REVOKE_ALL_SQL` touches. -/
def activeOf (userId : String) (r : RefreshTokenRecord) : Bool := r.userId = userId && r.revokedAt.isNone

/-- The row with this id is the only one. -/
theorem TokenTable.eq_of_id {table : TokenTable} {r r' : RefreshTokenRecord} (h : r ∈ table.rows)
    (h' : r' ∈ table.rows) (hid : r.id = r'.id) : r = r' :=
  List.inj_on_of_nodup_map table.ids_nodup h h' hid

/-- So is the row with this hash. -/
theorem TokenTable.eq_of_hash {table : TokenTable} {r r' : RefreshTokenRecord} (h : r ∈ table.rows)
    (h' : r' ∈ table.rows) (hhash : r.tokenHash = r'.tokenHash) : r = r' :=
  List.inj_on_of_nodup_map table.hashes_nodup h h' hhash

/-- What a lookup finds is a row with that hash. -/
theorem TokenTable.of_getByHash {table : TokenTable} {tokenHash : String} {r : RefreshTokenRecord}
    (h : table.getByHash tokenHash = some r) : r ∈ table.rows ∧ r.tokenHash = tokenHash := by
  have hhash := List.find?_some h
  exact ⟨List.mem_of_find?_eq_some h, by simpa only [decide_eq_true_eq] using hhash⟩

/-- What an insertion adds. -/
theorem TokenTable.of_insert? {table table' : TokenTable} {row : RefreshTokenRecord}
    (h : table.insert? row = some table') :
    table'.rows = row :: table.rows ∧ row.id ∉ table.rows.map RefreshTokenRecord.id := by
  unfold TokenTable.insert? at h
  split at h
  · contradiction
  · next hid =>
    split at h
    · contradiction
    · rw [← Option.some.inj h]
      exact ⟨rfl, hid⟩

end Table

section Calls

/-- The calls of the service. -/
inductive AuthCall where
  /-- `get_by_hash`. -/
  | getByHash (tokenHash : String)
  /-- `revoke`. -/
  | revoke (tokenId : String)
  /-- `revoke_all_for_user`. -/
  | revokeAllForUser (userId : String)
  /-- `create`. -/
  | create (userId tokenHash : String) (expiresAt : ℕ)
  /-- `get_by_id` of the user store. -/
  | getById (userId : String)
  /-- `get_by_email` of the user store. -/
  | getByEmail (email : String)
  /-- `verify_password`. -/
  | verifyPassword (password storedHash : String)
  /-- `create_access_token`. -/
  | createAccessToken (subject email : String)
  /-- `generate_refresh_token`. -/
  | generateRefreshToken
  /-- `datetime.now`. -/
  | now
  deriving DecidableEq

/-- What each call returns. -/
abbrev AuthAnswer : AuthCall → Type
  | .getByHash _ => Option RefreshTokenRecord
  | .revoke _ => Bool
  | .revokeAllForUser _ => ℕ
  | .create _ _ _ => RefreshTokenRecord
  | .getById _ => Option UserRecord
  | .getByEmail _ => Option UserRecord
  | .verifyPassword _ _ => Bool
  | .createAccessToken _ _ => AccessToken
  | .generateRefreshToken => String
  | .now => ℕ

/-- What a call can raise. -/
inductive AuthError where
  /-- `InvalidCredentialsError`. -/
  | invalidCredentials (message : String)
  /-- `InactiveUserError`. -/
  | inactiveUser (message : String)
  /-- `InvalidRefreshTokenError`. -/
  | invalidRefreshToken (message : String)
  /-- Anything a store or the signing raises. -/
  | raised (message : String)
  deriving DecidableEq

/-- The shared state. -/
structure AuthState where
  /-- The tokens. -/
  tokens : TokenTable
  /-- The last reading of the clock. -/
  clock : ℕ

/-- A program of the service. -/
abbrev Prog (α : Type) := Program AuthError AuthAnswer α

/-- One performed call with its answer. -/
abbrev CallEvent := Event AuthError AuthAnswer

/-- What the environment decides about a call. -/
inductive Fate where
  /-- A store operation goes through. -/
  | proceed
  /-- A row is inserted under this id. -/
  | inserted (id : String)
  /-- The call raises and changes nothing. -/
  | raise (message : String)
  /-- The account found. -/
  | user (u : Option UserRecord)
  /-- Whether the password is right. -/
  | verified (ok : Bool)
  /-- The signed token. -/
  | access (token : AccessToken)
  /-- The random token. -/
  | random (token : String)
  /-- The clock shows this. -/
  | reading (time : ℕ)

/-- What the calls do. The clock never goes back, and an account is found under
its own id. -/
@[grind =] def auth : Machine Fate AuthState AuthError AuthAnswer
  | .getByHash h, .proceed, w => some (.ok (w.tokens.getByHash h), w)
  | .revoke id, .proceed, w =>
    some (.ok (w.tokens.rows.any (activeRow id)),
      { w with tokens := w.tokens.revokeWhere (activeRow id) w.clock })
  | .revokeAllForUser u, .proceed, w =>
    some (.ok (w.tokens.rows.countP (activeOf u)), { w with tokens := w.tokens.revokeWhere (activeOf u) w.clock })
  | .create u h t, .inserted id, w =>
    (w.tokens.insert? ⟨id, u, h, t, none⟩).map fun table => (.ok ⟨id, u, h, t, none⟩, { w with tokens := table })
  | .getById id, .user u, w => if u.all fun u => u.id = id then some (.ok u, w) else none
  | .getByEmail _, .user u, w => some (.ok u, w)
  | .verifyPassword _ _, .verified ok, w => some (.ok ok, w)
  | .createAccessToken _ _, .access token, w => some (.ok token, w)
  | .generateRefreshToken, .random token, w => some (.ok token, w)
  | .now, .reading t, w => if w.clock ≤ t then some (.ok t, { w with clock := t }) else none
  | .now, _, _ => none
  | _, .raise m, w => some (.error (.raised m), w)
  | _, _, _ => none

end Calls

section Service

/-- One call. -/
def call (x : AuthCall) : Prog (AuthAnswer x) := perform x

/-- `_issue_token_pair`. -/
def issueTokenPair (settings : AuthSettings) (user : UserRecord) : Prog TokenResponse := do
  let access ← call (.createAccessToken user.id user.email)
  let refreshPlain ← call .generateRefreshToken
  let now ← call .now
  let _ ← call (.create user.id (settings.hashRefreshToken refreshPlain) (now + settings.refreshTokenTtl))
  pure ⟨access.token, refreshPlain, access.tokenType, access.expiresIn⟩

/-- `authenticate`. -/
def authenticate (settings : AuthSettings) (email password : String) : Prog UserRecord := do
  let user ← call (.getByEmail email)
  let storedHash := (user.map UserRecord.passwordHash).getD settings.dummyHash
  let passwordOk ← call (.verifyPassword password storedHash)
  match user with
  | none => throw (.invalidCredentials "Incorrect email or password.")
  | some user =>
    if passwordOk = false then throw (.invalidCredentials "Incorrect email or password.")
    else if user.isActive = false then throw (.inactiveUser "This account is disabled.")
    else pure user

/-- `login`. -/
def login (settings : AuthSettings) (email password : String) : Prog TokenResponse := do
  let user ← authenticate settings email password
  issueTokenPair settings user

/-- `refresh` once the record is found. -/
def refreshRecord (settings : AuthSettings) (record : RefreshTokenRecord) : Prog TokenResponse :=
  if record.isRevoked then do
    let _ ← call (.revokeAllForUser record.userId)
    throw (.invalidRefreshToken "Refresh token has been revoked.")
  else do
    let now ← call .now
    if record.isExpired now then throw (.invalidRefreshToken "Refresh token has expired.")
    else do
      let user ← call (.getById record.userId)
      match user with
      | none => throw (.invalidRefreshToken "Account is unavailable.")
      | some user =>
        if user.isActive = false then throw (.invalidRefreshToken "Account is unavailable.")
        else do
          let revoked ← call (.revoke record.id)
          if revoked then issueTokenPair settings user
          else throw (.invalidRefreshToken "Refresh token has been revoked.")

/-- `refresh`. -/
def refresh (settings : AuthSettings) (refreshToken : String) : Prog TokenResponse := do
  let found ← call (.getByHash (settings.hashRefreshToken refreshToken))
  match found with
  | none => throw (.invalidRefreshToken "Invalid refresh token.")
  | some record => refreshRecord settings record

/-- `logout`. -/
def logout (settings : AuthSettings) (refreshToken : String) : Prog Unit := do
  let found ← call (.getByHash (settings.hashRefreshToken refreshToken))
  match found with
  | none => pure ()
  | some record =>
    if record.isRevoked then pure ()
    else do
      let _ ← call (.revoke record.id)
      pure ()

/-- What the clients ask for. -/
inductive Operation where
  /-- `login`. -/
  | login (email password : String)
  /-- `refresh`. -/
  | refresh (refreshToken : String)
  /-- `logout`. -/
  | logout (refreshToken : String)
  deriving DecidableEq

/-- What they get. -/
inductive Reply where
  /-- A token pair. -/
  | pair (response : TokenResponse)
  /-- Nothing. -/
  | done
  deriving DecidableEq

/-- The program of each operation. -/
def code (settings : AuthSettings) : Operation → Prog Reply
  | .login email password => .pair <$> login settings email password
  | .refresh refreshToken => .pair <$> refresh settings refreshToken
  | .logout refreshToken => (fun _ => .done) <$> logout settings refreshToken

end Service

section Sample

/-- The settings of the sample runs: a week to live, and SHA-256 on the sample tokens. -/
def sampleSettings : AuthSettings where
  refreshTokenTtl := 604800000000
  hashRefreshToken
    | "t0" => "512f26ada3c3d634ac3c6b12b7b33cb50bb0963c3f6d9924241619c84ec78ff2"
    | "t1" => "628b49d96dcde97a430dd4f597705899e09a968f793491e4b704cae33a40dc02"
    | "t2" => "c44474038d459e40e4714afefa7bf8dae9f9834b22f5e8ec1dd434ecb62b512e"
    | _ => ""
  dummyHash := ""

/-- The row of the token `t0`. -/
def sampleRow : RefreshTokenRecord where
  id := "row0"
  userId := "u"
  tokenHash := sampleSettings.hashRefreshToken "t0"
  expiresAt := 100000000

/-- The table with this row alone. -/
def sampleState : AuthState where
  tokens := ⟨[sampleRow], List.nodup_singleton _, List.nodup_singleton _⟩
  clock := 0

/-- Every call goes through; a row is inserted under `id`, for the token `token`. -/
def calm (id token : String) : AuthCall → Fate
  | .create _ _ _ => .inserted id
  | .getById userId => .user (some ⟨userId, "a@b.c", "", true⟩)
  | .getByEmail email => .user (some ⟨"u", email, "", true⟩)
  | .verifyPassword _ _ => .verified true
  | .createAccessToken _ _ => .access ⟨"jwt", "bearer", 900⟩
  | .generateRefreshToken => .random token
  | .now => .reading 0
  | _ => .proceed

/-- A turn of a scheduler. -/
abbrev Turn := Command Fate Operation AuthCall

/-- Some turns of thread `t`. -/
def turns (t n : ℕ) (id token : String) : List Turn := List.replicate n (.step t (calm id token))

end Sample

end RagSystem.RefreshTokens
