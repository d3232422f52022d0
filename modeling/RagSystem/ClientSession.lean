import Mathlib.Data.Nat.Notation
import Mathlib.Tactic.ByContra

/-!
# The access token of the browser client

One cell in memory holds the access token. Logins, logouts and the one refresh
that may be under way write it when their answers come, in any order, and a
refresh does not look at what happened since it was started. An answer and what
the client does with it is one event; notices to subscribers are left out.
-/

namespace RagSystem.ClientSession

set_option autoImplicit false

section Client

variable {Token : Type}

/-- Where `performRefresh` stands. -/
inductive Refresh where
  /-- It awaits the response. -/
  | fetching
  /-- It awaits the body of a good response. -/
  | reading
  /-- It is done, and `finally` has not run. -/
  | settled
  deriving DecidableEq

/-- The state of one tab. -/
structure Client (Token : Type) where
  /-- `accessToken`. -/
  accessToken : Option Token
  /-- `refreshPromise`. -/
  refreshPromise : Option Refresh
  /-- The logins that await their answer. -/
  logins : ℕ
  /-- The logouts that do. -/
  logouts : ℕ
  deriving DecidableEq

/-- What can happen next. -/
inductive Event (Token : Type) where
  /-- `refreshAccessToken` is called. -/
  | refreshAccessToken
  /-- Its `fetch` fails. -/
  | unreachable
  /-- Its response is not ok. -/
  | refused
  /-- Its response is ok. -/
  | answered
  /-- The body of the response; none if it has no token. -/
  | body (accessToken : Option Token)
  /-- `finally`. -/
  | refreshed
  /-- `login` is called. -/
  | login
  /-- It gets its token; none if it fails. -/
  | loggedIn (accessToken : Option Token)
  /-- `logout` is called. -/
  | logout
  /-- Its request succeeds or fails, and it resolves. -/
  | loggedOut
  deriving DecidableEq

/-- `setAccessToken`. -/
def Client.setAccessToken (client : Client Token) (access : Token) : Client Token := { client with accessToken := some access }

/-- `clearTokens`. -/
def Client.clearTokens (client : Client Token) : Client Token := { client with accessToken := none }

/-- The refresh is at this point now. -/
def Client.moveTo (client : Client Token) (refresh : Option Refresh) : Client Token :=
  { client with refreshPromise := refresh }

/-- One event; none where it cannot happen. -/
def Client.step (client : Client Token) : Event Token → Option (Client Token)
  | .refreshAccessToken => match client.refreshPromise with
    | none => some (client.moveTo (some .fetching))
    | some _ => some client
  | .unreachable => if client.refreshPromise = some .fetching then some (client.moveTo (some .settled)) else none
  | .refused => if client.refreshPromise = some .fetching then some (client.clearTokens.moveTo (some .settled)) else none
  | .answered => if client.refreshPromise = some .fetching then some (client.moveTo (some .reading)) else none
  | .body accessToken => if client.refreshPromise = some .reading then match accessToken with
      | some access => some ((client.setAccessToken access).moveTo (some .settled))
      | none => some (client.clearTokens.moveTo (some .settled))
    else none
  | .refreshed => if client.refreshPromise = some .settled then some (client.moveTo none) else none
  | .login => some { client with logins := client.logins + 1 }
  | .loggedIn accessToken => if client.logins = 0 then none else match accessToken with
      | some access => some { client.setAccessToken access with logins := client.logins - 1 }
      | none => some { client with logins := client.logins - 1 }
  | .logout => some { client with logouts := client.logouts + 1 }
  | .loggedOut => if client.logouts = 0 then none else some { client.clearTokens with logouts := client.logouts - 1 }

end Client

section Statement

variable {Token : Type}

/-- A client with what happened since its refresh was started. -/
structure Watch (Token : Type) where
  /-- The client. -/
  client : Client Token
  /-- A logout has resolved. -/
  logoutSince : Bool
  /-- A login has stored its token. -/
  loginSince : Bool
  deriving DecidableEq

/-- One event of a watched client: a new refresh has nothing behind it. -/
def Watch.step (watch : Watch Token) (event : Event Token) : Option (Watch Token) :=
  (watch.client.step event).map fun client => match event with
    | .refreshAccessToken => if watch.client.refreshPromise = none then ⟨client, false, false⟩ else { watch with client := client }
    | .loggedIn (some _) => { watch with client := client, loginSince := true }
    | .loggedOut => { watch with client := client, logoutSince := true }
    | _ => { watch with client := client }

/-- The events with which a refresh completes. -/
def Event.completes : Event Token → Bool
  | .unreachable => true
  | .refused => true
  | .body _ => true
  | _ => false

/-- What a completion may do: after a logout that came later than its start it
stores no token, and after such a login it leaves one. -/
structure Respects (before : Watch Token) (event : Event Token) (after : Watch Token) : Prop where
  /-- A logout is final. -/
  logout : event.completes = true → before.logoutSince = true →
    ∀ access, after.client.accessToken = some access → before.client.accessToken = some access
  /-- A login is. -/
  login : event.completes = true → before.loginSince = true →
    before.client.accessToken ≠ none → after.client.accessToken ≠ none

/-- Every completion of a run respects what came before it. -/
def Final (watch : Watch Token) : List (Event Token) → Prop
  | [] => True
  | event :: events => ∀ next, watch.step event = some next → Respects watch event next ∧ Final next events

/-- How a refresh may be answered: with no token other than the one that is
there where a logout has overtaken it, with no refusal where a login has. -/
def Timely (watch : Watch Token) : Event Token → Prop
  | .body (some access) => watch.logoutSince = true → watch.client.accessToken = some access
  | .body none => watch.loginSince = true → watch.client.accessToken = none
  | .refused => watch.loginSince = true → watch.client.accessToken = none
  | _ => True

/-- Every answer of a run is timely. -/
def AllTimely (watch : Watch Token) : List (Event Token) → Prop
  | [] => True
  | event :: events => ∀ next, watch.step event = some next → Timely watch event ∧ AllTimely next events

/-- A page was just loaded. -/
def Client.loaded : Client Token := ⟨none, none, 0, 0⟩

/-- Its watch. -/
def Watch.loaded : Watch Token := ⟨.loaded, false, false⟩

end Statement

section FinalState

variable {Token : Type} {watch next : Watch Token} {event : Event Token}

/-- What an event leaves of the token. -/
def Event.leaves (before : Option Token) : Event Token → Option Token
  | .refused => none
  | .body accessToken => accessToken
  | .loggedIn (some access) => some access
  | .loggedOut => none
  | _ => before

theorem step_accessToken (h : watch.step event = some next) :
    next.client.accessToken = event.leaves watch.client.accessToken := by
  obtain ⟨client, hstep, hnext⟩ := Option.map_eq_some_iff.mp h
  have hclient : next.client = client := by
    rw [← hnext]
    cases event with
    | refreshAccessToken =>
      dsimp only
      split
      · rfl
      · rfl
    | loggedIn accessToken =>
      cases accessToken with
      | none => rfl
      | some access => rfl
    | _ => rfl
  rw [hclient]
  cases event with
  | refreshAccessToken =>
    simp only [Client.step] at hstep
    split at hstep
    · rw [← Option.some.inj hstep]
      rfl
    · rw [← Option.some.inj hstep]
      rfl
  | body accessToken =>
    simp only [Client.step] at hstep
    split at hstep
    · cases accessToken with
      | none => rw [← Option.some.inj hstep]; rfl
      | some access => rw [← Option.some.inj hstep]; rfl
    · exact absurd hstep (by simp)
  | loggedIn accessToken =>
    simp only [Client.step] at hstep
    split at hstep
    · exact absurd hstep (by simp)
    · cases accessToken with
      | none => rw [← Option.some.inj hstep]; rfl
      | some access => rw [← Option.some.inj hstep]; rfl
  | login => rw [← Option.some.inj hstep]; rfl
  | logout => rw [← Option.some.inj hstep]; rfl
  | loggedOut =>
    simp only [Client.step] at hstep
    split at hstep
    · exact absurd hstep (by simp)
    · rw [← Option.some.inj hstep]
      rfl
  | _ =>
    simp only [Client.step] at hstep
    split at hstep
    · rw [← Option.some.inj hstep]
      rfl
    · exact absurd hstep (by simp)

/-- One completion respects the past exactly if its answer is timely. -/
theorem respects_iff (h : watch.step event = some next) : Respects watch event next ↔ Timely watch event := by
  have htoken := step_accessToken h
  constructor
  · intro hrespects
    cases event with
    | refused =>
      intro hlogin
      by_contra hsome
      exact hrespects.login rfl hlogin hsome htoken
    | body accessToken =>
      cases accessToken with
      | none =>
        intro hlogin
        by_contra hsome
        exact hrespects.login rfl hlogin hsome htoken
      | some access => exact fun hlogout => hrespects.logout rfl hlogout access htoken
    | _ => trivial
  · intro htimely
    cases event with
    | unreachable =>
      have hsame : next.client.accessToken = watch.client.accessToken := htoken
      exact ⟨fun _ _ access hstored => hsame ▸ hstored, fun _ _ hsome => hsame.symm ▸ hsome⟩
    | refused =>
      have hnone : next.client.accessToken = none := htoken
      refine ⟨fun _ _ access hstored => ?_, fun _ hlogin hsome => absurd (htimely hlogin) hsome⟩
      exact absurd (hnone.symm.trans hstored) (by simp)
    | body accessToken =>
      have hbody : next.client.accessToken = accessToken := htoken
      cases accessToken with
      | none =>
        refine ⟨fun _ _ access hstored => ?_, fun _ hlogin hsome => absurd (htimely hlogin) hsome⟩
        exact absurd (hbody.symm.trans hstored) (by simp)
      | some access =>
        refine ⟨fun _ hlogout other hstored => ?_, fun _ _ _ => by simp [hbody]⟩
        have hother : access = other := Option.some.inj (hbody.symm.trans hstored)
        exact hother ▸ htimely hlogout
    | _ => exact ⟨fun hcompletes => absurd hcompletes (by simp [Event.completes]),
        fun hcompletes => absurd hcompletes (by simp [Event.completes])⟩

/-- Logout and login are final in a run, whatever the order of its events,
exactly if no refresh that a logout has overtaken is answered with another
token and none that a login has overtaken is refused. -/
theorem final_iff (watch : Watch Token) (events : List (Event Token)) : Final watch events ↔ AllTimely watch events := by
  induction events generalizing watch with
  | nil => exact Iff.rfl
  | cons event events ih =>
    constructor
    · intro hfinal next hstep
      obtain ⟨hrespects, hrest⟩ := hfinal next hstep
      exact ⟨(respects_iff hstep).mp hrespects, (ih next).mp hrest⟩
    · intro htimely next hstep
      obtain ⟨hevent, hrest⟩ := htimely next hstep
      exact ⟨(respects_iff hstep).mpr hevent, (ih next).mpr hrest⟩

/-- The session as it should be: an overtaken refresh does not count. -/
def session (watch : Watch Token) (before : Option Token) : Event Token → Option Token
  | .refused => if watch.loginSince then before else none
  | .body none => if watch.loginSince then before else none
  | .body (some access) => if watch.logoutSince then before else some access
  | event => event.leaves before

/-- Its run. -/
def sessionAfter (watch : Watch Token) (before : Option Token) : List (Event Token) → Option Token
  | [] => before
  | event :: events => match watch.step event with
    | none => before
    | some next => sessionAfter next (session watch before event) events

/-- The state after a run. -/
def Watch.run (watch : Watch Token) : List (Event Token) → Option (Watch Token)
  | [] => some watch
  | event :: events => (watch.step event).bind fun next => next.run events

/-- Where the refreshes are answered in time the cell holds that session. -/
theorem run_session {events : List (Event Token)} (htimely : AllTimely watch events) (hrun : watch.run events = some next) :
    next.client.accessToken = sessionAfter watch watch.client.accessToken events := by
  induction events generalizing watch with
  | nil =>
    have hsame : watch = next := Option.some.inj hrun
    rw [hsame]
    rfl
  | cons event events ih =>
    obtain ⟨between, hstep, hrest⟩ := Option.bind_eq_some_iff.mp hrun
    obtain ⟨hevent, hafter⟩ := htimely between hstep
    have htoken : between.client.accessToken = session watch watch.client.accessToken event := by
      rw [step_accessToken hstep]
      cases event with
      | refused =>
        cases hlogin : watch.loginSince with
        | false => simp [session, Event.leaves, hlogin]
        | true => simp [session, Event.leaves, hlogin, hevent hlogin]
      | body accessToken =>
        cases accessToken with
        | none =>
          cases hlogin : watch.loginSince with
          | false => simp [session, Event.leaves, hlogin]
          | true => simp [session, Event.leaves, hlogin, hevent hlogin]
        | some access =>
          cases hlogout : watch.logoutSince with
          | false => simp [session, Event.leaves, hlogout]
          | true => simp [session, Event.leaves, hlogout, hevent hlogout]
      | _ => rfl
    rw [sessionAfter, hstep, ← htoken]
    exact ih hafter hrest

/-- A page is loaded, refreshes silently and is logged out before the answer. -/
def lateRefresh : List (Event String) := [.refreshAccessToken, .logout, .answered, .loggedOut, .body (some "old")]

/-- A page is loaded, refreshes silently and is logged in before the refusal. -/
def lateRefusal : List (Event String) := [.refreshAccessToken, .login, .loggedIn (some "new"), .refused]

/-- The late token is stored after the logout, and the late refusal ends the new login. -/
theorem late_answers_overtake : ¬ Final .loaded lateRefresh ∧ ¬ Final .loaded lateRefusal ∧
    (Watch.loaded.run lateRefresh).map (fun watch => watch.client.accessToken) = some (some "old") ∧
    (Watch.loaded.run lateRefusal).map (fun watch => watch.client.accessToken) = some none := by
  refine ⟨fun hfinal => ?_, fun hfinal => ?_, rfl, rfl⟩
  · have hlast := ((((hfinal _ rfl).2 _ rfl).2 _ rfl).2 _ rfl).2 _ rfl
    have hstored := hlast.1.logout rfl rfl "old" rfl
    exact absurd hstored (by decide)
  · have hlast := (((hfinal _ rfl).2 _ rfl).2 _ rfl).2 _ rfl
    exact hlast.1.login rfl rfl (by decide) rfl

end FinalState

end RagSystem.ClientSession
