import RagSystem.TokenRotation

/-!
# One browser against the refresh endpoint

The tabs of a browser share the refresh cookie. Each refreshes on its own, at
most once at a time, the answers can be lost on the way, and the server works
on all calls side by side. A cookie that was spent before its successor arrived
looks like a theft.
-/

namespace RagSystem.HonestBrowser

open AtomicProgram ThreadPool RelyGuarantee RefreshTokens TokenRotation

set_option autoImplicit false

section Alone

variable {settings : AuthSettings} {w w' : AuthState} {tok : String} {h : History AuthError AuthAnswer}

/-- The token was not revoked. -/
def Unspent (settings : AuthSettings) (w : AuthState) (tok : String) : Prop :=
  ∀ r, w.tokens.getByHash (settings.hashRefreshToken tok) = some r → r.isRevoked = false

/-- The token can be used. -/
def Live (settings : AuthSettings) (w : AuthState) (tok : String) : Prop :=
  ∃ r, w.tokens.getByHash (settings.hashRefreshToken tok) = some r ∧ r.isRevoked = false

theorem Live.unspent (hlive : Live settings w tok) : Unspent settings w tok := by
  obtain ⟨r, hfound, hactive⟩ := hlive
  intro r' hfound'
  rw [hfound] at hfound'
  exact Option.some.inj hfound' ▸ hactive

/-- The call has spent a token. -/
def Spends (h : History AuthError AuthAnswer) : Prop := ∃ id : String, (⟨.revoke id, .ok true⟩ : CallEvent) ∈ h

theorem Spends.append (hspends : Spends h) (h' : History AuthError AuthAnswer) : Spends (h ++ h') := by
  obtain ⟨id, hin⟩ := hspends
  exact ⟨id, List.mem_append_left _ hin⟩

/-- No reuse is detected by this event. -/
def Calm (e : CallEvent) : Prop := ∀ u, e.action ≠ .revokeAllForUser u

/-- How a refresh ends that runs alone: with a token that can be used, or with
its own token spent or as it was. -/
def EndsHonestly (settings : AuthSettings) (tok : String) (h : History AuthError AuthAnswer) (w : AuthState) :
    Except AuthError TokenResponse → Prop
  | .ok pair => Spends h ∧ Live settings w pair.refreshToken
  | .error _ => Spends h ∨ Unspent settings w tok

/-- A program that detects no reuse, with nothing happening between its calls. -/
abbrev Alone {α : Type} (Q : Ending AuthState AuthError AuthAnswer α) (p : Prog α) (h : History AuthError AuthAnswer)
    (w : AuthState) : Prop :=
  Sat (fun _ e w w' => auth.Exec e w w') (fun _ e _ _ => Calm e) Eq Q p h w

/-- One call, and the rest. -/
theorem alone_call {α : Type} {Q : Ending AuthState AuthError AuthAnswer α} {a : AuthCall} {f : AuthAnswer a → Prog α}
    (hcalm : ∀ u, a ≠ .revokeAllForUser u)
    (hok : ∀ b w', auth.Exec ⟨a, .ok b⟩ w w' → Alone Q (f b) (h ++ [⟨a, .ok b⟩]) w')
    (herror : ∀ e w', auth.Exec ⟨a, .error e⟩ w w' → Q (h ++ [⟨a, .error e⟩]) (.error e) w') :
    Alone Q ((call a).bind f) h w := by
  intro w₁ hw r w₂ hexec
  subst hw
  cases r with
  | ok b => exact ⟨hcalm, hok b w₂ hexec⟩
  | error e => exact ⟨hcalm, fun w₃ hw₃ => hw₃ ▸ herror e w₂ hexec⟩

/-- The issuing of a pair, with the token spent before it. -/
theorem alone_issueTokenPair (user : UserRecord) (hspends : Spends h) :
    Alone (fun h r w => EndsHonestly settings tok h w r) (issueTokenPair settings user) h w := by
  refine alone_call (fun _ he => (nomatch he)) (fun access w₁ _ => ?_) fun _ _ _ => Or.inl (hspends.append _)
  refine alone_call (fun _ he => (nomatch he)) (fun plain w₂ _ => ?_) fun _ _ _ => Or.inl ((hspends.append _).append _)
  refine alone_call (fun _ he => (nomatch he)) (fun now w₃ _ => ?_) fun _ _ _ =>
    Or.inl (((hspends.append _).append _).append _)
  refine alone_call (fun _ he => (nomatch he)) (fun row w₄ hcreate => ?_) fun _ _ _ =>
    Or.inl ((((hspends.append _).append _).append _).append _)
  obtain ⟨o, ho⟩ := hcreate
  cases o with
  | inserted id =>
    obtain ⟨table, hinsert, heq⟩ := Option.map_eq_some_iff.mp ho
    cases heq
    have hrows := (TokenTable.of_insert? hinsert).1
    refine .done fun w₅ hw₅ => ⟨(((hspends.append _).append _).append _).append _, ?_⟩
    subst hw₅
    refine ⟨⟨id, user.id, settings.hashRefreshToken plain, now + settings.refreshTokenTtl, none⟩, ?_, rfl⟩
    rw [TokenTable.getByHash, hrows, List.find?_cons_of_pos (by simp)]
  | _ => cases ho

/-- A lookup of the account changes nothing. -/
theorem exec_getById_state {id : String} {r : Except AuthError (Option UserRecord)}
    (he : auth.Exec ⟨.getById id, r⟩ w w') : w' = w := by
  obtain ⟨o, ho⟩ := he
  cases o with
  | user x =>
    simp only [auth] at ho
    split at ho
    · cases ho
      rfl
    · contradiction
  | raise m =>
    cases ho
    rfl
  | _ => cases ho

/-- A refresh of an unspent token. -/
theorem alone_refresh (hunspent : Unspent settings w tok) :
    Alone (fun h r w => EndsHonestly settings tok h w r) (refresh settings tok) h w := by
  refine alone_call (fun _ he => (nomatch he)) (fun found w₁ hfound => ?_) fun e w₁ hraised => Or.inr ?_
  · obtain ⟨hsame, hlookup⟩ := exec_getByHash hfound
    subst hsame
    cases found with
    | none => exact .raise fun _ hw => hw ▸ Or.inr hunspent
    | some record =>
      have hactive : record.isRevoked = false := hunspent record hlookup.symm
      have hmem := (TokenTable.of_getByHash hlookup.symm).1
      dsimp only
      rw [refreshRecord, hactive]
      refine alone_call (fun _ he => (nomatch he)) (fun now w₂ hnow => ?_) fun e w₂ hraised => Or.inr ?_
      · obtain ⟨_, hclock⟩ := exec_now hnow
        subst hclock
        split
        · exact .raise fun _ hw => hw ▸ Or.inr hunspent
        · refine alone_call (fun _ he => (nomatch he)) (fun user w₃ huser => ?_) fun e w₃ hraised => Or.inr ?_
          · have hsame := exec_getById_state huser
            subst hsame
            cases user with
            | none => exact .raise fun _ hw => hw ▸ Or.inr hunspent
            | some user =>
              dsimp only
              split
              · exact .raise fun _ hw => hw ▸ Or.inr hunspent
              · refine alone_call (fun _ he => (nomatch he)) (fun revoked w₄ hrevoke => ?_) fun e w₄ hraised => Or.inr ?_
                · have hwon : revoked = true := by
                    rw [(exec_revoke hrevoke).2, List.any_eq_true]
                    refine ⟨record, hmem, ?_⟩
                    have hnone : record.revokedAt.isNone = true := by
                      simpa [RefreshTokenRecord.isRevoked] using hactive
                    simp [activeRow, hnone]
                  subst hwon
                  exact alone_issueTokenPair user ⟨record.id, by simp⟩
                · rw [(exec_error hraised).1]
                  exact hunspent
          · rw [(exec_error hraised).1]
            exact hunspent
      · rw [(exec_error hraised).1]
        exact hunspent
  · rw [(exec_error hraised).1]
    exact hunspent

end Alone

section Browser

/-- A browser with the server it talks to. -/
structure Browser where
  /-- The calls at the server, those that ended among them. -/
  server : AuthPool
  /-- The refresh cookie. -/
  cookie : Option String
  /-- `refreshPromise` of each tab: the call it awaits. -/
  tabs : ℕ → Option ℕ
  /-- The calls whose answers arrived. -/
  arrived : List ℕ

/-- What can happen next. -/
inductive BrowserEvent where
  /-- A tab refreshes; its call gets this number. -/
  | send (tab call : ℕ)
  /-- The server goes on with a call. -/
  | serve (call : ℕ) (policy : AuthCall → Fate)
  /-- An answer arrives; a refusal may clear the cookie. -/
  | deliver (tab : ℕ) (clears : Bool)
  /-- A tab gives up: its request or its answer is lost. The server may still take
  up a request that was given up, and counts as at work on it until it has ended. -/
  | lose (tab : ℕ)

/-- The cookie after the answer of the refresh endpoint. -/
def cookieAfter (cookie : Option String) (clears : Bool) : Except AuthError Reply → Option String
  | .ok (.pair response) => some response.refreshToken
  | .ok .done => cookie
  | .error (.invalidRefreshToken _) => if clears then none else cookie
  | .error _ => cookie

/-- The tab awaits nothing any more. -/
def Browser.free (browser : Browser) (tab : ℕ) : Browser := { browser with tabs := Function.update browser.tabs tab none }

/-- One event; none where it cannot happen. A tab awaits one refresh at a time,
and without a cookie the endpoint refuses at once. -/
def Browser.step (settings : AuthSettings) (browser : Browser) : BrowserEvent → Option Browser
  | .send tab call => match browser.tabs tab, browser.cookie.filter (· ≠ "") with
    | some _, _ => none
    | none, none => some browser
    | none, some token => (browser.server.command auth (code settings) (.start call (.refresh token))).map fun server =>
        { browser with server := server, tabs := Function.update browser.tabs tab (some call) }
  | .serve call policy => (browser.server.command auth (code settings) (.step call policy)).map fun server =>
      { browser with server := server }
  | .deliver tab clears => (browser.tabs tab).bind fun call => (browser.server.threads call).bind fun thread =>
      thread.result.map fun result =>
        { browser.free tab with cookie := cookieAfter browser.cookie clears result, arrived := call :: browser.arrived }
  | .lose tab => (browser.tabs tab).map fun _ => browser.free tab

/-- A run. -/
def Browser.run (settings : AuthSettings) (browser : Browser) : List BrowserEvent → Option Browser
  | [] => some browser
  | event :: events => (browser.step settings event).bind fun next => next.run settings events

/-- A browser with a session: no call was made yet, and its cookie was not revoked. -/
structure SignedIn (settings : AuthSettings) (browser : Browser) : Prop where
  /-- The server has no call of it. -/
  idle : ∀ call, browser.server.threads call = none
  /-- No tab awaits one. -/
  quiet : ∀ tab, browser.tabs tab = none
  /-- No answer arrived. -/
  arrived : browser.arrived = []
  /-- Its cookie is good. -/
  cookie : ∀ tok, browser.cookie = some tok → Unspent settings browser.server.world tok

/-- The reuse branch was never taken. -/
def NeverReused (browser : Browser) : Prop :=
  ∀ call thread, browser.server.threads call = some thread → ∀ e ∈ thread.past, Calm e

/-- A successful rotation is not undone by another refresh: until its token is
presented it can be used, and once it arrived it is the cookie. -/
def SessionsKept (settings : AuthSettings) (browser : Browser) : Prop :=
  ∀ call thread response, browser.server.threads call = some thread → thread.result = some (.ok (.pair response)) →
    (∀ other thread', browser.server.threads other = some thread' → thread'.operation ≠ .refresh response.refreshToken) →
    Live settings browser.server.world response.refreshToken ∧
      (call ∈ browser.arrived → browser.cookie = some response.refreshToken)

/-- Every earlier refresh is over: no call is at work, no tab awaits one, and
whatever spent its token had the new one and delivered it. -/
structure Settled (browser : Browser) : Prop where
  /-- No call is at work. -/
  rest : browser.server.AtRest
  /-- No tab awaits one. -/
  quiet : ∀ tab, browser.tabs tab = none
  /-- What was spent was replaced. -/
  replaced : ∀ call thread, browser.server.threads call = some thread → Spends thread.past →
    call ∈ browser.arrived ∧ ∃ response, thread.result = some (.ok (.pair response))

/-- A refresh is sent only when the earlier ones are over. -/
def OneByOne (browser : Browser) : BrowserEvent → Prop
  | .send _ _ => Settled browser
  | _ => True

/-- So are all refreshes of a run. -/
def AllOneByOne (settings : AuthSettings) (browser : Browser) : List BrowserEvent → Prop
  | [] => True
  | event :: events => OneByOne browser event ∧
    ∀ next, browser.step settings event = some next → AllOneByOne settings next events

end Browser

section Invariant

variable {settings : AuthSettings} {browser next : Browser} {event : BrowserEvent} {events : List BrowserEvent}

/-- How such a call replies. -/
def RepliesHonestly (settings : AuthSettings) (tok : String) (h : History AuthError AuthAnswer) (r : Except AuthError Reply)
    (w : AuthState) : Prop :=
  match r with
  | .ok (.pair response) => EndsHonestly settings tok h w (.ok response)
  | .ok .done => False
  | .error e => EndsHonestly settings tok h w (.error e)

/-- The contract of a call: it is the refresh of this token, run alone. -/
def Honest (settings : AuthSettings) (tok : String) (thread : AuthThread) (w : AuthState) : Prop :=
  Alone (RepliesHonestly settings tok) thread.program thread.past w

/-- What the cookie is while the last refresh is under way and when its answer arrived. -/
def CookieOf (browser : Browser) (tok : String) (call : ℕ) (thread : AuthThread) : Prop :=
  if call ∈ browser.arrived then
    match thread.result with
    | some (.ok (.pair response)) => browser.cookie = some response.refreshToken
    | some _ => browser.cookie = some tok ∨ browser.cookie = none
    | none => False
  else browser.cookie = some tok

/-- The last refresh, and nothing else, is under way. -/
structure Last (settings : AuthSettings) (browser : Browser) (call : ℕ) (thread : AuthThread) (tok : String) : Prop where
  /-- It is at the server. -/
  there : browser.server.threads call = some thread
  /-- It presents this token. -/
  presents : thread.operation = .refresh tok
  /-- It keeps its contract. -/
  honest : Honest settings tok thread browser.server.world
  /-- The others have ended. -/
  ended : ∀ other thread', other ≠ call → browser.server.threads other = some thread' → thread'.Finished
  /-- Only it is awaited. -/
  awaited : ∀ tab other, browser.tabs tab = some other → other = call
  /-- The cookie is its token or its answer. -/
  cookie : CookieOf browser tok call thread
  /-- The tokens that others got were presented. -/
  presented : ∀ other thread' response, other ≠ call → browser.server.threads other = some thread' →
    thread'.result = some (.ok (.pair response)) →
    ∃ later thread'', browser.server.threads later = some thread'' ∧ thread''.operation = .refresh response.refreshToken

/-- What holds in a run. -/
structure Invariant (settings : AuthSettings) (browser : Browser) : Prop where
  /-- No reuse was detected. -/
  calm : NeverReused browser
  /-- Answers are those of calls. -/
  known : ∀ call ∈ browser.arrived, browser.server.threads call ≠ none
  /-- No refresh was sent, or the last one is under way or over. -/
  phase : SignedIn settings browser ∨ ∃ call thread tok, Last settings browser call thread tok

/-- A thread that has ended has a result. -/
theorem finished_iff {thread : AuthThread} : thread.Finished ↔ ∃ result, thread.result = some result := by
  unfold Thread.Finished Thread.result
  cases thread.program <;> simp

/-- A thread that has ended performs nothing. -/
theorem not_finished_of_act {thread : AuthThread} {a : AuthCall} {rest : Except AuthError (AuthAnswer a) → Prog Reply}
    (h : thread.program = .act a rest) : ¬ thread.Finished := by
  simp [Thread.Finished, h]

/-- A started refresh of a good cookie keeps its contract. -/
theorem honest_start {w : AuthState} {tok : String} (hunspent : Unspent settings w tok) :
    Honest settings tok ⟨.refresh tok, [], code settings (.refresh tok)⟩ w := by
  refine Sat.bind .eq (alone_refresh hunspent) (fun h pair w hends => ?_) fun h e w hends => hends
  exact .done fun _ hw => hw ▸ hends

/-- When everything is settled the cookie is good. -/
theorem cookie_unspent (hinv : Invariant settings browser) (hsettled : Settled browser) {tok : String}
    (hcookie : browser.cookie = some tok) : Unspent settings browser.server.world tok := by
  rcases hinv.phase with hsigned | ⟨call, thread, own, hlast⟩
  · exact hsigned.cookie tok hcookie
  · have hfinished := hsettled.rest call thread hlast.there
    obtain ⟨result, hresult⟩ := finished_iff.mp hfinished
    have hends := Sat.ended .eq hlast.honest hresult
    have hcookieOf := hlast.cookie
    unfold CookieOf at hcookieOf
    rw [hresult] at hcookieOf
    match result with
    | .ok (.pair response) =>
      obtain ⟨hspends, hlive⟩ := hends
      have harrived := (hsettled.replaced call thread hlast.there hspends).1
      rw [if_pos harrived] at hcookieOf
      have htoken : response.refreshToken = tok := Option.some.inj (hcookieOf.symm.trans hcookie)
      exact htoken ▸ hlive.unspent
    | .ok .done => exact hends.elim
    | .error e =>
      have hown : Unspent settings browser.server.world own := by
        rcases hends with hspends | hunspent
        · obtain ⟨_, response, hpair⟩ := hsettled.replaced call thread hlast.there hspends
          rw [hresult] at hpair
          exact absurd hpair (by simp)
        · exact hunspent
      have hsame : browser.cookie = some own ∨ browser.cookie = none := by
        split at hcookieOf
        · exact hcookieOf
        · exact Or.inl hcookieOf
      rcases hsame with hsame | hnone
      · have htoken : own = tok := Option.some.inj (hsame.symm.trans hcookie)
        exact htoken ▸ hown
      · rw [hnone] at hcookie
        exact absurd hcookie (by simp)

/-- A settled browser sends a refresh. -/
theorem send_invariant (hinv : Invariant settings browser) (hsettled : Settled browser) {tab call : ℕ} {tok : String}
    (hcookie : browser.cookie = some tok) (hfree : browser.server.threads call = none) :
    Invariant settings { browser with
      server := browser.server.start call (.refresh tok) (code settings (.refresh tok))
      tabs := Function.update browser.tabs tab (some call) } := by
  have hold : ∀ {other thread'}, other ≠ call →
      ((browser.server.start call (.refresh tok) (code settings (.refresh tok))).threads other = some thread' ↔
        browser.server.threads other = some thread') := by
    intro other thread' hne
    simp only [Pool.start, Function.update_of_ne hne]
  have hnew : (browser.server.start call (.refresh tok) (code settings (.refresh tok))).threads call =
      some ⟨.refresh tok, [], code settings (.refresh tok)⟩ := by
    simp only [Pool.start, Function.update_self]
  have hne_of_some : ∀ {other thread'}, browser.server.threads other = some thread' → other ≠ call := by
    intro other thread' hthere hsame
    rw [hsame, hfree] at hthere
    exact absurd hthere (by simp)
  refine ⟨?_, ?_, Or.inr ⟨call, _, tok, hnew, rfl, honest_start (cookie_unspent hinv hsettled hcookie), ?_, ?_, ?_, ?_⟩⟩
  · intro other thread' hthere e he
    by_cases hsame : other = call
    · rw [hsame, hnew] at hthere
      rw [← Option.some.inj hthere] at he
      exact absurd he (by simp)
    · exact hinv.calm other thread' ((hold hsame).mp hthere) e he
  · intro other harrived hnone
    have hthere := hinv.known other harrived
    by_cases hsame : other = call
    · rw [hsame] at hthere
      exact hthere hfree
    · simp only [Pool.start, Function.update_of_ne hsame] at hnone
      exact hthere hnone
  · exact fun other thread' hne hthere => hsettled.rest other thread' ((hold hne).mp hthere)
  · intro other awaited hawaited
    by_cases hsame : other = tab
    · rw [hsame] at hawaited
      simp only [Function.update_self] at hawaited
      exact (Option.some.inj hawaited).symm
    · simp only [Function.update_of_ne hsame, hsettled.quiet other] at hawaited
      exact absurd hawaited (by simp)
  · have hnot : call ∉ browser.arrived := fun harrived => hinv.known call harrived hfree
    unfold CookieOf
    rw [if_neg hnot]
    exact hcookie
  · intro other thread' response hne hthere hresult
    have hbefore := (hold hne).mp hthere
    rcases hinv.phase with hsigned | ⟨last, thread, own, hlast⟩
    · rw [hsigned.idle other] at hbefore
      exact absurd hbefore (by simp)
    · by_cases hsame : other = last
      · -- The token that the last refresh got is the one presented now.
        subst hsame
        have hthread : thread' = thread := Option.some.inj (hbefore.symm.trans hlast.there)
        subst hthread
        have hends := Sat.ended .eq hlast.honest hresult
        have harrived := (hsettled.replaced other thread' hbefore hends.1).1
        have hcookieOf := hlast.cookie
        unfold CookieOf at hcookieOf
        rw [if_pos harrived, hresult] at hcookieOf
        have htoken : response.refreshToken = tok := Option.some.inj (hcookieOf.symm.trans hcookie)
        exact ⟨call, _, hnew, by rw [htoken]⟩
      · obtain ⟨later, thread'', hlater, hpresents⟩ := hlast.presented other thread' response hsame hbefore hresult
        exact ⟨later, thread'', (hold (hne_of_some hlater)).mpr hlater, hpresents⟩

/-- The server goes on with a call. -/
theorem serve_invariant (hinv : Invariant settings browser) {call : ℕ} {thread : AuthThread} {a : AuthCall}
    {rest : Except AuthError (AuthAnswer a) → Prog Reply} {r : Except AuthError (AuthAnswer a)} {w' : AuthState}
    (hthread : browser.server.threads call = some thread) (hact : thread.program = .act a rest)
    (hexec : auth.Exec ⟨a, r⟩ browser.server.world w') :
    Invariant settings { browser with server := browser.server.advance call thread ⟨a, r⟩ (rest r) w' } := by
  have hold : ∀ {other}, other ≠ call →
      (browser.server.advance call thread ⟨a, r⟩ (rest r) w').threads other = browser.server.threads other := by
    intro other hne
    simp only [Pool.advance, Function.update_of_ne hne]
  have hnew : (browser.server.advance call thread ⟨a, r⟩ (rest r) w').threads call =
      some ⟨thread.operation, thread.past ++ [⟨a, r⟩], rest r⟩ := by
    simp only [Pool.advance, Function.update_self]
  rcases hinv.phase with hsigned | ⟨last, current, tok, hlast⟩
  · rw [hsigned.idle call] at hthread
    exact absurd hthread (by simp)
  · have hsame : call = last := by
      by_contra hne
      exact not_finished_of_act hact (hlast.ended call thread hne hthread)
    subst hsame
    have hcurrent : current = thread := Option.some.inj (hlast.there.symm.trans hthread)
    subst hcurrent
    have hhonest := hlast.honest
    unfold Honest at hhonest
    rw [hact] at hhonest
    obtain ⟨hcalm, hrest⟩ := hhonest _ rfl r w' hexec
    have hnotArrived : call ∉ browser.arrived := by
      intro harrived
      have hcookieOf := hlast.cookie
      have hnone : current.result = none := by simp [Thread.result, hact]
      unfold CookieOf at hcookieOf
      rw [if_pos harrived, hnone] at hcookieOf
      exact hcookieOf
    refine ⟨?_, ?_, Or.inr ⟨call, _, tok, hnew, hlast.presents, hrest, ?_, hlast.awaited, ?_, ?_⟩⟩
    · intro other thread' hthere e he
      by_cases hother : other = call
      · rw [hother, hnew] at hthere
        rw [← Option.some.inj hthere] at he
        rcases List.mem_append.mp he with hbefore | hlatest
        · exact hinv.calm call current hthread e hbefore
        · rw [List.mem_singleton.mp hlatest]
          exact hcalm
      · rw [hold hother] at hthere
        exact hinv.calm other thread' hthere e he
    · intro other harrived hnone
      by_cases hother : other = call
      · exact hnotArrived (hother ▸ harrived)
      · rw [hold hother] at hnone
        exact hinv.known other harrived hnone
    · intro other thread' hne hthere
      rw [hold hne] at hthere
      exact hlast.ended other thread' hne hthere
    · have hcookieOf := hlast.cookie
      unfold CookieOf at hcookieOf ⊢
      rw [if_neg hnotArrived] at hcookieOf ⊢
      exact hcookieOf
    · intro other thread' response hne hthere hresult
      rw [hold hne] at hthere
      obtain ⟨later, thread'', hlater, hpresents⟩ := hlast.presented other thread' response hne hthere hresult
      by_cases hother : later = call
      · have hown : thread'' = current := Option.some.inj (hlater.symm.trans (hother ▸ hthread))
        exact ⟨call, _, hnew, hown ▸ hpresents⟩
      · exact ⟨later, thread'', by rw [hold hother]; exact hlater, hpresents⟩

/-- An answer arrives. -/
theorem deliver_invariant (hinv : Invariant settings browser) {tab call : ℕ} {thread : AuthThread} {clears : Bool}
    {result : Except AuthError Reply} (htab : browser.tabs tab = some call)
    (hthread : browser.server.threads call = some thread) (hresult : thread.result = some result) :
    Invariant settings { browser.free tab with
      cookie := cookieAfter browser.cookie clears result
      arrived := call :: browser.arrived } := by
  rcases hinv.phase with hsigned | ⟨last, current, tok, hlast⟩
  · rw [hsigned.quiet tab] at htab
    exact absurd htab (by simp)
  · have hsame := hlast.awaited tab call htab
    subst hsame
    have hcurrent : current = thread := Option.some.inj (hlast.there.symm.trans hthread)
    subst hcurrent
    refine ⟨hinv.calm, ?_, Or.inr ⟨call, current, tok, hthread, hlast.presents, hlast.honest, hlast.ended, ?_, ?_,
      hlast.presented⟩⟩
    · intro other harrived
      rcases List.mem_cons.mp harrived with hnow | hbefore
      · rw [hnow]
        exact fun hnone => absurd (hthread.symm.trans hnone) (by simp)
      · exact hinv.known other hbefore
    · intro other awaited hawaited
      by_cases hother : other = tab
      · simp [Browser.free, hother] at hawaited
      · simp only [Browser.free, Function.update_of_ne hother] at hawaited
        exact hlast.awaited other awaited hawaited
    · have hends := Sat.ended .eq hlast.honest hresult
      have hcookieOf := hlast.cookie
      unfold CookieOf at hcookieOf ⊢
      rw [if_pos List.mem_cons_self, hresult]
      rw [hresult] at hcookieOf
      match result with
      | .ok (.pair response) => rfl
      | .ok .done => exact hends.elim
      | .error e =>
        have hbefore : browser.cookie = some tok ∨ browser.cookie = none := by
          split at hcookieOf
          · exact hcookieOf
          · exact Or.inl hcookieOf
        cases e with
        | invalidRefreshToken message =>
          cases clears with
          | false => exact hbefore
          | true => exact Or.inr rfl
        | invalidCredentials message => exact hbefore
        | inactiveUser message => exact hbefore
        | raised message => exact hbefore

/-- A tab gives up. -/
theorem lose_invariant (hinv : Invariant settings browser) (tab : ℕ) : Invariant settings (browser.free tab) := by
  have hless : ∀ {other awaited}, (browser.free tab).tabs other = some awaited → browser.tabs other = some awaited := by
    intro other awaited hawaited
    by_cases hother : other = tab
    · simp [Browser.free, hother] at hawaited
    · simpa only [Browser.free, Function.update_of_ne hother] using hawaited
  refine ⟨hinv.calm, hinv.known, ?_⟩
  rcases hinv.phase with hsigned | ⟨last, current, tok, hlast⟩
  · left
    refine ⟨hsigned.idle, fun other => ?_, hsigned.arrived, hsigned.cookie⟩
    by_cases hother : other = tab
    · simp [Browser.free, hother]
    · simp only [Browser.free, Function.update_of_ne hother, hsigned.quiet other]
  · right
    exact ⟨last, current, tok, hlast.there, hlast.presents, hlast.honest, hlast.ended,
      fun other awaited hawaited => hlast.awaited other awaited (hless hawaited), hlast.cookie, hlast.presented⟩

end Invariant

section Honesty

variable {settings : AuthSettings} {browser next : Browser} {event : BrowserEvent} {events : List BrowserEvent}

/-- One event keeps the invariant, if a refresh is sent only when the earlier ones are over. -/
theorem step_invariant (hinv : Invariant settings browser) (honce : OneByOne browser event)
    (h : browser.step settings event = some next) : Invariant settings next := by
  cases event with
  | send tab call =>
    simp only [Browser.step] at h
    split at h
    · exact absurd h (by simp)
    · exact Option.some.inj h ▸ hinv
    · next token _ hcookie =>
      obtain ⟨server, hserver, hnext⟩ := Option.map_eq_some_iff.mp h
      simp only [Pool.command] at hserver
      split at hserver
      · next hfree =>
        have hstarted := Option.some.inj hserver
        subst hstarted
        subst hnext
        exact send_invariant hinv honce (Option.filter_eq_some_iff.mp hcookie).1 hfree
      · exact absurd hserver (by simp)
  | serve call policy =>
    obtain ⟨server, hserver, hnext⟩ := Option.map_eq_some_iff.mp h
    simp only [Pool.command] at hserver
    split at hserver
    · exact absurd hserver (by simp)
    · next thread hthread =>
      split at hserver
      · next a rest hact =>
        split at hserver
        · exact absurd hserver (by simp)
        · next r w' hanswered =>
          have hmoved := Option.some.inj hserver
          subst hmoved
          subst hnext
          exact serve_invariant hinv hthread hact ⟨policy a, hanswered⟩
      · exact absurd hserver (by simp)
  | deliver tab clears =>
    obtain ⟨call, htab, hthread⟩ := Option.bind_eq_some_iff.mp h
    obtain ⟨thread, hthere, hresult⟩ := Option.bind_eq_some_iff.mp hthread
    obtain ⟨result, hended, hnext⟩ := Option.map_eq_some_iff.mp hresult
    subst hnext
    exact deliver_invariant hinv htab hthere hended
  | lose tab =>
    obtain ⟨call, _, hnext⟩ := Option.map_eq_some_iff.mp h
    exact hnext ▸ lose_invariant hinv tab

/-- A run keeps it. -/
theorem run_invariant (hinv : Invariant settings browser) (honce : AllOneByOne settings browser events)
    (h : browser.run settings events = some next) : Invariant settings next := by
  induction events generalizing browser with
  | nil => exact Option.some.inj h ▸ hinv
  | cons event events ih =>
    obtain ⟨between, hstep, hrest⟩ := Option.bind_eq_some_iff.mp h
    exact ih (step_invariant hinv honce.1 hstep) (honce.2 between hstep) hrest

/-- The sessions are kept where the invariant holds. -/
theorem sessions_kept (hinv : Invariant settings browser) : SessionsKept settings browser := by
  intro call thread response hthread hresult hfresh
  rcases hinv.phase with hsigned | ⟨last, current, tok, hlast⟩
  · rw [hsigned.idle call] at hthread
    exact absurd hthread (by simp)
  · have hsame : call = last := by
      by_contra hne
      obtain ⟨later, thread', hlater, hpresents⟩ := hlast.presented call thread response hne hthread hresult
      exact hfresh later thread' hlater hpresents
    subst hsame
    have hcurrent : current = thread := Option.some.inj (hlast.there.symm.trans hthread)
    subst hcurrent
    have hends := Sat.ended .eq hlast.honest hresult
    refine ⟨hends.2, fun harrived => ?_⟩
    have hcookieOf := hlast.cookie
    unfold CookieOf at hcookieOf
    rwa [if_pos harrived, hresult] at hcookieOf

/-- A browser whose refreshes are sent one by one, each after the earlier ones
are over and what they got has arrived, never runs into the reuse detection,
and none of its sessions is ended by another refresh of it. -/
theorem honest_browser (hstart : SignedIn settings browser) (honce : AllOneByOne settings browser events)
    (hrun : browser.run settings events = some next) : NeverReused next ∧ SessionsKept settings next := by
  have hbegin : Invariant settings browser := by
    refine ⟨fun call thread hthread => ?_, fun call harrived => ?_, Or.inl hstart⟩
    · rw [hstart.idle call] at hthread
      exact absurd hthread (by simp)
    · rw [hstart.arrived] at harrived
      exact absurd harrived (by simp)
  have hend := run_invariant hbegin honce hrun
  exact ⟨hend.calm, sessions_kept hend⟩

/-- A browser with the cookie `t0`. -/
def sampleBrowser : Browser := ⟨Pool.idle sampleState, some "t0", fun _ => none, []⟩

/-- The server does so many of the calls of a refresh. -/
def serves (call n : ℕ) (id token : String) : List BrowserEvent := List.replicate n (.serve call (calm id token))

theorem sampleBrowser_signedIn : SignedIn sampleSettings sampleBrowser := by
  refine ⟨fun _ => rfl, fun _ => rfl, rfl, fun tok hcookie r hfound => ?_⟩
  have htok : "t0" = tok := Option.some.inj hcookie
  subst htok
  have hrow : some sampleRow = some r := hfound
  rw [← Option.some.inj hrow]
  rfl

/-- A tab refreshes, and the answer arrives. -/
def refreshes (tab call : ℕ) (id token : String) : List BrowserEvent :=
  .send tab call :: (serves call 8 id token ++ [.deliver tab true])

/-- A refresh that is sent when all is settled is one by one. -/
theorem allOneByOne_refreshes {browser : Browser} (hsettled : Settled browser) (tab call : ℕ) (id token : String) :
    AllOneByOne sampleSettings browser (refreshes tab call id token) := by
  have hlater : ∀ (browser : Browser) (n : ℕ),
      AllOneByOne sampleSettings browser (serves call n id token ++ [.deliver tab true]) := by
    intro browser n
    induction n generalizing browser with
    | zero => exact ⟨trivial, fun _ _ => trivial⟩
    | succ n ih => exact ⟨trivial, fun next _ => ih next⟩
  exact ⟨hsettled, fun next _ => hlater next 8⟩

/-- Two parts of a run are one by one if each is. -/
theorem AllOneByOne.append {later : List BrowserEvent} (h : AllOneByOne settings browser events)
    (hlater : ∀ next, browser.run settings events = some next → AllOneByOne settings next later) :
    AllOneByOne settings browser (events ++ later) := by
  induction events generalizing browser with
  | nil => exact hlater browser rfl
  | cons event events ih =>
    refine ⟨h.1, fun next hstep => ih (h.2 next hstep) fun last hrun => hlater last ?_⟩
    rw [Browser.run, hstep]
    exact hrun

/-- Once the first answer has arrived all is settled. -/
theorem settled_after_first {browser : Browser}
    (h : sampleBrowser.run sampleSettings (refreshes 0 0 "row1" "t1") = some browser) : Settled browser := by
  have hcases : ∃ next, sampleBrowser.run sampleSettings (refreshes 0 0 "row1" "t1") = some next ∧
      (∃ thread response, next.server.threads 0 = some thread ∧ thread.result = some (.ok (.pair response))) ∧
        (∀ call, next.server.threads (call + 1) = none) ∧ next.tabs 0 = none ∧ (∀ tab, next.tabs (tab + 1) = none) ∧
          0 ∈ next.arrived :=
    ⟨_, rfl, ⟨_, _, rfl, rfl⟩, fun _ => rfl, rfl, fun _ => rfl, List.mem_cons_self⟩
  obtain ⟨next, hrun, ⟨first, response, hfirst, hresult⟩, hothers, htab, htabs, harrived⟩ := hcases
  cases h.symm.trans hrun
  have honly : ∀ call thread, browser.server.threads call = some thread → call = 0 ∧ thread = first := by
    intro call thread hthread
    cases call with
    | zero => exact ⟨rfl, Option.some.inj (hthread.symm.trans hfirst)⟩
    | succ call =>
      rw [hothers call] at hthread
      cases hthread
  refine ⟨fun call thread hthread => ?_, fun tab => ?_, fun call thread hthread _ => ?_⟩
  · obtain ⟨-, rfl⟩ := honly call thread hthread
    exact finished_iff.mpr ⟨_, hresult⟩
  · cases tab with
    | zero => exact htab
    | succ tab => exact htabs tab
  · obtain ⟨rfl, rfl⟩ := honly call thread hthread
    exact ⟨harrived, response, hresult⟩

/-- Two tabs refresh, one after the other, each with the cookie as it is by then. -/
theorem honest_browser_sample : ∃ browser,
    sampleBrowser.run sampleSettings (refreshes 0 0 "row1" "t1" ++ refreshes 1 1 "row2" "t2") = some browser ∧
      browser.cookie = some "t2" ∧ NeverReused browser ∧ SessionsKept sampleSettings browser := by
  have hsettled : Settled sampleBrowser :=
    ⟨fun _ _ hthread => (nomatch hthread), fun _ => rfl, fun _ _ hthread => (nomatch hthread)⟩
  have honce : AllOneByOne sampleSettings sampleBrowser (refreshes 0 0 "row1" "t1" ++ refreshes 1 1 "row2" "t2") :=
    (allOneByOne_refreshes hsettled 0 0 "row1" "t1").append fun _ hrun =>
      allOneByOne_refreshes (settled_after_first hrun) 1 1 "row2" "t2"
  have hresult : ∃ browser,
      sampleBrowser.run sampleSettings (refreshes 0 0 "row1" "t1" ++ refreshes 1 1 "row2" "t2") = some browser ∧
        browser.cookie = some "t2" := ⟨_, rfl, rfl⟩
  obtain ⟨browser, hrun, hcookie⟩ := hresult
  exact ⟨browser, hrun, hcookie, honest_browser sampleBrowser_signedIn honce hrun⟩

/-- Two tabs refresh with the same cookie, one after the other at the server. -/
def twoTabs : List BrowserEvent :=
  .send 0 0 :: .send 1 1 :: (serves 0 8 "row1" "t1" ++ .deliver 0 true :: serves 1 2 "" "")

/-- A tab loses the answer of its refresh and tries again. -/
def lostAnswer : List BrowserEvent := .send 0 0 :: (serves 0 8 "row1" "t1" ++ .lose 0 :: .send 0 1 :: serves 1 2 "" "")

/-- Both are taken for a theft, and the first ends the session that the other tab has just got. -/
theorem honest_browser_taken_for_thief : SignedIn sampleSettings sampleBrowser ∧
    (∃ browser, sampleBrowser.run sampleSettings twoTabs = some browser ∧ ¬ NeverReused browser ∧
      browser.cookie = some "t1" ∧ ¬ Live sampleSettings browser.server.world "t1") ∧
    ∃ browser, sampleBrowser.run sampleSettings lostAnswer = some browser ∧ ¬ NeverReused browser := by
  refine ⟨sampleBrowser_signedIn, ⟨_, rfl, fun hnever => ?_, rfl, ?_⟩, ⟨_, rfl, fun hnever => ?_⟩⟩
  · exact hnever 1 _ rfl ⟨.revokeAllForUser "u", .ok 1⟩ (List.mem_cons_of_mem _ List.mem_cons_self) "u" rfl
  · rintro ⟨r, hfound, hactive⟩
    cases hfound
    exact absurd hactive (by decide)
  · exact hnever 1 _ rfl ⟨.revokeAllForUser "u", .ok 1⟩ (List.mem_cons_of_mem _ List.mem_cons_self) "u" rfl

end Honesty

end RagSystem.HonestBrowser
