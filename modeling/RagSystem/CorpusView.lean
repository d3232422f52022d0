import Mathlib.Data.Nat.Notation

/-!
# The corpus view of the browser

The hook shows the pages it has fetched so far. Fetches complete in any order,
and what they bring is applied whatever was started since. The actions are the
closures of a render, so that they can be behind the state. The server's listing
is a function of the parameters and the cursor.
-/

namespace RagSystem.CorpusView

set_option autoImplicit false

section Hook

variable {Doc Params : Type}

/-- `CorpusPage`. -/
structure CorpusPage (Doc : Type) where
  /-- `documents`. -/
  documents : List Doc
  /-- `next_cursor`. -/
  nextCursor : Option String

/-- What the server answers, by the parameters and the cursor. -/
abbrev Listing (Params Doc : Type) := Params → Option String → CorpusPage Doc

/-- `fetchCorpus`: an empty cursor is not sent. -/
def fetchCorpus (listing : Listing Params Doc) (params : Params) (cursor : Option String) : CorpusPage Doc :=
  listing params (cursor.filter (· ≠ ""))

/-- A fetch under way. -/
structure Fetch (Params : Type) where
  /-- How many were started up to it. -/
  number : ℕ
  /-- The parameters it was started with. -/
  params : Params
  /-- Its cursor. -/
  cursor : Option String
  /-- It is for a further page. -/
  append : Bool

/-- What the closures of a render see. -/
structure Rendered where
  /-- `nextCursor`. -/
  nextCursor : Option String
  /-- `loadingMore`. -/
  loadingMore : Bool

/-- The state of the hook. -/
structure View (Params Doc : Type) where
  /-- `documents`. -/
  documents : List Doc
  /-- `loading`. -/
  loading : Bool
  /-- `loadingMore`. -/
  loadingMore : Bool
  /-- `error`. -/
  error : Option String
  /-- `nextCursor`. -/
  nextCursor : Option String
  /-- `paramsRef`. -/
  params : Params
  /-- `mountedRef`. -/
  mounted : Bool
  /-- The last render. -/
  rendered : Rendered
  /-- How many fetches were started. -/
  started : ℕ
  /-- Those under way. -/
  inFlight : List (Fetch Params)

/-- `doFetch` up to its `await`. -/
def View.doFetch (view : View Params Doc) (cursor : Option String) (append : Bool) : View Params Doc :=
  { view with
    loading := if append then view.loading else true
    loadingMore := if append then true else view.loadingMore
    error := none
    started := view.started + 1
    inFlight := view.inFlight ++ [⟨view.started + 1, view.params, cursor, append⟩] }

/-- The first render, and the fetch of its effect. -/
def View.mount (params : Params) : View Params Doc :=
  View.doFetch ⟨[], true, false, none, none, params, true, ⟨none, false⟩, 0, []⟩ none false

/-- What can happen next. -/
inductive Event (Params : Type) where
  /-- `refresh`. -/
  | refresh (params : Option Params)
  /-- `loadMore`, of the last render. -/
  | loadMore
  /-- The view is rendered. -/
  | render
  /-- A fetch gets its page. -/
  | succeed (number : ℕ)
  /-- A fetch fails. -/
  | fail (number : ℕ) (message : String)
  /-- The view goes away. -/
  | unmount

/-- Whether the closure `loadMore` fetches: `nextCursor && !loadingMore`. -/
def Rendered.fetches (rendered : Rendered) : Bool := (rendered.nextCursor.any (· ≠ "")) && !rendered.loadingMore

/-- `finally`, and the fetch is over. -/
def View.settle (view : View Params Doc) (number : ℕ) : View Params Doc :=
  { view with
    loading := if view.mounted then false else view.loading
    loadingMore := if view.mounted then false else view.loadingMore
    inFlight := view.inFlight.filter (·.number ≠ number) }

/-- `doFetch` with its page. -/
def View.apply (view : View Params Doc) (append : Bool) (page : CorpusPage Doc) : View Params Doc :=
  if view.mounted then
    { view with
      documents := if append then view.documents ++ page.documents else page.documents
      nextCursor := page.nextCursor }
  else view

/-- `refresh`. -/
def View.refresh (view : View Params Doc) (params : Option Params) : View Params Doc :=
  View.doFetch { view with params := params.getD view.params, documents := [], nextCursor := none } none false

/-- One event; none where it cannot happen. -/
def View.step (listing : Listing Params Doc) (view : View Params Doc) : Event Params → Option (View Params Doc)
  | .refresh params => some (view.refresh params)
  | .loadMore => some (if view.rendered.fetches then view.doFetch view.rendered.nextCursor true else view)
  | .render => some { view with rendered := ⟨view.nextCursor, view.loadingMore⟩ }
  | .succeed number => (view.inFlight.find? (·.number = number)).map fun fetch =>
      (view.apply fetch.append (fetchCorpus listing fetch.params fetch.cursor)).settle number
  | .fail number message => (view.inFlight.find? (·.number = number)).map fun _ =>
      ({ view with error := if view.mounted then some message else view.error } : View Params Doc).settle number
  | .unmount => some { view with mounted := false }

/-- A run. -/
def View.run (listing : Listing Params Doc) (view : View Params Doc) : List (Event Params) → Option (View Params Doc)
  | [] => some view
  | event :: events => (view.step listing event).bind fun next => next.run listing events

end Hook

section Statement

variable {Doc Params : Type}

/-- The documents of the first pages and the cursor that came with the last of
them; none where the listing has no such page. -/
def pages (listing : Listing Params Doc) (params : Params) : ℕ → Option (List Doc × Option String)
  | 0 => some ([], none)
  | 1 => some ((listing params none).documents, (listing params none).nextCursor)
  | k + 2 => match pages listing params (k + 1) with
    | some (documents, some cursor) =>
      if cursor = "" then none
      else some (documents ++ (listing params (some cursor)).documents, (listing params (some cursor)).nextCursor)
    | _ => none

/-- The view shows the first pages of the latest query. -/
def Shows (listing : Listing Params Doc) (view : View Params Doc) : Prop :=
  ∃ k, pages listing view.params k = some (view.documents, view.nextCursor)

/-- A page is applied only if its fetch is the one started last, and a further
page is asked for with the cursor of the moment. -/
def InOrder (view : View Params Doc) : Event Params → Prop
  | .succeed number => number = view.started
  | .loadMore => view.rendered.fetches = true → view.rendered.nextCursor = view.nextCursor
  | _ => True

/-- Every event of a run is so. -/
def AllInOrder (listing : Listing Params Doc) (view : View Params Doc) : List (Event Params) → Prop
  | [] => True
  | event :: events => InOrder view event ∧ ∀ next, view.step listing event = some next → AllInOrder listing next events

end Statement

section Lemmas

variable {Doc Params : Type} {listing : Listing Params Doc} {view next : View Params Doc} {event : Event Params}
  {events : List (Event Params)}

/-- A fetch was asked for what the view shows now. -/
structure Current (view : View Params Doc) (fetch : Fetch Params) : Prop where
  /-- It has the parameters of the moment. -/
  params : fetch.params = view.params
  /-- For a further page it has the cursor of the moment. -/
  further : fetch.append = true → fetch.cursor = view.nextCursor ∧ ∃ cursor, fetch.cursor = some cursor ∧ cursor ≠ ""
  /-- For a first page it has none. -/
  first : fetch.append = false → fetch.cursor = none

/-- What holds in a run: first pages are shown, and the fetch started last is current. -/
structure Coherent (listing : Listing Params Doc) (view : View Params Doc) : Prop where
  /-- First pages are shown. -/
  shows : Shows listing view
  /-- No fetch is numbered higher. -/
  numbered : ∀ fetch ∈ view.inFlight, fetch.number ≤ view.started
  /-- The last one is current. -/
  current : ∀ fetch ∈ view.inFlight, fetch.number = view.started → Current view fetch

/-- One page more. -/
theorem pages_further {params : Params} {k : ℕ} {documents : List Doc} {cursor : String}
    (h : pages listing params k = some (documents, some cursor)) (hcursor : cursor ≠ "") :
    pages listing params (k + 1) =
      some (documents ++ (listing params (some cursor)).documents, (listing params (some cursor)).nextCursor) := by
  cases k with
  | zero =>
    have hnone : (some ([], none) : Option (List Doc × Option String)) = some (documents, some cursor) := h
    simp at hnone
  | succ k => simp only [pages, h, if_neg hcursor]

/-- A new fetch is current, and it is the only one with its number. -/
theorem coherent_doFetch {cursor : Option String} {append : Bool} (hshows : Shows listing view)
    (hnumbered : ∀ fetch ∈ view.inFlight, fetch.number ≤ view.started)
    (hfurther : append = true → cursor = view.nextCursor ∧ ∃ text, cursor = some text ∧ text ≠ "")
    (hfirst : append = false → cursor = none) : Coherent listing (view.doFetch cursor append) := by
  refine ⟨hshows, fun fetch hfetch => ?_, fun fetch hfetch hlast => ?_⟩
  · rcases List.mem_append.mp hfetch with hold | hnew
    · exact Nat.le_succ_of_le (hnumbered fetch hold)
    · rw [List.mem_singleton.mp hnew]
      exact Nat.le_refl _
  · rcases List.mem_append.mp hfetch with hold | hnew
    · have hbefore := hnumbered fetch hold
      have hafter : fetch.number = view.started + 1 := hlast
      omega
    · rw [List.mem_singleton.mp hnew]
      exact ⟨rfl, hfurther, hfirst⟩

/-- A fetch that is over leaves the others. -/
theorem mem_settle {number : ℕ} {fetch : Fetch Params} (h : fetch ∈ (view.settle number).inFlight) :
    fetch ∈ view.inFlight ∧ fetch.number ≠ number := by
  have hmem := List.mem_filter.mp h
  exact ⟨hmem.1, by simpa using hmem.2⟩

/-- The page of a current fetch is the next one. -/
theorem shows_apply {fetch : Fetch Params} {number : ℕ} (hshows : Shows listing view) (hcurrent : Current view fetch) :
    Shows listing ((view.apply fetch.append (fetchCorpus listing fetch.params fetch.cursor)).settle number) := by
  cases hmounted : view.mounted with
  | false =>
    have hsame : view.apply fetch.append (fetchCorpus listing fetch.params fetch.cursor) = view := by
      simp [View.apply, hmounted]
    rw [hsame]
    exact hshows
  | true =>
    cases happend : fetch.append with
    | false =>
      have hcursor := hcurrent.first happend
      refine ⟨1, ?_⟩
      simp [View.apply, View.settle, hmounted, hcursor, hcurrent.params, fetchCorpus, pages]
    | true =>
      obtain ⟨hcursor, text, htext, hnonempty⟩ := hcurrent.further happend
      obtain ⟨k, hpages⟩ := hshows
      rw [← hcursor, htext] at hpages
      refine ⟨k + 1, ?_⟩
      have hfurther := pages_further hpages hnonempty
      simp [View.apply, View.settle, hmounted, htext, hcurrent.params, fetchCorpus, hfurther, hnonempty, Option.filter]

/-- One event in order keeps the view coherent. -/
theorem step_coherent (hcoherent : Coherent listing view) (horder : InOrder view event)
    (h : view.step listing event = some next) : Coherent listing next := by
  cases event with
  | refresh params =>
    rw [← Option.some.inj h]
    exact coherent_doFetch ⟨0, rfl⟩ hcoherent.numbered (fun happend => absurd happend (by simp)) fun _ => rfl
  | loadMore =>
    rw [← Option.some.inj h]
    split
    · rename_i hfetches
      have hcursor := horder hfetches
      have htext : ∃ text, view.rendered.nextCursor = some text ∧ text ≠ "" := by
        rw [Rendered.fetches, Bool.and_eq_true, Option.any_eq_true] at hfetches
        obtain ⟨text, hsome, hnonempty⟩ := hfetches.1
        exact ⟨text, hsome, by simpa using hnonempty⟩
      exact coherent_doFetch hcoherent.shows hcoherent.numbered (fun _ => ⟨hcursor, htext⟩)
        fun happend => absurd happend (by simp)
    · exact hcoherent
  | render =>
    rw [← Option.some.inj h]
    exact ⟨hcoherent.shows, hcoherent.numbered, fun fetch hfetch hlast =>
      ⟨(hcoherent.current fetch hfetch hlast).params, (hcoherent.current fetch hfetch hlast).further,
        (hcoherent.current fetch hfetch hlast).first⟩⟩
  | unmount =>
    rw [← Option.some.inj h]
    exact ⟨hcoherent.shows, hcoherent.numbered, fun fetch hfetch hlast =>
      ⟨(hcoherent.current fetch hfetch hlast).params, (hcoherent.current fetch hfetch hlast).further,
        (hcoherent.current fetch hfetch hlast).first⟩⟩
  | fail number message =>
    obtain ⟨found, _, hnext⟩ := Option.map_eq_some_iff.mp h
    rw [← hnext]
    refine ⟨hcoherent.shows, fun fetch hfetch => ?_, fun fetch hfetch hlast => ?_⟩
    · exact hcoherent.numbered fetch (mem_settle hfetch).1
    · have hcurrent := hcoherent.current fetch (mem_settle hfetch).1 hlast
      exact ⟨hcurrent.params, hcurrent.further, hcurrent.first⟩
  | succeed number =>
    obtain ⟨found, hfound, hnext⟩ := Option.map_eq_some_iff.mp h
    have hnumber : found.number = number := by simpa using List.find?_some hfound
    have hlast : found.number = view.started := hnumber.trans horder
    have hcurrent := hcoherent.current found (List.mem_of_find?_eq_some hfound) hlast
    rw [← hnext]
    have hstarted : ((view.apply found.append (fetchCorpus listing found.params found.cursor)).settle number).started =
        view.started := by
      unfold View.apply
      split
      · rfl
      · rfl
    have hflight : (view.apply found.append (fetchCorpus listing found.params found.cursor)).inFlight = view.inFlight := by
      unfold View.apply
      split
      · rfl
      · rfl
    refine ⟨?_, fun fetch hfetch => ?_, fun fetch hfetch hsame => ?_⟩
    · exact shows_apply hcoherent.shows hcurrent
    · rw [hstarted]
      have hmem := (mem_settle hfetch).1
      rw [hflight] at hmem
      exact hcoherent.numbered fetch hmem
    · rw [hstarted] at hsame
      exact absurd (hsame.trans horder.symm) (mem_settle hfetch).2

end Lemmas

section ShownPages

variable {Doc Params : Type} {listing : Listing Params Doc} {view next : View Params Doc} {params : Params}
  {events : List (Event Params)}

/-- A run in order keeps the view coherent. -/
theorem run_coherent (hcoherent : Coherent listing view) (horder : AllInOrder listing view events)
    (h : view.run listing events = some next) : Coherent listing next := by
  induction events generalizing view with
  | nil =>
    have hsame : view = next := Option.some.inj h
    exact hsame ▸ hcoherent
  | cons event events ih =>
    obtain ⟨between, hstep, hrest⟩ := Option.bind_eq_some_iff.mp h
    exact ih (step_coherent hcoherent horder.1 hstep) (horder.2 between hstep) hrest

/-- In a run where no overtaken fetch brings a page and every further page is
asked for with the cursor of the moment, the view shows, at every moment, the
first pages of the listing for the latest parameters, with the cursor of the last of them. -/
theorem corpus_shows_pages (horder : AllInOrder listing (.mount params) events)
    (hrun : (View.mount params).run listing events = some view) :
    ∃ k, pages listing view.params k = some (view.documents, view.nextCursor) := by
  have hmount : Coherent listing (View.mount params : View Params Doc) :=
    coherent_doFetch ⟨0, rfl⟩ (by simp) (fun happend => absurd happend (by simp)) fun _ => rfl
  exact (run_coherent hmount horder hrun).shows

/-- Two pages for "a", one for anything else. -/
def sampleListing : Listing String ℕ := fun params cursor =>
  if params = "a" then if cursor = none then ⟨[1, 2], some "c"⟩ else ⟨[3], none⟩ else ⟨[10], none⟩

theorem corpus_shows_pages_sample : ∃ view : View String ℕ,
    (View.mount "a").run sampleListing [.succeed 1, .render, .loadMore, .succeed 2] = some view ∧
      view.inFlight = [] ∧ ∃ k, pages sampleListing view.params k = some (view.documents, view.nextCursor) := by
  have horder : AllInOrder sampleListing (.mount "a") [.succeed 1, .render, .loadMore, .succeed 2] := by
    refine ⟨rfl, fun first hfirst => ⟨trivial, fun second hsecond => ⟨?_, fun third hthird => ⟨?_, fun _ _ => trivial⟩⟩⟩⟩
    · cases hfirst
      cases hsecond
      exact fun _ => rfl
    · cases hfirst
      cases hsecond
      cases hthird
      rfl
  exact ⟨_, rfl, rfl, corpus_shows_pages horder rfl⟩

/-- After the last page there is none. -/
theorem pages_end {k : ℕ} (h : ∀ documents cursor, pages listing params (k + 1) ≠ some (documents, some cursor)) (n : ℕ) :
    pages listing params (k + 2 + n) = none := by
  induction n with
  | zero =>
    cases hpages : pages listing params (k + 1) with
    | none => simp [pages, hpages]
    | some shown =>
      obtain ⟨documents, cursor⟩ := shown
      cases cursor with
      | none => simp [pages, hpages]
      | some cursor => exact absurd hpages (h documents cursor)
  | succ n ih =>
    have hnext : pages listing params (k + 2 + (n + 1)) = pages listing params ((k + 1 + n) + 2) := by
      congr 1
      omega
    have hbefore : pages listing params (k + 1 + n + 1) = none := by
      rw [← ih]
      congr 1
      omega
    rw [hnext]
    simp [pages, hbefore]

/-- A slow page of an old query replaces the new one's, and a second click
before the render appends a page twice. -/
theorem late_pages_mix : (∃ view : View String ℕ,
      (View.mount "a").run sampleListing [.refresh (some "b"), .succeed 2, .succeed 1] = some view ∧
        view.inFlight = [] ∧ view.params = "b" ∧ view.documents = [1, 2] ∧ ¬ Shows sampleListing view) ∧
    ∃ view : View String ℕ,
      (View.mount "a").run sampleListing [.succeed 1, .render, .loadMore, .loadMore, .succeed 2, .succeed 3] = some view ∧
        view.inFlight = [] ∧ view.documents = [1, 2, 3, 3] ∧ ¬ Shows sampleListing view := by
  refine ⟨⟨_, rfl, rfl, rfl, rfl, ?_⟩, ⟨_, rfl, rfl, rfl, ?_⟩⟩
  · rintro ⟨k, hshown⟩
    have hpages : pages sampleListing "b" k = some ([1, 2], some "c") := hshown
    match k with
    | 0 => exact absurd hpages (by decide)
    | 1 => exact absurd hpages (by decide)
    | k + 2 =>
      have hend := (pages_end (by simp [pages, sampleListing]) k : pages sampleListing "b" (0 + 2 + k) = none)
      rw [Nat.add_comm k 2, hend] at hpages
      exact absurd hpages (by simp)
  · rintro ⟨k, hshown⟩
    have hpages : pages sampleListing "a" k = some ([1, 2, 3, 3], none) := hshown
    match k with
    | 0 => exact absurd hpages (by decide)
    | 1 => exact absurd hpages (by decide)
    | 2 => exact absurd hpages (by decide)
    | k + 3 =>
      have hend := (pages_end (by simp [pages, sampleListing]) k : pages sampleListing "a" (1 + 2 + k) = none)
      rw [Nat.add_comm k 3, hend] at hpages
      exact absurd hpages (by simp)

end ShownPages

end RagSystem.CorpusView
