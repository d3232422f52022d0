import Mathlib.Data.List.Nodup

/-!
# The upload queue

Files are queued and uploaded a few at a time. The hook keeps a counter of
active uploads, a queue of ids and a map of files; user actions and the callbacks
of uploads change them, one at a time. An upload's callbacks run in two turns: its
answer first, then what is done either way, which pumps the queue again. Toasts
and the document store are left out.
-/

namespace RagSystem.UploadManager

set_option autoImplicit false

section Source

/-- A `File`. -/
structure File where
  /-- Its name, with the extension. -/
  name : String
  /-- Its length in bytes. -/
  size : ℕ
  deriving DecidableEq

/-- What the hook takes from the browser. -/
structure Browser where
  /-- `toLowerCase`. -/
  toLowerCase : String → String
  /-- `newId`, draw after draw. -/
  newId : ℕ → String
  /-- No two draws are the same. -/
  injective : Function.Injective newId

/-- `ACCEPTED_EXTENSIONS`. -/
def acceptedExtensions : List String :=
  ["pdf", "docx", "doc", "pptx", "ppt", "odt", "rtf", "epub", "xml", "xls", "xlsx", "csv", "html", "htm", "txt", "md",
    "markdown", "rst", "jpg", "jpeg", "png", "tiff", "tif", "bmp", "webp", "gif"]

/-- `MAX_UPLOAD_BYTES`. -/
def maxUploadBytes : ℕ := 10 * 1024 * 1024

/-- `CONCURRENCY`. -/
def concurrency : ℕ := 2

/-- `getExtension`: what follows the last dot. -/
def getExtension (browser : Browser) (filename : String) : String :=
  if '.' ∈ filename.toList then
    browser.toLowerCase (String.ofList (filename.toList.reverse.takeWhile (· ≠ '.')).reverse)
  else ""

/-- `validateFile`: its error, none where the file is fine. -/
def validateFile (browser : Browser) (file : File) : Option String :=
  let ext := getExtension browser file.name
  if ext = "" ∨ ext ∉ acceptedExtensions then
    some ("Unsupported format: ." ++ (if ext = "" then "(none)" else ext) ++ ". See accepted formats.")
  else if file.size = 0 then some "File is empty."
  else if maxUploadBytes < file.size then some "This file exceeds the 10 MiB client limit."
  else none

/-- `UploadState` of a task. -/
inductive UploadState where
  /-- Its file is not accepted. -/
  | invalid
  /-- It waits for its turn. -/
  | queued
  /-- Its upload is under way. -/
  | uploading
  /-- Its upload was answered with a document. -/
  | uploaded
  /-- Its upload has failed. -/
  | error
  deriving DecidableEq

/-- `UploadTask`; the label of its size is left out. -/
structure UploadTask where
  /-- Drawn when its file is added. -/
  id : String
  /-- The name of its file. -/
  fileName : String
  /-- The extension of that, in lower case. -/
  ext : String
  /-- How far its upload is. -/
  state : UploadState
  /-- Why it was not accepted or has failed. -/
  error : Option String
  /-- The document that its upload became. -/
  documentId : Option String

/-- How an upload is answered. -/
inductive Reply where
  /-- With a document record. -/
  | uploaded (documentId : String)
  /-- With an `ApiError`. -/
  | apiError (status : ℕ) (detail : String)
  /-- With another `Error`. -/
  | error (message : String)
  /-- With something else. -/
  | other

/-- An upload under way. -/
structure Upload where
  /-- The id of its task. -/
  id : String
  /-- Its file. -/
  file : File
  /-- Its `then` or `catch` has run, its `finally` has not. -/
  answered : Bool

/-- What the hook keeps, with what has happened to it. -/
structure Manager where
  /-- `tasks`. -/
  tasks : List UploadTask
  /-- `filesRef`. -/
  files : String → Option File
  /-- `activeRef`. -/
  active : ℕ
  /-- `queueRef`. -/
  queue : List String
  /-- How many ids were drawn. -/
  drawn : ℕ
  /-- The uploads under way. -/
  uploads : List Upload
  /-- The calls of `uploadDocument` so far. -/
  started : List (String × File)
  /-- The files that were put into the queue so far. -/
  queued : List (String × File)

/-- An entry set in a map, or deleted. -/
def setEntry (files : String → Option File) (id : String) (file : Option File) : String → Option File :=
  fun other => if other = id then file else files other

/-- `patch`. -/
def patch (tasks : List UploadTask) (id : String) (changes : UploadTask → UploadTask) : List UploadTask :=
  tasks.map fun task => if task.id = id then changes task else task

/-- `pump`, an upload is begun. -/
def startUpload (manager : Manager) (id : String) (file : File) : Manager :=
  { manager with
    active := manager.active + 1
    tasks := patch manager.tasks id fun task => { task with state := .uploading }
    uploads := manager.uploads ++ [⟨id, file, false⟩]
    started := manager.started ++ [(id, file)] }

/-- `pump`, one round of its loop; none where it ends. -/
def pumpRound (manager : Manager) : Option Manager :=
  match manager.queue with
  | [] => none
  | id :: queue =>
    if manager.active < concurrency then
      match manager.files id with
      | none => some { manager with queue := queue }
      | some file => some (startUpload { manager with queue := queue } id file)
    else none

/-- So many rounds, or fewer. -/
def pumpRounds : ℕ → Manager → Manager
  | 0, manager => manager
  | rounds + 1, manager =>
    match pumpRound manager with
    | none => manager
    | some next => pumpRounds rounds next

/-- `pump`: each round takes an id from the queue. -/
def pump (manager : Manager) : Manager := pumpRounds manager.queue.length manager

/-- `enqueue`, one file. -/
def addFile (browser : Browser) (adding : Manager × List UploadTask) (file : File) : Manager × List UploadTask :=
  let (manager, newTasks) := adding
  let id := browser.newId manager.drawn
  let error := validateFile browser file
  let task : UploadTask :=
    { id := id
      fileName := file.name
      ext := getExtension browser file.name
      state := if error = none then .queued else .invalid
      error := error
      documentId := none }
  let drawn := { manager with drawn := manager.drawn + 1 }
  if error = none then
    ({ drawn with
        files := setEntry manager.files id (some file)
        queue := manager.queue ++ [id]
        queued := manager.queued ++ [(id, file)] }, newTasks ++ [task])
  else (drawn, newTasks ++ [task])

/-- `enqueue`. -/
def enqueue (browser : Browser) (manager : Manager) (files : List File) : Manager :=
  let (added, newTasks) := files.foldl (addFile browser) (manager, [])
  pump { added with tasks := newTasks ++ added.tasks }

/-- `removeTask`. -/
def removeTask (manager : Manager) (id : String) : Manager :=
  { manager with
    files := setEntry manager.files id none
    queue := manager.queue.filter (· ≠ id)
    tasks := manager.tasks.filter (·.id ≠ id) }

/-- `clearFinished`. -/
def clearFinished (manager : Manager) : Manager :=
  { manager with tasks := manager.tasks.filter fun task => task.state = .queued ∨ task.state = .uploading }

/-- What the callbacks of an answer make of a task. -/
def answerTask (reply : Reply) (task : UploadTask) : UploadTask :=
  match reply with
  | .uploaded documentId => { task with state := .uploaded, documentId := some documentId, error := none }
  | .apiError status detail =>
    { task with
      state := .error
      error := some (if status = 413 then "This file exceeds the server's upload limit." else detail) }
  | .error message => { task with state := .error, error := some message }
  | .other => { task with state := .error, error := some "Upload failed." }

/-- The `then` or the `catch` of an upload. -/
def answer (manager : Manager) (id : String) (reply : Reply) : Manager :=
  { manager with
    tasks := patch manager.tasks id (answerTask reply)
    uploads := manager.uploads.map fun upload => if upload.id = id then { upload with answered := true } else upload }

/-- The `finally` of an upload, up to its `pump`. -/
def retire (manager : Manager) (id : String) : Manager :=
  { manager with
    files := setEntry manager.files id none
    active := manager.active - 1
    uploads := manager.uploads.eraseP fun upload => upload.id = id }

/-- The `finally` of an upload. -/
def finish (manager : Manager) (id : String) : Manager := pump (retire manager id)

/-- What can happen next. -/
inductive Event where
  /-- The user adds files. -/
  | enqueue (files : List File)
  /-- The user removes a task. -/
  | removeTask (id : String)
  /-- The user clears what is finished. -/
  | clearFinished
  /-- An upload is answered. -/
  | answer (id : String) (reply : Reply)
  /-- What is done after the answer. -/
  | finish (id : String)

/-- One event; none where it cannot happen. -/
def step (browser : Browser) (manager : Manager) : Event → Option Manager
  | .enqueue files => some (enqueue browser manager files)
  | .removeTask id => some (removeTask manager id)
  | .clearFinished => some (clearFinished manager)
  | .answer id reply =>
    if manager.uploads.any fun upload => upload.id = id ∧ upload.answered = false then some (answer manager id reply)
    else none
  | .finish id =>
    if manager.uploads.any fun upload => upload.id = id ∧ upload.answered = true then some (finish manager id) else none

/-- A run of events. -/
def run (browser : Browser) (manager : Manager) : List Event → Option Manager
  | [] => some manager
  | event :: events => (step browser manager event).bind fun next => run browser next events

/-- The hook when it is first used. -/
def initial : Manager := ⟨[], fun _ => none, 0, [], 0, [], [], []⟩

end Source

section Invariant

variable {browser : Browser} {manager next : Manager} {id : String}

/-- The queued files that wait, in order. -/
def waiting (manager : Manager) : List (String × File) :=
  manager.queue.filterMap fun id => (manager.files id).map fun file => (id, file)

/-- What holds also while the queue is being changed. -/
structure Sound (browser : Browser) (manager : Manager) : Prop where
  /-- The counter counts the uploads under way. -/
  counted : manager.active = manager.uploads.length
  /-- They are not too many. -/
  bounded : manager.active ≤ concurrency
  /-- A queued id has its file. -/
  known : ∀ id ∈ manager.queue, manager.files id ≠ none
  /-- What was begun and what waits was queued in that order. -/
  ordered : (manager.started ++ waiting manager).Sublist manager.queued
  /-- An id is queued once. -/
  distinct : (manager.queued.map Prod.fst).Nodup
  /-- It was drawn. -/
  drawn : ∀ id ∈ manager.queued.map Prod.fst, ∃ n < manager.drawn, id = browser.newId n
  /-- An upload under way was begun. -/
  underWay : ∀ upload ∈ manager.uploads, upload.id ∈ manager.started.map Prod.fst

theorem sound_initial (browser : Browser) : Sound browser initial where
  counted := rfl
  bounded := Nat.zero_le _
  known := fun _ h => absurd h List.not_mem_nil
  ordered := List.Sublist.slnil
  distinct := List.nodup_nil
  drawn := fun _ h => absurd h List.not_mem_nil
  underWay := fun _ h => absurd h List.not_mem_nil

/-- The ids that wait are the queue. -/
theorem Sound.map_waiting (h : Sound browser manager) : (waiting manager).map Prod.fst = manager.queue := by
  have hall : ∀ queue : List String, (∀ id ∈ queue, manager.files id ≠ none) →
      (queue.filterMap fun id => (manager.files id).map fun file => (id, file)).map Prod.fst = queue := by
    intro queue hknown
    induction queue with
    | nil => rfl
    | cons id queue ih =>
      obtain ⟨file, hfile⟩ := Option.ne_none_iff_exists'.mp (hknown id List.mem_cons_self)
      have hrest := ih fun other hother => hknown other (List.mem_cons_of_mem _ hother)
      simp [hfile, hrest]
  exact hall manager.queue h.known

theorem Sound.sublist_ids (h : Sound browser manager) :
    (manager.started.map Prod.fst ++ manager.queue).Sublist (manager.queued.map Prod.fst) := by
  have hmapped := h.ordered.map Prod.fst
  rwa [List.map_append, h.map_waiting] at hmapped

/-- A queued id was put into the queue. -/
theorem Sound.mem_queued (h : Sound browser manager) (hid : id ∈ manager.queue) : id ∈ manager.queued.map Prod.fst :=
  h.sublist_ids.subset (List.mem_append_right _ hid)

/-- What was begun does not wait. -/
theorem Sound.not_mem_queue (h : Sound browser manager) (hid : id ∈ manager.started.map Prod.fst) : id ∉ manager.queue := by
  have hnodup := h.distinct.sublist h.sublist_ids
  intro hqueue
  exact (List.nodup_append.mp hnodup).2.2 id hid id hqueue rfl

/-- A fresh id is new. -/
theorem Sound.fresh (h : Sound browser manager) : browser.newId manager.drawn ∉ manager.queued.map Prod.fst := by
  intro hmem
  obtain ⟨n, hlt, hsame⟩ := h.drawn _ hmem
  have hn := browser.injective hsame
  omega

/-- The files of the queue are the same where only another id changes. -/
theorem filterMap_setEntry {files : String → Option File} {queue : List String} (hid : id ∉ queue) (file : Option File) :
    (queue.filterMap fun other => (setEntry files id file other).map fun file => (other, file)) =
      queue.filterMap fun other => (files other).map fun file => (other, file) := by
  refine List.filterMap_congr ?_
  intro other hother
  have hne : other ≠ id := fun hsame => hid (hsame ▸ hother)
  rw [setEntry, if_neg hne]

/-- What a round does: the first of the queue is uploaded. -/
theorem Sound.pumpRound_eq (h : Sound browser manager) (hround : pumpRound manager = some next) :
    ∃ id queue file, manager.queue = id :: queue ∧ manager.files id = some file ∧ manager.active < concurrency ∧
      next = startUpload { manager with queue := queue } id file := by
  unfold pumpRound at hround
  cases hqueue : manager.queue with
  | nil =>
    rw [hqueue] at hround
    cases hround
  | cons id queue =>
    rw [hqueue] at hround
    dsimp only at hround
    split at hround
    · next hactive =>
      obtain ⟨file, hfile⟩ := Option.ne_none_iff_exists'.mp (h.known id (hqueue ▸ List.mem_cons_self))
      rw [hfile] at hround
      exact ⟨id, queue, file, rfl, hfile, hactive, (Option.some.inj hround).symm⟩
    · cases hround

/-- Where there is no round, the queue is empty or the uploads are as many as may be. -/
theorem pumpRound_eq_none (hround : pumpRound manager = none) : manager.active < concurrency → manager.queue = [] := by
  intro hactive
  unfold pumpRound at hround
  cases hqueue : manager.queue with
  | nil => rfl
  | cons id queue =>
    rw [hqueue] at hround
    dsimp only at hround
    rw [if_pos hactive] at hround
    split at hround
    · cases hround
    · cases hround

theorem Sound.pumpRound (h : Sound browser manager) (hround : pumpRound manager = some next) : Sound browser next := by
  obtain ⟨id, queue, file, hqueue, hfile, hactive, rfl⟩ := h.pumpRound_eq hround
  have hwaiting : waiting manager = (id, file) :: waiting { manager with queue := queue } := by
    simp [waiting, hqueue, hfile]
  refine ⟨?_, ?_, ?_, ?_, h.distinct, h.drawn, ?_⟩
  · simp [startUpload, h.counted]
  · exact hactive
  · intro other hother
    exact h.known other (hqueue ▸ List.mem_cons_of_mem _ hother)
  · have hordered := h.ordered
    rw [hwaiting] at hordered
    simpa [startUpload, waiting] using hordered
  · intro upload hupload
    simp only [startUpload, List.mem_append, List.mem_singleton] at hupload
    rcases hupload with hold | rfl
    · simp only [startUpload, List.map_append]
      exact List.mem_append_left _ (h.underWay upload hold)
    · simp [startUpload]

/-- The rounds drain the queue as far as there is room. -/
theorem Sound.pumpRounds (h : Sound browser manager) {rounds : ℕ} (hrounds : manager.queue.length ≤ rounds) :
    Sound browser (pumpRounds rounds manager) ∧
      ((pumpRounds rounds manager).active < concurrency → (pumpRounds rounds manager).queue = []) := by
  induction rounds generalizing manager with
  | zero =>
    have hempty : manager.queue = [] := List.length_eq_zero_iff.mp (by omega)
    exact ⟨h, fun _ => hempty⟩
  | succ rounds ih =>
    rw [UploadManager.pumpRounds]
    cases hround : UploadManager.pumpRound manager with
    | none => exact ⟨h, pumpRound_eq_none hround⟩
    | some next =>
      obtain ⟨id, queue, file, hqueue, -, -, hnext⟩ := h.pumpRound_eq hround
      have hlength : next.queue.length ≤ rounds := by
        rw [hqueue, List.length_cons] at hrounds
        rw [hnext]
        exact Nat.le_of_succ_le_succ hrounds
      exact ih (h.pumpRound hround) hlength

/-- What holds between turns. -/
structure Invariant (browser : Browser) (manager : Manager) : Prop where
  /-- What holds at any time. -/
  sound : Sound browser manager
  /-- Nothing waits while there is room. -/
  drained : manager.active < concurrency → manager.queue = []

theorem Sound.pump (h : Sound browser manager) : Invariant browser (pump manager) :=
  ⟨(h.pumpRounds (Nat.le_refl _)).1, (h.pumpRounds (Nat.le_refl _)).2⟩

theorem Sound.addFile (h : Sound browser manager) (newTasks : List UploadTask) (file : File) :
    Sound browser (addFile browser (manager, newTasks) file).1 := by
  have hfresh := h.fresh
  have hdrawn : ∀ id ∈ manager.queued.map Prod.fst, ∃ n < manager.drawn + 1, id = browser.newId n := by
    intro id hid
    obtain ⟨n, hlt, hsame⟩ := h.drawn id hid
    exact ⟨n, by omega, hsame⟩
  by_cases hvalid : validateFile browser file = none
  · have hqueue : browser.newId manager.drawn ∉ manager.queue := fun hmem => hfresh (h.mem_queued hmem)
    simp only [UploadManager.addFile, if_pos hvalid]
    refine ⟨h.counted, h.bounded, ?_, ?_, ?_, ?_, h.underWay⟩
    · intro id hid
      rcases List.mem_append.mp hid with hold | hnew
      · have hne : id ≠ browser.newId manager.drawn := fun hsame => hqueue (hsame ▸ hold)
        simp only [setEntry, if_neg hne]
        exact h.known id hold
      · simp [setEntry, List.mem_singleton.mp hnew]
    · simp only [waiting, List.filterMap_append, filterMap_setEntry hqueue]
      rw [← List.append_assoc]
      refine h.ordered.append ?_
      simp [setEntry]
    · rw [List.map_append, List.nodup_append]
      refine ⟨h.distinct, by simp, ?_⟩
      intro id hid other hother hsame
      have hnew : other = browser.newId manager.drawn := by simpa using hother
      exact hfresh (hnew ▸ hsame ▸ hid)
    · intro id hid
      rw [List.map_append] at hid
      rcases List.mem_append.mp hid with hold | hnew
      · exact hdrawn id hold
      · exact ⟨manager.drawn, Nat.lt_succ_self _, by simpa using hnew⟩
  · simp only [UploadManager.addFile, if_neg hvalid]
    exact ⟨h.counted, h.bounded, h.known, h.ordered, h.distinct, hdrawn, h.underWay⟩

theorem Sound.foldl_addFile (h : Sound browser manager) (newTasks : List UploadTask) (files : List File) :
    Sound browser (files.foldl (UploadManager.addFile browser) (manager, newTasks)).1 := by
  induction files generalizing manager newTasks with
  | nil => exact h
  | cons file files ih => exact ih (h.addFile newTasks file) _

/-- Tasks are not looked at. -/
theorem Sound.withTasks (h : Sound browser manager) (tasks : List UploadTask) :
    Sound browser { manager with tasks := tasks } :=
  ⟨h.counted, h.bounded, h.known, h.ordered, h.distinct, h.drawn, h.underWay⟩

theorem Sound.removeTask (h : Sound browser manager) (id : String) : Sound browser (removeTask manager id) := by
  have hgone : id ∉ manager.queue.filter (· ≠ id) := by simp
  refine ⟨h.counted, h.bounded, ?_, ?_, h.distinct, h.drawn, h.underWay⟩
  · intro other hother
    have hne : other ≠ id := by simpa using (List.mem_filter.mp hother).2
    simp only [UploadManager.removeTask, setEntry, if_neg hne]
    exact h.known other (List.mem_filter.mp hother).1
  · refine List.Sublist.trans ?_ h.ordered
    refine (List.Sublist.refl manager.started).append ?_
    simp only [waiting, UploadManager.removeTask, filterMap_setEntry hgone]
    exact List.filter_sublist.filterMap _

theorem Sound.answer (h : Sound browser manager) (id : String) (reply : Reply) : Sound browser (answer manager id reply) := by
  refine ⟨?_, h.bounded, h.known, h.ordered, h.distinct, h.drawn, ?_⟩
  · simp [UploadManager.answer, h.counted]
  · intro upload hupload
    obtain ⟨old, hold, hsame⟩ := List.mem_map.mp hupload
    have hid : upload.id = old.id := by
      rw [← hsame]
      split
      · rfl
      · rfl
    exact hid ▸ h.underWay old hold

/-- An upload under way is retired. -/
theorem Sound.retire (h : Sound browser manager) (hany : ∃ upload ∈ manager.uploads, upload.id = id) :
    Sound browser (retire manager id) := by
  obtain ⟨upload, hupload, rfl⟩ := hany
  have hqueue : upload.id ∉ manager.queue := h.not_mem_queue (h.underWay upload hupload)
  have hlength := List.length_eraseP_of_mem hupload (p := fun other : Upload => decide (other.id = upload.id)) (by simp)
  refine ⟨?_, ?_, ?_, ?_, h.distinct, h.drawn, ?_⟩
  · simp only [UploadManager.retire, hlength, h.counted]
  · exact Nat.le_trans (Nat.sub_le _ _) h.bounded
  · intro other hother
    have hne : other ≠ upload.id := fun hsame => hqueue (hsame ▸ hother)
    simp only [UploadManager.retire, setEntry, if_neg hne]
    exact h.known other hother
  · simp only [waiting, UploadManager.retire, filterMap_setEntry hqueue]
    exact h.ordered
  · intro other hother
    exact h.underWay other (List.mem_of_mem_eraseP hother)

/-- One event keeps the invariant. -/
theorem Invariant.step (h : Invariant browser manager) {event : Event} (hstep : step browser manager event = some next) :
    Invariant browser next := by
  cases event with
  | enqueue files =>
    have hnext : UploadManager.enqueue browser manager files = next := Option.some.inj hstep
    rw [← hnext]
    exact ((h.sound.foldl_addFile [] files).withTasks _).pump
  | removeTask id =>
    have hnext : UploadManager.removeTask manager id = next := Option.some.inj hstep
    rw [← hnext]
    refine ⟨h.sound.removeTask id, ?_⟩
    intro hactive
    have hempty := h.drained hactive
    simp [UploadManager.removeTask, hempty]
  | clearFinished =>
    have hnext : UploadManager.clearFinished manager = next := Option.some.inj hstep
    rw [← hnext]
    exact ⟨h.sound.withTasks _, h.drained⟩
  | answer id reply =>
    rw [UploadManager.step] at hstep
    split at hstep
    · have hnext := Option.some.inj hstep
      rw [← hnext]
      exact ⟨h.sound.answer id reply, h.drained⟩
    · cases hstep
  | finish id =>
    rw [UploadManager.step] at hstep
    split at hstep
    · next hany =>
      have hnext := Option.some.inj hstep
      rw [← hnext]
      obtain ⟨upload, hupload, hid⟩ := List.any_eq_true.mp hany
      have hboth : upload.id = id ∧ upload.answered = true := by simpa using hid
      exact (h.sound.retire ⟨upload, hupload, hboth.1⟩).pump
    · cases hstep

/-- A run keeps it. -/
theorem Invariant.run (h : Invariant browser manager) {events : List Event} {last : Manager}
    (hrun : run browser manager events = some last) : Invariant browser last := by
  induction events generalizing manager with
  | nil =>
    have hlast : manager = last := Option.some.inj hrun
    exact hlast ▸ h
  | cons event events ih =>
    obtain ⟨next, hstep, hrest⟩ := Option.bind_eq_some_iff.mp hrun
    exact ih (h.step hstep) hrest

theorem invariant_initial (browser : Browser) : Invariant browser initial := ⟨sound_initial browser, fun _ => rfl⟩

end Invariant

section Withdrawn

variable {browser : Browser} {manager next : Manager} {id : String}

/-- A file was queued, was not begun and waits no longer. -/
structure Withdrawn (id : String) (manager : Manager) : Prop where
  /-- It was queued. -/
  queued : id ∈ manager.queued.map Prod.fst
  /-- It was not begun. -/
  notStarted : id ∉ manager.started.map Prod.fst
  /-- It does not wait. -/
  notWaiting : id ∉ manager.queue

theorem Withdrawn.pumpRounds (h : Withdrawn id manager) (hsound : Sound browser manager) (rounds : ℕ) :
    Withdrawn id (pumpRounds rounds manager) := by
  induction rounds generalizing manager with
  | zero => exact h
  | succ rounds ih =>
    rw [UploadManager.pumpRounds]
    cases hround : pumpRound manager with
    | none => exact h
    | some next =>
      obtain ⟨first, queue, file, hqueue, -, -, hnext⟩ := hsound.pumpRound_eq hround
      have hwaits := h.notWaiting
      rw [hqueue, List.mem_cons, not_or] at hwaits
      refine ih ?_ (hsound.pumpRound hround)
      rw [hnext]
      refine ⟨h.queued, ?_, hwaits.2⟩
      simp only [startUpload, List.map_append, List.mem_append, not_or]
      exact ⟨h.notStarted, by simpa using hwaits.1⟩

theorem Withdrawn.pump (h : Withdrawn id manager) (hsound : Sound browser manager) : Withdrawn id (pump manager) :=
  h.pumpRounds hsound _

theorem Withdrawn.addFile (h : Withdrawn id manager) (hsound : Sound browser manager) (newTasks : List UploadTask)
    (file : File) : Withdrawn id (addFile browser (manager, newTasks) file).1 := by
  have hne : id ≠ browser.newId manager.drawn := fun hsame => hsound.fresh (hsame ▸ h.queued)
  by_cases hvalid : validateFile browser file = none
  · simp only [UploadManager.addFile, if_pos hvalid]
    refine ⟨?_, h.notStarted, ?_⟩
    · rw [List.map_append]
      exact List.mem_append_left _ h.queued
    · rw [List.mem_append, not_or]
      exact ⟨h.notWaiting, by simpa using hne⟩
  · simp only [UploadManager.addFile, if_neg hvalid]
    exact ⟨h.queued, h.notStarted, h.notWaiting⟩

theorem Withdrawn.foldl_addFile (h : Withdrawn id manager) (hsound : Sound browser manager) (newTasks : List UploadTask)
    (files : List File) : Withdrawn id (files.foldl (UploadManager.addFile browser) (manager, newTasks)).1 := by
  induction files generalizing manager newTasks with
  | nil => exact h
  | cons file files ih => exact ih (h.addFile hsound newTasks file) (hsound.addFile newTasks file) _

/-- What is withdrawn stays so. -/
theorem Withdrawn.step (h : Withdrawn id manager) (hinvariant : Invariant browser manager) {event : Event}
    (hstep : step browser manager event = some next) : Withdrawn id next := by
  have hsound := hinvariant.sound
  cases event with
  | enqueue files =>
    have hnext : UploadManager.enqueue browser manager files = next := Option.some.inj hstep
    have hadded := h.foldl_addFile hsound [] files
    have hsame : Withdrawn id
        { (files.foldl (UploadManager.addFile browser) (manager, [])).1 with
          tasks := (files.foldl (UploadManager.addFile browser) (manager, [])).2 ++
            (files.foldl (UploadManager.addFile browser) (manager, [])).1.tasks } :=
      ⟨hadded.queued, hadded.notStarted, hadded.notWaiting⟩
    rw [← hnext]
    exact hsame.pump ((hsound.foldl_addFile [] files).withTasks _)
  | removeTask other =>
    have hnext : UploadManager.removeTask manager other = next := Option.some.inj hstep
    rw [← hnext]
    exact ⟨h.queued, h.notStarted, fun hmem => h.notWaiting (List.mem_filter.mp hmem).1⟩
  | clearFinished =>
    have hnext : UploadManager.clearFinished manager = next := Option.some.inj hstep
    rw [← hnext]
    exact ⟨h.queued, h.notStarted, h.notWaiting⟩
  | answer other reply =>
    rw [UploadManager.step] at hstep
    split at hstep
    · have hnext := Option.some.inj hstep
      rw [← hnext]
      exact ⟨h.queued, h.notStarted, h.notWaiting⟩
    · cases hstep
  | finish other =>
    rw [UploadManager.step] at hstep
    split at hstep
    · next hany =>
      have hnext := Option.some.inj hstep
      obtain ⟨upload, hupload, hid⟩ := List.any_eq_true.mp hany
      have hboth : upload.id = other ∧ upload.answered = true := by simpa using hid
      have hretired := hsound.retire ⟨upload, hupload, hboth.1⟩
      have hsame : Withdrawn id (retire manager other) := ⟨h.queued, h.notStarted, h.notWaiting⟩
      rw [← hnext]
      exact hsame.pump hretired
    · cases hstep

theorem Withdrawn.run (h : Withdrawn id manager) (hinvariant : Invariant browser manager) {events : List Event}
    {last : Manager} (hrun : run browser manager events = some last) : Withdrawn id last := by
  induction events generalizing manager with
  | nil =>
    have hlast : manager = last := Option.some.inj hrun
    exact hlast ▸ h
  | cons event events ih =>
    obtain ⟨next, hstep, hrest⟩ := Option.bind_eq_some_iff.mp hrun
    exact ih (h.step hinvariant hstep) (hinvariant.step hstep) hrest

/-- Removing a queued file that was not begun withdraws it. -/
theorem withdrawn_removeTask (hqueued : id ∈ manager.queued.map Prod.fst) (hnot : id ∉ manager.started.map Prod.fst) :
    Withdrawn id (removeTask manager id) := by
  have hgone : id ∉ manager.queue.filter (· ≠ id) := by simp
  exact ⟨hqueued, hnot, hgone⟩

end Withdrawn

section Queued

variable {browser : Browser} {manager next : Manager}

/-- The valid files of an event. -/
def Event.validFiles (browser : Browser) : Event → List File
  | .enqueue files => files.filter fun file => validateFile browser file = none
  | _ => []

theorem queued_pumpRound (hround : pumpRound manager = some next) : next.queued = manager.queued := by
  unfold pumpRound at hround
  split at hround
  · cases hround
  · split at hround
    · split at hround
      · rw [← Option.some.inj hround]
      · rw [← Option.some.inj hround]
        rfl
    · cases hround

theorem queued_pumpRounds (rounds : ℕ) : (pumpRounds rounds manager).queued = manager.queued := by
  induction rounds generalizing manager with
  | zero => rfl
  | succ rounds ih =>
    rw [pumpRounds]
    cases hround : pumpRound manager with
    | none => rfl
    | some next => exact ih.trans (queued_pumpRound hround)

theorem queued_foldl_addFile (newTasks : List UploadTask) (files : List File) :
    (files.foldl (addFile browser) (manager, newTasks)).1.queued.map Prod.snd =
      manager.queued.map Prod.snd ++ files.filter fun file => validateFile browser file = none := by
  induction files generalizing manager newTasks with
  | nil => simp
  | cons file files ih =>
    rw [List.foldl_cons, ih]
    by_cases hvalid : validateFile browser file = none
    · simp [addFile, hvalid]
    · simp [addFile, hvalid]

/-- An event queues its valid files. -/
theorem queued_step {event : Event} (hstep : step browser manager event = some next) :
    next.queued.map Prod.snd = manager.queued.map Prod.snd ++ event.validFiles browser := by
  cases event with
  | enqueue files =>
    have hnext : enqueue browser manager files = next := Option.some.inj hstep
    have hadded : (enqueue browser manager files).queued = (files.foldl (addFile browser) (manager, [])).1.queued :=
      queued_pumpRounds _
    rw [← hnext, hadded]
    exact queued_foldl_addFile [] files
  | removeTask id =>
    have hnext : removeTask manager id = next := Option.some.inj hstep
    rw [← hnext]
    exact (List.append_nil _).symm
  | clearFinished =>
    have hnext : clearFinished manager = next := Option.some.inj hstep
    rw [← hnext]
    exact (List.append_nil _).symm
  | answer id reply =>
    rw [step] at hstep
    split at hstep
    · rw [← Option.some.inj hstep]
      exact (List.append_nil _).symm
    · cases hstep
  | finish id =>
    rw [step] at hstep
    split at hstep
    · have hnext : pumpRounds (retire manager id).queue.length (retire manager id) = next := Option.some.inj hstep
      rw [← hnext, queued_pumpRounds]
      exact (List.append_nil _).symm
    · cases hstep

theorem queued_run {events : List Event} (hrun : run browser manager events = some next) :
    next.queued.map Prod.snd = manager.queued.map Prod.snd ++ events.flatMap (Event.validFiles browser) := by
  induction events generalizing manager with
  | nil =>
    have hlast : manager = next := Option.some.inj hrun
    simp [hlast]
  | cons event events ih =>
    obtain ⟨after, hstep, hrest⟩ := Option.bind_eq_some_iff.mp hrun
    rw [ih hrest, queued_step hstep, List.flatMap_cons, List.append_assoc]

end Queued

section Runs

variable {browser : Browser} {manager : Manager}

/-- In every state a run reaches: few enough uploads are under way and nothing is queued while there is room; the valid
files were queued in the order in which they were added and begun in that order, each at most once; and one that is
removed before it was begun is not begun in any run from there. -/
theorem upload_queue_runs {events : List Event} (hrun : run browser initial events = some manager) :
    manager.active = manager.uploads.length ∧ manager.uploads.length ≤ concurrency ∧
      (manager.uploads.length < concurrency → manager.queue = []) ∧
      manager.queued.map Prod.snd = events.flatMap (Event.validFiles browser) ∧
      (manager.queued.map Prod.fst).Nodup ∧ manager.started.Sublist manager.queued ∧
      (manager.started.map Prod.fst).Nodup ∧
      ∀ id ∈ manager.queued.map Prod.fst, id ∉ manager.started.map Prod.fst → ∀ later last,
        run browser manager (.removeTask id :: later) = some last → id ∉ last.started.map Prod.fst := by
  have hinvariant := (invariant_initial browser).run hrun
  have hsound := hinvariant.sound
  have hstarted : manager.started.Sublist manager.queued := (List.sublist_append_left _ _).trans hsound.ordered
  refine ⟨hsound.counted, ?_, ?_, ?_, hsound.distinct, hstarted, hsound.distinct.sublist (hstarted.map _), ?_⟩
  · rw [← hsound.counted]
    exact hsound.bounded
  · rw [← hsound.counted]
    exact hinvariant.drained
  · have hqueued := queued_run hrun
    rwa [initial, List.map_nil, List.nil_append] at hqueued
  · intro id hid hnot later last hlater
    obtain ⟨next, hstep, hrest⟩ := Option.bind_eq_some_iff.mp hlater
    have hnext : removeTask manager id = next := Option.some.inj hstep
    have hwithdrawn : Withdrawn id next := hnext ▸ withdrawn_removeTask hid hnot
    exact (hwithdrawn.run (hinvariant.step hstep) hrest).notStarted

/-- A browser whose names are in lower case. -/
def sampleBrowser : Browser where
  toLowerCase := id
  newId := fun n => String.ofList (List.replicate n 'x')
  injective := by
    intro m n hsame
    have hlists := congrArg (fun text : String => text.toList.length) hsame
    simpa using hlists

/-- A file of a kilobyte. -/
def sampleFile (name : String) : File := ⟨name, 1024⟩

/-- Three files and one that is not accepted; the third is removed while it waits, and the first fails. -/
def sampleEvents : List Event :=
  [.enqueue [sampleFile "a.md", sampleFile "b.exe", sampleFile "c.md", sampleFile "d.md"], .removeTask "xxx",
    .answer "" (.apiError 413 "too large"), .finish "", .enqueue [sampleFile "e.md"]]

/-- What that leaves. -/
def sampleManager : Manager := (run sampleBrowser initial sampleEvents).getD initial

/-- The accepted files were queued in order; all but the removed one were begun, and it never is. -/
theorem upload_queue_runs_sample :
    sampleManager.started.map Prod.fst = ["", "xx", "xxxx"] ∧ sampleManager.started.Sublist sampleManager.queued ∧
      sampleManager.queued.map Prod.snd = [sampleFile "a.md", sampleFile "c.md", sampleFile "d.md", sampleFile "e.md"] ∧
      (sampleManager.queued.map Prod.fst).Nodup ∧ sampleManager.active = 2 ∧ sampleManager.uploads.length = 2 ∧
      sampleManager.uploads.length ≤ concurrency ∧
      (sampleManager.uploads.length < concurrency → sampleManager.queue = []) ∧
      ∀ later last, run sampleBrowser sampleManager (.removeTask "xxx" :: later) = some last →
        "xxx" ∉ last.started.map Prod.fst := by
  have hrun : run sampleBrowser initial sampleEvents = some sampleManager := by rfl
  obtain ⟨hactive, hfew, hdrained, hqueued, hdistinct, hordered, -, hremoved⟩ := upload_queue_runs hrun
  have htwo : sampleManager.uploads.length = 2 := by decide
  have hvalid : sampleEvents.flatMap (Event.validFiles sampleBrowser) =
      [sampleFile "a.md", sampleFile "c.md", sampleFile "d.md", sampleFile "e.md"] := by decide
  exact ⟨by decide, hordered, hqueued.trans hvalid, hdistinct, hactive.trans htwo, htwo, hfew, hdrained,
    hremoved "xxx" (by decide) (by decide)⟩

end Runs

end RagSystem.UploadManager
