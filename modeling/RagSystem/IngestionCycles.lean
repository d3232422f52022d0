import RagSystem.ChunkStorage
import RagSystem.ModelReplies
import RagSystem.TaskGroups

/-!
# A cycle of the ingestion worker

A cycle pulls a batch of messages and processes their jobs, one after the other
or in a group of tasks. The whole batch is parsed inside the pull, which is
retried as a whole; an acknowledgement after a job that can never succeed is made
in an exception handler. So a message or an acknowledgement can fail for all.
-/

namespace RagSystem.IngestionCycles

open ModelReplies TaskGroups
open GatheredResults (mapM_ok_iff length_of_mapM)

set_option autoImplicit false

section Messages

/-- `IngestionJob`. -/
structure IngestionJob where
  /-- `document_id`. -/
  documentId : PyStr
  /-- `version`. -/
  version : PyStr
  /-- `filename`. -/
  filename : PyStr
  /-- `s3_uri`. -/
  s3Uri : PyStr
  /-- `trace_id`. -/
  traceId : Option PyStr
  deriving DecidableEq

/-- A message as the subscription returns it. -/
structure PulledMessage where
  /-- `message.data`. -/
  data : ByteArray
  /-- `ack_id`. -/
  ackId : PyStr
  /-- `message.message_id`. -/
  messageId : PyStr

/-- `ReceivedIngestionJob`. -/
structure ReceivedIngestionJob where
  /-- `job`. -/
  job : IngestionJob
  /-- `ack_id`. -/
  ackId : PyStr
  /-- `message_id`. -/
  messageId : Option PyStr

/-- Why an attempt to receive fails. -/
inductive ReceiveError where
  /-- The pull itself. -/
  | pull
  /-- `UnicodeDecodeError`. -/
  | unicodeDecode
  /-- `JSONDecodeError`. -/
  | jsonDecode
  /-- `RecursionError`. -/
  | recursion
  /-- `ValidationError`. -/
  | validation
  deriving DecidableEq

variable (python : Python)

/-- A field for a string. -/
def textField (members : List (PyStr × Value)) (name : String) : Option PyStr :=
  match get members name with
  | some (.str text) => if python.acceptsText text then some text else none
  | _ => none

/-- A field for a string or `None`, which is the default. -/
def optionalTextField (members : List (PyStr × Value)) (name : String) : Option (Option PyStr) :=
  match get members name with
  | none => some none
  | some .none => some none
  | some (.str text) => if python.acceptsText text then some (some text) else none
  | _ => none

/-- `IngestionJob.model_validate`. -/
def modelValidate : Value → Option IngestionJob
  | .dict members => do
    let documentId ← textField python members "document_id"
    let version ← textField python members "version"
    let filename ← textField python members "filename"
    let s3Uri ← textField python members "s3_uri"
    let traceId ← optionalTextField python members "trace_id"
    return ⟨documentId, version, filename, s3Uri, traceId⟩
  | _ => none

/-- `_parse_message`. -/
def parseMessage (received : PulledMessage) : Except ReceiveError ReceivedIngestionJob :=
  match String.fromUTF8? received.data with
  | none => .error .unicodeDecode
  | some text =>
    match python.loads text.toList with
    | .refused => .error .jsonDecode
    | .exhausted => .error .recursion
    | .value payload =>
      match modelValidate python payload with
      | none => .error .validation
      | some job => .ok ⟨job, received.ackId, if received.messageId = [] then none else some received.messageId⟩

/-- A message with a job. -/
def WellFormed (received : PulledMessage) : Prop := ∃ job, parseMessage python received = .ok job

end Messages

section Worker

/-- `retry_on_transient`, where so many attempts may follow the first: the number of the last attempt, and how it ends. -/
def retryFrom {ε α : Type} (attempt : ℕ → Except ε α) : ℕ → ℕ → ℕ × Except ε α
  | 0, k => (k, attempt k)
  | more + 1, k =>
    match attempt k with
    | .ok a => (k, .ok a)
    | .error _ => retryFrom attempt more (k + 1)

/-- How `process_document_job` ends. -/
inductive JobEnd where
  /-- It returns. -/
  | completed
  /-- `DocumentDeletedError`. -/
  | deleted
  /-- `StaleIngestionError`. -/
  | stale
  /-- Any other exception. -/
  | failed
  deriving DecidableEq

/-- The world around a cycle, and the worker's settings. -/
structure Cycle where
  /-- `_MAX_RETRIES`. -/
  maxRetries : ℤ
  /-- `max_concurrency`. -/
  maxConcurrency : ℤ
  /-- What an attempt to pull returns; none where it raises. -/
  pull : ℕ → Option (List PulledMessage)
  /-- How the job at a place of the batch ends. -/
  ends : ℕ → JobEnd
  /-- Whether an attempt to acknowledge the message at a place of the batch returns. -/
  acknowledged : ℕ → ℕ → Bool

/-- `_max_concurrency`. -/
def Cycle.limit (cycle : Cycle) : ℕ := (max 1 cycle.maxConcurrency).toNat

/-- How many attempts may follow the first. -/
def Cycle.retries (cycle : Cycle) : ℕ := (cycle.maxRetries - 1).toNat

/-- `receive`, one attempt. -/
def receiveOnce (python : Python) (cycle : Cycle) (k : ℕ) : Except ReceiveError (List ReceivedIngestionJob) :=
  match cycle.pull k with
  | none => .error .pull
  | some messages => messages.mapM (parseMessage python)

/-- `receive`. -/
def receive (python : Python) (cycle : Cycle) : ℕ × Except ReceiveError (List ReceivedIngestionJob) :=
  retryFrom (receiveOnce python cycle) cycle.retries 0

/-- `delete`, one attempt. -/
def deleteOnce (cycle : Cycle) (i k : ℕ) : Except Unit Unit := if cycle.acknowledged i k then .ok () else .error ()

/-- Whether `delete` raises. -/
def deleteRaises (cycle : Cycle) (i : ℕ) : Bool :=
  match (retryFrom (deleteOnce cycle i) cycle.retries 0).2 with
  | .ok _ => false
  | .error _ => true

/-- Whether `_process_message` raises, after the job was handed over. -/
def processMessageRaises (cycle : Cycle) (i : ℕ) : Bool :=
  match cycle.ends i with
  | .completed => false -- an exception of `delete` is caught with those of the job
  | .deleted => deleteRaises cycle i
  | .stale => deleteRaises cycle i
  | .failed => false

/-- The loop over the messages: the places whose jobs are handed over. -/
def processAll (raises : ℕ → Bool) : List ℕ → List ℕ
  | [] => []
  | i :: rest => i :: if raises i then [] else processAll raises rest

/-- `process_once` after so many messages were received: the places whose jobs were handed over when it is over. -/
def ProcessBatch (cycle : Cycle) (n : ℕ) (handed : List ℕ) : Prop :=
  if n = 0 then handed = []
  else if cycle.limit ≤ 1 ∨ n = 1 then handed = processAll (processMessageRaises cycle) (List.range n)
  else ∃ g, Reaches cycle.limit (processMessageRaises cycle) n g ∧ MayLeave cycle.limit g ∧ handed = g.begun

/-- `process_once`: it can be over with these jobs handed over, by the attempt that pulled them and their places. -/
def ProcessOnce (python : Python) (cycle : Cycle) (handed : List (ℕ × ℕ)) : Prop :=
  match receive python cycle with
  | (_, .error _) => handed = []
  | (k, .ok jobs) => ∃ places, ProcessBatch cycle jobs.length places ∧ handed = places.map fun i => (k, i)

end Worker

section Property

variable (python : Python) (cycle : Cycle)

/-- An attempt of the cycle that pulled a batch. -/
def Pulled (k : ℕ) (messages : List PulledMessage) : Prop :=
  k ≤ cycle.retries ∧ (∀ j < k, ∃ error, receiveOnce python cycle j = .error error) ∧ cycle.pull k = some messages

/-- However a cycle goes, when it is over every job of every batch that it pulled was handed over once. -/
def HandsEveryJob : Prop :=
  ∀ handed, ProcessOnce python cycle handed → ∀ k messages, Pulled python cycle k messages →
    ∀ i message, messages[i]? = some message → WellFormed python message → handed.count (k, i) = 1

/-- A job is found deleted or stale, and no attempt to acknowledge it returns. -/
def Escapes (i : ℕ) : Prop :=
  (cycle.ends i = .deleted ∨ cycle.ends i = .stale) ∧ ∀ k ≤ cycle.retries, cycle.acknowledged i k = false

/-- How many jobs of a batch are handed over at least, where the one at a place escapes. -/
def handedBefore (n i : ℕ) : ℕ := if cycle.limit ≤ 1 ∨ n = 1 then i + 1 else max (i + 1) cycle.limit + 1

/-- No message or acknowledgement keeps another's job back. -/
structure Contained : Prop where
  /-- A batch has jobs only or none. -/
  parsed : ∀ k messages, Pulled python cycle k messages →
    (∀ message ∈ messages, WellFormed python message) ∨ ∀ message ∈ messages, ¬ WellFormed python message
  /-- A job that escapes is so near to the end that all others are handed over before. -/
  acknowledged : ∀ k messages, Pulled python cycle k messages → (∀ message ∈ messages, WellFormed python message) →
    ∀ i < messages.length, Escapes cycle i → messages.length ≤ handedBefore cycle messages.length i

end Property

section Retries

variable {ε α : Type}

/-- The last attempt ends as it does; those before failed; and after it no more may follow, or it returned. -/
theorem retryFrom_spec (attempt : ℕ → Except ε α) (more k : ℕ) : ∃ j, retryFrom attempt more k = (j, attempt j) ∧ k ≤ j ∧ j ≤ k + more ∧
    (∀ i, k ≤ i → i < j → ∃ error, attempt i = .error error) ∧ (j = k + more ∨ ∃ a, attempt j = .ok a) := by
  induction more generalizing k with
  | zero => exact ⟨k, rfl, Nat.le_refl k, Nat.le_refl k, fun i hi hlt => absurd hlt (Nat.not_lt.mpr hi), Or.inl rfl⟩
  | succ more ih =>
    cases hattempt : attempt k with
    | ok a =>
      refine ⟨k, ?_, Nat.le_refl k, Nat.le_add_right k _, fun i hi hlt => absurd hlt (Nat.not_lt.mpr hi), Or.inr ⟨a, hattempt⟩⟩
      rw [retryFrom, hattempt]
    | error error =>
      obtain ⟨j, hj, hlow, hhigh, hfailed, hlast⟩ := ih (k + 1)
      refine ⟨j, ?_, by omega, by omega, ?_, ?_⟩
      · rw [retryFrom, hattempt]
        exact hj
      · intro i hi hlt
        rcases Nat.eq_or_lt_of_le hi with rfl | hlater
        · exact ⟨error, hattempt⟩
        · exact hfailed i hlater hlt
      · rcases hlast with heq | hreturned
        · exact Or.inl (by omega)
        · exact Or.inr hreturned

/-- An attempt that may be made and returns, where those before failed, is the last. -/
theorem retryFrom_eq {attempt : ℕ → Except ε α} {more k : ℕ} {a : α} (hk : k ≤ more) (hfailed : ∀ j < k, ∃ error, attempt j = .error error)
    (hattempt : attempt k = .ok a) : retryFrom attempt more 0 = (k, .ok a) := by
  obtain ⟨j, hj, -, hhigh, hbefore, hlast⟩ := retryFrom_spec attempt more 0
  have hge : k ≤ j := by
    by_contra hlt
    obtain ⟨error, herror⟩ := hfailed j (by omega)
    rcases hlast with heq | ⟨b, hreturned⟩
    · omega
    · rw [herror] at hreturned
      cases hreturned
  have hle : j ≤ k := by
    by_contra hlt
    obtain ⟨error, herror⟩ := hbefore k (Nat.zero_le k) (by omega)
    rw [hattempt] at herror
    cases herror
  obtain rfl : j = k := Nat.le_antisymm hle hge
  rw [hj, hattempt]

variable {cycle : Cycle} {i : ℕ}

/-- `delete` raises where no attempt returns. -/
theorem deleteRaises_iff : deleteRaises cycle i = true ↔ ∀ k ≤ cycle.retries, cycle.acknowledged i k = false := by
  obtain ⟨j, hj, -, hhigh, hfailed, hlast⟩ := retryFrom_spec (deleteOnce cycle i) cycle.retries 0
  rw [Nat.zero_add] at hhigh hlast
  cases hlastone : cycle.acknowledged i j with
  | true =>
    have hreturns : deleteRaises cycle i = false := by
      rw [deleteRaises, hj, deleteOnce, hlastone]
      rfl
    rw [hreturns]
    constructor
    · exact fun h => absurd h Bool.false_ne_true
    · intro h
      rw [h j hhigh] at hlastone
      cases hlastone
  | false =>
    have hraises : deleteRaises cycle i = true := by
      rw [deleteRaises, hj, deleteOnce, hlastone]
      rfl
    refine ⟨fun _ k hk => ?_, fun _ => hraises⟩
    have hend : j = cycle.retries := by
      rcases hlast with heq | ⟨a, hreturned⟩
      · exact heq
      · rw [deleteOnce, hlastone] at hreturned
        cases hreturned
    rcases Nat.lt_or_eq_of_le (hend ▸ hk) with hlt | rfl
    · obtain ⟨error, herror⟩ := hfailed k (Nat.zero_le k) hlt
      rw [deleteOnce] at herror
      cases hone : cycle.acknowledged i k with
      | false => rfl
      | true =>
        rw [hone] at herror
        cases herror
    · exact hlastone

/-- An exception leaves `_process_message` only where the job escapes. -/
theorem processMessageRaises_iff : processMessageRaises cycle i = true ↔ Escapes cycle i := by
  rw [processMessageRaises, Escapes, ← deleteRaises_iff]
  cases cycle.ends i <;> simp

end Retries

section Batches

variable {cycle : Cycle} {raises : ℕ → Bool} {n i : ℕ} {places : List ℕ}

/-- The loop hands over the first places. -/
theorem processAll_first (raises : ℕ → Bool) (s n : ℕ) : ∃ m ≤ n, processAll raises (List.range' s n) = List.range' s m := by
  induction n generalizing s with
  | zero => exact ⟨0, Nat.le_refl 0, rfl⟩
  | succ n ih =>
    rw [List.range'_succ, processAll]
    cases raises s with
    | true => exact ⟨1, by omega, rfl⟩
    | false =>
      obtain ⟨m, hm, hrest⟩ := ih (s + 1)
      refine ⟨m + 1, by omega, ?_⟩
      rw [List.range'_succ]
      simpa using hrest

/-- It hands over all exactly where no exception leaves it before the last. -/
theorem processAll_eq_iff (s n : ℕ) : processAll raises (List.range' s n) = List.range' s n ↔
    ∀ i, s ≤ i → i < s + n → raises i = true → s + n ≤ i + 1 := by
  induction n generalizing s with
  | zero =>
    refine ⟨fun _ i hlow hhigh => ?_, fun _ => rfl⟩
    omega
  | succ n ih =>
    rw [List.range'_succ, processAll, List.cons.injEq, eq_self_iff_true, true_and]
    cases hraises : raises s with
    | true =>
      rw [if_pos rfl]
      constructor
      · intro hnone i hlow hhigh _
        have hzero : n = 0 := by
          have hlength := congrArg List.length hnone
          rw [List.length_range'] at hlength
          exact hlength.symm
        omega
      · intro h
        have hbound := h s (Nat.le_refl s) (by omega) hraises
        obtain rfl : n = 0 := by omega
        rfl
    | false =>
      rw [if_neg Bool.false_ne_true, ih (s + 1)]
      constructor
      · intro h i hlow hhigh hi
        rcases Nat.eq_or_lt_of_le hlow with rfl | hlater
        · rw [hraises] at hi
          cases hi
        · have hbound := h i hlater (by omega) hi
          omega
      · intro h i hlow hhigh hi
        have hbound := h i (by omega) (by omega) hi
        omega

theorem limit_pos (cycle : Cycle) : cycle.limit ≠ 0 := by
  rw [Cycle.limit]
  omega

/-- The first jobs of a batch are handed over, each once. -/
theorem ProcessBatch.eq_range (h : ProcessBatch cycle n places) : ∃ m ≤ n, places = List.range m := by
  rw [ProcessBatch] at h
  split at h
  · exact ⟨0, Nat.zero_le n, h⟩
  · split at h
    · rw [List.range_eq_range'] at h
      obtain ⟨m, hm, hplaces⟩ := processAll_first (processMessageRaises cycle) 0 n
      exact ⟨m, hm, by rw [h, hplaces, List.range_eq_range']⟩
    · obtain ⟨g, hreached, -, rfl⟩ := h
      exact ⟨g.begun.length, hreached.ordered.begun_le, hreached.ordered.begun_eq⟩

/-- A batch can be over. -/
theorem exists_processBatch (cycle : Cycle) (n : ℕ) : ∃ places, ProcessBatch cycle n places := by
  by_cases hzero : n = 0
  · exact ⟨[], by rw [ProcessBatch, if_pos hzero]⟩
  · by_cases hone : cycle.limit ≤ 1 ∨ n = 1
    · exact ⟨_, by rw [ProcessBatch, if_neg hzero, if_pos hone]⟩
    · have hstart : Reaches cycle.limit (processMessageRaises cycle) n (Group.start n) := Relation.ReflTransGen.refl
      obtain ⟨g, hreached, hleave⟩ := exists_leave hstart (limit_pos cycle)
      refine ⟨g.begun, ?_⟩
      rw [ProcessBatch, if_neg hzero, if_neg hone]
      exact ⟨g, hreached, hleave, rfl⟩

/-- All its jobs are handed over, however it goes, exactly where none escapes too soon. -/
theorem processBatch_iff : (∀ places, ProcessBatch cycle n places → places = List.range n) ↔
    ∀ i < n, Escapes cycle i → n ≤ handedBefore cycle n i := by
  simp only [← processMessageRaises_iff]
  by_cases hzero : n = 0
  · subst hzero
    refine ⟨fun _ i hi => absurd hi (Nat.not_lt_zero i), fun _ places h => ?_⟩
    rw [ProcessBatch, if_pos rfl] at h
    exact h
  · by_cases hone : cycle.limit ≤ 1 ∨ n = 1
    · have hbatch : ∀ places, ProcessBatch cycle n places ↔ places = processAll (processMessageRaises cycle) (List.range n) := by
        intro places
        rw [ProcessBatch, if_neg hzero, if_pos hone]
      simp only [hbatch, forall_eq, handedBefore, if_pos hone]
      rw [List.range_eq_range', processAll_eq_iff]
      simp
    · have hbatch : ∀ places, ProcessBatch cycle n places ↔
          ∃ g, Reaches cycle.limit (processMessageRaises cycle) n g ∧ MayLeave cycle.limit g ∧ places = g.begun := by
        intro places
        rw [ProcessBatch, if_neg hzero, if_neg hone]
      simp only [hbatch, handedBefore, if_neg hone]
      rw [← all_begun_iff (limit_pos cycle)]
      constructor
      · exact fun h g hreached hleave => h _ ⟨g, hreached, hleave, rfl⟩
      · rintro h _ ⟨g, hreached, hleave, rfl⟩
        exact h g hreached hleave

end Batches

section Cycles

variable {python : Python} {cycle : Cycle} {k : ℕ} {messages : List PulledMessage} {jobs : List ReceivedIngestionJob}

/-- A pulled batch of jobs only is what is received. -/
theorem receive_of_pulled (h : Pulled python cycle k messages) (hall : ∀ message ∈ messages, WellFormed python message) :
    ∃ jobs, receive python cycle = (k, .ok jobs) ∧ jobs.length = messages.length := by
  obtain ⟨hk, hfailed, hpull⟩ := h
  obtain ⟨jobs, hjobs⟩ := mapM_ok_iff.mpr hall
  have hattempt : receiveOnce python cycle k = .ok jobs := by
    rw [receiveOnce, hpull]
    exact hjobs
  exact ⟨jobs, retryFrom_eq hk hfailed hattempt, length_of_mapM hjobs⟩

/-- What is received is a pulled batch of jobs only. -/
theorem pulled_of_receive (h : receive python cycle = (k, .ok jobs)) :
    ∃ messages, Pulled python cycle k messages ∧ (∀ message ∈ messages, WellFormed python message) ∧
      jobs.length = messages.length := by
  obtain ⟨j, hj, -, hhigh, hfailed, -⟩ := retryFrom_spec (receiveOnce python cycle) cycle.retries 0
  rw [receive, hj, Prod.mk.injEq] at h
  obtain ⟨rfl, hattempt⟩ := h
  rw [receiveOnce] at hattempt
  cases hpull : cycle.pull j with
  | none =>
    rw [hpull] at hattempt
    cases hattempt
  | some messages =>
    rw [hpull] at hattempt
    refine ⟨messages, ⟨by omega, fun i hi => hfailed i (Nat.zero_le i) hi, hpull⟩, ?_, length_of_mapM hattempt⟩
    exact mapM_ok_iff.mp ⟨jobs, hattempt⟩

/-- A cycle can be over. -/
theorem exists_processOnce (python : Python) (cycle : Cycle) : ∃ handed, ProcessOnce python cycle handed := by
  rcases hreceive : receive python cycle with ⟨k, error | jobs⟩
  · exact ⟨[], by rw [ProcessOnce, hreceive]⟩
  · obtain ⟨places, hplaces⟩ := exists_processBatch cycle jobs.length
    refine ⟨places.map fun i => (k, i), ?_⟩
    rw [ProcessOnce, hreceive]
    exact ⟨places, hplaces, rfl⟩

/-- Only jobs of the batch that is received are handed over. -/
theorem ProcessOnce.received {handed : List (ℕ × ℕ)} (h : ProcessOnce python cycle handed) {i : ℕ}
    (hi : (k, i) ∈ handed) : ∃ jobs, receive python cycle = (k, .ok jobs) := by
  rcases hreceive : receive python cycle with ⟨j, error | jobs⟩
  · rw [ProcessOnce, hreceive] at h
    dsimp only at h
    rw [h] at hi
    exact absurd hi List.not_mem_nil
  · rw [ProcessOnce, hreceive] at h
    obtain ⟨places, -, rfl⟩ := h
    obtain ⟨_, -, hsame⟩ := List.mem_map.mp hi
    rw [Prod.mk.injEq] at hsame
    exact ⟨jobs, by rw [hsame.1]⟩

/-- Where the first places are handed over, each is handed over once. -/
theorem count_handed (k m i : ℕ) : ((List.range m).map fun i => (k, i)).count (k, i) = if i < m then 1 else 0 := by
  have hinjective : Function.Injective fun i : ℕ => (k, i) := fun _ _ h => (Prod.mk.injEq _ _ _ _ ▸ h).2
  rw [List.count_map_of_injective _ _ hinjective, List.count_range]

end Cycles

section Whole

/-- Every job of every batch that a cycle pulls is handed over once, however it goes, exactly where no message or
acknowledgement keeps another's job back. -/
theorem every_job_handed_iff (python : Python) (cycle : Cycle) :
    HandsEveryJob python cycle ↔ Contained python cycle := by
  constructor
  · intro h
    refine ⟨?_, ?_⟩
    · intro k messages hpulled
      by_contra hmixed
      rw [not_or] at hmixed
      obtain ⟨hbad, hgood⟩ := hmixed
      push Not at hgood
      obtain ⟨message, hmessage, hwell⟩ := hgood
      obtain ⟨i, hi⟩ := List.getElem?_of_mem hmessage
      obtain ⟨handed, hover⟩ := exists_processOnce python cycle
      have hcount := h handed hover k messages hpulled i message hi hwell
      have hin : (k, i) ∈ handed := List.count_pos_iff.mp (by omega)
      obtain ⟨jobs, hreceive⟩ := hover.received hin
      obtain ⟨others, hothers, hall, -⟩ := pulled_of_receive hreceive
      have hsame : some others = some messages := hothers.2.2.symm.trans hpulled.2.2
      cases hsame
      exact hbad hall
    · intro k messages hpulled hall
      obtain ⟨jobs, hreceive, hlength⟩ := receive_of_pulled hpulled hall
      rw [← hlength]
      refine processBatch_iff.mp fun places hplaces => ?_
      obtain ⟨m, hm, rfl⟩ := hplaces.eq_range
      by_contra hfewer
      have hlt : m < messages.length := by
        rcases Nat.lt_or_eq_of_le hm with hlt | heq
        · omega
        · exact absurd (by rw [heq]) hfewer
      have hover : ProcessOnce python cycle ((List.range m).map fun i => (k, i)) := by
        rw [ProcessOnce, hreceive]
        exact ⟨List.range m, hplaces, rfl⟩
      have hcount := h _ hover k messages hpulled m messages[m] (List.getElem?_eq_getElem hlt)
        (hall _ (List.getElem_mem hlt))
      rw [count_handed, if_neg (Nat.lt_irrefl m)] at hcount
      cases hcount
  · intro h handed hover k messages hpulled i message hi hwell
    have hmem : message ∈ messages := List.mem_of_getElem? hi
    have hall : ∀ message ∈ messages, WellFormed python message := by
      rcases h.parsed k messages hpulled with hall | hnone
      · exact hall
      · exact absurd hwell (hnone message hmem)
    obtain ⟨jobs, hreceive, hlength⟩ := receive_of_pulled hpulled hall
    rw [ProcessOnce, hreceive] at hover
    obtain ⟨places, hplaces, rfl⟩ := hover
    have hfew := h.acknowledged k messages hpulled hall
    rw [← hlength] at hfew
    have hlt : i < jobs.length := by
      rw [hlength]
      exact (List.getElem?_eq_some_iff.mp hi).1
    rw [processBatch_iff.mpr hfew places hplaces, count_handed, if_pos hlt]

/-- An empty message. -/
def emptyMessage : PulledMessage := ⟨"".toUTF8, py "a", py "1"⟩

/-- The fields of a job. -/
def jobMembers : TolerantJson.Members :=
  [("document_id", .str "d"), ("version", .str "v"), ("filename", .str "f"), ("s3_uri", .str "u")]

/-- Its text. -/
def jobText : String :=
  "\x7b\"document_id\": \"d\", \"version\": \"v\", \"filename\": \"f\", \"s3_uri\": \"u\"\x7d"

/-- A message with a job. -/
def jobMessage : PulledMessage := ⟨jobText.toUTF8, py "b", py "2"⟩

theorem jobMessage_wellFormed : WellFormed plainPython jobMessage := by
  have hnumbers : ∀ n ∈ (JsonText.Json.obj jobMembers).numbers, PythonJson.readBack n = some n := by
    simp [jobMembers, JsonText.Json.numbers, JsonText.memberNumbers]
  have hs : TolerantJson.Serialises jobText.toList jobMembers :=
    TolerantJson.serialises_written JsonText.pythonLayout hnumbers
  have htext : String.fromUTF8? jobMessage.data = some jobText := ChunkStorage.fromUTF8?_toUTF8 jobText
  refine ⟨⟨⟨py "d", py "v", py "f", py "u", none⟩, py "b", some (py "2")⟩, ?_⟩
  rw [parseMessage, htext]
  dsimp only
  rw [loads_plain hs]
  rfl

theorem emptyMessage_refused : parseMessage plainPython emptyMessage = .error .jsonDecode := by
  have htext : String.fromUTF8? emptyMessage.data = some "" := ChunkStorage.fromUTF8?_toUTF8 ""
  rw [parseMessage, htext]
  rfl

/-- Every attempt pulls the empty message and the one with a job. -/
def strayCycle : Cycle where
  maxRetries := 3
  maxConcurrency := 1
  pull _ := some [emptyMessage, jobMessage]
  ends _ := .completed
  acknowledged _ _ := true

/-- The job beside the empty message is not handed over. -/
theorem job_beside_empty_not_handed : WellFormed plainPython jobMessage ∧
    Pulled plainPython strayCycle 0 [emptyMessage, jobMessage] ∧
      (∀ handed, ProcessOnce plainPython strayCycle handed → handed = []) ∧ ¬ HandsEveryJob plainPython strayCycle := by
  have hattempt : ∀ k, receiveOnce plainPython strayCycle k = .error .jsonDecode := by
    intro k
    rw [receiveOnce]
    dsimp only [strayCycle]
    rw [List.mapM_cons, emptyMessage_refused]
    rfl
  have hpulled : Pulled plainPython strayCycle 0 [emptyMessage, jobMessage] :=
    ⟨Nat.zero_le _, fun j hj => absurd hj (Nat.not_lt_zero j), rfl⟩
  have hnone : ∀ handed, ProcessOnce plainPython strayCycle handed → handed = [] := by
    intro handed h
    obtain ⟨j, hj, -⟩ := retryFrom_spec (receiveOnce plainPython strayCycle) strayCycle.retries 0
    rw [ProcessOnce, receive, hj, hattempt] at h
    exact h
  refine ⟨jobMessage_wellFormed, hpulled, hnone, ?_⟩
  intro h
  obtain ⟨handed, hover⟩ := exists_processOnce plainPython strayCycle
  have hcount := h handed hover 0 _ hpulled 1 jobMessage rfl jobMessage_wellFormed
  rw [hnone handed hover] at hcount
  cases hcount

end Whole

end RagSystem.IngestionCycles
