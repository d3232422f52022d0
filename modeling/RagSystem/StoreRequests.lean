import RagSystem.CompareAndSwap

/-!
# Store requests and lost replies

The compare-and-swap operations one level down: every call is a loop of
requests, repeated while they fail. The store applies a conditional upload or
refuses it, and either way the request may fail before or after that.
-/

namespace RagSystem.StoreRequests

open AtomicProgram VersionedCell Storage CompareAndSwap

set_option autoImplicit false

variable {K E α : Type} {P : K → Type}

/-- One request to the object store. -/
inductive Request (P : K → Type) where
  /-- Read an object together with its generation. -/
  | getBlob (k : K)
  /-- `upload_from_string` with `if_generation_match`. -/
  | upload (k : K) (content : P k) (condition : Precondition)

/-- What each request returns. -/
abbrev RequestAnswer : Request P → Type
  | .getBlob k => Option (P k × ℕ)
  | .upload _ _ _ => Unit

/-- What a request or a caller can raise. -/
inductive RequestError (K E : Type) where
  /-- The generation was another (`PreconditionFailed`). -/
  | preconditionFailed (key : K)
  /-- The request failed. `applied` is not for the caller to see: the store
  had carried the request out. -/
  | transient (applied : Bool) (message : String)
  /-- One of the caller's own exceptions. -/
  | app (error : E)

/-- A program of requests. -/
abbrev RequestProgram (E : Type) (P : K → Type) (α : Type) := Program (RequestError K E) (RequestAnswer (P := P)) α

/-- One performed request with its answer. -/
abbrev RequestEvent (E : Type) (P : K → Type) := Event (RequestError K E) (RequestAnswer (P := P))

section Programs

/-- `retry_on_transient`, with this many attempts left after the first one. -/
def retryOnTransient (exclude : RequestError K E → Bool) (body : RequestProgram E P α) : ℕ → RequestProgram E P α
  | 0 => body
  | left + 1 => tryCatch body fun e => if exclude e then throw e else retryOnTransient exclude body left

/-- `exclude=PreconditionFailed`. -/
def isPreconditionFailed : RequestError K E → Bool
  | .preconditionFailed _ => true
  | _ => false

/-- `get_json_with_etag`. -/
def getJsonWithEtag (maxRetries : ℕ) (k : K) : RequestProgram E P (Option (P k × ℕ)) :=
  retryOnTransient (fun _ => false) (perform (Request.getBlob k)) (maxRetries - 1)

/-- `_put_bytes_conditional`. The first attempt is always made. -/
def putBytesConditional (maxRetries : ℕ) (k : K) (content : P k) (condition : Precondition) : RequestProgram E P Unit :=
  retryOnTransient isPreconditionFailed (perform (Request.upload k content condition)) (maxRetries - 1)

/-- `create_json`. -/
def createJson (maxRetries : ℕ) (k : K) (payload : P k) : RequestProgram E P Unit :=
  putBytesConditional maxRetries k payload .ifNoneMatch

/-- The write of one round of `update_json_cas`: it went through, or the race
is lost. -/
def putUnlessRaced (maxRetries : ℕ) (k : K) (payload : P k) (condition : Precondition) : RequestProgram E P Bool :=
  tryCatch (do putBytesConditional maxRetries k payload condition; pure true) fun
    | .preconditionFailed _ => pure false
    | e => throw e

/-- `update_json_cas`. -/
def updateJsonCas (maxRetries : ℕ) (k : K) (mutate : Option (P k) → Except (RequestError K E) (P k)) :
    ℕ → RequestProgram E P (P k)
  | 0 => throw (.preconditionFailed k)
  | attempts + 1 => do
    let current ← getJsonWithEtag maxRetries k
    match mutate (current.map Prod.fst) with
    | .error e => throw e
    | .ok payload => do
      let written ← putUnlessRaced maxRetries k payload (conditionOf current)
      if written then pure payload else updateJsonCas maxRetries k mutate attempts

/-- What the callers run. -/
inductive Operation (E : Type) (P : K → Type) where
  /-- A read-modify-write. -/
  | updateJsonCas (k : K) (mutate : Option (P k) → Except (RequestError K E) (P k)) (maxAttempts : ℕ)
  /-- A create-only write. -/
  | createJson (k : K) (payload : P k)

/-- What they return. -/
inductive Reply (P : K → Type) where
  /-- The payload written. -/
  | updated (k : K) (payload : P k)
  /-- The object was created. -/
  | created (k : K)

/-- The program of each operation. -/
def code (maxRetries : ℕ) : Operation E P → RequestProgram E P (Reply P)
  | .updateJsonCas k mutate maxAttempts => .updated k <$> updateJsonCas maxRetries k mutate maxAttempts
  | .createJson k payload => (fun _ => .created k) <$> createJson maxRetries k payload

end Programs

section Semantics

/-- What the network does to one request. -/
inductive Fate where
  /-- The store answers. -/
  | reply
  /-- The request fails and the store never saw it. -/
  | drop (message : String)
  /-- The request fails after the store dealt with it. -/
  | lose (message : String)

variable [DecidableEq K]

/-- What the requests do. -/
def requests : Machine Fate (Cells P) (RequestError K E) (RequestAnswer (P := P))
  | .getBlob k, .reply, w => some (.ok (tagged (w k)), w)
  | .getBlob _, .drop m, w => some (.error (.transient false m), w)
  | .getBlob _, .lose m, w => some (.error (.transient false m), w)
  | .upload k v c, .reply, w =>
    if (w k).admits c then some (.ok (), put w k v) else some (.error (.preconditionFailed k), w)
  | .upload _ _ _, .drop m, w => some (.error (.transient false m), w)
  | .upload k v c, .lose m, w =>
    if (w k).admits c then some (.error (.transient true m), put w k v) else some (.error (.transient false m), w)

/-- The store applied the upload, whether its caller knows or not. -/
def applied : RequestEvent E P → Bool
  | ⟨.upload _ _ _, .ok _⟩ => true
  | ⟨.upload _ _ _, .error (.transient done _)⟩ => done
  | _ => false

/-- The store answered that it refuses the upload. -/
def refused : RequestEvent E P → Bool
  | ⟨.upload _ _ _, .error (.preconditionFailed _)⟩ => true
  | _ => false

/-- A read changes nothing; it finds the cell, or fails. -/
theorem exec_getBlob {k : K} {r : Except (RequestError K E) (Option (P k × ℕ))} {w w' : Cells P}
    (h : requests.Exec ⟨.getBlob k, r⟩ w w') :
    w' = w ∧ (r = .ok (tagged (w k)) ∨ ∃ m, r = .error (.transient false m)) := by
  obtain ⟨o, ho⟩ := h
  cases o with
  | reply =>
    cases ho
    exact ⟨rfl, .inl rfl⟩
  | drop m =>
    cases ho
    exact ⟨rfl, .inr ⟨m, rfl⟩⟩
  | lose m =>
    cases ho
    exact ⟨rfl, .inr ⟨m, rfl⟩⟩

/-- An upload is applied where its condition holds, and answered or not; or it
changes nothing, and is refused or fails. -/
theorem exec_upload {k : K} {v : P k} {c : Precondition} {r : Except (RequestError K E) Unit} {w w' : Cells P}
    (h : requests.Exec ⟨.upload k v c, r⟩ w w') :
    ((w k).admits c = true ∧ w' = put w k v ∧ (r = .ok () ∨ ∃ m, r = .error (.transient true m))) ∨
      (w' = w ∧ ((r = .error (.preconditionFailed k) ∧ (w k).admits c = false) ∨
        ∃ m, r = .error (.transient false m))) := by
  obtain ⟨o, ho⟩ := h
  cases o with
  | reply =>
    simp only [requests] at ho
    split at ho
    · next ha =>
      cases ho
      exact .inl ⟨ha, rfl, .inl rfl⟩
    · next ha =>
      cases ho
      exact .inr ⟨rfl, .inl ⟨rfl, by simpa only [Bool.not_eq_true] using ha⟩⟩
  | drop m =>
    cases ho
    exact .inr ⟨rfl, .inr ⟨m, rfl⟩⟩
  | lose m =>
    simp only [requests] at ho
    split at ho
    · next ha =>
      cases ho
      exact .inl ⟨ha, rfl, .inr ⟨m, rfl⟩⟩
    · cases ho
      exact .inr ⟨rfl, .inr ⟨m, rfl⟩⟩

/-- Whatever a request changes, it changes by writing. -/
theorem exec_later {e : RequestEvent E P} {w w' : Cells P} (h : requests.Exec e w w') : Later w w' := by
  obtain ⟨a, r⟩ := e
  cases a with
  | getBlob k =>
    rw [(exec_getBlob h).1]
    exact .refl w
  | upload k v c =>
    rcases exec_upload h with ⟨-, rfl, -⟩ | ⟨rfl, -⟩
    · exact later_put w k v
    · exact .refl w'

/-- A request that is not applied changes nothing. -/
theorem eq_of_not_applied {e : RequestEvent E P} {w w' : Cells P} (h : requests.Exec e w w')
    (hnot : applied e = false) : w' = w := by
  obtain ⟨a, r⟩ := e
  cases a with
  | getBlob k => exact (exec_getBlob h).1
  | upload k v c =>
    rcases exec_upload h with ⟨-, -, rfl | ⟨m, rfl⟩⟩ | ⟨rfl, -⟩
    · contradiction
    · contradiction
    · rfl

end Semantics

end RagSystem.StoreRequests
