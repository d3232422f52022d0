import RagSystem.DocumentService

/-!
# What one call changes

What a call read or wrote, told from the call and its answer alone, and what
that does to the stored records and version indexes, to the record caches, to
the retained chunks and to the vector index. Whatever is not named stays as it
is.
-/

namespace RagSystem.CallEffects

open AtomicProgram VersionedCell Storage DocumentModels DocumentStore DocumentService

set_option autoImplicit false

section Events

/-- The record a call read with its generation, and of which document. -/
def recordRead : CallEvent → Option (DocumentId × DocumentRecord)
  | ⟨.getJsonWithEtag (.documentRecord d), .ok (some (r, _))⟩ => some (d, r)
  | _ => none

/-- The record a call tried to write, and of which document. -/
def recordAttempted : CallEvent → Option (DocumentId × DocumentRecord)
  | ⟨.putJsonConditional (.documentRecord d) r _, _⟩ => some (d, r)
  | ⟨.putJson (.documentRecord d) r, _⟩ => some (d, r)
  | _ => none

/-- The record a call wrote, and of which document. -/
def recordWritten : CallEvent → Option (DocumentId × DocumentRecord)
  | ⟨.putJsonConditional (.documentRecord d) r _, .ok _⟩ => some (d, r)
  | ⟨.putJson (.documentRecord d) r, .ok _⟩ => some (d, r)
  | _ => none

/-- The document whose record a call of the writing loop is about. -/
def recordCall : CallEvent → Option DocumentId
  | ⟨.getJsonWithEtag (.documentRecord d), _⟩ => some d
  | ⟨.putJsonConditional (.documentRecord d) _ _, _⟩ => some d
  | ⟨.putJson (.documentRecord d) _, _⟩ => some d
  | _ => none

/-- The version index a call wrote, and of which document. -/
def indexWritten : CallEvent → Option (DocumentId × DocumentVersionIndex)
  | ⟨.putJsonConditional (.documentVersionIndex d) i _, .ok _⟩ => some (d, i)
  | ⟨.putJson (.documentVersionIndex d) i, .ok _⟩ => some (d, i)
  | _ => none

/-- The record a call cached, and in which process. -/
def recordCached : CallEvent → Option (ProcessId × DocumentRecord)
  | ⟨.other (.cachePut p r), _⟩ => some (p, r)
  | _ => none

/-- A call that is not of the writing loop writes no record. -/
theorem recordWritten_of_recordCall {e : CallEvent} (h : recordCall e = none) : recordWritten e = none := by
  obtain ⟨a, r⟩ := e
  cases a with
  | putJson k v => cases k <;> cases r <;> first | rfl | contradiction
  | putJsonConditional k v c => cases k <;> cases r <;> first | rfl | contradiction
  | _ => rfl

end Events

section Effects

variable {e : CallEvent} {w w' : World}

/-- The object a call wrote. -/
def jsonWritten : CallEvent → Option ((k : Key) × Payload k)
  | ⟨.putJsonConditional k v _, .ok _⟩ => some ⟨k, v⟩
  | ⟨.putJson k v, .ok _⟩ => some ⟨k, v⟩
  | _ => none

/-- A written object that is a record. -/
def asRecord : (k : Key) × Payload k → Option (DocumentId × DocumentRecord)
  | ⟨.documentRecord d, r⟩ => some (d, r)
  | _ => none

/-- A written object that is a version index. -/
def asIndex : (k : Key) × Payload k → Option (DocumentId × DocumentVersionIndex)
  | ⟨.documentVersionIndex d, i⟩ => some (d, i)
  | _ => none

/-- The record a call wrote is the object it wrote. -/
theorem recordWritten_eq (e : CallEvent) : recordWritten e = (jsonWritten e).bind asRecord := by
  obtain ⟨a, r⟩ := e
  cases a with
  | putJson k v => cases r <;> cases k <;> rfl
  | putJsonConditional k v c => cases r <;> cases k <;> rfl
  | _ => rfl

/-- So is the version index. -/
theorem indexWritten_eq (e : CallEvent) : indexWritten e = (jsonWritten e).bind asIndex := by
  obtain ⟨a, r⟩ := e
  cases a with
  | putJson k v => cases r <;> cases k <;> rfl
  | putJsonConditional k v c => cases r <;> cases k <;> rfl
  | _ => rfl

/-- A call writes the object it says, or none. -/
theorem exec_written (h : service.Exec e w w') : (jsonWritten e = none ∧ w'.objects = w.objects) ∨
    ∃ k v, jsonWritten e = some ⟨k, v⟩ ∧ w' = { w with objects := put w.objects k v } := by
  obtain ⟨a, r⟩ := e
  cases a with
  | getJson k => exact .inl ⟨rfl, by rw [(exec_getJson h).1]⟩
  | getJsonWithEtag k => exact .inl ⟨rfl, by rw [(exec_getJsonWithEtag h).1]⟩
  | other x =>
    obtain ⟨o, rest, -, rfl⟩ := exec_other h
    exact .inl ⟨rfl, rfl⟩
  | putJson k v =>
    rcases exec_putJson h with ⟨rfl, rfl⟩ | ⟨rfl, m, rfl⟩
    · exact .inr ⟨k, v, rfl, rfl⟩
    · exact .inl ⟨rfl, rfl⟩
  | putJsonConditional k v c =>
    rcases exec_putJsonConditional h with ⟨rfl, -, rfl⟩ | ⟨rfl, ⟨rfl, -⟩ | ⟨m, rfl⟩⟩
    · exact .inr ⟨k, v, rfl, rfl⟩
    · exact .inl ⟨rfl, rfl⟩
    · exact .inl ⟨rfl, rfl⟩

/-- A record is what was last written for it. -/
theorem record_of_exec (h : service.Exec e w w') (d : DocumentId) :
    w'.record d = match recordWritten e with
      | some (d', r) => if d = d' then some r else w.record d
      | none => w.record d := by
  rw [recordWritten_eq]
  rcases exec_written h with ⟨hnone, hw⟩ | ⟨k, v, hsome, rfl⟩
  · rw [hnone]
    simp only [Option.bind_none, World.record, hw]
  · rw [hsome]
    cases k with
    | documentRecord d' =>
      simp only [Option.bind_some, asRecord]
      by_cases hd : d = d'
      · rw [if_pos hd, hd, World.record_put_self]
      · rw [if_neg hd]
        exact World.record_put_of_ne v fun he => hd (by injection he)
    | _ => exact World.record_put_of_ne v fun he => by cases he

/-- A version index is what was last written for it. -/
theorem versionIndex_of_exec (h : service.Exec e w w') (d : DocumentId) :
    w'.versionIndex d = match indexWritten e with
      | some (d', i) => if d = d' then some i else w.versionIndex d
      | none => w.versionIndex d := by
  rw [indexWritten_eq]
  rcases exec_written h with ⟨hnone, hw⟩ | ⟨k, v, hsome, rfl⟩
  · rw [hnone]
    simp only [Option.bind_none, World.versionIndex, hw]
  · rw [hsome]
    cases k with
    | documentVersionIndex d' =>
      simp only [Option.bind_some, asIndex]
      by_cases hd : d = d'
      · rw [if_pos hd, hd, World.versionIndex_put_self]
      · rw [if_neg hd]
        exact World.versionIndex_put_of_ne v fun he => hd (by injection he)
    | _ => exact World.versionIndex_put_of_ne v fun he => by cases he

/-- The caches after a call outside the JSON store. -/
def cacheAfter (cache : ProcessId → DocumentId → Option DocumentRecord) :
    ServiceCall → ProcessId → DocumentId → Option DocumentRecord
  | .cachePut p r => Function.update cache p (Function.update (cache p) r.id (some r))
  | _ => cache

/-- Only a cache write changes a cache. -/
theorem cache_of_perform {x : ServiceCall} {o : Fate} {r : Except Err (ServiceAnswer x)} {rest : Service}
    (h : perform? x o w = some (r, rest)) : rest.cache = cacheAfter w.rest.cache x := by
  cases x <;> cases o <;> first
    | contradiction
    | (cases h; rfl)
    | (simp only [perform?] at h; split at h <;> first | contradiction | (cases h; rfl))

/-- A cache holds what was last put there. -/
theorem cache_of_exec (h : service.Exec e w w') (p : ProcessId) (d : DocumentId) :
    w'.rest.cache p d = match recordCached e with
      | some (p', r) => if p = p' ∧ d = r.id then some r else w.rest.cache p d
      | none => w.rest.cache p d := by
  obtain ⟨a, r⟩ := e
  cases a with
  | getJson k => rw [(exec_getJson h).1]; rfl
  | getJsonWithEtag k => rw [(exec_getJsonWithEtag h).1]; rfl
  | putJson k v => rcases exec_putJson h with ⟨rfl, rfl⟩ | ⟨rfl, m, rfl⟩ <;> rfl
  | putJsonConditional k v c =>
    rcases exec_putJsonConditional h with ⟨rfl, -, rfl⟩ | ⟨rfl, -⟩ <;> rfl
  | other x =>
    obtain ⟨o, rest, ho, rfl⟩ := exec_other h
    dsimp only
    rw [cache_of_perform ho]
    cases x with
    | cachePut p' r' =>
      simp only [cacheAfter, recordCached]
      by_cases hp : p = p'
      · subst hp
        by_cases hd : d = r'.id
        · rw [hd, if_pos ⟨rfl, rfl⟩]
          simp only [Function.update_self]
        · rw [if_neg fun hh => hd hh.2]
          simp only [Function.update_self, Function.update_of_ne hd]
      · rw [if_neg fun hh => hp hh.1]
        simp only [Function.update_of_ne hp]
    | _ => rfl

/-- The vectors after a call that went through. -/
def vectorsAfter (vectors : ChunkId → Option Chunk) : CallEvent → ChunkId → Option Chunk
  | ⟨.other (.upsertBatch batch), .ok _⟩ => upsertVectors vectors batch
  | ⟨.other (.deleteDocument d), .ok _⟩ => deleteVectors vectors fun c => c.documentId = d
  | ⟨.other (.deleteDocumentVersion d v), .ok _⟩ =>
    deleteVectors vectors fun c => c.documentId = d ∧ c.version = v
  | ⟨.other (.deleteDocumentExceptVersion d v), .ok _⟩ =>
    deleteVectors vectors fun c => c.documentId = d ∧ c.version ≠ v
  | _ => vectors

/-- The vectors change as the calls that go through say; of a batch that raised,
some first vectors may have been written. -/
theorem vectors_of_exec (h : service.Exec e w w') : w'.rest.vectors = vectorsAfter w.rest.vectors e ∨
    ∃ batch n m, e = ⟨.other (.upsertBatch batch), .error (.raised m)⟩ ∧
      w'.rest.vectors = upsertVectors w.rest.vectors (batch.take n) := by
  obtain ⟨a, r⟩ := e
  cases a with
  | getJson k => rw [(exec_getJson h).1]; exact .inl rfl
  | getJsonWithEtag k => rw [(exec_getJsonWithEtag h).1]; exact .inl rfl
  | putJson k v => rcases exec_putJson h with ⟨rfl, rfl⟩ | ⟨rfl, m, rfl⟩ <;> exact .inl rfl
  | putJsonConditional k v c =>
    rcases exec_putJsonConditional h with ⟨rfl, -, rfl⟩ | ⟨rfl, -⟩ <;> exact .inl rfl
  | other x =>
    obtain ⟨o, rest, ho, rfl⟩ := exec_other h
    cases x with
    | upsertBatch batch =>
      cases o with
      | proceed => cases ho; exact .inl rfl
      | raise m => cases ho; exact .inl rfl
      | partly n m => cases ho; exact .inr ⟨batch, n, m, rfl, rfl⟩
      | _ => contradiction
    | _ => cases o <;> first
      | contradiction
      | (cases ho; exact .inl rfl)
      | (simp only [perform?] at ho; split at ho <;> first | contradiction | (cases ho; exact .inl rfl))

/-- The retained chunks after a call. -/
def chunksAfter (chunks : DocumentId → Version → Option (List Chunk)) :
    CallEvent → DocumentId → Version → Option (List Chunk)
  | ⟨.other (.putChunks d v cs), .ok _⟩ => fun d' v' => if d' = d ∧ v' = v then some cs else chunks d' v'
  | _ => chunks

/-- The retained chunks are those last put there. -/
theorem chunks_of_exec (h : service.Exec e w w') : w'.rest.chunks = chunksAfter w.rest.chunks e := by
  obtain ⟨a, r⟩ := e
  cases a with
  | getJson k => rw [(exec_getJson h).1]; rfl
  | getJsonWithEtag k => rw [(exec_getJsonWithEtag h).1]; rfl
  | putJson k v => rcases exec_putJson h with ⟨rfl, rfl⟩ | ⟨rfl, m, rfl⟩ <;> rfl
  | putJsonConditional k v c =>
    rcases exec_putJsonConditional h with ⟨rfl, -, rfl⟩ | ⟨rfl, -⟩ <;> rfl
  | other x =>
    obtain ⟨o, rest, ho, rfl⟩ := exec_other h
    cases x <;> cases o <;> first
      | contradiction
      | (cases ho; rfl)
      | (simp only [perform?] at ho; split at ho <;> first | contradiction | (cases ho; rfl))

end Effects

section Vectors

variable (vectors : ChunkId → Option Chunk) {i : ChunkId}

/-- Batches are written one after the other. -/
theorem upsertVectors_append (batch batch' : List Chunk) :
    upsertVectors vectors (batch ++ batch') = upsertVectors (upsertVectors vectors batch) batch' := by
  simp only [upsertVectors, List.foldl_append]

/-- An id that no chunk of a batch has keeps its vector. -/
theorem upsertVectors_of_notMem {batch : List Chunk} (hi : i ∉ batch.map Chunk.id) :
    upsertVectors vectors batch i = vectors i := by
  induction batch generalizing vectors with
  | nil => rfl
  | cons c batch ih =>
    rw [List.map_cons, List.mem_cons, not_or] at hi
    have hrest := ih (Function.update vectors c.id (some c)) hi.2
    rw [Function.update_of_ne hi.1] at hrest
    exact hrest

/-- An id of a batch has the vector of a chunk of the batch. -/
theorem upsertVectors_of_mem {batch : List Chunk} (hi : i ∈ batch.map Chunk.id) :
    ∃ c ∈ batch, c.id = i ∧ upsertVectors vectors batch i = some c := by
  induction batch generalizing vectors with
  | nil => contradiction
  | cons c batch ih =>
    by_cases hrest : i ∈ batch.map Chunk.id
    · obtain ⟨c', hin, hid, hc⟩ := ih (Function.update vectors c.id (some c)) hrest
      exact ⟨c', List.mem_cons_of_mem _ hin, hid, hc⟩
    · have hid : i = c.id := (List.mem_cons.mp hi).resolve_right hrest
      refine ⟨c, List.mem_cons_self, hid.symm, ?_⟩
      have hkept := upsertVectors_of_notMem (Function.update vectors c.id (some c)) hrest
      rw [hid, Function.update_self] at hkept
      rw [hid]
      exact hkept

/-- A deletion keeps the vectors its filter does not meet. -/
theorem deleteVectors_eq_some {vectors : ChunkId → Option Chunk} {filter : Chunk → Bool} {c : Chunk} :
    deleteVectors vectors filter i = some c ↔ vectors i = some c ∧ filter c = false := by
  simp only [deleteVectors, Option.filter_eq_some_iff, Bool.not_eq_true']

end Vectors

end RagSystem.CallEffects
