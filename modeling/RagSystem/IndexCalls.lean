import RagSystem.StoreCalls

/-!
# Calls that leave the vector index alone

Record reads and writes, the version history and the embedding of chunks touch
neither the vectors nor the retained chunks. What an ingestion does to these is
done by a few calls of its stages, its cleanups and its abort.
-/

namespace RagSystem.IndexCalls

open AtomicProgram RelyGuarantee Storage CompareAndSwap DocumentModels DocumentStore DocumentService
  CallEffects StoreCalls

set_option autoImplicit false

section Calls

/-- A call that touches neither the vectors nor the retained chunks. -/
def IndexFree : Action → Prop
  | .other (.putChunks _ _ _) => False
  | .other (.upsertBatch _) => False
  | .other (.deleteDocument _) => False
  | .other (.deleteDocumentVersion _ _) => False
  | .other (.deleteDocumentExceptVersion _ _) => False
  | _ => True

/-- It leaves them as they are. -/
theorem index_of_exec {e : CallEvent} {w w' : World} (h : service.Exec e w w') (he : IndexFree e.action) :
    w'.rest.vectors = w.rest.vectors ∧ w'.rest.chunks = w.rest.chunks := by
  have hchunks : w'.rest.chunks = chunksAfter w.rest.chunks e := chunks_of_exec h
  have hvectors : w'.rest.vectors = vectorsAfter w.rest.vectors e := by
    rcases vectors_of_exec h with hv | ⟨batch, n, m, heq, -⟩
    · exact hv
    · rw [heq] at he
      contradiction
  rw [hvectors, hchunks]
  obtain ⟨a, r⟩ := e
  cases a with
  | other x => cases x <;> first | contradiction | exact ⟨rfl, rfl⟩
  | _ => exact ⟨rfl, rfl⟩

end Calls

section Programs

/-- One call is free of them if it is one of these. -/
theorem uses_call_free (x : ServiceCall) (hx : IndexFree (.other x)) : (call x).Uses IndexFree :=
  Program.uses_perform hx

/-- A plain write is free of them. -/
theorem uses_putJson_free (k : Key) (payload : Payload k) : (putJson k payload : Prog Unit).Uses IndexFree :=
  Program.uses_perform trivial

/-- A record read is free of them. -/
theorem uses_getDocument_free (p : ProcessId) (d : DocumentId) : (getDocument p d).Uses IndexFree :=
  uses_getDocument trivial trivial fun _ => trivial

/-- So is a guarded record write. -/
theorem uses_saveDocumentRecord_free (p : ProcessId) (r : DocumentRecord) :
    (saveDocumentRecord p r).Uses IndexFree :=
  uses_saveDocumentRecord trivial (fun _ => trivial) trivial

/-- So is the creation of an artifact. -/
theorem uses_createArtifact_free (k : Key) (payload : Payload k) : (createArtifact k payload).Uses IndexFree := by
  refine (Program.uses_perform trivial).catchError fun e => ?_
  cases e <;> trivial

/-- So is the record of an event. -/
theorem uses_recordIngestionEvent_free (d : DocumentId) (v : Version) (status : IngestionStatus)
    (timestamp : String) (error : Option String) :
    (recordIngestionEvent d v status timestamp error).Uses IndexFree :=
  (Program.uses_perform trivial).bind fun _ => uses_createArtifact_free _ _

/-- So is the record of a success. -/
theorem uses_recordIngestionSuccess_free (d : DocumentId) (v : Version) :
    (recordIngestionSuccess d v).Uses IndexFree := by
  refine (Program.uses_perform trivial).bind fun timestamp => ?_
  refine (uses_createArtifact_free _ _).bind fun _ => ?_
  refine (uses_recordIngestionEvent_free d v .succeeded timestamp none).bind fun _ => ?_
  exact (uses_updateJsonCas trivial (fun _ _ _ _ => trivial) _).bind fun _ => trivial

/-- So is the record of a failure. -/
theorem uses_recordIngestionFailure_free (d : DocumentId) (v : Version) (error : String) :
    (recordIngestionFailure d v error).Uses IndexFree :=
  (Program.uses_perform trivial).bind fun timestamp =>
    uses_recordIngestionEvent_free d v .failed timestamp (some error)

/-- So is the reading of the source. -/
theorem uses_readSource_free (p : ProcessId) (record : DocumentRecord) (job : IngestionJob) :
    (readSource p record job).Uses IndexFree := by
  refine (Program.uses_perform trivial).catchError fun _ => ?_
  refine (Program.uses_perform trivial).catchError fun exc => ?_
  exact (uses_saveDocumentRecord_free p _).bind fun _ => trivial

/-- So is embedding. -/
theorem uses_embed_free (settings : Settings) (chunks : List Chunk) : (embed settings chunks).Uses IndexFree := by
  refine (Program.uses_perform trivial).bind fun _ => ?_
  split
  · exact Program.uses_perform trivial
  · trivial

variable {S : Action → Prop} (hS : ∀ a, IndexFree a → S a)
include hS

/-- Stopping for a deleted document uses one more call. -/
theorem uses_abortIngestionForDeleted {p : ProcessId} {d : DocumentId} (hdel : S (.other (.deleteDocument d))) :
    (abortIngestionForDeleted p d).Uses S := by
  have hrollback : (bestEffort (.deleteDocument d) ()).Uses S :=
    (Program.uses_perform hdel).catchError fun _ => trivial
  refine hrollback.bind fun _ => ((uses_getDocument_free p d).mono hS).bind fun current => ?_
  cases current <;> trivial

/-- Stopping for a newer upload uses none. -/
theorem uses_abortIngestionForSuperseded (p : ProcessId) (d : DocumentId) :
    (abortIngestionForSuperseded p d).Uses S := by
  refine ((uses_getDocument_free p d).mono hS).bind fun current => ?_
  cases current <;> trivial

/-- The failure path uses the rollback and the cleanup of its version. -/
theorem uses_ingestFailure {p : ProcessId} {record : DocumentRecord}
    (hdel : S (.other (.deleteDocument record.id)))
    (hversion : S (.other (.deleteDocumentVersion record.id record.version))) (exc : Err) :
    (ingestFailure p record exc).Uses S := by
  refine Program.Uses.bind ?_ fun refused => ?_
  · refine Program.Uses.catchError ?_ fun e => ?_
    · exact ((uses_saveDocumentRecord_free p _).mono hS).bind fun _ => trivial
    · split
      · exact (uses_abortIngestionForDeleted hS hdel).bind fun _ => trivial
      · exact (uses_abortIngestionForSuperseded hS p _).bind fun _ => trivial
      · trivial
  · cases refused with
    | some current => trivial
    | none =>
      have hcleanup : (cleanupFailedVersionVectors record.id record.version).Uses S :=
        (Program.uses_perform hversion).catchError fun _ => trivial
      refine ((uses_recordIngestionFailure_free record.id record.version _).mono hS).bind fun _ => ?_
      exact hcleanup.bind fun _ => trivial

end Programs

section Batches

/-- The batches of an upsert are its chunks, in order. -/
theorem flatten_batches {size : ℕ} (hsize : 0 < size) (chunks : List Chunk) :
    (batches size chunks).flatten = chunks := by
  have hbatches (n : ℕ) : ((List.range n).map fun i => (chunks.drop (i * size)).take size).flatten =
      chunks.take (n * size) := by
    induction n with
    | zero => simp only [List.range_zero, List.map_nil, List.flatten_nil, Nat.zero_mul, List.take_zero]
    | succ n ih =>
      rw [List.range_succ, List.map_append, List.flatten_append, ih, Nat.succ_mul, List.take_add]
      simp only [List.map_cons, List.map_nil, List.flatten_cons, List.flatten_nil, List.append_nil]
  have hall : chunks.length ≤ (chunks.length + size - 1) / size * size := by
    have hdiv := Nat.div_add_mod (chunks.length + size - 1) size
    have hmod := Nat.mod_lt (chunks.length + size - 1) hsize
    rw [Nat.mul_comm] at hdiv
    omega
  rw [batches, hbatches, List.take_of_length_le hall]

end Batches

end RagSystem.IndexCalls
