import Mathlib.Data.List.ReduceOption
import RagSystem.ReadGate

/-!
# The manifest of a corpus snapshot

A snapshot lists the documents with a pointer to an active version. The gate
serves by another rule: nothing of a deleted document, and the version of an
indexed record without a pointer. The two agree where every pointer names what
is served.
-/

namespace RagSystem.SnapshotManifests

open AtomicProgram RelyGuarantee VersionedCell Storage DocumentModels DocumentStore DocumentService StoreCalls
  RecordCaches ReadGate

set_option autoImplicit false

section Endpoint

/-- `_safe_get_document`: a record that cannot be read is skipped. -/
def safeGetDocument (p : ProcessId) (d : DocumentId) : Prog (Option DocumentRecord) :=
  tryCatch (getDocument p d) fun _ => pure none

/-- The reads of a listing. -/
def fetchDocuments (p : ProcessId) : List DocumentId → Prog (List (Option DocumentRecord))
  | [] => pure []
  | d :: ds => do
    let record ← safeGetDocument p d
    let fetched ← fetchDocuments p ds
    pure (record :: fetched)

/-- `list_documents`, over the ids in the stored keys. `lower` is `str.lower`. -/
def listDocuments (lower : String → String) (p : ProcessId) (listed : List DocumentId) : Prog (List DocumentRecord) :=
  if listed = [] then pure []
  else do
    let fetched ← fetchDocuments p listed
    pure (fetched.reduceOption.mergeSort fun r r' => lower r.title ≤ lower r'.title)

/-- The `document_ids` of a request, if any, have this one. -/
def inScope (documentIds : Option (List DocumentId)) (d : DocumentId) : Bool := documentIds.all fun ids => d ∈ ids

/-- The manifest over the listed records. -/
def manifestOf (documentIds : Option (List DocumentId)) (allDocuments : List DocumentRecord) :
    List (DocumentId × Version) :=
  (allDocuments.filter fun doc => inScope documentIds doc.id).filterMap fun doc =>
    doc.activeVersion.map fun version => (doc.id, version)

/-- `create_corpus_snapshot`, up to the manifest it stores. -/
def createCorpusSnapshot (lower : String → String) (p : ProcessId) (listed : List DocumentId)
    (documentIds : Option (List DocumentId)) : Prog (List (DocumentId × Version)) := do
  let allDocuments ← listDocuments lower p listed
  pure (manifestOf documentIds allDocuments)

end Endpoint

section Manifest

variable {documentIds : Option (List DocumentId)} {docs : List DocumentRecord}

/-- What the manifest has. -/
theorem mem_manifestOf {d : DocumentId} {v : Version} :
    (d, v) ∈ manifestOf documentIds docs ↔
      inScope documentIds d = true ∧ ∃ doc ∈ docs, doc.id = d ∧ doc.activeVersion = some v := by
  simp only [manifestOf, List.mem_filterMap, List.mem_filter, Option.map_eq_some_iff, Prod.mk.injEq]
  constructor
  · rintro ⟨doc, ⟨hdoc, hscope⟩, version, hversion, rfl, rfl⟩
    exact ⟨hscope, doc, hdoc, rfl, hversion⟩
  · rintro ⟨hscope, doc, hdoc, rfl, hversion⟩
    exact ⟨doc, ⟨hdoc, hscope⟩, v, hversion, rfl, rfl⟩

/-- Its documents are listed in order. -/
theorem manifestOf_sublist : (manifestOf documentIds docs).map Prod.fst |>.Sublist (docs.map DocumentRecord.id) := by
  unfold manifestOf
  induction docs with
  | nil => simp
  | cons doc docs ih =>
    by_cases hscope : inScope documentIds doc.id = true
    · cases hversion : doc.activeVersion with
      | none => simpa [hscope, hversion] using ih.cons doc.id
      | some version => simpa [hscope, hversion] using ih
    · simpa [hscope] using ih.cons doc.id

/-- The ids of read records are among those that were listed. -/
theorem ids_sublist {fetch : DocumentId → Option DocumentRecord} {listed : List DocumentId}
    (hfetch : ∀ d doc, fetch d = some doc → doc.id = d) :
    ((listed.map fetch).reduceOption.map DocumentRecord.id).Sublist listed := by
  induction listed with
  | nil => simp
  | cons d ds ih =>
    cases hd : fetch d with
    | none => simpa [hd] using ih.cons d
    | some doc => simpa [hd, hfetch d doc hd] using ih

end Manifest

section Alone

variable {w w' : World} {p : ProcessId}

/-- Reading a document alone, as the process takes it to be, unless a call
failed. -/
theorem safeGetDocument_alone (hkeyed : ∀ d r, w.record d = some r → r.id = d) (d : DocumentId)
    (h : History Err Answer) :
    Sat Happens (fun _ _ _ _ => True) Eq (fun h res w' => Failed h ∨ SameView w w' ∧ res = .ok (copyOf w p d))
      (safeGetDocument p d) h w := by
  refine Sat.catchError .eq (getDocument_alone (w := w) (p := p) (d := d) h) (fun h r w' hq => ?_) fun h e w' hq => ?_
  · rcases hq.2 with heq | ⟨-, hf⟩
    · refine .inr ⟨⟨?_, record_loaded hq.1⟩, heq⟩
      funext p' d'
      exact copyOf_loaded hkeyed hq.1 p' d'
    · exact .inl hf
  · rintro _ rfl
    rcases hq.2 with heq | ⟨-, hf⟩
    · contradiction
    · exact .inl hf

/-- So with all of them. -/
theorem fetchDocuments_alone (hkeyed : ∀ d r, w.record d = some r → r.id = d) (ds : List DocumentId)
    (h : History Err Answer) :
    Sat Happens (fun _ _ _ _ => True) Eq (fun h res _ => Failed h ∨ res = .ok (ds.map (copyOf w p)))
      (fetchDocuments p ds) h w := by
  induction ds generalizing w h with
  | nil =>
    rintro _ rfl
    exact .inr rfl
  | cons d ds ih =>
    have hfailed {α : Type} {Q : Except Err α → Prop} (q : Prog α) {h : History Err Answer} {w' : World} (hf : Failed h) :
        Sat Happens (fun _ _ _ _ => True) Eq (fun h res _ => Failed h ∨ Q res) q h w' :=
      (Sat.of_past (P := Failed) (fun _ _ hf => hf.append _) q hf).ending fun _ _ _ => .inl
    refine (safeGetDocument_alone hkeyed d h).bind .eq (fun h r w' hq => ?_) fun h e w' hq => ?_
    · rcases hq with hf | ⟨hsame, hr⟩
      · exact hfailed _ hf
      · rw [Except.ok.injEq] at hr
        have hkeyed' : ∀ d r, w'.record d = some r → r.id = d := by
          rw [hsame.record]
          exact hkeyed
        refine (ih hkeyed' h).bind .eq (fun h fetched w'' hq => ?_) fun h e w'' hq => ?_
        · rintro _ rfl
          rcases hq with hf | hfetched
          · exact .inl hf
          · rw [Except.ok.injEq, hsame.copy] at hfetched
            exact .inr (by rw [hr, hfetched, List.map_cons])
        · rcases hq with hf | heq
          · exact .inl hf
          · contradiction
    · rcases hq with hf | ⟨-, heq⟩
      · exact .inl hf
      · contradiction

/-- The listed documents of the process, in some order. -/
theorem createCorpusSnapshot_alone (hkeyed : ∀ d r, w.record d = some r → r.id = d) (lower : String → String)
    (listed : List DocumentId) (documentIds : Option (List DocumentId)) :
    Sat Happens (fun _ _ _ _ => True) Eq (fun h res _ => Failed h ∨ ∃ docs : List DocumentRecord,
      docs.Perm (listed.map (copyOf w p)).reduceOption ∧ res = .ok (manifestOf documentIds docs))
      (createCorpusSnapshot lower p listed documentIds) [] w := by
  have hlist : Sat Happens (fun _ _ _ _ => True) Eq (fun h res _ => Failed h ∨ ∃ docs : List DocumentRecord,
      docs.Perm (listed.map (copyOf w p)).reduceOption ∧ res = .ok docs) (listDocuments lower p listed) [] w := by
    unfold listDocuments
    by_cases hnone : listed = []
    · rw [if_pos hnone]
      rintro _ rfl
      exact .inr ⟨[], by simp [hnone], rfl⟩
    · rw [if_neg hnone]
      refine (fetchDocuments_alone hkeyed listed []).bind .eq (fun h fetched w' hq => ?_) fun h e w' hq => ?_
      · rintro _ rfl
        rcases hq with hf | hfetched
        · exact .inl hf
        · rw [Except.ok.injEq] at hfetched
          subst hfetched
          exact .inr ⟨_, List.mergeSort_perm _ _, rfl⟩
      · rcases hq with hf | heq
        · exact .inl hf
        · contradiction
  refine hlist.bind .eq (fun h docs w' hq => ?_) fun h e w' hq => ?_
  · rintro _ rfl
    rcases hq with hf | ⟨docs', hperm, hdocs⟩
    · exact .inl hf
    · rw [Except.ok.injEq] at hdocs
      subst hdocs
      exact .inr ⟨docs, hperm, rfl⟩
  · rcases hq with hf | ⟨_, _, heq⟩
    · exact .inl hf
    · contradiction

/-- What a process takes a document to be is filed under its id. -/
theorem id_of_copyOf (hground : Grounded w) {d : DocumentId} {r : DocumentRecord} (hcopy : copyOf w p d = some r) :
    r.id = d := by
  have hcached (c : DocumentRecord) (hc : w.rest.cache p d = some c) : c.id = d := (hground.cached p d c hc).1
  unfold copyOf at hcopy
  split at hcopy
  · next c hc =>
    unfold trustedCopy at hc
    rw [Option.filter_eq_some_iff] at hc
    rw [← Option.some.inj hcopy]
    exact hcached c hc.1
  · split at hcopy
    · next c hc =>
      rw [← Option.some.inj hcopy]
      exact hground.keyed d c hc
    · exact hcached r hcopy

/-- A document of which it knows something is stored. -/
theorem stored_of_copyOf (hground : Grounded w) {d : DocumentId} {r : DocumentRecord} (hcopy : copyOf w p d = some r) :
    (w.record d).isSome = true := by
  unfold copyOf at hcopy
  split at hcopy
  · next c hc =>
    unfold trustedCopy at hc
    rw [Option.filter_eq_some_iff] at hc
    exact (hground.cached p d c hc.1).2
  · split at hcopy
    · next c hc => simp [hc]
    · exact (hground.cached p d r hcopy).2

end Alone

section Snapshot

variable {w w' : World} {p : ProcessId} {lower : String → String} {listed : List DocumentId}
  {documentIds : Option (List DocumentId)} {es : History Err Answer} {r : Except Err (List (DocumentId × Version))}

/-- The manifest records what the gate of this process serves. -/
structure Serves (w : World) (p : ProcessId) (documentIds : Option (List DocumentId))
    (manifest : List (DocumentId × Version)) : Prop where
  /-- The served versions of the documents in scope, and nothing else. -/
  served : ∀ d v, (d, v) ∈ manifest ↔ inScope documentIds d = true ∧ gateVersion w p d = some v
  /-- Nothing of a deleted document. -/
  live : ∀ d v, (d, v) ∈ manifest → ∀ record, copyOf w p d = some record → record.status ≠ .deleted
  /-- Every document at most once. -/
  once : (manifest.map Prod.fst).Nodup

/-- The pointer of the record names what the gate serves: a deleted record has
none, an indexed one has one, and an empty one stands for an empty version. -/
def PointsToServed (record : DocumentRecord) : Prop :=
  if record.status = .deleted then record.activeVersion = none
  else (record.activeVersion = none → record.status ≠ .indexed) ∧
    (record.activeVersion = some "" → record.status = .indexed ∧ record.version = "")

/-- Which is the same as to agree with the gate's rule. -/
theorem pointsToServed_iff (record : DocumentRecord) :
    PointsToServed record ↔ record.activeVersion = publishedVersionOf (some record) := by
  unfold PointsToServed publishedVersionOf
  by_cases hdeleted : record.status = .deleted
  · simp [hdeleted]
  · by_cases hindexed : record.status = .indexed
    · cases hversion : record.activeVersion with
      | none => simp [hindexed, hversion]
      | some v =>
        by_cases hempty : v = ""
        · simp only [hindexed, hversion, hempty, Option.filter_some]
          simp
        · simp [hindexed, hversion, hempty, Option.filter_some]
    · cases hversion : record.activeVersion with
      | none => simp [hdeleted, hindexed, hversion]
      | some v => by_cases hempty : v = "" <;> simp [hdeleted, hindexed, hversion, hempty, Option.filter_some]

/-- A snapshot over the stored documents records what search serves exactly if
the records in scope point to what is served. -/
theorem snapshot_serves_iff (hground : Grounded w) (hlisted : ∀ d, d ∈ listed ↔ (w.record d).isSome = true)
    (hdistinct : listed.Nodup) (ho : Outcome service (createCorpusSnapshot lower p listed documentIds) w es r w')
    (hok : ¬ Failed es) :
    (∃ manifest, r = .ok manifest ∧ Serves w p documentIds manifest) ↔
      ∀ d record, inScope documentIds d = true → copyOf w p d = some record → PointsToServed record := by
  have halone := (createCorpusSnapshot_alone hground.keyed lower listed documentIds).outcome (fun _ => rfl) ho
  obtain hf | ⟨docs, hperm, rfl⟩ := halone
  · exact absurd hf hok
  have hdocs (doc : DocumentRecord) (d : DocumentId) (hid : doc.id = d) : doc ∈ docs ↔ copyOf w p d = some doc := by
    rw [hperm.mem_iff, List.reduceOption_mem_iff, List.mem_map]
    constructor
    · rintro ⟨d', -, hcopy⟩
      rw [← hid, id_of_copyOf hground hcopy]
      exact hcopy
    · intro hcopy
      exact ⟨d, (hlisted d).mpr (stored_of_copyOf hground hcopy), hcopy⟩
  have hmember (d : DocumentId) (v : Version) : (d, v) ∈ manifestOf documentIds docs ↔
      inScope documentIds d = true ∧ (copyOf w p d).bind DocumentRecord.activeVersion = some v := by
    rw [mem_manifestOf, Option.bind_eq_some_iff]
    refine and_congr_right fun _ => exists_congr fun doc => ?_
    constructor
    · rintro ⟨hdoc, hid, hversion⟩
      exact ⟨(hdocs doc d hid).mp hdoc, hversion⟩
    · rintro ⟨hcopy, hversion⟩
      have hid := id_of_copyOf hground hcopy
      exact ⟨(hdocs doc d hid).mpr hcopy, hid, hversion⟩
  have honce : ((manifestOf documentIds docs).map Prod.fst).Nodup := by
    have hids : (docs.map DocumentRecord.id).Nodup := by
      rw [(hperm.map _).nodup_iff]
      exact hdistinct.sublist (ids_sublist fun d doc hcopy => id_of_copyOf hground hcopy)
    exact hids.sublist manifestOf_sublist
  have hexact (d : DocumentId) : (∀ record, copyOf w p d = some record → PointsToServed record) ↔
      (copyOf w p d).bind DocumentRecord.activeVersion = gateVersion w p d := by
    unfold gateVersion
    cases copyOf w p d with
    | none => simp [publishedVersionOf]
    | some record => simp [pointsToServed_iff]
  constructor
  · rintro ⟨manifest, hmanifest, hserves⟩ d record hscope hcopy
    rw [Except.ok.injEq] at hmanifest
    subst hmanifest
    have hsame : (copyOf w p d).bind DocumentRecord.activeVersion = gateVersion w p d := by
      ext v
      have hin := hserves.served d v
      rw [hmember] at hin
      simpa [hscope] using hin
    exact (hexact d).mpr hsame record hcopy
  · intro hpoints
    have hserved (d : DocumentId) (v : Version) : (d, v) ∈ manifestOf documentIds docs ↔
        inScope documentIds d = true ∧ gateVersion w p d = some v := by
      rw [hmember]
      refine and_congr_right fun hscope => ?_
      rw [(hexact d).mp fun record hcopy => hpoints d record hscope hcopy]
    refine ⟨_, rfl, hserved, fun d v hin record hcopy => ?_, honce⟩
    have hgate := ((hserved d v).mp hin).2
    rw [gateVersion, hcopy] at hgate
    exact status_of_published hgate

end Snapshot

section Samples

/-- An indexed record that points to its version. -/
def indexedRecord : DocumentRecord where
  id := "d"
  title := "Handbook"
  version := "a"
  s3Uri := "gs://bucket/documents/d/a/handbook.pdf"
  status := .indexed
  activeVersion := some "a"

/-- The record as its deletion leaves it. -/
def deletedRecord : DocumentRecord := { indexedRecord with status := .deleted, error := none }

/-- A store with one record, and processes that have cached nothing. -/
def oneRecord (record : DocumentRecord) : World where
  objects
    | .documentRecord d => if d = "d" then ⟨1, some record⟩ else ⟨0, none⟩
    | _ => ⟨0, none⟩
  rest := World.empty.rest

/-- Its record. -/
theorem record_oneRecord (record : DocumentRecord) (d : DocumentId) :
    (oneRecord record).record d = if d = "d" then some record else none := by
  unfold World.record oneRecord
  dsimp only
  split <;> rfl

/-- It is grounded. -/
theorem grounded_oneRecord {record : DocumentRecord} (hid : record.id = "d") : Grounded (oneRecord record) := by
  refine ⟨fun d r hr => ?_, fun p d r hr => ?_⟩
  · rw [record_oneRecord] at hr
    split at hr
    · next hd => rw [← Option.some.inj hr, hid, hd]
    · contradiction
  · have hnone : (oneRecord record).rest.cache p d = none := rfl
    rw [hnone] at hr
    contradiction

/-- Its one id is listed. -/
theorem listed_oneRecord (record : DocumentRecord) (d : DocumentId) :
    d ∈ ["d"] ↔ ((oneRecord record).record d).isSome = true := by
  rw [record_oneRecord, List.mem_singleton]
  by_cases hd : d = "d" <;> simp [hd]

/-- A snapshot of everything, with every call going through. -/
def snapshotRun (record : DocumentRecord) :
    Option (History Err Answer × Except Err (List (DocumentId × Version)) × World) :=
  play service (createCorpusSnapshot id 0 ["d"] none) (List.replicate 3 (calm "" "")) (oneRecord record)

/-- It captures version `a` of the document, whether it is deleted or not. -/
theorem snapshotRun_manifest (record : DocumentRecord) (hrecord : record = indexedRecord ∨ record = deletedRecord) :
    ∃ es w', Outcome service (createCorpusSnapshot id 0 ["d"] none) (oneRecord record) es (.ok [("d", "a")]) w' ∧
      ¬ Failed es := by
  have hplayed : (snapshotRun record).any (fun x => x.1.all (fun e => e.answer.toBool) ∧
      x.2.1.toOption = some [("d", "a")]) = true := by
    rcases hrecord with rfl | rfl <;> decide +kernel
  obtain ⟨⟨es, res, w'⟩, hplay, hfacts⟩ := (Option.any_eq_true _ _).mp hplayed
  obtain ⟨hanswered, hres⟩ := of_decide_eq_true hfacts
  have hok : res = .ok [("d", "a")] := by
    cases res with
    | ok manifest => exact congrArg _ (Option.some.inj hres)
    | error e => contradiction
  subst hok
  refine ⟨es, w', play_sound service hplay, ?_⟩
  rintro ⟨e, hin, err, herr⟩
  have hthis := List.all_eq_true.mp hanswered e hin
  rw [herr] at hthis
  contradiction

theorem snapshot_serves_iff_sample : ∃ es w',
    Outcome service (createCorpusSnapshot id 0 ["d"] none) (oneRecord indexedRecord) es (.ok [("d", "a")]) w' ∧
    ((∃ manifest, Except.ok [("d", "a")] = (.ok manifest : Except Err _) ∧ Serves (oneRecord indexedRecord) 0 none manifest) ↔
      ∀ d record, inScope none d = true → copyOf (oneRecord indexedRecord) 0 d = some record → PointsToServed record) := by
  obtain ⟨es, w', ho, hok⟩ := snapshotRun_manifest indexedRecord (.inl rfl)
  exact ⟨es, w', ho, snapshot_serves_iff (grounded_oneRecord rfl) (listed_oneRecord _) (by decide) ho hok⟩

/-- The deleted document's last version is captured, which the gate no longer
serves. -/
theorem snapshot_captures_deleted : ∃ es w',
    Outcome service (createCorpusSnapshot id 0 ["d"] none) (oneRecord deletedRecord) es (.ok [("d", "a")]) w' ∧
    ¬ Failed es ∧ gateVersion (oneRecord deletedRecord) 0 "d" = none ∧ deletedRecord.status = .deleted ∧
    ¬ Serves (oneRecord deletedRecord) 0 none [("d", "a")] := by
  obtain ⟨es, w', ho, hok⟩ := snapshotRun_manifest deletedRecord (.inr rfl)
  have hgate : gateVersion (oneRecord deletedRecord) 0 "d" = none := by decide +kernel
  refine ⟨es, w', ho, hok, hgate, rfl, fun hserves => ?_⟩
  have hserved := ((hserves.served "d" "a").mp (by simp)).2
  rw [hgate] at hserved
  contradiction

end Samples

end RagSystem.SnapshotManifests
