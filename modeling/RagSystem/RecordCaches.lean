import RagSystem.LegalWrites

/-!
# Record caches

Every process answers `get_document` from its own cache when the cached record
is indexed, failed or deleted, and from the store otherwise. In every run what
is cached is filed under its id and has a stored record; what the cached record
says may be out of date.
-/

namespace RagSystem.RecordCaches

open AtomicProgram ThreadPool RelyGuarantee VersionedCell Storage DocumentModels DocumentStore
  DocumentService CallEffects StoreCalls LegalWrites

set_option autoImplicit false

section Grounding

/-- Stored records are filed under their ids, and only stored documents are
cached, under their ids too. -/
structure Grounded (w : World) : Prop where
  /-- Records are filed under their ids. -/
  keyed : ∀ d r, w.record d = some r → r.id = d
  /-- Cached records too, and their documents are stored. -/
  cached : ∀ p d r, w.rest.cache p d = some r → r.id = d ∧ (w.record d).isSome

/-- A process that has just started has cached nothing. -/
def Cold (w : World) : Prop := (∀ d r, w.record d = some r → r.id = d) ∧ ∀ p d, w.rest.cache p d = none

/-- Before anything was uploaded nothing is cached. -/
theorem cold_empty : Cold World.empty := ⟨nofun, fun _ _ => rfl⟩

/-- Started processes are grounded. -/
theorem Cold.grounded {w : World} (h : Cold w) : Grounded w := by
  refine ⟨h.1, fun p d r hr => ?_⟩
  rw [h.2 p d] at hr
  contradiction

variable {e : CallEvent} {w w' : World}

/-- A call keeps things grounded if what it writes is filed under its id, and
what it caches is stored. -/
theorem Grounded.of_exec (hw : Grounded w) (h : service.Exec e w w')
    (hwritten : ∀ d r, recordWritten e = some (d, r) → r.id = d)
    (hcached : ∀ p r, recordCached e = some (p, r) → (w.record r.id).isSome) : Grounded w' := by
  have hsome (d : DocumentId) (hd : (w.record d).isSome) : (w'.record d).isSome :=
    (exec_later h (.documentRecord d)).isSome hd
  refine ⟨fun d r hr => ?_, fun p d r hr => ?_⟩
  · rw [record_of_exec h] at hr
    split at hr
    · next d' r' hw' =>
      split at hr
      · next hd =>
        rw [Option.some.injEq] at hr
        rw [← hr, hd]
        exact hwritten d' r' hw'
      · exact hw.keyed d r hr
    · exact hw.keyed d r hr
  · rw [cache_of_exec h] at hr
    split at hr
    · next p' r' hc =>
      split at hr
      · next hd =>
        rw [Option.some.injEq] at hr
        rw [← hr, hd.2]
        exact ⟨rfl, hsome _ (hcached p' r' hc)⟩
      · exact ⟨(hw.cached p d r hr).1, hsome d (hw.cached p d r hr).2⟩
    · exact ⟨(hw.cached p d r hr).1, hsome d (hw.cached p d r hr).2⟩

/-- What others do keeps things grounded. -/
def Grounding (w w' : World) : Prop := Writers w w' ∧ (Grounded w → Grounded w')

/-- Every call of every operation keeps things grounded. -/
theorem grounded_obligations : RecordObligations Happens (fun _ _ w w' => Grounding w w') Grounding
    (fun _ w => Grounded w) (fun r w => (w.record r.id).isSome) := by
  have hkeep {e : CallEvent} {w w' : World} (hw : Grounded w) (ht : service.Exec e w w')
      (hwritten : ∀ d r, recordWritten e = some (d, r) → r.id = d)
      (hcached : ∀ p r, recordCached e = some (p, r) → (w.record r.id).isSome) :
      Grounding w w' ∧ Grounded w' :=
    ⟨⟨exec_later ht, fun _ => hw.of_exec ht hwritten hcached⟩, hw.of_exec ht hwritten hcached⟩
  constructor
  · constructor
    case exec => exact fun _ _ _ _ h => h
    case rely => exact ⟨fun w => ⟨.refl _, id⟩, fun h h' => ⟨h.1.trans h'.1, fun hw => h'.2 (h.2 hw)⟩⟩
    case later => exact fun _ _ h => h.1
    case stable => exact fun _ _ _ hr hw => hr.2 hw
    case known => exact fun r _ _ hr hk => (hr.1 (.documentRecord r.id)).isSome hk
    case read =>
      intro h w d r hw hr
      rw [hw.keyed d r hr, hr]
      rfl
    case idle =>
      intro h w e hw ht _
      exact ⟨⟨.refl _, id⟩, hw⟩
    case other =>
      intro h w x r w' hx hw ht
      refine hkeep hw ht (fun d r hr => by contradiction) fun p r hc => ?_
      cases x <;> contradiction
    case cachePut =>
      intro h w p r a w' hk hw ht
      refine hkeep hw ht (fun d r hr => by contradiction) fun p r hc => ?_
      simp only [recordCached, Option.some.injEq, Prod.mk.injEq] at hc
      rw [← hc.2]
      exact hk
    case putIndex => exact fun _ _ _ _ _ _ hw ht => hkeep hw ht (fun d r hr => by contradiction) fun p r hc => by contradiction
    case create =>
      intro h w k v hk _ hw ht
      refine hkeep hw ht (fun d r hr => ?_) fun p r hc => by contradiction
      cases k <;> contradiction
    case putDerived =>
      intro h w k v hk hw ht
      refine hkeep hw ht (fun d r hr => ?_) fun p r hc => by contradiction
      cases k <;> contradiction
  case readRecord => exact fun _ _ _ _ hw _ => ⟨⟨.refl _, id⟩, hw⟩
  case refusedRecord => exact fun _ _ _ _ _ _ hw _ => ⟨⟨.refl _, id⟩, hw⟩
  case putRecord =>
    intro h w r c _ hw ht
    obtain ⟨hg, hw'⟩ := hkeep hw ht (fun d r' hr => by
      simp only [recordWritten, Option.some.injEq, Prod.mk.injEq] at hr
      rw [← hr.1, ← hr.2]) fun p r hc => by contradiction
    refine ⟨hg, hw', ?_⟩
    rw [World.record_put_self]
    rfl

/-- Every run keeps things grounded. -/
theorem grounded_of_run {settings : Settings} {p q : ServicePool} {ms : List ServiceMove}
    (h : ServiceRun settings p ms q) (hidle : ∀ t, p.threads t = none) (hp : Grounded p.world) :
    Grounded q.world :=
  (run_sound grounded_obligations.rely (I := Grounded)
    (fun o w hw => grounded_obligations.keeps_code settings o [] w hw) (fun _ _ _ _ _ hg => hg)
    (fun _ _ hr hw => hr.2 hw) h hidle hp fun _ hm => (h.of_mem hm).1.exec).2.2

end Grounding

section Reading

/-- What `get_document` answers in process `p`. -/
def copyOf (w : World) (p : ProcessId) (d : DocumentId) : Option DocumentRecord :=
  match trustedCopy (w.rest.cache p d) with
  | some r => some r
  | none =>
    match w.record d with
    | some r => some r
    | none => w.rest.cache p d

/-- The state once process `p` has cached a record. -/
def caching (w : World) (p : ProcessId) (r : DocumentRecord) : World :=
  { w with rest := { w.rest with cache := cacheAfter w.rest.cache (.cachePut p r) } }

/-- What `get_document` leaves behind. -/
def Loaded (p : ProcessId) (d : DocumentId) (w w' : World) : Prop :=
  w' = w ∨ ∃ r, w.record d = some r ∧ trustedCopy (w.rest.cache p d) = none ∧ w' = caching w p r

variable {w w' : World} {p : ProcessId} {d : DocumentId}

/-- Reading a cache. -/
theorem exec_cacheGet {r : Except Err (Option DocumentRecord)}
    (h : service.Exec ⟨.other (.cacheGet p d), r⟩ w w') : r = .ok (w.rest.cache p d) ∧ w' = w := by
  obtain ⟨o, rest, ho, rfl⟩ := exec_other h
  cases o with
  | proceed => cases ho; exact ⟨rfl, rfl⟩
  | _ => contradiction

/-- Writing a cache. -/
theorem exec_cachePut {record : DocumentRecord} {r : Except Err Unit}
    (h : service.Exec ⟨.other (.cachePut p record), r⟩ w w') : r = .ok () ∧ w' = caching w p record := by
  obtain ⟨o, rest, ho, rfl⟩ := exec_other h
  cases o with
  | proceed => cases ho; exact ⟨rfl, rfl⟩
  | _ => contradiction

/-- `get_document` with nobody else at work: it answers the trusted copy, or
the stored record, or raises because the store did. -/
theorem getDocument_alone (h : History Err Answer) :
    Sat Happens (fun _ _ _ _ => True) Eq (fun h res w' => Loaded p d w w' ∧
      (res = .ok (copyOf w p d) ∨ (∃ m, res = .error (.raised m)) ∧ Failed h)) (getDocument p d) h w := by
  rintro _ rfl r₁ w₁ ht₁
  obtain ⟨rfl, rfl⟩ := exec_cacheGet ht₁
  refine ⟨trivial, ?_⟩
  unfold copyOf
  dsimp only [Program.bind]
  cases hc : trustedCopy (w₁.rest.cache p d) with
  | some record =>
    rintro _ rfl
    exact ⟨.inl rfl, .inl rfl⟩
  | none =>
    rintro _ rfl r₂ w₂ ht₂
    obtain ⟨rfl, rfl | ⟨m, rfl⟩⟩ := exec_getJson ht₂
    · have hcontent : (w₂.objects (.documentRecord d)).content = w₂.record d := rfl
      rw [hcontent]
      refine ⟨trivial, ?_⟩
      dsimp only [Program.bind]
      cases hr : w₂.record d with
      | none =>
        rintro _ rfl
        exact ⟨.inl rfl, .inl rfl⟩
      | some record =>
        rintro _ rfl r₃ w₃ ht₃
        obtain ⟨rfl, rfl⟩ := exec_cachePut ht₃
        refine ⟨trivial, ?_⟩
        rintro _ rfl
        exact ⟨.inr ⟨record, hr, hc, rfl⟩, .inl rfl⟩
    · refine ⟨trivial, ?_⟩
      rintro _ rfl
      exact ⟨.inl rfl, .inr ⟨⟨m, rfl⟩, _, List.mem_append_right _ (List.mem_singleton_self _), _, rfl⟩⟩

@[simp] theorem caching_record (r : DocumentRecord) : (caching w p r).record = w.record := rfl

/-- A cache after a record was put there. -/
theorem caching_cache (r : DocumentRecord) (p' : ProcessId) (d' : DocumentId) :
    (caching w p r).rest.cache p' d' = if p' = p ∧ d' = r.id then some r else w.rest.cache p' d' := by
  unfold caching cacheAfter
  dsimp only
  by_cases hp : p' = p
  · subst hp
    by_cases hd : d' = r.id
    · rw [if_pos ⟨rfl, hd⟩, Function.update_self, hd, Function.update_self]
    · rw [if_neg fun hh => hd hh.2, Function.update_self, Function.update_of_ne hd]
  · rw [if_neg fun hh => hp hh.1, Function.update_of_ne hp]

/-- Loading a record changes nobody's answer. -/
theorem copyOf_loaded (hkeyed : ∀ d r, w.record d = some r → r.id = d) (h : Loaded p d w w')
    (p' : ProcessId) (d' : DocumentId) : copyOf w' p' d' = copyOf w p' d' := by
  rcases h with rfl | ⟨r, hr, hnone, rfl⟩
  · rfl
  · unfold copyOf
    rw [caching_cache, caching_record]
    by_cases hh : p' = p ∧ d' = r.id
    · have hid := hkeyed d r hr
      rw [if_pos hh, hh.1, hh.2, hid, hnone, hr]
      cases ht : trustedCopy (some r) with
      | none => rfl
      | some r' =>
        unfold trustedCopy at ht
        rw [Option.filter_eq_some_iff] at ht
        exact ht.1.symm
    · rw [if_neg hh]

/-- Loading a record changes no record. -/
theorem record_loaded (h : Loaded p d w w') : w'.record = w.record := by
  rcases h with rfl | ⟨r, -, -, rfl⟩ <;> rfl

end Reading

end RagSystem.RecordCaches
