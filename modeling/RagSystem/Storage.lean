import RagSystem.RelyGuarantee
import RagSystem.VersionedCell

/-!
# The artifact store

JSON objects under keys, each with a generation that conditional writes name.
Single reads and writes are atomic; any of them may raise, and then nothing is
written: writes that are applied unheard are not in this machine. The
compare-and-swap loop is the source's, action by action. Keys, payloads and
whatever else a service talks to are parameters.
-/

namespace RagSystem.Storage

open AtomicProgram RelyGuarantee VersionedCell

set_option autoImplicit false

variable {K E X τ Ω O α : Type} {P : K → Type} {XB : X → Type}

/-- What a service call can raise. -/
inductive StoreError (K E : Type) where
  /-- A conditional write found another generation (`PreconditionFailed`). -/
  | preconditionFailed (key : K)
  /-- A call failed, with this text, after its own retries. -/
  | raised (message : String)
  /-- One of the service's own exceptions. -/
  | app (error : E)
  deriving DecidableEq

/-- One call to the store, or to anything else the service uses. -/
inductive StoreAction (P : K → Type) (X : Type) where
  /-- Read an object. -/
  | getJson (k : K)
  /-- Read an object together with its generation. -/
  | getJsonWithEtag (k : K)
  /-- Write an object whatever is there. -/
  | putJson (k : K) (payload : P k)
  /-- Write an object if its place meets a condition. -/
  | putJsonConditional (k : K) (payload : P k) (condition : Precondition)
  /-- A call to something that is not the JSON store. -/
  | other (x : X)

/-- What each call returns. -/
def StoreAnswer (XB : X → Type) : StoreAction P X → Type
  | .getJson k => Option (P k)
  | .getJsonWithEtag k => Option (P k × ℕ)
  | .putJson _ _ => Unit
  | .putJsonConditional _ _ _ => Unit
  | .other x => XB x

/-- A program of store calls. -/
abbrev StoreProgram (E : Type) (P : K → Type) (XB : X → Type) (α : Type) :=
  Program (StoreError K E) (StoreAnswer (P := P) XB) α

/-- The store and whatever else the service keeps. -/
structure StoreState (P : K → Type) (τ : Type) where
  /-- The JSON objects. -/
  objects : Cells P
  /-- Everything else. -/
  rest : τ

/-- What the environment decides about one call. -/
inductive Choice (Ω : Type) where
  /-- A store call goes through. -/
  | proceed
  /-- A store call raises. -/
  | raise (message : String)
  /-- The outcome of another call. -/
  | other (o : Ω)

section Programs

/-- `get_json`. -/
def getJson (k : K) : StoreProgram E P XB (Option (P k)) := perform (StoreAction.getJson k)

/-- `get_json_with_etag`. -/
def getJsonWithEtag (k : K) : StoreProgram E P XB (Option (P k × ℕ)) := perform (StoreAction.getJsonWithEtag k)

/-- `put_json`. -/
def putJson (k : K) (payload : P k) : StoreProgram E P XB Unit := perform (StoreAction.putJson k payload)

/-- `put_json_conditional`. -/
def putJsonConditional (k : K) (payload : P k) (condition : Precondition) : StoreProgram E P XB Unit :=
  perform (StoreAction.putJsonConditional k payload condition)

/-- `create_json`: write only if nothing is there. -/
def createJson (k : K) (payload : P k) : StoreProgram E P XB Unit :=
  putJsonConditional k payload .ifNoneMatch

/-- The condition a writer puts on its write after `get_json_with_etag`. -/
def conditionOf {k : K} : Option (P k × ℕ) → Precondition
  | none => .ifNoneMatch
  | some (_, etag) => .ifMatch etag

/-- A conditional write that says whether it went through; any other exception
than a lost race passes. -/
def putUnlessRaced (k : K) (payload : P k) (condition : Precondition) : StoreProgram E P XB Bool :=
  tryCatch (do putJsonConditional k payload condition; pure true) fun
    | .preconditionFailed _ => pure false
    | e => throw e

/-- `update_json_cas`: read, compute the next payload, write it on condition
that nothing changed, and start over when something did. -/
def updateJsonCas (k : K) (mutate : Option (P k) → Except (StoreError K E) (P k)) :
    ℕ → StoreProgram E P XB (P k)
  | 0 => throw (.preconditionFailed k)
  | attempts + 1 => do
    let current ← getJsonWithEtag k
    match mutate (current.map Prod.fst) with
    | .error e => throw e
    | .ok payload => do
      let written ← putUnlessRaced k payload (conditionOf current)
      if written then pure payload else updateJsonCas k mutate attempts

/-- The default of `update_json_cas`. -/
def maxAttempts : ℕ := 8

end Programs

section Semantics

variable [DecidableEq K]

/-- What the calls do. `other` says what the calls outside the JSON store do;
they may look at the objects but never write them. -/
def machine
    (other : (x : X) → Ω → StoreState P τ → Option (Except (StoreError K E) (XB x) × τ)) :
    Machine (Choice Ω) (StoreState P τ) (StoreError K E) (StoreAnswer (P := P) XB)
  | .getJson k, .proceed, w => some (.ok (w.objects k).content, w)
  | .getJsonWithEtag k, .proceed, w =>
    some (.ok ((w.objects k).content.map fun v => (v, (w.objects k).generation)), w)
  | .putJson k v, .proceed, w => some (.ok (), { w with objects := put w.objects k v })
  | .putJsonConditional k v c, .proceed, w =>
    if (w.objects k).admits c then some (.ok (), { w with objects := put w.objects k v })
    else some (.error (.preconditionFailed k), w)
  | .other x, .other o, w => (other x o w).map fun r => (r.1, { w with rest := r.2 })
  | .getJson _, .raise m, w => some (.error (.raised m), w)
  | .getJsonWithEtag _, .raise m, w => some (.error (.raised m), w)
  | .putJson _ _, .raise m, w => some (.error (.raised m), w)
  | .putJsonConditional _ _ _, .raise m, w => some (.error (.raised m), w)
  | _, _, _ => none

variable {other : (x : X) → Ω → StoreState P τ → Option (Except (StoreError K E) (XB x) × τ)}

/-- A read changes nothing and finds the content, or raises. -/
theorem exec_getJson {k : K} {r : Except (StoreError K E) (Option (P k))} {w w' : StoreState P τ}
    (h : (machine other).Exec ⟨.getJson k, r⟩ w w') :
    w' = w ∧ (r = .ok (w.objects k).content ∨ ∃ m, r = .error (.raised m)) := by
  obtain ⟨c, hc⟩ := h
  cases c with
  | proceed => cases hc; exact ⟨rfl, .inl rfl⟩
  | raise m => cases hc; exact ⟨rfl, .inr ⟨m, rfl⟩⟩
  | other o => cases hc

/-- A read with the generation changes nothing and finds the content and the
generation, or raises. -/
theorem exec_getJsonWithEtag {k : K} {r : Except (StoreError K E) (Option (P k × ℕ))}
    {w w' : StoreState P τ} (h : (machine other).Exec ⟨.getJsonWithEtag k, r⟩ w w') :
    w' = w ∧ (r = .ok ((w.objects k).content.map fun v => (v, (w.objects k).generation)) ∨
      ∃ m, r = .error (.raised m)) := by
  obtain ⟨c, hc⟩ := h
  cases c with
  | proceed => cases hc; exact ⟨rfl, .inl rfl⟩
  | raise m => cases hc; exact ⟨rfl, .inr ⟨m, rfl⟩⟩
  | other o => cases hc

/-- A plain write goes through, or raises and changes nothing. -/
theorem exec_putJson {k : K} {v : P k} {r : Except (StoreError K E) Unit} {w w' : StoreState P τ}
    (h : (machine other).Exec ⟨.putJson k v, r⟩ w w') :
    (r = .ok () ∧ w' = { w with objects := put w.objects k v }) ∨
      (w' = w ∧ ∃ m, r = .error (.raised m)) := by
  obtain ⟨c, hc⟩ := h
  cases c with
  | proceed => cases hc; exact .inl ⟨rfl, rfl⟩
  | raise m => cases hc; exact .inr ⟨rfl, m, rfl⟩
  | other o => cases hc

/-- A conditional write goes through where its condition holds, is refused
where it does not, or raises; only the first changes anything. -/
theorem exec_putJsonConditional {k : K} {v : P k} {c : Precondition}
    {r : Except (StoreError K E) Unit} {w w' : StoreState P τ}
    (h : (machine other).Exec ⟨.putJsonConditional k v c, r⟩ w w') :
    (r = .ok () ∧ (w.objects k).admits c = true ∧ w' = { w with objects := put w.objects k v }) ∨
      (w' = w ∧ ((r = .error (.preconditionFailed k) ∧ (w.objects k).admits c = false) ∨
        ∃ m, r = .error (.raised m))) := by
  obtain ⟨o, ho⟩ := h
  cases o with
  | proceed =>
    simp only [machine] at ho
    split at ho
    · next ha => cases ho; exact .inl ⟨rfl, ha, rfl⟩
    · next ha => cases ho; exact .inr ⟨rfl, .inl ⟨rfl, by simpa only [Bool.not_eq_true] using ha⟩⟩
  | raise m => cases ho; exact .inr ⟨rfl, .inr ⟨m, rfl⟩⟩
  | other o => cases ho

/-- A call outside the JSON store leaves every object as it is. -/
theorem exec_other {x : X} {r : Except (StoreError K E) (XB x)} {w w' : StoreState P τ}
    (h : (machine other).Exec ⟨.other x, r⟩ w w') :
    ∃ o rest, other x o w = some (r, rest) ∧ w' = { w with rest := rest } := by
  obtain ⟨c, hc⟩ := h
  cases c with
  | proceed => cases hc
  | raise m => cases hc
  | other o =>
    obtain ⟨⟨r', rest⟩, hr, he⟩ := Option.map_eq_some_iff.mp hc
    cases he
    exact ⟨o, rest, hr, rfl⟩

/-- Whatever a call does to the JSON objects, it does by writing. -/
theorem exec_later {e : Event (StoreError K E) (StoreAnswer (P := P) XB)} {w w' : StoreState P τ}
    (h : (machine other).Exec e w w') : Later w.objects w'.objects := by
  obtain ⟨a, r⟩ := e
  cases a with
  | getJson k =>
    rw [(exec_getJson h).1]
    exact .refl _
  | getJsonWithEtag k =>
    rw [(exec_getJsonWithEtag h).1]
    exact .refl _
  | putJson k v =>
    rcases exec_putJson h with ⟨-, rfl⟩ | ⟨rfl, -⟩
    · exact later_put _ _ _
    · exact .refl _
  | putJsonConditional k v c =>
    rcases exec_putJsonConditional h with ⟨-, -, rfl⟩ | ⟨rfl, -⟩
    · exact later_put _ _ _
    · exact .refl _
  | other x =>
    obtain ⟨o, rest, -, rfl⟩ := exec_other h
    exact .refl _

end Semantics

end RagSystem.Storage
