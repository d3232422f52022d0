import Mathlib.Data.List.DropRight
import RagSystem.Base64
import RagSystem.DocumentModels
import RagSystem.JsonAscii

/-!
# Signed cursors

A cursor is the base64url text of a JSON object of strings, a dot, and the
base64url text of the object's MAC. The two listings mint and open their cursors
in the same way, under one key, and differ in the fields. The hash is a
parameter, and so are Python's `str` of a value that is no string and where its
JSON reader runs out of stack, which no object of strings makes it do.
-/

namespace RagSystem.PageCursors

open Base64 JsonText DocumentModels

set_option autoImplicit false

attribute [local instance (2000)] List.decidableBAll

variable {N M : Type}

/-- An object whose values are strings. -/
def flatObject (fields : List (String × String)) : Json N := .obj (fields.map fun field => (field.1, .str field.2))

/-- What cursors rely on. -/
structure CursorRuntime (N M : Type) where
  /-- The numbers of JSON. -/
  numbers : NumberText N M
  /-- `str` of a value that is no string. -/
  render : Json M → String
  /-- The text on which the JSON reader runs out of stack. -/
  exhausts : List Char → Bool
  /-- `hmac.new(key, payload, sha256).digest()`. -/
  hmacSha256 : Bytes → Bytes → Bytes
  /-- An object of strings is not nested. -/
  exhausts_flat : ∀ fields, exhausts (written compactLayout numbers.write (flatObject fields)) = false

/-- What opening a cursor raises. -/
inductive CursorError where
  /-- `InvalidCursorError`. -/
  | invalidCursor (message : String)
  /-- `RecursionError`. -/
  | recursionError
  deriving DecidableEq

/-- It is `InvalidCursorError`. -/
def CursorError.IsInvalid : CursorError → Prop
  | .invalidCursor _ => True
  | .recursionError => False

/-- `text.encode("utf-8")`. -/
def encodeUtf8 (text : List Char) : Bytes := text.flatMap String.utf8EncodeChar

/-- `payload.decode("utf-8")`: `none` where it raises. -/
def decodeUtf8 (payload : Bytes) : Option (List Char) := payload.toByteArray.utf8Decode?.map Array.toList

/-- Text is read back from its UTF-8. -/
theorem decodeUtf8_encodeUtf8 (text : List Char) : decodeUtf8 (encodeUtf8 text) = some text := by
  have hbytes : (encodeUtf8 text).toByteArray = text.utf8Encode := rfl
  rw [decodeUtf8, hbytes, List.utf8Decode?_utf8Encode]
  rfl

/-- `_b64url_encode`. -/
def b64urlEncode (raw : Bytes) : List Char := (urlsafeEncode raw).rdropWhile (· = '=')

/-- `_b64url_decode`. -/
def b64urlDecode (token : List Char) : Except CursorError Bytes :=
  match urlsafeDecode (token ++ padding token) with
  | some raw => .ok raw
  | none => .error (.invalidCursor "Cursor is not valid base64.")

variable (runtime : CursorRuntime N M)

/-- `_sign`. -/
def sign (payload : Bytes) (signingKey : Option String) : Bytes :=
  runtime.hmacSha256 (encodeUtf8 (signingKey.getD "").toList) payload

/-- `json.dumps(fields, separators=(",", ":"), sort_keys=True).encode("utf-8")`, the
fields in the order of their names. -/
def payloadOf (fields : List (String × String)) : Bytes :=
  encodeUtf8 (written compactLayout runtime.numbers.write (flatObject fields))

/-- The token of a payload. -/
def mintCursor (payload : Bytes) (signingKey : Option String) : String :=
  String.ofList (b64urlEncode payload ++ '.' :: b64urlEncode (sign runtime payload signingKey))

/-- What a verified payload is read as. -/
def readPayload (payload : Bytes) : Except CursorError (List (String × Json M)) :=
  match decodeUtf8 payload with
  | none => .error (.invalidCursor "Cursor payload is not valid JSON.")
  | some text =>
    if runtime.exhausts text then .error .recursionError
    else
      match parse runtime.numbers.scan text with
      | none => .error (.invalidCursor "Cursor payload is not valid JSON.")
      | some (.obj members) => .ok members
      | some _ => .error (.invalidCursor "Cursor payload is not an object.")

/-- Up to the object: what both `decode_cursor` do first. -/
def openCursor (token : String) (signingKey : Option String) : Except CursorError (List (String × Json M)) :=
  if token = "" then .error (.invalidCursor "Cursor is empty.")
  else
    match token.toList.splitOn '.' with
    | [payloadB64, signatureB64] => do
      let payload ← b64urlDecode payloadB64
      let signature ← b64urlDecode signatureB64
      if signature = sign runtime payload signingKey then readPayload runtime payload
      else throw (.invalidCursor "Cursor signature does not verify.")
    | _ => .error (.invalidCursor "Cursor is malformed.")

/-- `str(obj[name])`: of members of one name the last counts. -/
def fieldText (members : List (String × Json M)) (name : String) : Except CursorError String :=
  match members.reverse.lookup name with
  | some (.str text) => .ok text
  | some value => .ok (runtime.render value)
  | none => .error (.invalidCursor "Cursor payload is missing fields.")

/-! ## Base64 without padding -/

theorem letters_ne_pad (raw : Bytes) : ∀ c ∈ letters raw, c ≠ '=' := by
  intro c hc
  obtain ⟨n, hn, rfl⟩ := forall_mem_letters raw c hc
  exact letter_ne_pad hn

/-- Only the padding is stripped. -/
theorem b64urlEncode_eq (raw : Bytes) : b64urlEncode raw = letters raw := by
  have hpads : (urlsafeEncode raw).rdropWhile (· = '=') = (letters raw).rdropWhile (· = '=') := by
    have hmany : ∀ k, (letters raw ++ List.replicate k '=').rdropWhile (· = '=') = (letters raw).rdropWhile (· = '=') := by
      intro k
      induction k with
      | zero => simp
      | succ k ih => rw [List.replicate_succ', ← List.append_assoc, List.rdropWhile_concat_pos _ _ _ (by simp), ih]
    exact hmany _
  rw [b64urlEncode, hpads, List.rdropWhile_eq_self_iff]
  intro hne
  simpa using letters_ne_pad raw _ (List.getLast_mem hne)

/-- What was encoded is decoded. -/
theorem b64urlDecode_encode (raw : Bytes) : b64urlDecode (b64urlEncode raw) = .ok raw := by
  have hread := urlsafeDecode_encode raw
  rw [urlsafeEncode] at hread
  rw [b64urlEncode_eq, b64urlDecode, hread]

/-- A canonical text that is decoded is the encoding. -/
theorem eq_encode_of_canonical {text : List Char} (ht : Canonical text) {raw : Bytes}
    (hraw : b64urlDecode text = .ok raw) : text = b64urlEncode raw := by
  obtain ⟨raw', rfl⟩ := exists_letters ht
  rw [← b64urlEncode_eq, b64urlDecode_encode] at hraw
  rw [Except.ok.inj hraw, b64urlEncode_eq]

theorem canonical_encode (raw : Bytes) : Canonical (b64urlEncode raw) := by
  rw [b64urlEncode_eq]
  exact canonical_letters raw

/-- A decoder's only error. -/
theorem b64urlDecode_error {text : List Char} {e : CursorError} (h : b64urlDecode text = .error e) : e.IsInvalid := by
  unfold b64urlDecode at h
  split at h
  · cases h
  · cases h
    trivial

/-! ## Tokens and the payloads they show -/

/-- The two parts of a token are read as a payload and its MAC. -/
structure Shows (signingKey : Option String) (token : String) (payload : Bytes) (payloadB64 signatureB64 : List Char) :
    Prop where
  /-- There are two parts. -/
  parts : token.toList.splitOn '.' = [payloadB64, signatureB64]
  /-- The first is read as the payload. -/
  payload_eq : b64urlDecode payloadB64 = .ok payload
  /-- The second is read as its MAC. -/
  signature_eq : b64urlDecode signatureB64 = .ok (sign runtime payload signingKey)

variable {runtime} {signingKey : Option String} {token : String} {payload : Bytes} {payloadB64 signatureB64 : List Char}

/-- A token shows one payload, in one way. -/
theorem Shows.unique (h : Shows runtime signingKey token payload payloadB64 signatureB64) {payload' : Bytes}
    {payloadB64' signatureB64' : List Char} (h' : Shows runtime signingKey token payload' payloadB64' signatureB64') :
    payload' = payload ∧ payloadB64' = payloadB64 ∧ signatureB64' = signatureB64 := by
  have hparts := h'.parts.symm.trans h.parts
  simp only [List.cons.injEq, and_true] at hparts
  have hpayload := h'.payload_eq
  rw [hparts.1, h.payload_eq] at hpayload
  exact ⟨(Except.ok.inj hpayload).symm, hparts⟩

/-- Opening such a token is reading its payload. -/
theorem Shows.openCursor (h : Shows runtime signingKey token payload payloadB64 signatureB64) :
    openCursor runtime token signingKey = readPayload runtime payload := by
  have hne : token ≠ "" := by
    intro he
    have hparts := h.parts
    rw [he] at hparts
    simp [List.splitOn] at hparts
  rw [PageCursors.openCursor, if_neg hne, h.parts]
  simp only [h.payload_eq, h.signature_eq, bind, Except.bind, if_pos]

/-- Any other is refused. -/
theorem shows_or_invalid (runtime : CursorRuntime N M) (signingKey : Option String) (token : String) :
    (∃ payload payloadB64 signatureB64, Shows runtime signingKey token payload payloadB64 signatureB64) ∨
      ∃ message, openCursor runtime token signingKey = .error (.invalidCursor message) := by
  unfold PageCursors.openCursor
  split
  · exact .inr ⟨_, rfl⟩
  · split
    · next payloadB64 signatureB64 hparts =>
      cases hpayload : b64urlDecode payloadB64 with
      | error e =>
        have he := b64urlDecode_error hpayload
        cases e with
        | invalidCursor message => exact .inr ⟨message, rfl⟩
        | recursionError => exact absurd he id
      | ok payload =>
        cases hsignature : b64urlDecode signatureB64 with
        | error e =>
          have he := b64urlDecode_error hsignature
          cases e with
          | invalidCursor message => exact .inr ⟨message, rfl⟩
          | recursionError => exact absurd he id
        | ok signature =>
          by_cases hmac : signature = sign runtime payload signingKey
          · exact .inl ⟨payload, payloadB64, signatureB64, hparts, hpayload, by rw [hsignature, hmac]⟩
          · refine .inr ⟨"Cursor signature does not verify.", ?_⟩
            simp only [bind, Except.bind, if_neg hmac]
            rfl
    · exact .inr ⟨_, rfl⟩

/-- The letters have no dot. -/
theorem encode_ne_dot (raw : Bytes) : ∀ c ∈ b64urlEncode raw, (c == '.') = false := by
  intro c hc
  rw [b64urlEncode_eq] at hc
  obtain ⟨n, hn, rfl⟩ := forall_mem_letters raw c hc
  exact letter_ne_dot hn

/-- A dot parts what has none. -/
theorem splitOn_dot {first second : List Char} (hfirst : ∀ c ∈ first, (c == '.') = false)
    (hsecond : ∀ c ∈ second, (c == '.') = false) : (first ++ '.' :: second).splitOn '.' = [first, second] := by
  rw [List.splitOn, List.splitOnP_append_cons _ _ (by decide), List.splitOnP_eq_singleton hfirst,
    List.splitOnP_eq_singleton hsecond]
  rfl

/-- A minted token shows its payload. -/
theorem shows_mint (runtime : CursorRuntime N M) (payload : Bytes) (signingKey : Option String) :
    Shows runtime signingKey (mintCursor runtime payload signingKey) payload (b64urlEncode payload)
      (b64urlEncode (sign runtime payload signingKey)) := by
  refine ⟨?_, b64urlDecode_encode payload, b64urlDecode_encode _⟩
  rw [mintCursor, String.toList_ofList]
  exact splitOn_dot (encode_ne_dot _) (encode_ne_dot _)

/-- A token in canonical parts is the minted one. -/
theorem Shows.eq_mint (h : Shows runtime signingKey token payload payloadB64 signatureB64)
    (hpayload : Canonical payloadB64) (hsignature : Canonical signatureB64) :
    token = mintCursor runtime payload signingKey := by
  have hfirst := eq_encode_of_canonical hpayload h.payload_eq
  have hsecond := eq_encode_of_canonical hsignature h.signature_eq
  have hjoin : ['.'].intercalate (token.toList.splitOn '.') = token.toList := List.intercalate_splitOn '.'
  rw [h.parts, hfirst, hsecond] at hjoin
  have htoken : token = String.ofList token.toList := String.ofList_toList.symm
  rw [htoken, ← hjoin, mintCursor]
  simp [List.intercalate]

/-- A flat object is received as it is written. -/
theorem receive_flat {received : N → Option M} (fields : List (String × String)) :
    receive received (flatObject fields) = some (flatObject fields) := by
  have hmembers : receiveMembers received (fields.map fun field => (field.1, Json.str field.2)) =
      some (fields.map fun field => (field.1, Json.str field.2)) := by
    induction fields with
    | nil => rfl
    | cons field fields ih => simp [receiveMembers, receive, ih]
  rw [flatObject, receive, hmembers]
  rfl

/-- A payload is read as the fields it was made of. -/
theorem readPayload_payloadOf (runtime : CursorRuntime N M) (fields : List (String × String)) :
    readPayload runtime (payloadOf runtime fields) = .ok (fields.map fun field => (field.1, .str field.2)) := by
  have hread := parse_written compactLayout runtime.numbers (flatObject fields)
  rw [receive_flat] at hread
  rw [readPayload, payloadOf, decodeUtf8_encodeUtf8]
  simp only [runtime.exhausts_flat, Bool.false_eq_true, if_false, hread]
  rfl

/-! ## The cursors of one listing -/

/-- The fields of a listing's cursors, and how they are read. -/
structure CursorFormat (M Position Boundary : Type) where
  /-- The fields, in the order of their names. -/
  fields : Position → List (String × String)
  /-- What is read of them. -/
  boundary : Position → Boundary
  /-- How an object is read. -/
  read : List (String × Json M) → Except CursorError Boundary
  /-- What is written is read. -/
  read_fields : ∀ position, read ((fields position).map fun field => (field.1, .str field.2)) = .ok (boundary position)
  /-- Nothing else is raised. -/
  read_invalid : ∀ members e, read members = .error e → e.IsInvalid

variable {Position Boundary : Type}

/-- `encode_cursor`. -/
def CursorFormat.encode (format : CursorFormat M Position Boundary) (runtime : CursorRuntime N M)
    (signingKey : Option String) (position : Position) : String :=
  mintCursor runtime (payloadOf runtime (format.fields position)) signingKey

/-- `decode_cursor`. -/
def CursorFormat.decode (format : CursorFormat M Position Boundary) (runtime : CursorRuntime N M)
    (signingKey : Option String) (token : String) : Except CursorError Boundary := do
  let members ← openCursor runtime token signingKey
  format.read members

/-- A token is accepted exactly when it is an output of the encoder, with the
position encoded, and refused as an invalid cursor otherwise. -/
structure Exact (encode : Position → String) (boundary : Position → Boundary)
    (decode : String → Except CursorError Boundary) (token : String) : Prop where
  /-- Accepted are the outputs of the encoder. -/
  accepts_iff : ∀ b, decode token = .ok b ↔ ∃ position, token = encode position ∧ b = boundary position
  /-- Any error is `InvalidCursorError`. -/
  rejects : ∀ e, decode token = .error e → e.IsInvalid

/-- A token that shows a position's fields is read as the position. -/
theorem CursorFormat.decode_of_shows (format : CursorFormat M Position Boundary) {position : Position}
    (h : Shows runtime signingKey token (payloadOf runtime (format.fields position)) payloadB64 signatureB64) :
    format.decode runtime signingKey token = .ok (format.boundary position) := by
  rw [CursorFormat.decode, h.openCursor, readPayload_payloadOf]
  exact format.read_fields position

/-- What was encoded is decoded. -/
theorem CursorFormat.decode_encode (format : CursorFormat M Position Boundary) (runtime : CursorRuntime N M)
    (signingKey : Option String) (position : Position) :
    format.decode runtime signingKey (format.encode runtime signingKey position) = .ok (format.boundary position) :=
  format.decode_of_shows (shows_mint runtime _ signingKey)

/-- Decoding is exact on a token that shows nothing but, in canonical parts, what
some listing has signed. -/
theorem CursorFormat.exact_of_canonical (format : CursorFormat M Position Boundary)
    (hshown : ∀ payload payloadB64 signatureB64, Shows runtime signingKey token payload payloadB64 signatureB64 →
      (Canonical payloadB64 ∧ Canonical signatureB64) ∧ ∃ fields, payload = payloadOf runtime fields ∧
        ((∃ position, fields = format.fields position) ∨
          ∃ e, format.read (fields.map fun field => (field.1, .str field.2)) = .error e)) :
    Exact (format.encode runtime signingKey) format.boundary (format.decode runtime signingKey) token := by
  refine ⟨fun b => ⟨fun hok => ?_, ?_⟩, fun e herror => ?_⟩
  · rcases shows_or_invalid runtime signingKey token with ⟨payload, payloadB64, signatureB64, hs⟩ | ⟨message, hm⟩
    · obtain ⟨hcanonical, fields, rfl, hfields⟩ := hshown _ _ _ hs
      rw [CursorFormat.decode, hs.openCursor, readPayload_payloadOf] at hok
      rcases hfields with ⟨position, rfl⟩ | ⟨e, he⟩
      · have hread := format.read_fields position
        exact ⟨position, hs.eq_mint hcanonical.1 hcanonical.2, Except.ok.inj (hok.symm.trans hread)⟩
      · exact nomatch hok.symm.trans he
    · rw [CursorFormat.decode, hm] at hok
      exact nomatch hok
  · rintro ⟨position, rfl, rfl⟩
    exact format.decode_encode runtime signingKey position
  · rcases shows_or_invalid runtime signingKey token with ⟨payload, payloadB64, signatureB64, hs⟩ | ⟨message, hm⟩
    · obtain ⟨-, fields, rfl, -⟩ := hshown _ _ _ hs
      rw [CursorFormat.decode, hs.openCursor, readPayload_payloadOf] at herror
      exact format.read_invalid _ e herror
    · rw [CursorFormat.decode, hm] at herror
      cases herror
      trivial

/-- It is not on a token that shows a position in other parts. -/
theorem CursorFormat.not_exact_of_loose (format : CursorFormat M Position Boundary) {position : Position}
    (h : Shows runtime signingKey token (payloadOf runtime (format.fields position)) payloadB64 signatureB64)
    (hloose : ¬ (Canonical payloadB64 ∧ Canonical signatureB64)) :
    ¬ Exact (format.encode runtime signingKey) format.boundary (format.decode runtime signingKey) token := by
  intro hexact
  obtain ⟨position', rfl, -⟩ := (hexact.accepts_iff _).mp (format.decode_of_shows h)
  have hparts := (shows_mint runtime (payloadOf runtime (format.fields position')) signingKey).parts.symm.trans h.parts
  simp only [List.cons.injEq, and_true] at hparts
  refine hloose ?_
  rw [← hparts.1, ← hparts.2]
  exact ⟨canonical_encode _, canonical_encode _⟩

/-! ## Loose tokens -/

/-- Foreign characters, four at a time, at the end of a text. -/
theorem b64urlDecode_append {foreign : List Char} (hforeign : ∀ c ∈ foreign, bits c = none ∧ c ≠ '=' ∧ c.toNat < 128)
    (hfour : foreign.length % 4 = 0) {text : List Char} {raw : Bytes} (htext : b64urlDecode text = .ok raw) :
    b64urlDecode (text ++ foreign) = .ok raw := by
  have hpadding : padding (text ++ foreign) = padding text := by
    simp only [padding, List.length_append]
    congr 2
    omega
  have hsame := readFrom_foreign_inside (fun c hc => ⟨(hforeign c hc).1, (hforeign c hc).2.1⟩) text (padding text) .none 0
  have hascii : (text ++ foreign ++ padding text).all (fun c => c.toNat < 128) =
      (text ++ padding text).all fun c => c.toNat < 128 := by
    have hall : foreign.all (fun c => c.toNat < 128) = true := by simpa using fun c hc => (hforeign c hc).2.2
    simp only [List.all_append, hall, Bool.and_true]
  rw [b64urlDecode, hpadding, urlsafeDecode, hascii, hsame]
  exact htext

/-- So a cursor can be made longer, and still shows its payload. -/
theorem shows_extended (runtime : CursorRuntime N M) (payload : Bytes) (signingKey : Option String) :
    Shows runtime signingKey (mintCursor runtime payload signingKey ++ "!!!!") payload (b64urlEncode payload)
      (b64urlEncode (sign runtime payload signingKey) ++ ['!', '!', '!', '!']) := by
  have hforeign : ∀ c ∈ ['!', '!', '!', '!'], bits c = none ∧ c ≠ '=' ∧ c.toNat < 128 := by decide
  have hdot : ∀ c ∈ b64urlEncode (sign runtime payload signingKey) ++ ['!', '!', '!', '!'], (c == '.') = false :=
    List.forall_mem_append.mpr ⟨encode_ne_dot _, by decide⟩
  refine ⟨?_, b64urlDecode_encode payload, b64urlDecode_append hforeign rfl (b64urlDecode_encode _)⟩
  have htext : (mintCursor runtime payload signingKey ++ "!!!!").toList = b64urlEncode payload ++
      '.' :: (b64urlEncode (sign runtime payload signingKey) ++ ['!', '!', '!', '!']) := by
    simp [mintCursor, String.toList_append]
  rw [htext]
  exact splitOn_dot (encode_ne_dot _) hdot

/-- Its second part is not canonical then. -/
theorem not_canonical_extended (text : List Char) : ¬ Canonical (text ++ ['!', '!', '!', '!']) := by
  intro hcanonical
  obtain ⟨n, hn, hletter⟩ := hcanonical.isLetter '!' (by simp)
  have hbits := bits_letter hn
  rw [← hletter] at hbits
  exact absurd hbits (by simp [bits])

end RagSystem.PageCursors
