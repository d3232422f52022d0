import RagSystem.GatheredResults
import RagSystem.PythonLines
import RagSystem.PythonNumbers

/-!
# Stored chunks

The chunks of a version are one object of the bucket, a line of JSON each. The
writer ends a line with a line feed; the reader ends one at every line boundary
of Unicode, of which JSON leaves three inside its strings.
-/

namespace RagSystem.ChunkStorage

open JsonText PythonLines PythonNumbers
open GatheredResults (length_of_mapM)

set_option autoImplicit false

attribute [local instance (2000)] List.decidableBAll

variable {N : Type}

section Model

/-- `Chunk`, as it is stored. Metadata are values that JSON has. -/
structure Chunk (N : Type) where
  /-- The chunk. -/
  id : String
  /-- The document. -/
  documentId : String
  /-- The version. -/
  version : String
  /-- The text. -/
  text : String
  /-- The first page. -/
  pageStart : Option ℤ := none
  /-- The last page. -/
  pageEnd : Option ℤ := none
  /-- The headings it stands under. -/
  sectionPath : List String := []
  /-- What else the parser knew. -/
  metadata : List (String × Json N) := []

/-- All text of a chunk. -/
def Chunk.strings (chunk : Chunk N) : List String :=
  chunk.id :: chunk.documentId :: chunk.version :: chunk.text :: (chunk.sectionPath ++ memberStrings chunk.metadata)

/-- A page number, if there is one. -/
def pageJson (ofInt : ℤ → N) : Option ℤ → Json N
  | none => .null
  | some page => .num (ofInt page)

/-- The fields of a chunk. -/
def chunkJson (ofInt : ℤ → N) (chunk : Chunk N) : Json N :=
  .obj
    [("id", .str chunk.id), ("document_id", .str chunk.documentId), ("version", .str chunk.version),
      ("text", .str chunk.text), ("page_start", pageJson ofInt chunk.pageStart),
      ("page_end", pageJson ofInt chunk.pageEnd), ("section_path", .arr (chunk.sectionPath.map .str)),
      ("metadata", .obj chunk.metadata)]

/-- The layout of `model_dump_json`: no white space, and characters past ASCII
as they are. -/
def pydanticLayout : Layout where
  escape := escape
  afterComma := []
  afterColon := []
  read_escape := parseString_escape
  space_afterComma := isSpace_of_mem_nil
  space_afterColon := isSpace_of_mem_nil

/-- What pydantic does with numbers and fields: it reads what it wrote. -/
structure ChunkModel (N : Type) where
  /-- The text of a number. -/
  numbers : NumberText N N
  /-- A whole number. -/
  ofInt : ℤ → N
  /-- The chunk with these fields, if they are those of one. -/
  validate : Json N → Option (Chunk N)
  /-- Every number is read back. -/
  received_eq : numbers.received = some
  /-- Numbers are written in ASCII. -/
  write_ascii : ∀ n, ∀ c ∈ numbers.write n, c.toNat < 128
  /-- The fields of a chunk are those of that chunk. -/
  validate_chunkJson : ∀ chunk, validate (chunkJson ofInt chunk) = some chunk

/-- The objects of a bucket. -/
structure Bucket where
  /-- The bucket. -/
  name : String
  /-- Its objects. -/
  objects : String → Option ByteArray

/-- What reading chunks can raise. -/
inductive ReadError where
  /-- `UnicodeDecodeError`. -/
  | unicodeDecode
  /-- `ValidationError`: the line is no chunk. -/
  | validation (line : String)
  deriving DecidableEq

variable (model : ChunkModel N)

/-- `model_dump_json`. -/
def modelDumpJson (chunk : Chunk N) : String :=
  String.ofList (written pydanticLayout model.numbers.write (chunkJson model.ofInt chunk))

/-- `Chunk.model_validate_json`. -/
def modelValidateJson (line : String) : Except ReadError (Chunk N) :=
  match (parse model.numbers.scan line.toList).bind model.validate with
  | some chunk => .ok chunk
  | none => .error (.validation line)

/-- `chunks_key`. -/
def chunksKey (documentId version : String) : String := "chunks/" ++ documentId ++ "/" ++ version ++ "/chunks.jsonl"

/-- `"\n".join(lines) + "\n"`. -/
def joinLines (lines : List String) : String :=
  String.ofList (['\n'].intercalate (lines.map String.toList) ++ ['\n'])

/-- `put_chunks`: the bucket with the object, and where that is. -/
def putChunks (bucket : Bucket) (documentId version : String) (chunks : List (Chunk N)) : Bucket × String :=
  let lines := chunks.map (modelDumpJson model)
  let key := chunksKey documentId version
  let body := (joinLines lines).toUTF8
  (⟨bucket.name, fun k => if k = key then some body else bucket.objects k⟩, "gs://" ++ bucket.name ++ "/" ++ key)

/-- `get_chunks`. -/
def getChunks (bucket : Bucket) (documentId version : String) : Except ReadError (List (Chunk N)) :=
  match bucket.objects (chunksKey documentId version) with
  | none => .ok []
  | some body =>
    match String.fromUTF8? body with
    | none => .error .unicodeDecode
    | some text => (inkedLines text).mapM (modelValidateJson model)

end Model

section Characters

/-- The line boundaries that are no control characters of JSON. -/
def wideBoundaries : List Char := ['\x85', '\u2028', '\u2029']

theorem mem_wideBoundaries {c : Char} :
    c ∈ wideBoundaries ↔ c.toNat = 0x85 ∨ c.toNat = 0x2028 ∨ c.toNat = 0x2029 := by
  have hcode : ∀ d : Char, c = d ↔ c.toNat = d.toNat := fun d => Char.toNat_inj.symm
  simp only [wideBoundaries, List.mem_cons, List.not_mem_nil, or_false, hcode]
  rfl

/-- A hexadecimal digit ends no line. -/
theorem hexDigit_boundary {n : ℕ} (hn : n < 16) : isLineBoundary (hexDigit n) = false := by
  interval_cases n <;> decide

/-- A character is written without a line boundary, unless it is a wide one. -/
theorem escape_boundary (c : Char) : (∀ d ∈ escape c, isLineBoundary d = false) ↔ c ∉ wideBoundaries := by
  rw [mem_wideBoundaries]
  by_cases hcontrol : c.toNat < 32
  · have hhigh := hexDigit_boundary (show c.toNat / 16 < 16 by omega)
    have hlow := hexDigit_boundary (show c.toNat % 16 < 16 by omega)
    have hmarks : ∀ d ∈ ['"', '\\', 'n', 'r', 't', 'b', 'f', 'u', '0'], isLineBoundary d = false := by decide
    have hescaped : ∀ d ∈ escape c, isLineBoundary d = false := by
      unfold escape
      rw [if_pos hcontrol]
      simp only [List.forall_mem_cons] at hmarks
      repeat' split
      all_goals simp [hmarks, hhigh, hlow]
    have hnarrow : ¬ (c.toNat = 0x85 ∨ c.toNat = 0x2028 ∨ c.toNat = 0x2029) := by omega
    exact ⟨fun _ => hnarrow, fun _ => hescaped⟩
  · by_cases hescape : escape c = [c]
    · have hself : isLineBoundary c = false ↔ ¬ (c.toNat = 0x85 ∨ c.toNat = 0x2028 ∨ c.toNat = 0x2029) := by
        simp only [isLineBoundary, Bool.or_eq_false_iff, Bool.and_eq_false_iff, decide_eq_false_iff_not]
        omega
      rw [hescape, List.forall_mem_singleton, hself]
    · -- a quote or a backslash
      have hmark : c = '"' ∨ c = '\\' := by
        by_contra hnone
        rw [not_or] at hnone
        have hbelow : ∀ d : Char, d.toNat < 32 → c ≠ d := by
          intro d hd hc
          rw [hc] at hcontrol
          exact hcontrol hd
        have hn := hbelow '\n' (by decide)
        have hr := hbelow '\r' (by decide)
        have ht := hbelow '\t' (by decide)
        have hb := hbelow '\x08' (by decide)
        have hf := hbelow '\x0c' (by decide)
        exact hescape (by simp [escape, hnone, hn, hr, ht, hb, hf, hcontrol])
      rcases hmark with rfl | rfl
      · decide
      · decide

end Characters

section Text

variable {model : ChunkModel N}

/-- Control characters are escaped. -/
theorem plain_dump (chunk : Chunk N) : Plain (modelDumpJson model chunk).toList := by
  rw [modelDumpJson, String.toList_ofList]
  refine (forall_mem_written _ (by decide) (by decide) (by decide) model.numbers.write_plain).mpr ?_
  exact fun text _ c _ => plain_escape c

/-- The strings of the fields are the field names and those of the chunk. -/
theorem strings_chunkJson {P : String → Prop} (ofInt : ℤ → N) (chunk : Chunk N)
    (hnames : ∀ name ∈ ["id", "document_id", "version", "text", "page_start", "page_end", "section_path", "metadata"], P name) :
    (∀ text ∈ (chunkJson ofInt chunk).strings, P text) ↔ ∀ text ∈ chunk.strings, P text := by
  have hpage : ∀ page, (pageJson ofInt page).strings = [] := by
    intro page
    cases page with
    | none => rfl
    | some page => rfl
  have hsections : ∀ sections : List String, itemStrings (sections.map (Json.str (N := N))) = sections := by
    intro sections
    induction sections with
    | nil => rfl
    | cons heading sections ih => simp [itemStrings, Json.strings, ih]
  simp only [List.forall_mem_cons] at hnames
  simp [chunkJson, Json.strings, memberStrings, Chunk.strings, hpage, hsections, hnames, or_imp, forall_and]

/-- The line of a chunk is one line exactly when its text has no wide boundary. -/
theorem dump_boundary (model : ChunkModel N) (chunk : Chunk N) :
    (∀ c ∈ (modelDumpJson model chunk).toList, isLineBoundary c = false) ↔
      ∀ text ∈ chunk.strings, ∀ c ∈ text.toList, c ∉ wideBoundaries := by
  have hnumbers : ∀ n, ∀ c ∈ model.numbers.write n, isLineBoundary c = false := by
    intro n c hc
    have hplain := model.numbers.write_plain n c hc
    have hascii := model.write_ascii n c hc
    simp only [isLineBoundary, Bool.or_eq_false_iff, Bool.and_eq_false_iff, decide_eq_false_iff_not]
    omega
  have hspelled : ∀ text : String, pydanticLayout.Spelled (fun c => isLineBoundary c = false) text ↔
      ∀ c ∈ text.toList, c ∉ wideBoundaries := by
    intro text
    exact forall₂_congr fun c _ => escape_boundary c
  rw [modelDumpJson, String.toList_ofList,
    forall_mem_written _ (by decide) (by decide) (by decide) hnumbers, strings_chunkJson]
  · exact forall₂_congr fun text _ => hspelled text
  · intro name hname
    rw [hspelled]
    revert name
    decide

end Text

section RoundTrip

variable {model : ChunkModel N}

/-- A chunk is read back from its own line. -/
theorem modelValidateJson_dump (chunk : Chunk N) :
    modelValidateJson model (modelDumpJson model chunk) = .ok chunk := by
  have hreceive := receive_some (chunkJson model.ofInt chunk)
  rw [← model.received_eq] at hreceive
  rw [modelValidateJson, modelDumpJson, String.toList_ofList, parse_written, hreceive, Option.bind_some,
    model.validate_chunkJson]

/-- Text is read back from its UTF-8. -/
theorem fromUTF8?_toUTF8 (text : String) : String.fromUTF8? text.toUTF8 = some text := dif_pos text.isValidUTF8

/-- Lines joined and ended by line feeds, if there is one. -/
theorem joinLines_eq {lines : List String} (hne : lines ≠ []) :
    joinLines lines = String.ofList ((lines.map String.toList).flatMap fun line => line ++ ['\n']) := by
  have hchars : ∀ texts : List (List Char), texts ≠ [] →
      ['\n'].intercalate texts ++ ['\n'] = texts.flatMap fun line => line ++ ['\n'] := by
    intro texts htexts
    induction texts with
    | nil => exact absurd rfl htexts
    | cons text texts ih =>
      cases texts with
      | nil => simp
      | cons next texts =>
        have hmore := ih (by simp)
        rw [List.intercalate_cons_cons, List.append_assoc, List.append_assoc, hmore]
        simp
  rw [joinLines, hchars _ (by simpa using hne)]

/-- What is read back is what the inked pieces of the lines hold. -/
theorem getChunks_putChunks (bucket : Bucket) (documentId version : String) (chunks : List (Chunk N)) :
    getChunks model (putChunks model bucket documentId version chunks).1 documentId version =
      (chunks.flatMap fun chunk => inkedPieces (modelDumpJson model chunk).toList).mapM (modelValidateJson model) := by
  have hbody : (putChunks model bucket documentId version chunks).1.objects (chunksKey documentId version) =
      some (joinLines (chunks.map (modelDumpJson model))).toUTF8 := if_pos rfl
  have hlines : inkedLines (joinLines (chunks.map (modelDumpJson model))) =
      chunks.flatMap fun chunk => inkedPieces (modelDumpJson model chunk).toList := by
    cases chunks with
    | nil =>
      have hblank : inkedLines (joinLines []) = [] := by decide +kernel
      exact hblank
    | cons chunk chunks =>
      rw [joinLines_eq (by simp), inkedLines_file, List.map_map, List.flatMap_map]
      · rfl
      · intro text htext
        simp only [List.mem_map] at htext
        obtain ⟨line, ⟨chunk, -, rfl⟩, rfl⟩ := htext
        exact plain_dump chunk
  simp only [getChunks, hbody, fromUTF8?_toUTF8, hlines]

/-- A line is read as its chunk alone, or as more than one. -/
theorem inkedPieces_dump (model : ChunkModel N) (chunk : Chunk N) :
    if ∀ text ∈ chunk.strings, ∀ c ∈ text.toList, c ∉ wideBoundaries then
      inkedPieces (modelDumpJson model chunk).toList = [modelDumpJson model chunk]
    else 2 ≤ (inkedPieces (modelDumpJson model chunk).toList).length := by
  obtain ⟨body, hbody⟩ := written_obj pydanticLayout model.numbers.write
    [("id", .str chunk.id), ("document_id", .str chunk.documentId), ("version", .str chunk.version),
      ("text", .str chunk.text), ("page_start", pageJson model.ofInt chunk.pageStart),
      ("page_end", pageJson model.ofInt chunk.pageEnd), ("section_path", .arr (chunk.sectionPath.map .str)),
      ("metadata", .obj chunk.metadata)]
  have hdump : modelDumpJson model chunk = String.ofList ('\x7b' :: (body ++ ['\x7d'])) := congrArg String.ofList hbody
  have hbetween := inkedPieces_between body (show DocumentModels.isSpace '\x7b' = false by decide)
    (show DocumentModels.isSpace '\x7d' = false by decide)
  have hnone : (∀ text ∈ chunk.strings, ∀ c ∈ text.toList, c ∉ wideBoundaries) ↔
      ¬ ∃ c ∈ body, isLineBoundary c = true := by
    have hopen : isLineBoundary '\x7b' = false := by decide
    have hclose : isLineBoundary '\x7d' = false := by decide
    rw [← dump_boundary model chunk, hdump, String.toList_ofList]
    simp [hopen, hclose, or_imp, forall_and]
  split
  · next hnarrow =>
    rw [if_neg (hnone.mp hnarrow)] at hbetween
    rw [hdump, String.toList_ofList, hbetween]
  · next hwide =>
    rw [if_pos (not_not.mp (fun hno => hwide (hnone.mpr hno)))] at hbetween
    rw [hdump, String.toList_ofList]
    exact hbetween

/-- There is a line at least for every chunk, and one more if some text has a
wide boundary. -/
theorem length_lines (model : ChunkModel N) (chunks : List (Chunk N)) :
    if ∀ chunk ∈ chunks, ∀ text ∈ chunk.strings, ∀ c ∈ text.toList, c ∉ wideBoundaries then
      chunks.length ≤ (chunks.flatMap fun chunk => inkedPieces (modelDumpJson model chunk).toList).length
    else chunks.length < (chunks.flatMap fun chunk => inkedPieces (modelDumpJson model chunk).toList).length := by
  induction chunks with
  | nil => simp
  | cons chunk chunks ih =>
    have hline := inkedPieces_dump model chunk
    simp only [List.forall_mem_cons, List.flatMap_cons, List.length_append, List.length_cons]
    by_cases hfirst : ∀ text ∈ chunk.strings, ∀ c ∈ text.toList, c ∉ wideBoundaries
    · rw [if_pos hfirst] at hline
      have hone := congrArg List.length hline
      simp only [List.length_singleton] at hone
      split
      · next hall =>
        rw [if_pos hall.2] at ih
        omega
      · next hnone =>
        rw [if_neg fun hrest => hnone ⟨hfirst, hrest⟩] at ih
        omega
    · rw [if_neg hfirst] at hline
      rw [if_neg fun hall => hfirst hall.1]
      split at ih
      · omega
      · omega

/-- Only chunks without a wide boundary are read back. -/
theorem narrow_of_read {bucket : Bucket} {documentId version : String} {chunks : List (Chunk N)}
    (hread : getChunks model (putChunks model bucket documentId version chunks).1 documentId version = .ok chunks) :
    ∀ chunk ∈ chunks, ∀ text ∈ chunk.strings, ∀ c ∈ text.toList, c ∉ wideBoundaries := by
  rw [getChunks_putChunks] at hread
  have hcount := length_of_mapM hread
  have hlines := length_lines model chunks
  by_contra hwide
  rw [if_neg hwide] at hlines
  omega

/-- The chunks of a version are read back as they were written exactly when no
text of them has a wide line boundary. -/
theorem get_put_chunks (model : ChunkModel N) (bucket : Bucket) (documentId version : String) (chunks : List (Chunk N)) :
    getChunks model (putChunks model bucket documentId version chunks).1 documentId version = .ok chunks ↔
      ∀ chunk ∈ chunks, ∀ text ∈ chunk.strings, ∀ c ∈ text.toList, c ∉ wideBoundaries := by
  constructor
  · exact narrow_of_read
  · intro hnarrow
    rw [getChunks_putChunks]
    induction chunks with
    | nil => rfl
    | cons chunk chunks ih =>
      have hfirst := List.forall_mem_cons.mp hnarrow
      have hline := inkedPieces_dump model chunk
      rw [if_pos hfirst.1] at hline
      rw [List.flatMap_cons, hline, List.singleton_append, List.mapM_cons, modelValidateJson_dump, ih hfirst.2]
      rfl

end RoundTrip

section Sample

/-- A text field. -/
def textField (members : List (String × Json N)) (name : String) : Option String :=
  match members.lookup name with
  | some (.str text) => some text
  | _ => none

/-- A page number, or none. -/
def pageField (members : List (String × Json N)) (name : String) : Option (Option N) :=
  match members.lookup name with
  | some .null => some none
  | some (.num page) => some (some page)
  | _ => none

/-- The headings. -/
def headings : List (Json N) → Option (List String)
  | [] => some []
  | .str heading :: items => (headings items).map fun later => heading :: later
  | _ => none

/-- A chunk over whole numbers from its fields. -/
def chunkOf : Json ℤ → Option (Chunk ℤ)
  | .obj members => do
    let id ← textField members "id"
    let documentId ← textField members "document_id"
    let version ← textField members "version"
    let text ← textField members "text"
    let pageStart ← pageField members "page_start"
    let pageEnd ← pageField members "page_end"
    match members.lookup "section_path", members.lookup "metadata" with
    | some (.arr items), some (.obj metadata) => do
      let sectionPath ← headings items
      some { id, documentId, version, text, pageStart, pageEnd, sectionPath, metadata }
    | _, _ => none
  | _ => none

/-- Headings are read back. -/
theorem headings_map (sections : List String) : headings (sections.map (Json.str (N := N))) = some sections := by
  induction sections with
  | nil => rfl
  | cons heading sections ih => simp [headings, ih]

theorem wholeNumbers_received : wholeNumbers.received = some := rfl

theorem wholeNumbers_ascii (value : ℤ) : ∀ c ∈ wholeNumbers.write value, c.toNat < 128 := by
  intro c hc
  have hnumeral := (numeralText_of_spells (spells_intText value)).2 c hc
  simp only [isNumeral, Bool.or_eq_true, decide_eq_true_eq] at hnumeral
  rcases hnumeral with ((((hd | rfl) | rfl) | rfl) | rfl) | rfl
  · simp only [Char.isDigit, Bool.and_eq_true, decide_eq_true_eq] at hd
    have hle : c.toNat ≤ ('9' : Char).toNat := hd.2
    have hnine : ('9' : Char).toNat = 57 := rfl
    omega
  all_goals decide

theorem chunkOf_chunkJson (chunk : Chunk ℤ) : chunkOf (chunkJson id chunk) = some chunk := by
  obtain ⟨id, documentId, version, text, pageStart, pageEnd, sectionPath, metadata⟩ := chunk
  cases pageStart <;> cases pageEnd <;>
    simp [chunkOf, chunkJson, textField, pageField, pageJson, List.lookup_cons, headings_map]

/-- Chunks whose metadata have whole numbers only. -/
def wholeModel : ChunkModel ℤ where
  numbers := wholeNumbers
  ofInt := id
  validate := chunkOf
  received_eq := wholeNumbers_received
  write_ascii := wholeNumbers_ascii
  validate_chunkJson := chunkOf_chunkJson

/-- A bucket with nothing in it. -/
def emptyBucket : Bucket := ⟨"rag", fun _ => none⟩

/-- A chunk of a document with a line separator in it. -/
def separated : Chunk ℤ := { id := "d:v:0", documentId := "d", version := "v", text := "first\u2028second" }

/-- It is not read back. -/
theorem separated_not_read_back :
    getChunks wholeModel (putChunks wholeModel emptyBucket "d" "v" [separated]).1 "d" "v" ≠ .ok [separated] := by
  intro hread
  have hnarrow := narrow_of_read hread separated (List.mem_singleton_self _) separated.text (by simp [Chunk.strings])
  exact hnarrow '\u2028' (by decide) (by decide)

end Sample

end RagSystem.ChunkStorage
