import Mathlib.Data.List.Basic

/-!
# Records of comma-separated fields

Records are separated by a carriage return and a line feed, fields by a comma. A
field in quotes may have any text in it, with its quotes doubled; one without
quotes has none of the delimiters in it.
-/

namespace RagSystem.CsvRecords

set_option autoImplicit false

/-- The characters that delimit records and fields. -/
structure Delimiters (C : Type) where
  /-- Around a field, and doubled in it. -/
  quote : C
  /-- Between two fields. -/
  comma : C
  /-- The first of the two between records. -/
  carriageReturn : C
  /-- The second. -/
  lineFeed : C
  /-- They are different. -/
  distinct : [quote, comma, carriageReturn, lineFeed].Nodup

/-- Where a reader is. -/
inductive Mode where
  /-- Before a field. -/
  | start
  /-- In a field without quotes. -/
  | plain
  /-- In a field in quotes. -/
  | quoted
  /-- After a quote in such a field. -/
  | closed
  /-- After a carriage return between records. -/
  | carriage
  deriving DecidableEq

/-- What a reader has read. -/
structure Scan (C : Type) where
  /-- Where it is. -/
  mode : Mode
  /-- The records that are over. -/
  records : List (List (List C))
  /-- The fields of this record that are over. -/
  record : List (List C)
  /-- This field. -/
  field : List C

variable {C : Type} [DecidableEq C]

/-- After a field: a comma or a carriage return, or else nothing that is allowed. -/
def Scan.delimited (d : Delimiters C) (scan : Scan C) (c : C) : Option (Scan C) :=
  if c = d.comma then some ⟨.start, scan.records, scan.record ++ [scan.field], []⟩
  else if c = d.carriageReturn then some { scan with mode := .carriage }
  else none

/-- One character of a field without quotes, or after it. -/
def Scan.plain (d : Delimiters C) (scan : Scan C) (c : C) : Option (Scan C) :=
  if c = d.comma ∨ c = d.carriageReturn then scan.delimited d c
  else if c = d.quote ∨ c = d.lineFeed then none
  else some { scan with mode := .plain, field := scan.field ++ [c] }

/-- One character more. -/
def step (d : Delimiters C) (scan : Scan C) (c : C) : Option (Scan C) :=
  match scan.mode with
  | .start => if c = d.quote then some { scan with mode := .quoted } else scan.plain d c
  | .plain => scan.plain d c
  | .quoted =>
    if c = d.quote then some { scan with mode := .closed } else some { scan with field := scan.field ++ [c] }
  | .closed =>
    if c = d.quote then some { scan with mode := .quoted, field := scan.field ++ [c] } else scan.delimited d c
  | .carriage =>
    if c = d.lineFeed then some ⟨.start, scan.records ++ [scan.record ++ [scan.field]], [], []⟩ else none

/-- The text is over: so is the last record, unless it is open. -/
def Scan.finish (scan : Scan C) : Option (List (List (List C))) :=
  match scan.mode with
  | .start | .plain | .closed => some (scan.records ++ [scan.record ++ [scan.field]])
  | .quoted | .carriage => none

/-- Characters one after the other. -/
def scanAll (d : Delimiters C) : Scan C → List C → Option (Scan C)
  | scan, [] => some scan
  | scan, c :: text => (step d scan c).bind fun next => scanAll d next text

/-- The records of a text. -/
def parse (d : Delimiters C) (text : List C) : Option (List (List (List C))) :=
  (scanAll d ⟨.start, [], [], []⟩ text).bind Scan.finish

/-- A field can be over here. -/
def Scan.Ended (scan : Scan C) : Prop := scan.mode = .start ∨ scan.mode = .plain ∨ scan.mode = .closed

variable {d : Delimiters C} {records : List (List (List C))} {record : List (List C)}

theorem scanAll_append (d : Delimiters C) (front back : List C) :
    ∀ scan, scanAll d scan (front ++ back) = (scanAll d scan front).bind fun next => scanAll d next back := by
  induction front with
  | nil => exact fun scan => rfl
  | cons c front ih =>
    intro scan
    rw [List.cons_append, scanAll, scanAll]
    cases step d scan c with
    | none => rfl
    | some next => exact ih next

/-- A comma ends a field. -/
theorem scan_comma {scan : Scan C} (h : scan.Ended) :
    step d scan d.comma = some ⟨.start, scan.records, scan.record ++ [scan.field], []⟩ := by
  have hdistinct := d.distinct
  simp only [List.nodup_cons, List.mem_cons, List.not_mem_nil, or_false, not_or] at hdistinct
  have hquote : d.comma ≠ d.quote := fun he => hdistinct.1.1 he.symm
  rcases h with hmode | hmode | hmode <;> simp [step, hmode, hquote, Scan.plain, Scan.delimited]

/-- A carriage return and a line feed end a record. -/
theorem scan_lineBreak {scan : Scan C} (h : scan.Ended) :
    scanAll d scan [d.carriageReturn, d.lineFeed] =
      some ⟨.start, scan.records ++ [scan.record ++ [scan.field]], [], []⟩ := by
  have hdistinct := d.distinct
  simp only [List.nodup_cons, List.mem_cons, List.not_mem_nil, or_false, not_or] at hdistinct
  have hquote : d.carriageReturn ≠ d.quote := fun he => hdistinct.1.2.1 he.symm
  have hcomma : d.carriageReturn ≠ d.comma := fun he => hdistinct.2.1.1 he.symm
  have hcarriage : step d scan d.carriageReturn = some { scan with mode := .carriage } := by
    rcases h with hmode | hmode | hmode <;> simp [step, hmode, hquote, hcomma, Scan.plain, Scan.delimited]
  rw [scanAll, hcarriage, Option.bind_some]
  simp [scanAll, step]

/-- No character of a text delimits. -/
def Bare (d : Delimiters C) (text : List C) : Prop :=
  ∀ c ∈ text, c ≠ d.quote ∧ c ≠ d.comma ∧ c ≠ d.carriageReturn ∧ c ≠ d.lineFeed

/-- A text without delimiters is a field as it stands. -/
theorem scan_bare (records : List (List (List C))) (record : List (List C)) {text : List C} (hbare : Bare d text) :
    ∀ mode field, mode = .start ∨ mode = .plain →
      ∃ last, scanAll d ⟨mode, records, record, field⟩ text = some ⟨last, records, record, field ++ text⟩ ∧
        (last = .start ∨ last = .plain) := by
  induction text with
  | nil =>
    intro mode field hmode
    exact ⟨mode, by simp [scanAll], hmode⟩
  | cons c text ih =>
    intro mode field hmode
    obtain ⟨hquote, hcomma, hcarriage, hfeed⟩ := hbare c List.mem_cons_self
    have hstep : step d ⟨mode, records, record, field⟩ c = some ⟨.plain, records, record, field ++ [c]⟩ := by
      rcases hmode with rfl | rfl <;> simp [step, Scan.plain, hquote, hcomma, hcarriage, hfeed]
    obtain ⟨last, hrest, hlast⟩ :=
      ih (fun x hx => hbare x (List.mem_cons_of_mem _ hx)) .plain (field ++ [c]) (Or.inr rfl)
    refine ⟨last, ?_, hlast⟩
    rw [scanAll, hstep, Option.bind_some, hrest, List.append_assoc, List.singleton_append]

/-- A text with its quotes doubled. -/
def doubled (d : Delimiters C) : List C → List C
  | [] => []
  | c :: text => if c = d.quote then d.quote :: d.quote :: doubled d text else c :: doubled d text

/-- Between quotes the text with its quotes doubled is the field. -/
theorem scan_doubled (text : List C) :
    ∀ {field : List C}, scanAll d ⟨.quoted, records, record, field⟩ (doubled d text ++ [d.quote]) =
      some ⟨.closed, records, record, field ++ text⟩ := by
  induction text with
  | nil =>
    intro field
    simp [doubled, scanAll, step]
  | cons c text ih =>
    intro field
    by_cases hquote : c = d.quote
    · rw [doubled, if_pos hquote, List.cons_append, List.cons_append, scanAll]
      have hfirst : step d ⟨.quoted, records, record, field⟩ d.quote = some ⟨.closed, records, record, field⟩ := by
        simp [step]
      have hsecond : step d ⟨.closed, records, record, field⟩ d.quote =
          some ⟨.quoted, records, record, field ++ [c]⟩ := by
        simp [step, hquote]
      rw [hfirst, Option.bind_some, scanAll, hsecond, Option.bind_some, ih, List.append_assoc, List.singleton_append]
    · have hstep : step d ⟨.quoted, records, record, field⟩ c = some ⟨.quoted, records, record, field ++ [c]⟩ := by
        simp [step, hquote]
      rw [doubled, if_neg hquote, List.cons_append, scanAll, hstep, Option.bind_some, ih, List.append_assoc,
        List.singleton_append]

/-- And so a quote, that text and a quote are a field. -/
theorem scan_quoted (text : List C) :
    scanAll d ⟨.start, records, record, []⟩ (d.quote :: (doubled d text ++ [d.quote])) =
      some ⟨.closed, records, record, text⟩ := by
  have hstep : step d ⟨.start, records, record, []⟩ d.quote = some ⟨.quoted, records, record, []⟩ := by simp [step]
  rw [scanAll, hstep, Option.bind_some, scan_doubled, List.nil_append]

/-! ## Written records -/

/-- Texts with a separator between each two. -/
def join (separator : List C) : List (List C) → List C
  | [] => []
  | [text] => text
  | text :: next :: rest => text ++ separator ++ join separator (next :: rest)

/-- A field as it is written is read as its text. -/
def ReadsBack (d : Delimiters C) (write : List C → List C) : Prop :=
  ∀ text records record, ∃ scan : Scan C, scanAll d ⟨.start, records, record, []⟩ (write text) = some scan ∧ scan.Ended ∧
    scan.records = records ∧ scan.record = record ∧ scan.field = text

variable {write : List C → List C}

/-- A record of written fields is read as the fields. -/
theorem scan_record (records : List (List (List C))) (hwrite : ReadsBack d write) (fields : List (List C))
    (hfields : fields ≠ []) : ∀ record, ∃ scan : Scan C, scanAll d ⟨.start, records, record, []⟩ (join [d.comma] (fields.map write)) = some scan ∧
      scan.Ended ∧ scan.records = records ∧ scan.record ++ [scan.field] = record ++ fields := by
  induction fields with
  | nil => exact absurd rfl hfields
  | cons text rest ih =>
    intro record
    obtain ⟨scan, hscan, hended, hrecords, hrecord, hfield⟩ := hwrite text records record
    cases rest with
    | nil =>
      refine ⟨scan, hscan, hended, hrecords, ?_⟩
      rw [hrecord, hfield]
    | cons next rest =>
      obtain ⟨last, hlast, hended', hrecords', hrecord'⟩ := ih (List.cons_ne_nil next rest) (record ++ [text])
      refine ⟨last, ?_, hended', hrecords', ?_⟩
      · have hcomma : scanAll d scan [d.comma] = some ⟨.start, records, record ++ [text], []⟩ := by
          rw [scanAll, scan_comma hended, Option.bind_some, scanAll, hrecords, hrecord, hfield]
        rw [List.map_cons, List.map_cons, join, scanAll_append, scanAll_append, hscan, Option.bind_some, hcomma,
          Option.bind_some]
        exact hlast
      · rw [hrecord', List.append_assoc, List.singleton_append]

/-- Records of written fields, with line breaks between them, are read as the records. -/
theorem parse_written (hwrite : ReadsBack d write) (table : List (List (List C))) (htable : table ≠ [])
    (hrecords : ∀ record ∈ table, record ≠ []) :
    parse d (join [d.carriageReturn, d.lineFeed] (table.map fun record => join [d.comma] (record.map write))) =
      some table := by
  have hall : ∀ records, ∃ scan : Scan C, scanAll d ⟨.start, records, [], []⟩
      (join [d.carriageReturn, d.lineFeed] (table.map fun record => join [d.comma] (record.map write))) = some scan ∧
        scan.Ended ∧ scan.records ++ [scan.record ++ [scan.field]] = records ++ table := by
    induction table with
    | nil => exact absurd rfl htable
    | cons fields rest ih =>
      intro records
      obtain ⟨scan, hscan, hended, hbefore, hrecord⟩ :=
        scan_record records hwrite fields (hrecords fields List.mem_cons_self) []
      cases rest with
      | nil =>
        refine ⟨scan, hscan, hended, ?_⟩
        rw [hbefore, hrecord, List.nil_append]
      | cons next rest =>
        have hne : (next :: rest) ≠ [] := List.cons_ne_nil next rest
        obtain ⟨last, hlast, hended', hrecord'⟩ :=
          ih hne (fun record hr => hrecords record (List.mem_cons_of_mem _ hr)) (records ++ [fields])
        refine ⟨last, ?_, hended', ?_⟩
        · rw [List.map_cons, List.map_cons, join, scanAll_append, scanAll_append, hscan, Option.bind_some,
            scan_lineBreak hended, Option.bind_some, hbefore, hrecord, List.nil_append]
          exact hlast
        · rw [hrecord', List.append_assoc, List.singleton_append]
  obtain ⟨scan, hscan, hended, htable'⟩ := hall []
  rw [parse, hscan, Option.bind_some, Scan.finish]
  rw [List.nil_append] at htable'
  rcases hended with hmode | hmode | hmode <;> rw [hmode] <;> exact congrArg some htable'

end RagSystem.CsvRecords
