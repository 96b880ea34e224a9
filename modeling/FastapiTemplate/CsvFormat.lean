import FastapiTemplate.Transducers

/-!
# Comma-separated values

The writer of the dialect `excel`, which quotes a field if it has to, and the reader of this
dialect. Whatever is in the fields, a text that has been written is read back.
-/

namespace FastapiTemplate.Csv

abbrev Field := List Char

abbrev Row := List Field

/-! ## The writer -/

def needsQuotes (f : Field) : Bool := f.any (fun c => c = ',' || c = '"' || c = '\r' || c = '\n')

def quotedChar (c : Char) : List Char := if c = '"' then ['"', '"'] else [c]

def quotedText (f : Field) : List Char := '"' :: f.flatMap quotedChar ++ ['"']

def fieldText (f : Field) : List Char := if needsQuotes f then quotedText f else f

def fieldsText : List Field → List Char
  | [] => []
  | [f] => fieldText f
  | f :: g :: rest => fieldText f ++ ',' :: fieldsText (g :: rest)

/-- `writerow`: a single field that is empty is quoted. -/
def rowText (row : Row) : List Char :=
  (if row = [[]] then quotedText [] else fieldsText row) ++ ['\r', '\n']

def rowsText (rows : List Row) : List Char := rows.flatMap rowText

/-! ## The reader -/

inductive Point
  | recordStart
  | fieldStart
  | plain
  | quoted
  | quoteInQuoted
  deriving DecidableEq, Repr

/-- The fields of the record that are complete, and the characters of the next one. -/
structure Reader where
  point : Point
  fields : List Field
  field : Field
  afterReturn : Bool
  deriving DecidableEq

namespace Reader

def start : Reader := ⟨.recordStart, [], [], false⟩

def readPlain (r : Reader) (c : Char) : Reader × Option Row :=
  if c = ',' then (⟨.fieldStart, r.fields ++ [r.field], [], false⟩, none)
  else if c = '\r' then (⟨.recordStart, [], [], true⟩, some (r.fields ++ [r.field]))
  else if c = '\n' then (start, some (r.fields ++ [r.field]))
  else (⟨.plain, r.fields, r.field ++ [c], false⟩, none)

def readChar (r : Reader) (c : Char) : Reader × Option Row :=
  match r.point with
  | .recordStart =>
    if c = '\n' then (start, if r.afterReturn then none else some [])
    else if c = '\r' then (⟨.recordStart, [], [], true⟩, some [])
    else if c = '"' then (⟨.quoted, r.fields, r.field, false⟩, none)
    else r.readPlain c
  | .fieldStart =>
    if c = '"' then (⟨.quoted, r.fields, r.field, false⟩, none) else r.readPlain c
  | .plain => r.readPlain c
  | .quoted =>
    if c = '"' then (⟨.quoteInQuoted, r.fields, r.field, false⟩, none)
    else (⟨.quoted, r.fields, r.field ++ [c], false⟩, none)
  | .quoteInQuoted =>
    if c = '"' then (⟨.quoted, r.fields, r.field ++ [c], false⟩, none) else r.readPlain c

/-- At the end of the text a record that has begun is complete. -/
def finish (r : Reader) : Option Row :=
  if r.point = .recordStart then none else some (r.fields ++ [r.field])

abbrev Reads : Reader → List Char → List Row → Reader → Prop := Transducer.Reads readChar

end Reader

def rowsOf (text : List Char) : List Row :=
  let (r, rows) := Transducer.read Reader.readChar .start text
  rows ++ r.finish.toList

/-! ## Reading what has been written -/

namespace Reader

variable (fields : List Field) (field : Field)

theorem reads_quoted (f : Field) : Reads ⟨.quoted, fields, field, false⟩ (f.flatMap quotedChar) []
    ⟨.quoted, fields, field ++ f, false⟩ := by
  induction f generalizing field with
  | nil =>
    rw [List.append_nil]
    exact .nil
  | cons c f ih =>
    have hrest := ih (field ++ [c])
    rw [List.append_assoc] at hrest
    rw [List.flatMap_cons, quotedChar]
    split_ifs with hquote
    · subst hquote
      exact .skip rfl (.skip rfl hrest)
    · have hchar : readChar ⟨.quoted, fields, field, false⟩ c =
          (⟨.quoted, fields, field ++ [c], false⟩, none) := if_neg hquote
      exact .skip hchar hrest

theorem reads_quotedText {point : Point} (hpoint : point = .recordStart ∨ point = .fieldStart)
    (f : Field) : Reads ⟨point, fields, [], false⟩ (quotedText f) []
      ⟨.quoteInQuoted, fields, f, false⟩ := by
  have hopen : readChar ⟨point, fields, [], false⟩ '"' = (⟨.quoted, fields, [], false⟩, none) := by
    rcases hpoint with rfl | rfl <;> rfl
  have hinside := (reads_quoted fields [] f).append
    (.single (rfl : readChar ⟨.quoted, fields, f, false⟩ '"' = _))
  exact .skip hopen hinside

theorem readPlain_of_not_needsQuotes {c : Char}
    (hc : (c = ',' || c = '"' || c = '\r' || c = '\n') = false) (r : Reader) :
    r.readPlain c = (⟨.plain, r.fields, r.field ++ [c], false⟩, none) := by
  simp only [Bool.or_eq_false_iff, decide_eq_false_iff_not] at hc
  rw [readPlain, if_neg hc.1.1.1, if_neg hc.1.2, if_neg hc.2]

theorem reads_plain {f : Field} (hf : needsQuotes f = false) :
    Reads ⟨.plain, fields, field, false⟩ f [] ⟨.plain, fields, field ++ f, false⟩ := by
  induction f generalizing field with
  | nil =>
    rw [List.append_nil]
    exact .nil
  | cons c f ih =>
    rw [needsQuotes, List.any_cons, Bool.or_eq_false_iff] at hf
    have hrest := ih (field ++ [c]) hf.2
    rw [List.append_assoc] at hrest
    exact .skip (readPlain_of_not_needsQuotes hf.1 _) hrest

/-- After the text of a field, the next comma ends it, and so does the end of the record unless the
field is empty and the first one. -/
theorem reads_fieldText {point : Point} (hpoint : point = .recordStart ∨ point = .fieldStart)
    (f : Field) : ∃ r, Reads ⟨point, fields, [], false⟩ (fieldText f) [] r ∧
      r.fields = fields ∧ r.field = f ∧ r.readChar ',' = r.readPlain ',' ∧
      (f ≠ [] ∨ point = .fieldStart → r.readChar '\r' = r.readPlain '\r') := by
  cases hquotes : needsQuotes f with
  | true =>
    refine ⟨⟨.quoteInQuoted, fields, f, false⟩, ?_, rfl, rfl, rfl, fun _ => rfl⟩
    rw [fieldText, hquotes, if_pos rfl]
    exact reads_quotedText fields hpoint f
  | false =>
    rw [fieldText, hquotes, if_neg Bool.false_ne_true]
    cases f with
    | nil =>
      refine ⟨_, .nil, rfl, rfl, ?_, ?_⟩
      · rcases hpoint with rfl | rfl <;> rfl
      · rintro (h | rfl)
        · exact absurd rfl h
        · rfl
    | cons c f =>
      rw [needsQuotes, List.any_cons, Bool.or_eq_false_iff] at hquotes
      refine ⟨⟨.plain, fields, c :: f, false⟩, ?_, rfl, rfl, rfl, fun _ => rfl⟩
      have hfirst : readChar ⟨point, fields, [], false⟩ c =
          (⟨.plain, fields, [c], false⟩, none) := by
        have hplain := readPlain_of_not_needsQuotes hquotes.1 ⟨point, fields, [], false⟩
        have hc := hquotes.1
        simp only [Bool.or_eq_false_iff, decide_eq_false_iff_not] at hc
        rcases hpoint with rfl | rfl
        · rw [readChar]
          dsimp only
          rw [if_neg hc.2, if_neg hc.1.2, if_neg hc.1.1.2, hplain]
          rfl
        · rw [readChar]
          dsimp only
          rw [if_neg hc.1.1.2, hplain]
          rfl
      exact .skip hfirst (reads_plain fields [c] hquotes.2)

theorem reads_end {r : Reader} (h : r.readChar '\r' = r.readPlain '\r') :
    Reads r ['\r', '\n'] [r.fields ++ [r.field]] start :=
  Transducer.Reads.cons (e := some (r.fields ++ [r.field])) h (.skip rfl .nil)

theorem reads_fieldsText (f : Field) (rest : List Field) :
    Reads ⟨.fieldStart, fields, [], false⟩ (fieldsText (f :: rest) ++ ['\r', '\n'])
      [fields ++ f :: rest] start := by
  induction rest generalizing fields f with
  | nil =>
    obtain ⟨r, hreads, hfields, hfield, -, hend⟩ := reads_fieldText fields (.inr rfl) f
    have hrow := reads_end (hend (.inr rfl))
    rw [hfields, hfield] at hrow
    exact hreads.append hrow
  | cons g rest ih =>
    obtain ⟨r, hreads, hfields, hfield, hcomma, -⟩ := reads_fieldText fields (.inr rfl) f
    have hnext : r.readChar ',' = (⟨.fieldStart, fields ++ [f], [], false⟩, none) := by
      rw [hcomma, readPlain, if_pos rfl, hfields, hfield]
    have hrest := ih (fields ++ [f]) g
    rw [List.append_assoc] at hrest
    rw [fieldsText, List.append_assoc]
    exact hreads.append (.skip hnext hrest)

theorem reads_rowText (row : Row) : Reads start (rowText row) [row] start := by
  cases row with
  | nil => exact Transducer.Reads.cons (e := some []) rfl (.skip rfl .nil)
  | cons f rest =>
    rw [rowText]
    split_ifs with hempty
    · rw [hempty]
      exact (reads_quotedText [] (.inl rfl) []).append (reads_end rfl)
    · obtain ⟨r, hreads, hfields, hfield, hcomma, hend⟩ := reads_fieldText [] (.inl rfl) f
      cases rest with
      | nil =>
        have hf : f ≠ [] := fun h => hempty (by rw [h])
        have hrow := reads_end (hend (.inl hf))
        rw [hfields, hfield] at hrow
        exact hreads.append hrow
      | cons g rest =>
        have hnext : r.readChar ',' = (⟨.fieldStart, [f], [], false⟩, none) := by
          rw [hcomma, readPlain, if_pos rfl, hfields, hfield]
          rfl
        rw [fieldsText, List.append_assoc]
        exact hreads.append (.skip hnext (reads_fieldsText [f] g rest))

end Reader

/-- Every list of rows is read back. -/
theorem rowsOf_rowsText (rows : List Row) : rowsOf (rowsText rows) = rows := by
  have hreads : Reader.Reads .start (rowsText rows) rows .start := by
    have hrows := Transducer.Reads.flatMap (fun row (_ : row ∈ rows) => Reader.reads_rowText row)
    rwa [List.flatMap_singleton'] at hrows
  rw [rowsOf, hreads]
  exact List.append_nil rows

end FastapiTemplate.Csv
