import Backtest.Fault

/-!
# Comma-separated tables

A table file is read as records of text fields: commas between fields, double quotes around fields
that hold commas, quotes or line breaks, lines ending at `\n`, `\r` or `\r\n`, and a record ending
with its line unless a quoted field is still open. A field holds at most `fieldLimit` characters:
the reader stops at the character past it, after the records before it were read. The first record
names the columns, and every later record that is not empty is a row.
-/

namespace Backtest.Csv

/-- A character of the text, or the mark after each line. -/
inductive Sym where
  | ch (c : Char)
  | eol
deriving DecidableEq, Repr

/-- The characters of a text with an end-of-line mark after each line terminator, and after a
last line that has none. -/
def marks : List Char → List Sym
  | [] => []
  | ['\r'] => [.ch '\r', .eol]
  | '\r' :: '\n' :: rest => .ch '\r' :: .ch '\n' :: .eol :: marks rest
  | '\r' :: rest => .ch '\r' :: .eol :: marks rest
  | '\n' :: rest => .ch '\n' :: .eol :: marks rest
  | [c] => [.ch c, .eol]
  | c :: rest => .ch c :: marks rest

/-- Where the reader is within a record. -/
inductive Phase where
  /-- Before the first field of a record. -/
  | startRecord
  /-- Before a field. -/
  | startField
  /-- Inside an unquoted field. -/
  | inField
  /-- Inside a quoted field. -/
  | inQuoted
  /-- Just after a quote inside a quoted field. -/
  | quoteInQuoted
  /-- After a line break, waiting for the end of the line. -/
  | eatLineBreak
deriving DecidableEq, Repr

/-- The reader's state: its phase, the field being read (reversed) and its length, and the fields
read. -/
structure Scan where
  phase : Phase := .startRecord
  field : List Char := []
  size : Nat := 0
  fields : List String := []

/-- Ends the current field. -/
def Scan.save (s : Scan) : Scan :=
  { s with field := [], size := 0, fields := s.fields ++ [String.ofList s.field.reverse] }

/-- Moves to a phase. -/
def Scan.enter (s : Scan) (p : Phase) : Scan :=
  { s with phase := p }

/-- Adds a character to the current field. -/
def Scan.add (s : Scan) (c : Char) : Scan :=
  { s with field := c :: s.field, size := s.size + 1 }

/-- Whether a mark is a line break character or the end of a line. -/
def Sym.breaks : Sym → Bool
  | .ch '\n' | .ch '\r' | .eol => true
  | _ => false

/-- The phase after a field ended at a line break or at the end of a line. -/
def afterBreak : Sym → Phase
  | .eol => .startRecord
  | _ => .eatLineBreak

/-- Reads one mark before a field. -/
def startField (s : Scan) (m : Sym) : Scan :=
  if m.breaks then { s.save with phase := afterBreak m }
  else match m with
    | .ch '"' => s.enter .inQuoted
    | .ch ',' => s.save
    | .ch c => { s.add c with phase := .inField }
    | .eol => s

/-- Reads one mark. -/
def Scan.step (s : Scan) (m : Sym) : Scan :=
  match s.phase with
  | .startRecord =>
    match m with
    | .eol => s
    | .ch '\n' | .ch '\r' => { s with phase := .eatLineBreak }
    | _ => startField { s with phase := .startField } m
  | .startField => startField s m
  | .inField =>
    if m.breaks then { s.save with phase := afterBreak m }
    else match m with
      | .ch ',' => { s.save with phase := .startField }
      | .ch c => s.add c
      | .eol => s
  | .inQuoted =>
    match m with
    | .eol => s
    | .ch '"' => s.enter .quoteInQuoted
    | .ch c => s.add c
  | .quoteInQuoted =>
    match m with
    | .ch '"' => (s.add '"').enter .inQuoted
    | .ch ',' => { s.save with phase := .startField }
    | _ =>
      if m.breaks then { s.save with phase := afterBreak m }
      else match m with
        | .ch c => { s.add c with phase := .inField }
        | .eol => s
  | .eatLineBreak =>
    match m with
    | .eol => { s with phase := .startRecord }
    | _ => s

/-- The most characters a field may hold. -/
def fieldLimit : Nat := 131072

/-- The fault of a field that grows past the limit. -/
def fieldTooLarge : Fault :=
  .table ("field larger than field limit (" ++ toString fieldLimit ++ ")")

/-- What a reader yields: its records, in order, and whether it then stopped at a field growing
past the limit. -/
structure Reading where
  records : List (List String)
  overflow : Bool

/-- A reading with one more record in front. -/
def Reading.cons (r : List String) (rd : Reading) : Reading :=
  { rd with records := r :: rd.records }

/-- The records of the marks from a state: a record is complete when a line ends with the reader
back before a record, and the reading stops when a step leaves the field past the limit. -/
def recordsFrom : Scan → List Sym → Reading
  | s, [] => ⟨if s.phase = .inQuoted then [s.save.fields] else [], false⟩
  | s, m :: rest =>
    let s := s.step m
    if fieldLimit < s.size then ⟨[], true⟩
    else if m = .eol ∧ s.phase = .startRecord then (recordsFrom {} rest).cons s.fields
    else recordsFrom s rest

/-- The reading of a text. -/
def read (text : String) : Reading :=
  recordsFrom {} (marks text.toList)

/-- A table: its column names, its rows (records that are not empty), and whether the reader
stopped after them at a field past the limit. -/
structure Table where
  header : List String
  rows : List (List String)
  overflow : Bool

/-- The table of a text; a text with no record has no columns, and a header the reader stops in
is the limit's fault. -/
def Table.read (text : String) : Except Fault Table :=
  let rd := Csv.read text
  match rd.records with
  | [] => if rd.overflow then .error fieldTooLarge else .ok ⟨[], [], false⟩
  | header :: rest => .ok ⟨header, rest.filter fun r => !r.isEmpty, rd.overflow⟩

/-- The field of a row under a column name: `none` when the name is not a column, `some none`
when the row has no field for it, and `some (some s)` otherwise. A repeated name takes its last
position, unless one of its positions lies beyond the row. -/
def cell (header row : List String) (name : String) : Option (Option String) :=
  if name ∉ header then none
  else
    let positions := (List.range header.length).filter fun i => header[i]? = some name
    if positions.any (fun i => row.length ≤ i) then some none
    else some (positions.getLast?.bind fun i => row[i]?)

end Backtest.Csv
