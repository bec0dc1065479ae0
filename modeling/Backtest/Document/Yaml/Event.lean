import Backtest.Document.Yaml.Token.Scan

/-!
# YAML events

The second stage of reading YAML turns tokens into events: stream and document starts and ends,
scalars, aliases, and the starts and ends of collections, each node's event with its anchor and its
tag, the handle already expanded. A scalar event records how its tag may be chosen when it has none,
by its form for a plain scalar and as text otherwise. The parser keeps its state in `Parser`.
-/

namespace Backtest.Document.Yaml

/-- The kinds of events. -/
inductive EventKind where
  | streamStart
  | streamEnd
  | documentStart
  | documentEnd
  | alias (name : String)
  /-- A scalar: anchor, tag, whether its tag is chosen by form, whether by being text, text. -/
  | scalar (anchor tag : Option String) (byForm asText : Bool) (value : String)
  | sequenceStart (anchor tag : Option String)
  | sequenceEnd
  | mappingStart (anchor tag : Option String)
  | mappingEnd

/-- An event with its start and end positions. -/
structure Event where
  kind : EventKind
  startMark : Mark
  endMark : Mark

/-- The anchor of a node's event. -/
def Event.anchor (e : Event) : Option String :=
  match e.kind with
  | .scalar a .. | .sequenceStart a _ | .mappingStart a _ => a
  | _ => none

/-- Where the parser goes next. -/
inductive ParseState where
  | streamStart
  | implicitDocumentStart
  | documentStart
  | documentEnd
  | documentContent
  | blockNode
  | blockSequenceFirstEntry
  | blockSequenceEntry
  | indentlessSequenceEntry
  | blockMappingFirstKey
  | blockMappingKey
  | blockMappingValue
  | flowSequenceFirstEntry
  | flowSequenceEntry
  | flowSequenceEntryMappingKey
  | flowSequenceEntryMappingValue
  | flowSequenceEntryMappingEnd
  | flowMappingFirstKey
  | flowMappingKey
  | flowMappingValue
  | flowMappingEmptyValue

/-- The parser's state. -/
structure Parser where
  scanner : Scanner
  /-- The event looked at and not yet taken. -/
  current : Option Event
  /-- The tag handles of the current document and the prefixes they stand for. -/
  tagHandles : List (String × String)
  /-- The states to return to, innermost first. -/
  states : List ParseState
  /-- The start positions of the open collections, innermost first. -/
  marks : List Mark
  /-- The next state; none after the end of the stream. -/
  state : Option ParseState

/-- A parser at the start of a text. -/
def Parser.start (src : Source) (depth : Nat) : Parser :=
  { scanner := Scanner.start src depth, current := none, tagHandles := [], states := [], marks := [],
    state := some .streamStart }

/-- Parsing steps: they change the parser's state and may fail. -/
abbrev ParseM := StateT Parser (Except Fault)

end Backtest.Document.Yaml
