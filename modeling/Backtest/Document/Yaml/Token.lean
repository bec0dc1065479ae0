import Backtest.Document.Yaml.Mark
import Backtest.Document.Yaml.Depth

/-!
# YAML tokens

The first stage of reading YAML cuts the text into tokens: indicators, the implied starts and ends
of indented blocks, document markers, directives, anchors, aliases, tags and scalars, each with its
start and end. The scanner works on demand and keeps its state in `Scanner`, including the places
where a simple key may have started and the depth of the chain of reading steps, which the parser
and the composer share.
-/

namespace Backtest.Document.Yaml

/-- What a directive says. -/
inductive Directive where
  /-- `%YAML major.minor`. -/
  | version (major minor : Nat)
  /-- `%TAG handle prefix`. -/
  | tagPrefix (handle pfx : String)
  /-- Any other directive, by name; its text is skipped. -/
  | other (name : String)

/-- The kinds of tokens. -/
inductive TokenKind where
  | streamStart
  | streamEnd
  | directive (d : Directive)
  | documentStart
  | documentEnd
  | blockSequenceStart
  | blockMappingStart
  | blockEnd
  | flowSequenceStart
  | flowMappingStart
  | flowSequenceEnd
  | flowMappingEnd
  | key
  | value
  | blockEntry
  | flowEntry
  | alias (name : String)
  | anchor (name : String)
  /-- A tag: its handle (none for a verbatim tag or a lone `!`) and suffix. -/
  | tag (handle : Option String) (suffix : String)
  /-- A scalar's text, and whether it was written plain (without quotes or block indicator). -/
  | scalar (text : String) (plain : Bool)

/-- A token with its start and end positions. -/
structure Token where
  kind : TokenKind
  startMark : Mark
  endMark : Mark

/-- How messages name a kind of token. -/
def TokenKind.name : TokenKind → String
  | .streamStart => "<stream start>"
  | .streamEnd => "<stream end>"
  | .directive _ => "<directive>"
  | .documentStart => "<document start>"
  | .documentEnd => "<document end>"
  | .blockSequenceStart => "<block sequence start>"
  | .blockMappingStart => "<block mapping start>"
  | .blockEnd => "<block end>"
  | .flowSequenceStart => "["
  | .flowMappingStart => "\x7b"
  | .flowSequenceEnd => "]"
  | .flowMappingEnd => "\x7d"
  | .key => "?"
  | .value => ":"
  | .blockEntry => "-"
  | .flowEntry => ","
  | .alias _ => "<alias>"
  | .anchor _ => "<anchor>"
  | .tag .. => "<tag>"
  | .scalar .. => "<scalar>"

/-- Token kinds without their contents, to ask what the next token is. -/
inductive TokenClass where
  | streamStart | streamEnd | directive | documentStart | documentEnd
  | blockSequenceStart | blockMappingStart | blockEnd
  | flowSequenceStart | flowMappingStart | flowSequenceEnd | flowMappingEnd
  | key | value | blockEntry | flowEntry | alias | anchor | tag | scalar
deriving DecidableEq

/-- The class of a token kind. -/
def TokenKind.cls : TokenKind → TokenClass
  | .streamStart => .streamStart
  | .streamEnd => .streamEnd
  | .directive _ => .directive
  | .documentStart => .documentStart
  | .documentEnd => .documentEnd
  | .blockSequenceStart => .blockSequenceStart
  | .blockMappingStart => .blockMappingStart
  | .blockEnd => .blockEnd
  | .flowSequenceStart => .flowSequenceStart
  | .flowMappingStart => .flowMappingStart
  | .flowSequenceEnd => .flowSequenceEnd
  | .flowMappingEnd => .flowMappingEnd
  | .key => .key
  | .value => .value
  | .blockEntry => .blockEntry
  | .flowEntry => .flowEntry
  | .alias _ => .alias
  | .anchor _ => .anchor
  | .tag .. => .tag
  | .scalar .. => .scalar

/-- A place where a simple key may have started: the number of the token it would precede,
whether a key is required there, and its position. -/
structure SimpleKey where
  tokenNumber : Nat
  required : Bool
  mark : Mark

/-- The scanner's state. -/
structure Scanner where
  src : Source
  /-- Whether the end of the stream has been reached. -/
  done : Bool
  /-- How many flow collections are open. -/
  flowLevel : Nat
  /-- Tokens found and not yet taken. -/
  tokens : List Token
  /-- How many tokens have been taken. -/
  tokensTaken : Nat
  /-- The indentation of the innermost open block, `-1` outside all blocks. -/
  indent : Int
  /-- The indentations of the enclosing blocks, innermost first. -/
  indents : List Int
  /-- Whether a simple key may start at the current position. -/
  allowSimpleKey : Bool
  /-- Possible simple keys by flow level, in the order they were found. -/
  keys : List (Nat × SimpleKey)
  /-- How deep the chain of reading steps is. -/
  depth : Nat

/-- A scanner at the start of a text, with reading `depth` steps deep: the stream-start token is
ready. -/
def Scanner.start (src : Source) (depth : Nat) : Scanner :=
  { src, done := false, flowLevel := 0, tokens := [⟨.streamStart, src.pos, src.pos⟩],
    tokensTaken := 0, indent := -1, indents := [], allowSimpleKey := true, keys := [], depth }

/-- Scanning steps: they change the scanner's state and may fail. -/
abbrev ScanM := StateT Scanner (Except Fault)

/-- Line breaks. -/
def isBreak (c : Char) : Bool :=
  c = '\r' || c = '\n' || c = '\x85' || c = '\u2028' || c = '\u2029'

/-- Line breaks and the end of the text. -/
def isBreakOrEnd (c : Char) : Bool :=
  c = '\x00' || isBreak c

/-- Spaces, tabs, line breaks and the end of the text. -/
def isBlankOrEnd (c : Char) : Bool :=
  c = ' ' || c = '\t' || isBreakOrEnd c

/-- Spaces, line breaks and the end of the text (tabs excluded). -/
def isSpaceOrEnd (c : Char) : Bool :=
  c = ' ' || isBreakOrEnd c

/-- ASCII letters and digits, `-` and `_`: the characters of anchors, handles and directive
names. -/
def isWordChar (c : Char) : Bool :=
  ('0' ≤ c && c ≤ '9') || ('A' ≤ c && c ≤ 'Z') || ('a' ≤ c && c ≤ 'z') || c = '-' || c = '_'

/-- Hexadecimal digits. -/
def isHexDigit (c : Char) : Bool :=
  ('0' ≤ c && c ≤ '9') || ('A' ≤ c && c ≤ 'F') || ('a' ≤ c && c ≤ 'f')

/-- The value of a hexadecimal digit. -/
def hexDigitValue (c : Char) : Nat :=
  if '0' ≤ c && c ≤ '9' then c.toNat - 48
  else if 'A' ≤ c && c ≤ 'F' then c.toNat - 55
  else c.toNat - 87

/-- The value of hexadecimal digits. -/
def hexValue (s : String) : Nat :=
  s.toList.foldl (fun n c => 16 * n + hexDigitValue c) 0

namespace Scan

/-- Goes one step deeper; fails if that goes past the depth limit. -/
def enter (k : Step) : ScanM Unit := do
  let s ← get
  if depthLimit < s.depth + 1 then throw k.fault
  set { s with depth := s.depth + 1 }

/-- Comes back from a step. -/
def leave : ScanM Unit :=
  modify fun s => { s with depth := s.depth - 1 }

/-- Runs a step of the reader one level deeper. -/
def nested {α : Type} (m : ScanM α) : ScanM α := do
  enter .reader
  let a ← m
  leave
  return a

/-- Fails if a chain of steps that starts `below` levels under the current one goes past the
depth limit. -/
def reachBelow (below : Nat) (ks : List Step) : ScanM Unit := do
  match Step.firstPast ((← get).depth + below) ks with
  | some k => throw k.fault
  | none => pure ()

/-- Fails if a chain of steps that starts here goes past the depth limit. -/
def reach (ks : List Step) : ScanM Unit :=
  reachBelow 0 ks

/-- The character `k` places ahead. -/
def peekAt (k : Nat) : ScanM Char :=
  return (← get).src.peek k

/-- The current character. -/
def peek : ScanM Char :=
  peekAt 0

/-- The current position. -/
def here : ScanM Mark :=
  return (← get).src.pos

/-- Moves `n` characters ahead. -/
def forward (n : Nat) : ScanM Unit :=
  modify fun s => { s with src := s.src.forward n }

/-- The next `n` characters. -/
def ahead (n : Nat) : ScanM String :=
  return (← get).src.ahead n

/-- How many characters from `k` places ahead satisfy `p`. -/
def count (p : Char → Bool) (k : Nat) : ScanM Nat :=
  return (← get).src.count p k

/-- Reads and passes the characters from here that satisfy `p`. -/
def takeWhile (p : Char → Bool) : ScanM String := do
  let n ← count p 0
  let text ← ahead n
  forward n
  return text

/-- Passes the characters from here that satisfy `p`. -/
def skipWhile (p : Char → Bool) : ScanM Unit := do
  forward (← count p 0)

/-- Appends a token. -/
def push (kind : TokenKind) (startMark endMark : Mark) : ScanM Unit :=
  modify fun s => { s with tokens := s.tokens ++ [⟨kind, startMark, endMark⟩] }

/-- Fails with a scanner problem found at `m`. -/
def fail {α : Type} (context : Option String) (contextMark : Option Mark) (problem : String)
    (m : Mark) : ScanM α := do
  throw ((Problem.mk .scanner context contextMark problem (some m)).fault (← get).src.buffer)

/-- Reads a line break: `\r\n`, `\r`, `\n` and next line read as a line feed, the Unicode line
and paragraph separators as themselves; the empty text where there is no line break. -/
def lineBreak : ScanM String := do
  let c ← peek
  if c = '\r' || c = '\n' || c = '\x85' then
    if (← ahead 2) == "\r\n" then forward 2 else forward 1
    return "\n"
  else if c = '\u2028' || c = '\u2029' then
    forward 1
    return String.singleton c
  else return ""

end Scan

end Backtest.Document.Yaml
