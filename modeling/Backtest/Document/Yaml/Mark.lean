import Backtest.Fault
import Backtest.Text.Quoted
import Backtest.Text.CodePoint

/-!
# Positions in YAML text, and the problems found there

A YAML text is read as its characters and a closing NUL (`Source`); a position (`Mark`) is an index
with a line and a column from zero. A problem names its context, what went wrong, where, and the
stage that found it, each position shown as `  in "<unicode string>", line L, column C:` with the
line around it and a caret. Characters YAML does not allow are refused before any of this.
-/

namespace Backtest.Document.Yaml

/-- A position in the text: the character index, and the line and column from zero. -/
structure Mark where
  index : Nat
  line : Nat
  column : Nat
deriving Inhabited, DecidableEq, Repr

/-- The characters that end a line when a position is shown: the line breaks and the final NUL. -/
def isLineEnd (c : Char) : Bool :=
  c = '\x00' || c = '\r' || c = '\n' || c = '\x85' || c = '\u2028' || c = '\u2029'

/-- The first index at or after `i` whose character ends a line (or the buffer's size). -/
def lineEndFrom (buffer : Array Char) (i : Nat) : Nat :=
  if h : i < buffer.size then
    if isLineEnd buffer[i] then i else lineEndFrom buffer (i + 1)
  else buffer.size
termination_by buffer.size - i

/-- The index where the line holding position `i` starts: after the last line end before it. -/
def lineStartBefore (buffer : Array Char) : Nat → Nat
  | 0 => 0
  | i + 1 =>
    if isLineEnd (buffer.getD i ' ') then i + 1 else lineStartBefore buffer i

/-- The line around a position with a caret under it, indented by four spaces. -/
def Mark.snippet (buffer : Array Char) (m : Mark) : String :=
  let p := m.index
  let lineStart := lineStartBefore buffer p
  let (start, head) := if p - lineStart ≥ 37 then (p - 32, " ... ") else (lineStart, "")
  let lineEnd := lineEndFrom buffer p
  let (stop, tail) := if lineEnd - p ≥ 37 then (p + 32, " ... ") else (lineEnd, "")
  let text := Text.ofChars (buffer.extract start stop).toList
  "    " ++ head ++ text ++ tail ++ "\n" ++
    String.ofList (List.replicate (4 + (p - start) + head.length) ' ') ++ "^"

/-- A position as messages show it. -/
def Mark.describe (buffer : Array Char) (m : Mark) : String :=
  "  in \"<unicode string>\", line " ++ toString (m.line + 1) ++ ", column " ++
    toString (m.column + 1) ++ ":\n" ++ m.snippet buffer

/-- A problem found while reading YAML text. -/
structure Problem where
  stage : YamlStage
  context : Option String
  contextMark : Option Mark
  problem : String
  problemMark : Option Mark

/-- Whether two positions are shown alike: same line and column. -/
def Mark.sameSpot (a b : Mark) : Bool :=
  a.line == b.line && a.column == b.column

/-- The message of a problem. -/
def Problem.message (buffer : Array Char) (p : Problem) : String :=
  let contextLines := match p.context with
    | some c => [c]
    | none => []
  let contextMarkLines := match p.contextMark, p.problemMark with
    | some cm, some pm => if cm.sameSpot pm then [] else [cm.describe buffer]
    | some cm, none => [cm.describe buffer]
    | none, _ => []
  let problemMarkLines := match p.problemMark with
    | some pm => [pm.describe buffer]
    | none => []
  "\n".intercalate (contextLines ++ contextMarkLines ++ [p.problem] ++ problemMarkLines)

/-- The fault of a problem. -/
def Problem.fault (buffer : Array Char) (p : Problem) : Fault :=
  .yaml p.stage (p.message buffer)

/-- A character as messages quote it. -/
def quoteChar (c : Char) : String :=
  Text.quote (Text.ofCode c.toNat)

/-- Whether YAML allows a code point in its text. -/
def isAllowed (n : Nat) : Bool :=
  n = 0x09 || n = 0x0A || n = 0x0D || (0x20 ≤ n && n ≤ 0x7E) || n = 0x85 ||
    (0xA0 ≤ n && n ≤ 0xD7FF) || (0xE000 ≤ n && n ≤ 0xFFFD) || 0x10000 ≤ n

/-- Checks a text's code points for ones YAML does not allow; the fault names the first by its
code and index. -/
def checkAllowed (codes : List Nat) : Except Fault Unit :=
  match codes.zipIdx.find? (fun (n, _) => !isAllowed n) with
  | none => .ok ()
  | some (n, i) =>
    .error (.yaml .reader ("unacceptable character #x" ++ String.ofList (Text.hexDigits 4 n) ++
      ": special characters are not allowed\n  in \"<unicode string>\", position " ++ toString i))

/-- The text being read: its characters with a final NUL, and the current position. -/
structure Source where
  buffer : Array Char
  pos : Mark

/-- A source at the start of a text whose code points YAML allows (so none is a surrogate and
each is a character). -/
def Source.ofText (text : String) : Source :=
  { buffer := ((Text.codes text).map Char.ofNat ++ ['\x00']).toArray, pos := ⟨0, 0, 0⟩ }

/-- The character `k` places ahead (NUL past the end). -/
def Source.peek (s : Source) (k : Nat) : Char :=
  s.buffer.getD (s.pos.index + k) '\x00'

/-- The text of the next `n` characters. -/
def Source.ahead (s : Source) (n : Nat) : String :=
  Text.ofChars ((List.range n).map s.peek)

/-- Moves one character ahead, counting lines and columns. -/
def Source.step (s : Source) : Source :=
  let c := s.peek 0
  let i := s.pos.index + 1
  let next := s.buffer.getD i '\x00'
  if c = '\n' || c = '\x85' || c = '\u2028' || c = '\u2029' || (c = '\r' && next != '\n') then
    { s with pos := ⟨i, s.pos.line + 1, 0⟩ }
  else if c = '\uFEFF' then { s with pos := { s.pos with index := i } }
  else { s with pos := ⟨i, s.pos.line, s.pos.column + 1⟩ }

/-- Moves `n` characters ahead. -/
def Source.forward (s : Source) : Nat → Source
  | 0 => s
  | n + 1 => (s.step).forward n

/-- The first offset from `k` on whose character fails `p`, looking at most `fuel` places. -/
def Source.stopFrom (s : Source) (p : Char → Bool) (k : Nat) : Nat → Nat
  | 0 => k
  | fuel + 1 => if p (s.peek k) then s.stopFrom p (k + 1) fuel else k

/-- How many characters from `k` places ahead satisfy `p`. -/
def Source.count (s : Source) (p : Char → Bool) (k : Nat) : Nat :=
  s.stopFrom p k (s.buffer.size + 1) - k

end Backtest.Document.Yaml
