/-!
# Lines of text

Printed text is read back as lines, which end at a line feed, a carriage return or both, a vertical
tab, a form feed, a separator `\x1c` to `\x1e`, a next line, or a Unicode line or paragraph
separator; a break at the very end starts no further line.
-/

namespace Backtest.Text

/-- The characters that end a line. -/
def isLineBreak (c : Char) : Bool :=
  let n := c.toNat
  (0x0A ≤ n && n ≤ 0x0D) || (0x1C ≤ n && n ≤ 0x1E) || n == 0x85 || n == 0x2028 || n == 0x2029

/-- The lines of a text given as characters, the current line so far in `line`, last first. -/
def linesFrom : List Char → List Char → List String
  | [], [] => []
  | [], line => [String.ofList line.reverse]
  | '\r' :: '\n' :: rest, line => String.ofList line.reverse :: linesFrom rest []
  | c :: rest, line =>
    if isLineBreak c then String.ofList line.reverse :: linesFrom rest []
    else linesFrom rest (c :: line)

/-- The lines of a text. -/
def lines (s : String) : List String :=
  linesFrom s.toList []

end Backtest.Text
