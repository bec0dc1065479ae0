import Backtest.Text.Printable
import Backtest.Text.CodePoint

/-!
# Quoted text

Messages show text between single quotes, or double quotes when it holds a single quote and no
double quote. Inside, the quote and the backslash are escaped, tab, newline and carriage return
written `\t`, `\n`, `\r`, and every other code point that is not printable becomes a hexadecimal
escape (`\x00`, `\u200b`, `\U0001f600`); `quoteCut` cuts the quoted form to a width.
-/

namespace Backtest.Text

/-- The `width` lowest hexadecimal digits of `n`, lowercase, most significant first. -/
def hexDigits : Nat → Nat → List Char
  | 0, _ => []
  | width + 1, n => hexDigits width (n / 16) ++ [Nat.digitChar (n % 16)]

/-- How one code point is written between the quotes `q`. -/
def escapeCode (q : Char) (u : Nat) : List Char :=
  if u = q.toNat ∨ u = 0x5C then ['\\', Char.ofNat u]
  else if u = 0x09 then ['\\', 't']
  else if u = 0x0A then ['\\', 'n']
  else if u = 0x0D then ['\\', 'r']
  else if isPrintableCode u then [Char.ofNat u]
  else if u < 0x100 then '\\' :: 'x' :: hexDigits 2 u
  else if u < 0x10000 then '\\' :: 'u' :: hexDigits 4 u
  else '\\' :: 'U' :: hexDigits 8 u

/-- The quote code points are written between: double only when they hold a single quote and no
double quote. -/
def quoteFor (us : List Nat) : Char :=
  if us.contains 0x27 && !us.contains 0x22 then '"' else '\''

/-- Code points written between quotes, with escapes. -/
def quoteCodes (us : List Nat) : List Char :=
  let q := quoteFor us
  q :: us.flatMap (escapeCode q) ++ [q]

/-- A text written between quotes, with escapes. -/
def quote (s : String) : String :=
  String.ofList (quoteCodes (codes s))

/-- The quoted form of a text cut to its first `width` characters, as messages that bound the
length of what they quote show it: a long text loses its closing quote. -/
def quoteCut (width : Nat) (s : String) : String :=
  String.ofList ((quoteCodes (codes s)).take width)

end Backtest.Text
