import Backtest.Text.Blank
import Backtest.Text.Digit

/-!
# Reading a float from text

The reader accepts what a lenient decimal reader accepts: blanks around the number, Unicode decimal
digits, an optional sign, then `inf`, `infinity` or `nan` in any case, or digits with an optional
point, fraction and exponent, an underscore allowed between two digits. The value is the float
nearest to the decimal, with the sign applied afterwards, so `-0` reads as negative zero.
-/

namespace Backtest.Decimal

open Backtest.Text

/-- Each character as the reader sees it: ASCII characters stay, blanks outside ASCII become
spaces, Unicode digits ASCII digits, and any other character a question mark, which no number
holds. -/
def asciiForm (cs : List Char) : List Char :=
  cs.map fun c =>
    if c.toNat < 128 then c
    else if isBlank c then ' '
    else match decimalValue? c with
      | some d => Char.ofNat (48 + d)
      | none => '?'

/-- Whether every underscore stands between two ASCII digits. -/
def underscoresBetweenDigits : List Char → Bool
  | [] => true
  | [c] => c != '_'
  | a :: b :: rest =>
    if b = '_' then
      a.isDigit && (match rest with
        | c :: _ => c.isDigit && underscoresBetweenDigits rest
        | [] => false)
    else if a = '_' then false
    else underscoresBetweenDigits (b :: rest)

/-- The natural number written by ASCII digits. -/
def digitsValue (ds : List Char) : Nat :=
  ds.foldl (fun n d => 10 * n + (d.toNat - 48)) 0

/-- Lower-case ASCII letters. -/
def lowerAscii (cs : List Char) : List Char :=
  cs.map Char.toLower

/-- The unsigned part of a number: a named special value or a decimal with optional exponent. -/
def readUnsigned (cs : List Char) : Option Float :=
  let word := lowerAscii cs
  if word = "inf".toList ∨ word = "infinity".toList then some (1.0 / 0.0)
  else if word = "nan".toList then some (0.0 / 0.0)
  else
    let whole := cs.takeWhile Char.isDigit
    let rest := cs.dropWhile Char.isDigit
    let (fraction, rest) := match rest with
      | '.' :: more => (more.takeWhile Char.isDigit, more.dropWhile Char.isDigit)
      | _ => ([], rest)
    if whole.isEmpty ∧ fraction.isEmpty then none
    else
      let exponent : Option Int := match rest with
        | [] => some 0
        | e :: more =>
          if e = 'e' ∨ e = 'E' then
            let (negative, ds) := match more with
              | '-' :: ds => (true, ds)
              | '+' :: ds => (false, ds)
              | ds => (false, ds)
            if ds.isEmpty ∨ !ds.all Char.isDigit then none
            else some (if negative then -(digitsValue ds : Int) else (digitsValue ds : Int))
          else none
      match exponent with
      | none => none
      | some x =>
        let mantissa := digitsValue (whole ++ fraction)
        let scale := x - fraction.length
        some (Float.ofScientific mantissa (scale < 0) scale.natAbs)

/-- Reads a float from characters, or refuses them. -/
def readChars? (s : List Char) : Option Float :=
  let t := asciiForm s
  let t := ((t.dropWhile isAsciiBlank).reverse.dropWhile isAsciiBlank).reverse
  if !underscoresBetweenDigits t then none
  else
    let t := t.filter (· ≠ '_')
    match t with
    | '-' :: body => (readUnsigned body).map (fun x => -x)
    | '+' :: body => readUnsigned body
    | body => readUnsigned body

/-- Reads a float from text, or refuses it. -/
def readFloat? (s : String) : Option Float :=
  readChars? s.toList

/-- The most decimal digits an integer may be read from or written with. -/
def maxIntDigits : Nat := 4300

/-- Why a text is no integer. -/
inductive IntRefusal where
  /-- The text is not a decimal integer. -/
  | malformed
  /-- The digits at the front number more than `maxIntDigits` (the count is given). -/
  | tooLong (digits : Nat)
deriving DecidableEq, Repr

/-- Whether a run of digits and underscores is well placed: it starts with a digit, and no
underscore follows an underscore or ends the run. -/
def underscoresWellPlaced (run : List Char) : Bool :=
  match run with
  | [] => true
  | c :: _ => c != '_' && run.getLast? != some '_' && !(run.zip run.tail).any (· == ('_', '_'))

/-- Reads a decimal integer from characters: blanks around, an optional sign, ASCII or Unicode
digits with single underscores between them. The run of digits and underscores after the sign is
checked first: misplaced underscores refuse the text, and more than `maxIntDigits` digits refuse it
as too long even if something else follows. -/
def readIntText (s : List Char) : Except IntRefusal Int :=
  let t := asciiForm s
  let t := ((t.dropWhile isAsciiBlank).reverse.dropWhile isAsciiBlank).reverse
  let (negative, body) := match t with
    | '-' :: body => (true, body)
    | '+' :: body => (false, body)
    | body => (false, body)
  let run := body.takeWhile (fun c => c.isDigit || c = '_')
  let rest := body.dropWhile (fun c => c.isDigit || c = '_')
  let digits := run.filter (· ≠ '_')
  if !underscoresWellPlaced run then .error .malformed
  else if digits.length > maxIntDigits then .error (.tooLong digits.length)
  else if digits.isEmpty || !rest.isEmpty then .error .malformed
  else
    let v : Int := digitsValue digits
    .ok (if negative then -v else v)

/-- The value of a character as a digit of a base up to 36, if it is one: ASCII digits, then
letters of either case from ten. -/
def digitIn (base : Nat) (c : Char) : Option Nat :=
  let d := if '0' ≤ c ∧ c ≤ '9' then c.toNat - 48
    else if 'a' ≤ c ∧ c ≤ 'z' then c.toNat - 87
    else if 'A' ≤ c ∧ c ≤ 'Z' then c.toNat - 55
    else 36
  if d < base then some d else none

/-- Reads an integer in a base: base 10 as `readIntText`; base 2, 8 or 16 with blanks around, an
optional sign, an optional marker `0b`, `0o` or `0x` (either case) that one underscore may follow,
and digits of the base with single underscores between them. These bases have no limit on the
number of digits. -/
def readIntIn (base : Nat) (s : List Char) : Except IntRefusal Int :=
  if base = 10 then readIntText s
  else
    let t := asciiForm s
    let t := ((t.dropWhile isAsciiBlank).reverse.dropWhile isAsciiBlank).reverse
    let (negative, body) := match t with
      | '-' :: body => (true, body)
      | '+' :: body => (false, body)
      | body => (false, body)
    let marker := if base = 16 then 'x' else if base = 8 then 'o' else 'b'
    let body := match body with
      | '0' :: m :: rest =>
        if m.toLower = marker then
          match rest with
          | '_' :: more => more
          | _ => rest
        else body
      | _ => body
    if body.isEmpty || !body.all (fun c => c = '_' || (digitIn base c).isSome) ||
        !underscoresWellPlaced body then .error .malformed
    else
      let v : Int := (body.filter (· ≠ '_')).foldl (fun n c => base * n + (digitIn base c).getD 0) 0
      .ok (if negative then -v else v)

/-- Reads a decimal integer from text, or refuses it. -/
def readInt? (s : String) : Option Int :=
  (readIntText s.toList).toOption

end Backtest.Decimal
