import Backtest.Document.Value
import Backtest.Decimal.Reader
import Backtest.Decimal.Binary64
import Backtest.Fault

/-!
# Reading numbers out of documents

Strategy documents are loose about numbers: a threshold may be written `5`, `5.0`, `" 5.5 "`,
`"1_0"`, `"inf"` or `true`. `Value.toFloat`, `Value.toInt` and `Value.toCount` say which document
values stand for a float, an integer or a share count, and with which message the others are
refused.
-/

namespace Backtest.Document

open Backtest.Decimal

/-- The characters a number reader sees in a byte string: an ASCII byte as its character, any
other byte as `?`, which no number holds, so that such a byte is refused wherever it stands. -/
def asciiText (data : List UInt8) : List Char :=
  data.map fun b => if b < 128 then Char.ofNat b.toNat else '?'

namespace Value

/-- The float a document value stands for: booleans as `0.0` and `1.0`, integers rounded to the
nearest float (failing when that is infinite), texts by `Decimal.readFloat?` and byte strings as
the text of their ASCII bytes; null, dates, lists and mappings are of the wrong kind. -/
def toFloat : Value → Except Fault Float
  | .bool b => .ok (if b then 1.0 else 0.0)
  | .int n => match ofInt? n with
    | some x => .ok x
    | none => .error Fault.tooLargeForFloat
  | .float x => .ok x
  | .str s => match readFloat? s with
    | some x => .ok x
    | none => .error (.invalid ("could not convert string to float: " ++ Text.quote s))
  | .bytes data => match readFloat? (String.ofList (asciiText data)) with
    | some x => .ok x
    | none => .error (.invalid ("could not convert string to float: " ++ bytesLiteral data))
  | v => .error (.wrongType
      ("float() argument must be a string or a real number, not '" ++ v.typeName ++ "'"))

/-- The fault of a float that has no integer part. -/
def floorFault : FloorError → Fault
  | .infinite => .overflow "cannot convert float infinity to integer"
  | .nan => .invalid "cannot convert float NaN to integer"

/-- The integer a document value stands for: booleans and integers as they are, floats truncated
towards zero (an infinity or NaN has none), texts and byte strings by `Decimal.readIntText`. -/
def toInt : Value → Except Fault Int
  | .bool b => .ok (if b then 1 else 0)
  | .int n => .ok n
  | .float x => (truncate? x).mapError floorFault
  | .str s => match readIntText s.toList with
    | .ok n => .ok n
    | .error (.tooLong n) => .error (Fault.tooManyDigits n)
    | .error .malformed =>
      .error (.invalid ("invalid literal for int() with base 10: " ++ Text.quoteCut 200 s))
  | .bytes data => match readIntText (asciiText data) with
    | .ok n => .ok n
    | .error (.tooLong n) => .error (Fault.tooManyDigits n)
    | .error .malformed =>
      .error (.invalid ("invalid literal for int() with base 10: " ++
        String.ofList ((bytesLiteral (data.take 200)).toList.take 200)))
  | v => .error (.wrongType
      ("int() argument must be a string, a bytes-like object or a real number, not '" ++
        v.typeName ++ "'"))

mutual
/-- Whether every integer in a value has at most `maxIntDigits` decimal digits, so that the value
can be written out. -/
def writable : Value → Bool
  | .int n => n.natAbs < Nat.pow 10 maxIntDigits
  | .list items | .tuple items | .set items => writableAll items
  | .map entries => writableEntries entries
  | _ => true

/-- Whether all items of a list can be written out. -/
def writableAll : List Value → Bool
  | [] => true
  | v :: rest => writable v && writableAll rest

/-- Whether all keys and values of a mapping can be written out. -/
def writableEntries : List (Value × Value) → Bool
  | [] => true
  | (k, v) :: rest => writable k && writable v && writableEntries rest
end

/-- The plain text of a value (`display`), or the fault of writing an integer of more than
`maxIntDigits` digits. -/
def toText (v : Value) : Except Fault String :=
  if v.writable then .ok v.display else .error Fault.tooManyDigitsToWrite

/-- A whole count under the parameter name `key`: not a boolean, readable as a float, and whole. -/
def toCount (key : String) (v : Value) : Except Fault Int :=
  match v with
  | .bool _ => do .error (.invalid ("Invalid " ++ key ++ ": " ++ (← v.toText)))
  | _ =>
    match v.toFloat with
    | .error (.overflow m) => .error (.overflow m)
    | .error _ => do .error (.invalid ("Invalid " ++ key ++ ": " ++ (← v.toText)))
    | .ok x =>
      if isWhole x then (truncate? x).mapError floorFault
      else do
        .error (.invalid ("Invalid " ++ key ++ ": " ++ (← v.toText) ++ " is not a whole number"))

end Value

end Backtest.Document
