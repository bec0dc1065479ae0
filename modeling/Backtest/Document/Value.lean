import Backtest.Calendar.Moment
import Backtest.Decimal.Layout

/-!
# Document values

Strategy files and requests are documents, nested values of the data model the JSON and YAML readers
share: null, booleans, integers, floats, texts, dates, moments, lists and mappings, and from YAML's
tags byte strings, tuples and sets. A mapping keeps its entries in the order of first appearance, a
later entry with an equal key replacing the value (`Value.insert`); keys are equal as the data
model's values are, so `true`, `1` and `1.0` are one key.
-/

namespace Backtest.Document

open Backtest.Decimal

/-- A document value. -/
inductive Value where
  | null
  | bool (b : Bool)
  | int (n : Int)
  | float (x : Float)
  | str (s : String)
  | date (d : Calendar.Date)
  | moment (m : Calendar.Moment)
  | list (items : List Value)
  | map (entries : List (Value × Value))
  | bytes (data : List UInt8)
  | tuple (items : List Value)
  | set (items : List Value)
  /-- A list (or, with `isMap`, a mapping) met again inside itself: through an alias a document
  can hold a collection within itself, and such a collection is written `[...]` or `{...}` where
  it recurs. -/
  | enclosing (isMap : Bool)
deriving Inhabited

namespace Value

/-- The type name a value reports in messages. -/
def typeName : Value → String
  | .null => "NoneType"
  | .bool _ => "bool"
  | .int _ => "int"
  | .float _ => "float"
  | .str _ => "str"
  | .date _ => "datetime.date"
  | .moment _ => "datetime.datetime"
  | .list _ => "list"
  | .map _ => "dict"
  | .bytes _ => "bytes"
  | .tuple _ => "tuple"
  | .set _ => "set"
  | .enclosing isMap => if isMap then "dict" else "list"

/-- The numeric value of a boolean, integer or float, when exactly an integer. -/
def exactInt? : Value → Option Int
  | .bool b => some (if b then 1 else 0)
  | .int n => some n
  | .float x => match Binary64.ofFloat x with
    | .finite negative m e =>
      let magnitude : Option Nat :=
        if 0 ≤ e then some (m * Nat.pow 2 e.toNat)
        else if m % Nat.pow 2 (-e).toNat = 0 then some (m / Nat.pow 2 (-e).toNat)
        else none
      magnitude.map fun v => if negative then -(v : Int) else v
    | _ => none
  | _ => none

/-- Equality of keys: numbers by value, texts, dates and null by themselves. -/
def keyEq : Value → Value → Bool
  | .null, .null => true
  | .str a, .str b => a == b
  | .date a, .date b => a == b
  | .moment a, .moment b =>
    match a.order b with
    | .ok .eq => true
    | _ => false
  | .float a, .float b => a == b
  | .bytes a, .bytes b => a == b
  | a, b =>
    match a.exactInt?, b.exactInt? with
    | some m, some n => m == n
    | _, _ => false

/-- Adds an entry to a mapping: an equal key keeps its place and takes the new value. -/
def insert (entries : List (Value × Value)) (k v : Value) : List (Value × Value) :=
  if entries.any (fun e => keyEq e.1 k) then
    entries.map (fun e => if keyEq e.1 k then (e.1, v) else e)
  else entries ++ [(k, v)]

/-- A mapping built from entries in order, equal keys merged. -/
def mapOf (entries : List (Value × Value)) : Value :=
  .map (entries.foldl (fun acc e => insert acc e.1 e.2) [])

/-- The value stored under a text key of a mapping. -/
def get? (v : Value) (key : String) : Option Value :=
  match v with
  | .map entries => (entries.find? (fun e => keyEq e.1 (.str key))).map (·.2)
  | _ => none

/-- Whether a value is a mapping. -/
def isMap : Value → Bool
  | .map _ => true
  | _ => false

/-- Whether a value is a text. -/
def isStr : Value → Bool
  | .str _ => true
  | _ => false

/-- The `repr`-like date text `datetime.date(2024, 1, 2)`. -/
def dateLiteral (d : Calendar.Date) : String :=
  "datetime.date(" ++ toString d.year ++ ", " ++ toString d.month ++ ", " ++ toString d.day ++ ")"

/-- A byte string as written: `b'...'`, with the double quote when the bytes hold a single quote
and no double quote, and escapes for the quote, backslash, tab, line feed, carriage return and
bytes outside printable ASCII. -/
def bytesLiteral (data : List UInt8) : String :=
  let q : UInt8 := if data.contains 39 && !data.contains 34 then 34 else 39
  let escape := fun (b : UInt8) =>
    if b = q ∨ b = 92 then ['\\', Char.ofNat b.toNat]
    else if b = 9 then ['\\', 't']
    else if b = 10 then ['\\', 'n']
    else if b = 13 then ['\\', 'r']
    else if b < 32 ∨ b ≥ 127 then '\\' :: 'x' :: Text.hexDigits 2 b.toNat
    else [Char.ofNat b.toNat]
  String.ofList ('b' :: Char.ofNat q.toNat :: data.flatMap escape ++ [Char.ofNat q.toNat])

mutual
/-- A value as written inside a list or mapping. -/
def literal : Value → String
  | .null => "None"
  | .bool b => if b then "True" else "False"
  | .int n => toString n
  | .float x => shortText x
  | .str s => Text.quote s
  | .date d => dateLiteral d
  | .moment m => m.literal
  | .list items => "[" ++ ", ".intercalate (literalAll items) ++ "]"
  | .map entries => "\x7b" ++ ", ".intercalate (literalEntries entries) ++ "\x7d"
  | .bytes data => bytesLiteral data
  | .tuple [item] => "(" ++ literal item ++ ",)"
  | .tuple items => "(" ++ ", ".intercalate (literalAll items) ++ ")"
  | .set [] => "set()"
  | .set items => "\x7b" ++ ", ".intercalate (literalAll items) ++ "\x7d"
  | .enclosing isMap => if isMap then "\x7b...\x7d" else "[...]"

/-- The literals of the items of a list. -/
def literalAll : List Value → List String
  | [] => []
  | v :: rest => literal v :: literalAll rest

/-- The `key: value` literals of the entries of a mapping. -/
def literalEntries : List (Value × Value) → List String
  | [] => []
  | (k, v) :: rest => (literal k ++ ": " ++ literal v) :: literalEntries rest
end

/-- The plain text of a value: a text is itself, a date is `YYYY-MM-DD`, a moment
`YYYY-MM-DD HH:MM:SS` with its fraction and offset, anything else its literal. -/
def display : Value → String
  | .str s => s
  | .date d => d.iso
  | .moment m => m.text
  | v => literal v

/-- Whether a value counts as true: false, zero, empty texts and collections and null do not. -/
def truthy : Value → Bool
  | .null => false
  | .bool b => b
  | .int n => n != 0
  | .float x => !(x == 0.0)
  | .str s => !s.isEmpty
  | .date _ => true
  | .moment _ => true
  | .list items => !items.isEmpty
  | .map entries => !entries.isEmpty
  | .bytes data => !data.isEmpty
  | .tuple items => !items.isEmpty
  | .set items => !items.isEmpty
  | .enclosing _ => true

end Value

end Backtest.Document
