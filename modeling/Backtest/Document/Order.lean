import Backtest.Document.Value
import Backtest.Decimal.Binary64
import Backtest.Fault
import Backtest.Sorting.Runs

/-!
# Ordering document values

Values compare as the program's values do: numbers by value, an integer and a float exactly; texts
by code points; days and moments by the calendar; any other pair fails, a day and a moment with the
calendar's message and the rest with "'<' not supported between instances of ...". `sortValues`
merges runs (`Sorting.sortBy`), so the order of its comparisons decides which pair a failure names.
-/

namespace Backtest.Document

open Backtest.Decimal

/-- Whether an integer is below a float, exactly. -/
def intBelowFloat (n : Int) (x : Float) : Bool :=
  if x.isNaN then false
  else if x.isInf then 0.0 < x
  else match floor? x with
    | .ok f => n < f || (n == f && !isWhole x)
    | .error _ => false

/-- Whether a float is below an integer, exactly. -/
def floatBelowInt (x : Float) (n : Int) : Bool :=
  if x.isNaN then false
  else if x.isInf then x < 0.0
  else match floor? x with
    | .ok f => f < n
    | .error _ => false

/-- A number as the order sees it: an integer (booleans are 0 and 1) or a float. -/
def numberOf? : Value → Option (Int ⊕ Float)
  | .bool b => some (.inl (if b then 1 else 0))
  | .int n => some (.inl n)
  | .float x => some (.inr x)
  | _ => none

/-- Whether one number is below another. -/
def numberBelow : Int ⊕ Float → Int ⊕ Float → Bool
  | .inl a, .inl b => a < b
  | .inl a, .inr y => intBelowFloat a y
  | .inr x, .inl b => floatBelowInt x b
  | .inr x, .inr y => x < y

/-- Whether `a` is below `b`, or the type fault of two values that do not compare. -/
def Value.isBelow (a b : Value) : Except Fault Bool :=
  match numberOf? a, numberOf? b with
  | some x, some y => .ok (numberBelow x y)
  | _, _ =>
    match a, b with
    | .str s, .str t => .ok (Text.codesLess s t)
    | .date d, .date e => .ok (decide (d < e))
    | .moment m, .moment n =>
      match m.order n with
      | .ok o => .ok (o == .lt)
      | .error msg => .error (.wrongType msg)
    | .date _, .moment _ | .moment _, .date _ =>
      .error (.wrongType "can't compare datetime.datetime to datetime.date")
    | _, _ =>
      .error (.wrongType ("'<' not supported between instances of '" ++ a.typeName ++ "' and '" ++
        b.typeName ++ "'"))

/-- Sorts values, or fails on the first pair that does not compare. -/
def sortValues (xs : List Value) : Except Fault (List Value) :=
  (Sorting.sortBy Value.isBelow xs.toArray).map Array.toList

end Backtest.Document
