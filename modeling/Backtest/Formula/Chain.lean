import Backtest.Decimal.Layout
import Backtest.Decimal.Reader
import Backtest.Formula.Error
import Backtest.Formula.Token

/-!
# Evaluating a chain of tokens

A flat formula is evaluated from its tokens in two passes on text: the products pass replaces, left
to right, each `*` or `/` between two tokens that read as numbers by the text of the result, failing
on a division by a zero of either sign; the sums pass then starts from the first token and adds or
subtracts each operand that reads as a number, skipping the others. Values are written back by
`Decimal.plainText`, which reads back exactly.
-/

namespace Backtest.Formula

open Backtest.Decimal

/-- The value of a token, if it reads as a number. -/
def tokenValue? (t : List Char) : Option Float :=
  readChars? t

/-- The text that stands for a value inside a formula. -/
def valueText (x : Float) : List Char :=
  (plainText x).toList

/-- The products pass: `done` holds the tokens already passed, last first. An operator whose
neighbours do not both read as numbers stays. -/
def reduceProducts (done : List (List Char)) : List (List Char) → Except Error (List (List Char))
  | [] => .ok done.reverse
  | [t] => .ok (t :: done).reverse
  | t :: right :: after =>
    match done with
    | left :: before =>
      if t = ['*'] ∨ t = ['/'] then
        match tokenValue? left, tokenValue? right with
        | some a, some b =>
          if t = ['*'] then reduceProducts (valueText (a * b) :: before) after
          else if b == 0.0 then .error .divisionByZero
          else reduceProducts (valueText (a / b) :: before) after
        | _, _ => reduceProducts (t :: done) (right :: after)
      else reduceProducts (t :: done) (right :: after)
    | [] => reduceProducts [t] (right :: after)
termination_by ts => ts.length

/-- The sums pass after the first token: pairs of operator and operand. An operand that does not
read as a number, or is missing, is skipped; an operator other than `+` and `-` does nothing. -/
def sumTerms (total : Float) : List (List Char) → Float
  | [] => total
  | [_] => total
  | op :: operand :: rest =>
    match tokenValue? operand with
    | none => sumTerms total rest
    | some v =>
      if op = ['+'] then sumTerms (total + v) rest
      else if op = ['-'] then sumTerms (total - v) rest
      else sumTerms total rest

/-- The sums pass. -/
def sumChain : List (List Char) → Float
  | [] => 0.0
  | first :: rest => sumTerms ((tokenValue? first).getD 0.0) rest

/-- The value of a flat formula text: products, then sums. -/
def evalFlat (s : List Char) : Except Error Float := do
  let reduced ← reduceProducts [] (tokenize s)
  pure (sumChain reduced)

end Backtest.Formula
