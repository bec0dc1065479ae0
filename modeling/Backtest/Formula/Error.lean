import Backtest.Text.Quoted

/-!
# Formula errors

A formula has no value when it is empty, uses a character outside the formula alphabet, has
unbalanced parentheses or divides by zero, and a sizing formula must also mention `N`. Each cause
has a fixed code and a message; bad characters are listed quoted, distinct and in code-point order.
-/

namespace Backtest.Formula

/-- Why a formula has no value. -/
inductive Error where
  /-- Nothing but blanks. -/
  | empty
  /-- Code points outside the formula alphabet, distinct and sorted. -/
  | invalidCharacters (codes : List Nat)
  /-- An opening parenthesis is never closed. -/
  | unclosed
  /-- A closing parenthesis has no opening one. -/
  | strayClose
  /-- An `abs(` call is never closed. -/
  | callUnclosed
  /-- A division by zero. -/
  | divisionByZero
  /-- The formula does not mention `N`. -/
  | missingVariable
deriving Repr, DecidableEq

/-- The code of an error. -/
def Error.code : Error → String
  | .empty => "EMPTY_FORMULA"
  | .invalidCharacters _ => "INVALID_CHARACTER"
  | .unclosed | .strayClose | .callUnclosed => "UNBALANCED_PARENTHESES"
  | .divisionByZero => "DIVISION_BY_ZERO"
  | .missingVariable => "MISSING_VARIABLE"

/-- The message of an error. -/
def Error.message : Error → String
  | .empty => "Formula is empty"
  | .invalidCharacters codes => "Invalid characters in formula: " ++ Text.quote (Text.ofCodes codes)
  | .unclosed => "Parenthesis is not closed"
  | .strayClose => "Closing parenthesis without a matching opening one"
  | .callUnclosed => "abs() call is not closed"
  | .divisionByZero => "Division by zero"
  | .missingVariable => "Formula must reference the variable N"

end Backtest.Formula
