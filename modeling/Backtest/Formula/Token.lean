/-!
# Formula tokens

Once groups are resolved a formula is a flat text of numbers and the operators `+ - * /`. The tokens
cut it at every operator, except a minus sign at the start or right after `(` or another operator,
which stays with what follows as its sign; everything between two cuts is one token, whether or not
it reads as a number.
-/

namespace Backtest.Formula

/-- The four operator characters. -/
def isOperator (c : Char) : Bool :=
  c = '+' || c = '-' || c = '*' || c = '/'

/-- Characters after which a minus sign is a sign. -/
def opensOperand (c : Char) : Bool :=
  c = '(' || isOperator c

/-- Whether `c`, following `prev` (none at the start), cuts the text as an operator. -/
def cutsAt (prev : Option Char) (c : Char) : Bool :=
  isOperator c && !(c = '-' && prev.all opensOperand)

/-- The tokens of the rest of a text, after `pending` has been collected since the last cut. -/
def tokenizeFrom (prev : Option Char) (pending : List Char) : List Char → List (List Char)
  | [] => if pending.isEmpty then [] else [pending]
  | c :: cs =>
    if cutsAt prev c then
      (if pending.isEmpty then [] else [pending]) ++ [c] :: tokenizeFrom (some c) [] cs
    else tokenizeFrom (some c) (pending ++ [c]) cs

/-- The tokens of a flat formula text. -/
def tokenize (s : List Char) : List (List Char) :=
  tokenizeFrom none [] s

theorem flatten_tokenizeFrom (prev : Option Char) (pending s : List Char) :
    (tokenizeFrom prev pending s).flatten = pending ++ s := by
  induction s generalizing prev pending with
  | nil => cases pending <;> simp [tokenizeFrom]
  | cons c cs ih =>
    unfold tokenizeFrom
    split
    · cases pending <;> simp [ih]
    · simp [ih]

/-- The tokens, joined, give back the text. -/
theorem flatten_tokenize (s : List Char) : (tokenize s).flatten = s := by
  simpa [tokenize] using flatten_tokenizeFrom none [] s

example : tokenize "2*-3".toList = ["2".toList, "*".toList, "-3".toList] := by decide +kernel

end Backtest.Formula
