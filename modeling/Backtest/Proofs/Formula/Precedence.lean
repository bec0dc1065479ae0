import Backtest.Proofs.Formula.Flat

/-!
# The two passes over a chain of numbers

The products pass and then the sums pass evaluate a chain `x₀ op₁ x₁ … opₘ xₘ` by precedence in
binary64, and fail exactly when some `/` divides by a zero of either sign (`passes_chain`). Each
partial product is written back as text and read again, which is exact for every float
(`readChars_plainText`); the proof carries the pending sum as a function of the term in progress
(`PendingSum`).
-/

namespace Backtest.Formula

open Backtest.Decimal

/-- An operator applied in binary64 with no check: a division by zero gives an infinity or
not-a-number. -/
def BinOp.ieee : BinOp → Float → Float → Float
  | .add, x, y => x + y
  | .sub, x, y => x - y
  | .mul, x, y => x * y
  | .div, x, y => x / y

theorem BinOp.apply_eq (op : BinOp) (x y : Float) :
    op.apply x y =
      if (op == .div && y == 0.0) = true then .error .divisionByZero else .ok (op.ieee x y) := by
  cases op with
  | div =>
    simp only [BinOp.apply, BinOp.ieee]
    split <;> simp_all
  | _ => rfl

/-! ## Chains and their precedence value -/

/-- A token that reads as a number, with that number. -/
structure NumberToken where
  text : List Char
  value : Float
  reads : tokenValue? text = some value

/-- A chain `x₀ op₁ x₁ … opₘ xₘ` of number tokens joined by operators. -/
structure Chain where
  first : NumberToken
  rest : List (BinOp × NumberToken)

/-- The tokens of the operators and numbers after the first number. -/
def pairTokens (ops : List (BinOp × NumberToken)) : List (List Char) :=
  ops.flatMap fun (op, x) => [[op.symbol], x.text]

/-- The operators and values after the first number. -/
def pairValues (ops : List (BinOp × NumberToken)) : List (BinOp × Float) :=
  ops.map fun (op, x) => (op, x.value)

/-- The tokens of a chain. -/
def Chain.tokens (c : Chain) : List (List Char) :=
  c.first.text :: pairTokens c.rest

/-- The terms of `term op₁ x₁ …`: each maximal run of `*` and `/` reduced left to right. The first
term comes alone, each later one with the `+` or `-` before it. -/
def runTerms (term : Float) : List (BinOp × Float) → Float × List (BinOp × Float)
  | [] => (term, [])
  | (op, x) :: rest =>
    if op.level = 1 then runTerms (op.ieee term x) rest
    else
      let later := runTerms x rest
      (term, (op, later.1) :: later.2)

/-- Adds or subtracts a term. -/
def addTerm (sum : Float) (term : BinOp × Float) : Float :=
  term.1.ieee sum term.2

/-- The value of `x op₁ x₁ …` by precedence: its terms combined by `+` and `-` left to right. -/
def precedenceValue (x : Float) (ops : List (BinOp × Float)) : Float :=
  (runTerms x ops).2.foldl addTerm (runTerms x ops).1

/-- Whether some `/` divides by a zero of either sign. -/
def dividesByZero (ops : List (BinOp × Float)) : Bool :=
  ops.any fun p => p.1 == .div && p.2 == 0.0

theorem dividesByZero_cons (op : BinOp) (x : Float) (ops : List (BinOp × Float)) :
    dividesByZero ((op, x) :: ops) = (op == .div && x == 0.0 || dividesByZero ops) := rfl

/-! ## The passes, token by token -/

/-- The tokens passed so far, last first, are whole terms each followed by an operator, and
`sum t` is what they sum to with one more term of value `t`. -/
structure PendingSum (before : List (List Char)) (sum : Float → Float) : Prop where
  even : before.length % 2 = 0
  close : ∀ tok t, tokenValue? tok = some t → sumChain (before.reverse ++ [tok]) = sum t

theorem PendingSum.start : PendingSum [] id :=
  ⟨rfl, fun tok t ht => by simp [sumChain, sumTerms, ht]⟩

theorem PendingSum.push {before : List (List Char)} {sum : Float → Float}
    (h : PendingSum before sum) {cur : List Char} {a : Float} (hcur : tokenValue? cur = some a)
    {op : BinOp} (hop : op.level = 0) :
    PendingSum ([op.symbol] :: cur :: before) (fun t => op.ieee (sum a) t) := by
  have hdiv : (op == .div) = false := by cases op <;> simp_all [BinOp.level]
  have heven := h.even
  refine ⟨by simp; omega, fun tok t ht => ?_⟩
  have hodd : (before.reverse ++ [cur]).length % 2 = 1 := by simp; omega
  have hstep := sumTerms_step hop ht (sum a)
  rw [BinOp.apply_eq, hdiv, Bool.false_and, if_neg Bool.false_ne_true] at hstep
  have hrev : ([op.symbol] :: cur :: before).reverse ++ [tok] =
      (before.reverse ++ [cur]) ++ [[op.symbol], tok] := by simp
  rw [hrev, sumChain_append hodd, h.close cur a hcur]
  exact (Except.ok.inj hstep).symm

/-- The passes over the pairs after a token `cur` that reads as `a`, the run in progress ending
in `cur` and the tokens `before` it making the pending sum `sum`. Induction on the pairs: `*` and
`/` fold the next number into `cur` (or fail), `+` and `-` are passed over and start a term. -/
theorem reduceProducts_pairs (ops : List (BinOp × NumberToken)) :
    ∀ (cur : List Char) (a : Float) (before : List (List Char)) (sum : Float → Float),
      tokenValue? cur = some a → PendingSum before sum →
      sumChain <$> reduceProducts (cur :: before) (pairTokens ops) =
        if dividesByZero (pairValues ops) then .error .divisionByZero
        else .ok ((runTerms a (pairValues ops)).2.foldl addTerm
          (sum (runTerms a (pairValues ops)).1)) := by
  induction ops with
  | nil =>
    intro cur a before sum hcur hsum
    simp [pairTokens, pairValues, dividesByZero, runTerms, reduceProducts, hsum.close cur a hcur]
  | cons p ops ih =>
    obtain ⟨op, x⟩ := p
    intro cur a before sum hcur hsum
    have htoks : pairTokens ((op, x) :: ops) = [op.symbol] :: x.text :: pairTokens ops := rfl
    have hvals : pairValues ((op, x) :: ops) = (op, x.value) :: pairValues ops := rfl
    rw [htoks, hvals]
    by_cases hop : op.level = 1
    · -- a product: the run in progress takes in `x`, or the division fails
      rw [reduceProducts_apply hop hcur x.reads, BinOp.apply_eq]
      by_cases hz : (op == .div && x.value == 0.0) = true
      · rw [if_pos hz, dividesByZero_cons, hz, Bool.true_or, if_pos rfl]
        rfl
      · rw [if_neg hz]
        show sumChain <$> reduceProducts (valueText (op.ieee a x.value) :: before) (pairTokens ops)
          = _
        rw [ih (valueText (op.ieee a x.value)) _ before sum (readChars_plainText _) hsum,
          dividesByZero_cons, Bool.eq_false_iff.2 hz, Bool.false_or, runTerms, if_pos hop]
    · -- a sum: the run in progress is a finished term, and `x` starts the next one
      have hop0 : op.level = 0 := by cases op <;> simp_all [BinOp.level]
      have hdiv : (op == .div) = false := by cases op <;> simp_all [BinOp.level]
      rw [reduceProducts_pass (followsSum_symbol hop0 [] _ rfl),
        reduceProducts_pass (not_product_of_readChars x.reads),
        ih x.text x.value _ _ x.reads (hsum.push hcur hop0),
        dividesByZero_cons, hdiv, Bool.false_and, Bool.false_or, runTerms, if_neg hop]
      rfl

/-- The products pass and then the sums pass evaluate a chain by precedence in binary64, and fail
exactly when some `/` divides by a zero of either sign. -/
theorem passes_chain (c : Chain) :
    sumChain <$> reduceProducts [] c.tokens =
      if dividesByZero (pairValues c.rest) then .error .divisionByZero
      else .ok (precedenceValue c.first.value (pairValues c.rest)) := by
  rw [Chain.tokens, reduceProducts_pass (not_product_of_readChars c.first.reads)]
  exact reduceProducts_pairs c.rest c.first.text c.first.value [] id c.first.reads
    PendingSum.start

end Backtest.Formula
