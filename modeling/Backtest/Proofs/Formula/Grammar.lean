import Backtest.Formula.Eval
import Backtest.Proofs.Decimal.RoundTrip

/-!
# The formula grammar and its meaning

Formulas are written in the grammar `E ::= E + T | E - T | T`, `T ::= T * F | T / F | F`,
`F ::= - F | L | N | ( E ) | abs( E )`, every binary operator associative to the left; `Expr` holds
its trees and `Expr.WellFormed` the ones it derives. `Expr.eval` is binary64 arithmetic on
correctly rounded literals (`Literal.isNearest_value`), failing only on a division by a zero of
either sign. A context `Ctx` leaves one factor out; refilling it with a factor of the same value
keeps value, grammar and sign rule, which is what each splice of resolution does.
-/

namespace Backtest.Formula

open Backtest.Decimal

/-! ## Operators and literals -/

/-- The four binary operators. -/
inductive BinOp where
  | add
  | sub
  | mul
  | div
deriving DecidableEq, Repr

/-- The character that writes an operator. -/
def BinOp.symbol : BinOp → Char
  | .add => '+'
  | .sub => '-'
  | .mul => '*'
  | .div => '/'

/-- How tightly an operator binds: sums at level 0, products at level 1; factors stand at level
2. -/
def BinOp.level : BinOp → Nat
  | .add | .sub => 0
  | .mul | .div => 1

/-- An operator applied to two values in binary64; a division by a zero of either sign fails. -/
def BinOp.apply : BinOp → Float → Float → Except Error Float
  | .add, x, y => .ok (x + y)
  | .sub, x, y => .ok (x - y)
  | .mul, x, y => .ok (x * y)
  | .div, x, y => if y == 0.0 then .error .divisionByZero else .ok (x / y)

/-- A decimal literal: digits, then a point and more digits when there is a fraction. -/
structure Literal where
  whole : List Char
  frac : List Char
  whole_ne_nil : whole ≠ []
  whole_digits : ∀ c ∈ whole, c.isDigit = true
  frac_digits : ∀ c ∈ frac, c.isDigit = true

/-- The text of a literal. -/
def Literal.text (l : Literal) : List Char :=
  decimalText l.whole l.frac

/-- The rational a literal writes. -/
def Literal.rational (l : Literal) : ℚ :=
  digitsValue (l.whole ++ l.frac) * 10 ^ (-(l.frac.length : Int))

/-- The float a literal denotes: its digits as one number, scaled down by the length of the
fraction. -/
def Literal.value (l : Literal) : Float :=
  Float.ofScientific (digitsValue (l.whole ++ l.frac)) true l.frac.length

/-- A literal denotes the float nearest to the decimal it writes. -/
theorem Literal.isNearest_value (l : Literal) : Float.IsNearest l.rational l.value := by
  have h := Float.ofScientific_isNearest (digitsValue (l.whole ++ l.frac)) true l.frac.length
  rw [if_pos rfl] at h
  exact h

theorem Literal.isMagnitudeChar_of_mem_text (l : Literal) {c : Char} (h : c ∈ l.text) :
    IsMagnitudeChar c := by
  have hw : WritesDecimal l.text l.rational :=
    ⟨l.whole, l.frac, rfl, l.whole_ne_nil, l.whole_digits, l.frac_digits, rfl⟩
  rcases hw.mem h with hc | hc
  · exact Or.inl hc
  · exact Or.inr (by simp [hc])

theorem Literal.text_ne_nil (l : Literal) : l.text ≠ [] := by
  unfold Literal.text decimalText
  split <;> simp [l.whole_ne_nil]

theorem Literal.readUnsigned_text (l : Literal) : readUnsigned l.text = some l.value := by
  obtain ⟨y, hy, hnear⟩ := readUnsigned_decimalText l.whole_ne_nil l.whole_digits l.frac_digits
  rw [Literal.text, hy, hnear.unique l.isNearest_value]

theorem Literal.readChars_text (l : Literal) : readChars? l.text = some l.value := by
  rw [readChars_unsigned (fun c hc => l.isMagnitudeChar_of_mem_text hc), l.readUnsigned_text]

theorem Literal.readChars_neg_text (l : Literal) : readChars? ('-' :: l.text) = some (-l.value) := by
  rw [readChars_neg (fun c hc => (l.isMagnitudeChar_of_mem_text hc).numeral), l.readUnsigned_text]
  rfl

/-! ## Trees -/

/-- Trees of the formula grammar, and values spliced in while a formula is resolved. -/
inductive Expr where
  /-- A decimal literal. -/
  | lit (l : Literal)
  /-- The variable `N`. -/
  | var
  /-- A value already computed, written as its plain text. -/
  | val (x : Float)
  /-- `- F`. -/
  | neg (f : Expr)
  /-- `E + T`, `E - T`, `T * F` and `T / F`. -/
  | bin (op : BinOp) (a b : Expr)
  /-- `( E )`. -/
  | group (e : Expr)
  /-- `abs( E )`. -/
  | abs (e : Expr)

namespace Expr

/-- The text of a tree, the variable written as `N`. -/
def print (N : List Char) : Expr → List Char
  | .lit l => l.text
  | .var => N
  | .val x => valueText x
  | .neg f => '-' :: f.print N
  | .bin op a b => a.print N ++ op.symbol :: b.print N
  | .group e => '(' :: e.print N ++ [')']
  | .abs e => callName ++ e.print N ++ [')']

/-- The value of a tree for `N = n`, or a division by zero. -/
def eval (n : Float) : Expr → Except Error Float
  | .lit l => .ok l.value
  | .var => .ok n
  | .val x => .ok x
  | .neg f => (f.eval n).map (fun x => -x)
  | .bin op a b => do
    let x ← a.eval n
    let y ← b.eval n
    op.apply x y
  | .group e => e.eval n
  | .abs e => (e.eval n).map Float.abs

/-- The grammar level of a tree: that of its operator, or 2 for a factor. -/
def level : Expr → Nat
  | .bin op _ _ => op.level
  | _ => 2

/-- The tree is one the grammar derives: a unary minus applies to a factor, and each operand of a
binary operator binds at least as tightly as the operator, the right one strictly more tightly. -/
def WellFormed : Expr → Prop
  | .neg f => f.level = 2 ∧ f.WellFormed
  | .bin op a b => op.level ≤ a.level ∧ op.level < b.level ∧ a.WellFormed ∧ b.WellFormed
  | .group e => e.WellFormed
  | .abs e => e.WellFormed
  | _ => True

instance decidableWellFormed : DecidablePred WellFormed
  | .neg f => have := decidableWellFormed f; inferInstanceAs (Decidable (_ ∧ _))
  | .bin _ a b =>
    have := decidableWellFormed a
    have := decidableWellFormed b
    inferInstanceAs (Decidable (_ ∧ _ ∧ _ ∧ _))
  | .group e => decidableWellFormed e
  | .abs e => decidableWellFormed e
  | .lit _ | .var | .val _ => isTrue trivial

/-- No spliced value occurs: the tree is a formula as written. -/
def Written : Expr → Prop
  | .val _ => False
  | .neg f => f.Written
  | .bin _ a b => a.Written ∧ b.Written
  | .group e => e.Written
  | .abs e => e.Written
  | .lit _ | .var => True

instance decidableWritten : DecidablePred Written
  | .val _ => isFalse id
  | .neg f => decidableWritten f
  | .bin _ a b =>
    have := decidableWritten a
    have := decidableWritten b
    inferInstanceAs (Decidable (_ ∧ _))
  | .group e => decidableWritten e
  | .abs e => decidableWritten e
  | .lit _ | .var => isTrue trivial

/-- Whether an `abs` call occurs. -/
def hasCall : Expr → Bool
  | .neg f => f.hasCall
  | .bin _ a b => a.hasCall || b.hasCall
  | .group e => e.hasCall
  | .abs _ => true
  | .lit _ | .var | .val _ => false

/-- Whether a group occurs. -/
def hasGroup : Expr → Bool
  | .neg f => f.hasGroup
  | .bin _ a b => a.hasGroup || b.hasGroup
  | .group _ => true
  | .abs e => e.hasGroup
  | .lit _ | .var | .val _ => false

end Expr

/-! ## The sign rule -/

/-- Whether the plain text of a value starts with a minus sign. -/
def writesMinus (x : Float) : Bool :=
  (valueText x).head? == some '-'

theorem writesMinus_iff (x : Float) :
    writesMinus x = true ↔
      (∃ m e, Binary64.ofFloat x = .finite true m e) ∨ Binary64.ofFloat x = .infinite true := by
  rw [← head_plainText_eq_minus_iff]
  simp [writesMinus, valueText]

theorem writesMinus_abs (x : Float) : writesMinus x.abs = false := by
  simpa [writesMinus, valueText] using head_plainText_abs x

namespace Expr

/-- Whether the text of a factor starts with a minus sign once `N` and its groups are replaced by
the text of their values. -/
def leadsWithMinus (n : Float) : Expr → Bool
  | .neg _ => true
  | .var => writesMinus n
  | .val x => writesMinus x
  | .group e =>
    match e.eval n with
    | .ok v => writesMinus v
    | .error _ => false
  | .lit _ | .bin _ _ _ | .abs _ => false

/-- No unary minus stands right before another minus sign: before a unary minus, or before `N`,
a value or a group whose text starts with one. -/
def SignSafe (n : Float) : Expr → Prop
  | .neg f => f.leadsWithMinus n = false ∧ f.SignSafe n
  | .bin _ a b => a.SignSafe n ∧ b.SignSafe n
  | .group e => e.SignSafe n
  | .abs e => e.SignSafe n
  | .lit _ | .var | .val _ => True

instance decidableSignSafe (n : Float) : DecidablePred (SignSafe n)
  | .neg f => have := decidableSignSafe n f; inferInstanceAs (Decidable (_ ∧ _))
  | .bin _ a b =>
    have := decidableSignSafe n a
    have := decidableSignSafe n b
    inferInstanceAs (Decidable (_ ∧ _))
  | .group e => decidableSignSafe n e
  | .abs e => decidableSignSafe n e
  | .lit _ | .var | .val _ => isTrue trivial

/-! ## Failure -/

theorem apply_error {op : BinOp} {x y : Float} {err : Error} (h : op.apply x y = .error err) :
    err = .divisionByZero := by
  cases op with
  | div =>
    simp only [BinOp.apply] at h
    split at h
    · exact (Except.error.inj h).symm
    · cases h
  | _ => cases h

theorem eval_bin_error_left {n : Float} {op : BinOp} {a b : Expr} {err : Error}
    (ha : a.eval n = .error err) : (Expr.bin op a b).eval n = .error err := by
  rw [eval, ha]
  rfl

theorem eval_bin_error_right {n : Float} {op : BinOp} {a b : Expr} {x : Float} {err : Error}
    (ha : a.eval n = .ok x) (hb : b.eval n = .error err) :
    (Expr.bin op a b).eval n = .error err := by
  rw [eval, ha, hb]
  rfl

/-- The only way a tree fails is a division by zero. -/
theorem eval_error {n : Float} {e : Expr} {err : Error} (h : e.eval n = .error err) :
    err = .divisionByZero := by
  induction e generalizing err with
  | lit _ | var | val _ => cases h
  | neg f ih | abs f ih =>
    cases hf : f.eval n with
    | error err' =>
      rw [eval, hf] at h
      exact Except.error.inj h ▸ ih hf
    | ok v =>
      rw [eval, hf] at h
      cases h
  | group e ih => exact ih h
  | bin op a b iha ihb =>
    cases ha : a.eval n with
    | error err' =>
      rw [eval_bin_error_left ha] at h
      exact Except.error.inj h ▸ iha ha
    | ok x =>
      cases hb : b.eval n with
      | error err' =>
        rw [eval_bin_error_right ha hb] at h
        exact Except.error.inj h ▸ ihb hb
      | ok y =>
        rw [eval, ha, hb] at h
        exact apply_error h

end Expr

/-! ## Contexts -/

/-- A tree with one factor left out. -/
inductive Ctx where
  | hole
  | neg (c : Ctx)
  | binL (op : BinOp) (c : Ctx) (b : Expr)
  | binR (op : BinOp) (a : Expr) (c : Ctx)
  | group (c : Ctx)
  | abs (c : Ctx)

namespace Ctx

/-- The tree with `x` in the place left out. -/
def fill : Ctx → Expr → Expr
  | .hole, x => x
  | .neg c, x => .neg (c.fill x)
  | .binL op c b, x => .bin op (c.fill x) b
  | .binR op a c, x => .bin op a (c.fill x)
  | .group c, x => .group (c.fill x)
  | .abs c, x => .abs (c.fill x)

/-- The text before the place left out. -/
def before (N : List Char) : Ctx → List Char
  | .hole => []
  | .neg c => '-' :: c.before N
  | .binL _ c _ => c.before N
  | .binR op a c => a.print N ++ op.symbol :: c.before N
  | .group c => '(' :: c.before N
  | .abs c => callName ++ c.before N

/-- The text after the place left out. -/
def after (N : List Char) : Ctx → List Char
  | .hole => []
  | .neg c => c.after N
  | .binL op c b => c.after N ++ op.symbol :: b.print N
  | .binR _ _ c => c.after N
  | .group c => c.after N ++ [')']
  | .abs c => c.after N ++ [')']

variable {N : List Char} {n : Float} {x y : Expr}

theorem print_fill (c : Ctx) (x : Expr) :
    (c.fill x).print N = c.before N ++ x.print N ++ c.after N := by
  induction c with
  | hole => simp [fill, before, after]
  | neg c ih => simp [fill, before, after, Expr.print, ih]
  | binL op c b ih => simp [fill, before, after, Expr.print, ih]
  | binR op a c ih => simp [fill, before, after, Expr.print, ih]
  | group c ih => simp [fill, before, after, Expr.print, ih]
  | abs c ih => simp [fill, before, after, Expr.print, ih]

/-- The value of a filled tree depends on the filling only through its value. -/
theorem eval_fill_congr (h : x.eval n = y.eval n) (c : Ctx) :
    (c.fill x).eval n = (c.fill y).eval n := by
  induction c with
  | hole => exact h
  | neg c ih => simp only [fill, Expr.eval, ih]
  | binL op c b ih => simp only [fill, Expr.eval, ih]
  | binR op a c ih => simp only [fill, Expr.eval, ih]
  | group c ih => simp only [fill, Expr.eval, ih]
  | abs c ih => simp only [fill, Expr.eval, ih]

theorem eval_fill_error (h : x.eval n = .error .divisionByZero) (c : Ctx) :
    (c.fill x).eval n = .error .divisionByZero := by
  induction c with
  | hole => exact h
  | neg c ih | abs c ih => simp only [fill, Expr.eval, ih]; rfl
  | group c ih => exact ih
  | binL op c b ih => simp only [fill, Expr.eval, ih]; rfl
  | binR op a c ih =>
    simp only [fill, Expr.eval, ih]
    cases ha : a.eval n with
    | error err => rw [Expr.eval_error ha]; rfl
    | ok v => rfl

theorem level_fill (h : x.level = y.level) (c : Ctx) : (c.fill x).level = (c.fill y).level := by
  cases c with
  | hole => exact h
  | _ => rfl

theorem wellFormed_fill (hx : x.level = y.level) (hy : y.WellFormed) :
    ∀ c : Ctx, (c.fill x).WellFormed → (c.fill y).WellFormed
  | .hole, _ => hy
  | .neg c, ⟨hl, hw⟩ => ⟨level_fill hx c ▸ hl, wellFormed_fill hx hy c hw⟩
  | .binL _ c _, ⟨hl, hr, ha, hb⟩ => ⟨level_fill hx c ▸ hl, hr, wellFormed_fill hx hy c ha, hb⟩
  | .binR _ _ c, ⟨hl, hr, ha, hb⟩ => ⟨hl, level_fill hx c ▸ hr, ha, wellFormed_fill hx hy c hb⟩
  | .group c, hw => wellFormed_fill hx hy c hw
  | .abs c, hw => wellFormed_fill hx hy c hw

theorem leadsWithMinus_fill (he : x.eval n = y.eval n)
    (hl : y.leadsWithMinus n = true → x.leadsWithMinus n = true) (c : Ctx) :
    (c.fill y).leadsWithMinus n = true → (c.fill x).leadsWithMinus n = true := by
  cases c with
  | hole => exact hl
  | group c =>
    simp only [fill, Expr.leadsWithMinus, eval_fill_congr he c]
    exact id
  | _ => simp [fill, Expr.leadsWithMinus]

/-- Replacing a factor by a sign-safe tree of the same value, whose text starts with a minus sign
only if the factor's does, keeps a tree sign-safe. -/
theorem signSafe_fill (he : x.eval n = y.eval n)
    (hl : y.leadsWithMinus n = true → x.leadsWithMinus n = true) (hy : y.SignSafe n) :
    ∀ c : Ctx, (c.fill x).SignSafe n → (c.fill y).SignSafe n
  | .hole, _ => hy
  | .neg c, ⟨hm, hs⟩ => by
    refine ⟨?_, signSafe_fill he hl hy c hs⟩
    cases h : (c.fill y).leadsWithMinus n with
    | false => rfl
    | true => exact absurd (leadsWithMinus_fill he hl c h) (by simp [hm])
  | .binL _ c _, ⟨ha, hb⟩ => ⟨signSafe_fill he hl hy c ha, hb⟩
  | .binR _ _ c, ⟨ha, hb⟩ => ⟨ha, signSafe_fill he hl hy c hb⟩
  | .group c, hs => signSafe_fill he hl hy c hs
  | .abs c, hs => signSafe_fill he hl hy c hs

theorem wellFormed_of_fill : ∀ c : Ctx, (c.fill x).WellFormed → x.WellFormed
  | .hole, h => h
  | .neg c, h => wellFormed_of_fill c h.2
  | .binL _ c _, h => wellFormed_of_fill c h.2.2.1
  | .binR _ _ c, h => wellFormed_of_fill c h.2.2.2
  | .group c, h => wellFormed_of_fill c h
  | .abs c, h => wellFormed_of_fill c h

theorem signSafe_of_fill : ∀ c : Ctx, (c.fill x).SignSafe n → x.SignSafe n
  | .hole, h => h
  | .neg c, h => signSafe_of_fill c h.2
  | .binL _ c _, h => signSafe_of_fill c h.1
  | .binR _ _ c, h => signSafe_of_fill c h.2
  | .group c, h => signSafe_of_fill c h
  | .abs c, h => signSafe_of_fill c h

theorem hasCall_fill (hy : y.hasCall = false) :
    ∀ c : Ctx, (c.fill x).hasCall = false → (c.fill y).hasCall = false
  | .hole, _ => hy
  | .neg c, h => hasCall_fill hy c h
  | .binL _ c _, h => by
    simp only [fill, Expr.hasCall, Bool.or_eq_false_iff] at h ⊢
    exact ⟨hasCall_fill hy c h.1, h.2⟩
  | .binR _ _ c, h => by
    simp only [fill, Expr.hasCall, Bool.or_eq_false_iff] at h ⊢
    exact ⟨h.1, hasCall_fill hy c h.2⟩
  | .group c, h => hasCall_fill hy c h
  | .abs c, h => by simp [fill, Expr.hasCall] at h

end Ctx

end Backtest.Formula
