/-!
# Binary64 values as exact numbers

A `Float` is a binary64 word, whose bits denote NaN, a signed infinity, or a signed `m * 2 ^ e`
with `m < 2 ^ 53` (`Binary64.ofBits`), so float values can be reasoned about in `Nat` and `Int`
arithmetic. Rounding down to an integer fails on infinities and NaN (`floor?`), and an integer
becomes a float only while the nearest float is finite (`ofInt?`).
-/

namespace Backtest.Decimal

/-- What a binary64 word denotes. -/
inductive Binary64 where
  /-- Not a number. -/
  | nan
  /-- An infinity, negative or positive. -/
  | infinite (negative : Bool)
  /-- The finite value `(-1) ^ negative * m * 2 ^ e`. -/
  | finite (negative : Bool) (m : Nat) (e : Int)
deriving Repr, DecidableEq

/-- The value denoted by a bit pattern: sign bit 63, biased exponent in bits 52 to 62, fraction
in bits 0 to 51. -/
def Binary64.ofBits (bits : UInt64) : Binary64 :=
  let n : Nat := bits.toNat
  let negative : Bool := n / Nat.pow 2 63 % 2 == 1
  let biased : Nat := n / Nat.pow 2 52 % Nat.pow 2 11
  let fraction : Nat := n % Nat.pow 2 52
  if biased = 2047 then
    if fraction = 0 then .infinite negative else .nan
  else if biased = 0 then .finite negative fraction (-1074)
  else .finite negative (fraction + Nat.pow 2 52) ((biased : Int) - 1075)

/-- The value a float denotes. -/
def Binary64.ofFloat (x : Float) : Binary64 :=
  Binary64.ofBits x.toBits

/-- Why a float has no integer part. -/
inductive FloorError where
  | infinite
  | nan
deriving Repr, DecidableEq

/-- The largest integer not above `m * 2 ^ e`, negated when `negative`. -/
def floorScaled (negative : Bool) (m : Nat) (e : Int) : Int :=
  if 0 ≤ e then
    let v : Int := (m * Nat.pow 2 e.toNat : Nat)
    if negative then -v else v
  else
    let d := Nat.pow 2 (-e).toNat
    if negative then -(((m + d - 1) / d : Nat) : Int) else ((m / d : Nat) : Int)

/-- The largest integer not above a float; infinities and NaN have none. -/
def floor? (x : Float) : Except FloorError Int :=
  match Binary64.ofFloat x with
  | .nan => .error .nan
  | .infinite _ => .error .infinite
  | .finite negative m e => .ok (floorScaled negative m e)

/-- The integer a float truncates to (towards zero); infinities and NaN have none. -/
def truncate? (x : Float) : Except FloorError Int :=
  match Binary64.ofFloat x with
  | .nan => .error .nan
  | .infinite _ => .error .infinite
  | .finite negative m e =>
    let magnitude := floorScaled false m e
    .ok (if negative then -magnitude else magnitude)

/-- Whether a float is a finite whole number. -/
def isWhole (x : Float) : Bool :=
  match Binary64.ofFloat x with
  | .finite _ m e => 0 ≤ e || m % Nat.pow 2 (-e).toNat == 0
  | _ => false

/-- The float nearest to an integer, or `none` when that float is infinite: the integer's
magnitude is at least `2 ^ 1024 - 2 ^ 970`, the midpoint between the largest finite float and
`2 ^ 1024`, which rounds to even, upwards. -/
def ofInt? (n : Int) : Option Float :=
  let x := Float.ofInt n
  if x.isInf then none else some x

end Backtest.Decimal
