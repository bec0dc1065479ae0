import Backtest.Decimal.Binary64

/-!
# Shortest decimal digits of a float

The shortest digits of a positive float are the decimal with the fewest significant digits in its
rounding interval, the nearer of two such (ties to the even). `shortest` searches the grids of
`1, 2, …, 17` significant digits; since the interval contains the float and has no gaps, testing the
two grid points next to the float decides each grid. All comparisons are exact, in `Nat` arithmetic.
-/

namespace Backtest.Decimal

/-- The number of decimal digits of a positive natural number (`1` for `0`). -/
def digitCount (n : Nat) : Nat :=
  (Nat.toDigits 10 n).length

/-- Compares `a * 10 ^ p` with `b * 2 ^ q` exactly. -/
def compareScaled (a : Nat) (p : Int) (b : Nat) (q : Int) : Ordering :=
  compare (a * Nat.pow 10 p.toNat * Nat.pow 2 (-q).toNat)
    (b * Nat.pow 2 q.toNat * Nat.pow 10 (-p).toNat)

/-- The decimal exponent of a positive `m * 2 ^ e`: the `E` with
`10 ^ E ≤ m * 2 ^ e < 10 ^ (E + 1)`. -/
def decimalExponent (m : Nat) (e : Int) : Int :=
  if 0 ≤ e then (digitCount (m * Nat.pow 2 e.toNat) : Int) - 1
  else
    let d := Nat.pow 2 (-e).toNat
    if d ≤ m then (digitCount (m / d) : Int) - 1
    else
      let k := digitCount d - digitCount m
      if d ≤ m * Nat.pow 10 k then -(k : Int) else -((k + 1 : Nat) : Int)

/-- Removes the trailing zeros of `c * 10 ^ k`, raising the exponent to match. -/
def stripZeros (c : Nat) (k : Int) (fuel : Nat) : Nat × Int :=
  match fuel with
  | 0 => (c, k)
  | fuel + 1 => if c ≠ 0 ∧ c % 10 = 0 then stripZeros (c / 10) (k + 1) fuel else (c, k)

/-- The interval of reals that round to a positive float `m * 2 ^ e`, scaled by four: the value
is `4m * 2 ^ (e - 2)`, the interval runs from `low * 2 ^ (e - 2)` to `high * 2 ^ (e - 2)`, and
its ends belong to it when `closed`. -/
structure Interval where
  low : Nat
  high : Nat
  closed : Bool

/-- The rounding interval of `m * 2 ^ e`; the gap below is half as wide when `m` is the smallest
normal significand and a smaller exponent exists. -/
def roundingInterval (m : Nat) (e : Int) : Interval :=
  let below := if m = Nat.pow 2 52 ∧ -1074 < e then 1 else 2
  { low := 4 * m - below, high := 4 * m + 2, closed := m % 2 == 0 }

/-- Whether `c * 10 ^ k` lies in the rounding interval of `m * 2 ^ e`. -/
def Interval.contains (i : Interval) (e : Int) (c : Nat) (k : Int) : Bool :=
  let aboveLow := compareScaled c k i.low (e - 2)
  let belowHigh := compareScaled c k i.high (e - 2)
  if i.closed then aboveLow != .lt && belowHigh != .gt
  else aboveLow == .gt && belowHigh == .lt

/-- The nearer to `m * 2 ^ e` of `c * 10 ^ k` and `(c + 1) * 10 ^ k`, an exact tie going to
the even one. -/
def nearer (m : Nat) (e : Int) (c : Nat) (k : Int) : Nat :=
  -- twice the value against the midpoint `(2c + 1) * 10 ^ k`
  match compareScaled (2 * c + 1) k (2 * m) e with
  | .gt => c
  | .lt => c + 1
  | .eq => if c % 2 == 0 then c else c + 1

/-- The grid point of spacing `10 ^ k` at or below `m * 2 ^ e`, and whether it is exact. -/
def gridFloor (m : Nat) (e : Int) (k : Int) : Nat × Bool :=
  let num := m * Nat.pow 2 e.toNat * Nat.pow 10 (-k).toNat
  let den := Nat.pow 2 (-e).toNat * Nat.pow 10 k.toNat
  (num / den, num % den == 0)

/-- The search over grids of `p`, `p + 1`, … significant digits; `fuel` bounds the count. -/
def searchGrids (m : Nat) (e : Int) (i : Interval) (exp10 : Int) : Nat → Nat → Nat × Int
  | p, 0 =>
    let k := exp10 - p + 1
    let (c, _) := gridFloor m e k
    (nearer m e c k, k)
  | p, fuel + 1 =>
    let k := exp10 - p + 1
    let (c, exact) := gridFloor m e k
    if exact then (c, k)
    else
      match i.contains e c k, i.contains e (c + 1) k with
      | true, true => (nearer m e c k, k)
      | true, false => (c, k)
      | false, true => (c + 1, k)
      | false, false => searchGrids m e i exp10 (p + 1) fuel

/-- The shortest digits of a positive float `m * 2 ^ e`: a `c` without trailing zeros and a `k`
with `c * 10 ^ k` the shortest nearest decimal that rounds to the float. -/
def shortest (m : Nat) (e : Int) : Nat × Int :=
  let (c, k) := searchGrids m e (roundingInterval m e) (decimalExponent m e) 1 16
  stripZeros c k (digitCount c)

end Backtest.Decimal
