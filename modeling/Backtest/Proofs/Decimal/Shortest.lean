import Backtest.Decimal.Shortest
import Backtest.Proofs.Binary64.Nearest

/-!
# The shortest digits round to their float

Every rational in the rounding interval of a positive float rounds to it (`roundsTo_of_mem`), and
`shortest m e` lies in that interval (`shortest_mem`): the search compares exactly
(`compareScaled_eq`), and at seventeen digits the grid point nearer to the value lies inside
(`nearer_mem`), so the digits read back as the float (`shortest_roundsTo`).
-/

namespace Backtest.Decimal

open Float.Model.UnpackedFloat

/-! ## Exact comparisons -/

theorem compare_eq_compare {α β : Type} [LinearOrder α] [LinearOrder β] {a b : α} {c d : β}
    (hlt : a < b ↔ c < d) (heq : a = b ↔ c = d) : compare a b = compare c d := by
  rcases lt_trichotomy a b with h | h | h
  · rw [compare_lt_iff_lt.2 h, compare_lt_iff_lt.2 (hlt.1 h)]
  · rw [compare_eq_iff_eq.2 h, compare_eq_iff_eq.2 (heq.1 h)]
  · have hdc : d < c := by
      rcases lt_trichotomy c d with h' | h' | h'
      · exact absurd (hlt.2 h') (not_lt.2 h.le)
      · exact absurd (heq.2 h') (ne_of_gt h)
      · exact h'
    rw [compare_gt_iff_gt.2 h, compare_gt_iff_gt.2 hdc]

theorem zpow_mul_zpow_toNat_neg {x : ℚ} (hx : x ≠ 0) (p : Int) :
    x ^ p * x ^ (-p).toNat = x ^ p.toNat := by
  rw [← zpow_natCast, ← zpow_add₀ hx, ← zpow_natCast]
  congr 1
  omega

/-- `compareScaled` compares `a * 10 ^ p` with `b * 2 ^ q`. -/
theorem compareScaled_eq (a : Nat) (p : Int) (b : Nat) (q : Int) :
    compareScaled a p b q = compare ((a : ℚ) * 10 ^ p) (b * 2 ^ q) := by
  unfold compareScaled
  -- both sides, times `10 ^ (-p).toNat * 2 ^ (-q).toNat`, are the natural numbers compared
  have hc : (0 : ℚ) < 10 ^ (-p).toNat * 2 ^ (-q).toNat := by positivity
  have hl : ((a * Nat.pow 10 p.toNat * Nat.pow 2 (-q).toNat : Nat) : ℚ) =
      a * 10 ^ p * (10 ^ (-p).toNat * 2 ^ (-q).toNat) := by
    rw [Nat.pow_eq, Nat.pow_eq]
    push_cast
    rw [← zpow_mul_zpow_toNat_neg (by norm_num : (10 : ℚ) ≠ 0) p]
    ring
  have hr : ((b * Nat.pow 2 q.toNat * Nat.pow 10 (-p).toNat : Nat) : ℚ) =
      b * 2 ^ q * (10 ^ (-p).toNat * 2 ^ (-q).toNat) := by
    rw [Nat.pow_eq, Nat.pow_eq]
    push_cast
    rw [← zpow_mul_zpow_toNat_neg (by norm_num : (2 : ℚ) ≠ 0) q]
    ring
  symm
  apply compare_eq_compare
  · rw [← Nat.cast_lt (α := ℚ), hl, hr]
    exact (mul_lt_mul_iff_of_pos_right hc).symm
  · rw [← Nat.cast_inj (R := ℚ), hl, hr]
    exact (mul_left_inj' hc.ne').symm

/-! ## Decimal exponents and grids -/

theorem digitCount_spec {n : Nat} (hn : 0 < n) :
    10 ^ (digitCount n - 1) ≤ n ∧ n < 10 ^ digitCount n := by
  have hpos : 0 < digitCount n := Nat.length_toDigits_pos
  refine ⟨?_, (Nat.length_toDigits_le_iff (by norm_num) hpos).1 le_rfl⟩
  rcases Nat.lt_or_ge (digitCount n) 2 with h | h
  · rw [show digitCount n - 1 = 0 by omega, Nat.pow_zero]
    exact hn
  · -- one digit fewer would not suffice
    have hnot := mt (Nat.length_toDigits_le_iff (b := 10) (n := n) (by norm_num)
      (show 0 < digitCount n - 1 by omega)).2
    exact Nat.not_lt.1 (hnot (by unfold digitCount at *; omega))

theorem pow_neg_le_div_iff {m D k : Nat} (hD : 0 < D) :
    (10 : ℚ) ^ (-(k : Int)) ≤ m / D ↔ D ≤ m * 10 ^ k := by
  rw [zpow_neg, zpow_natCast, inv_eq_one_div, div_le_div_iff₀ (by positivity) (by positivity),
    one_mul]
  norm_cast

theorem cast_mul_pow_toNat (m : Nat) {e : Int} (he : 0 ≤ e) :
    ((m * Nat.pow 2 e.toNat : Nat) : ℚ) = m * 2 ^ e := by
  rw [Nat.pow_eq]
  push_cast
  rw [← zpow_natCast, Int.toNat_of_nonneg he]

theorem mul_zpow_eq_div (m : Nat) {e : Int} (he : e < 0) :
    (m : ℚ) * 2 ^ e = m / ((2 ^ (-e).toNat : Nat) : ℚ) := by
  rw [div_eq_mul_inv, Nat.cast_pow, Nat.cast_ofNat, ← zpow_natCast, ← zpow_neg,
    Int.toNat_of_nonneg (by omega), neg_neg]

/-- `decimalExponent m e` is at most the decimal exponent of `m * 2 ^ e`: the grid of spacing
`10 ^ (decimalExponent m e - 16)` has seventeen significant digits or more. -/
theorem pow_decimalExponent_le {m : Nat} (e : Int) (hm : 0 < m) :
    (10 : ℚ) ^ decimalExponent m e ≤ m * 2 ^ e := by
  unfold decimalExponent
  split
  · -- a whole number: one digit fewer than its digit count
    rename_i he
    have hv := cast_mul_pow_toNat m he
    have hn : 0 < m * Nat.pow 2 e.toNat := by rw [Nat.pow_eq]; positivity
    have hd : 0 < digitCount (m * Nat.pow 2 e.toNat) := Nat.length_toDigits_pos
    rw [← hv, show ((digitCount (m * Nat.pow 2 e.toNat) : Int) - 1) =
      ((digitCount (m * Nat.pow 2 e.toNat) - 1 : Nat) : Int) by omega, zpow_natCast]
    exact_mod_cast (digitCount_spec hn).1
  · rename_i he
    have hD : 0 < 2 ^ (-e).toNat := by positivity
    have hv := mul_zpow_eq_div m (lt_of_not_ge he)
    dsimp only
    rw [hv, Nat.pow_eq]
    split
    · -- at least one: one digit fewer than the whole part has
      rename_i hle
      have hq : 0 < m / 2 ^ (-e).toNat := Nat.div_pos hle hD
      have hpos : 0 < digitCount (m / 2 ^ (-e).toNat) := Nat.length_toDigits_pos
      rw [show ((digitCount (m / 2 ^ (-e).toNat) : Int) - 1) =
        ((digitCount (m / 2 ^ (-e).toNat) - 1 : Nat) : Int) by omega, zpow_natCast]
      calc (10 : ℚ) ^ (digitCount (m / 2 ^ (-e).toNat) - 1)
          ≤ ((m / 2 ^ (-e).toNat : Nat) : ℚ) := by exact_mod_cast (digitCount_spec hq).1
        _ ≤ m / ((2 ^ (-e).toNat : Nat) : ℚ) := by
          rw [le_div_iff₀ (by positivity)]
          exact_mod_cast Nat.div_mul_le_self m _
    · -- below one: the digit counts of the two sides fix the exponent to within one
      rename_i hlt
      have hmlo := (digitCount_spec hm).1
      have hdhi := (digitCount_spec hD).2
      have hm1 : 0 < digitCount m := Nat.length_toDigits_pos
      split
      · rename_i hge
        exact (pow_neg_le_div_iff hD).2 hge
      · apply (pow_neg_le_div_iff hD).2
        -- the divisor is below `10 ^ digitCount (2 ^ (-e).toNat)`, which `m * 10 ^ (k + 1)` reaches
        calc 2 ^ (-e).toNat ≤ 10 ^ digitCount (2 ^ (-e).toNat) := hdhi.le
          _ ≤ 10 ^ (digitCount m - 1 + (digitCount (2 ^ (-e).toNat) - digitCount m + 1)) :=
            Nat.pow_le_pow_right (by norm_num) (by omega)
          _ = 10 ^ (digitCount m - 1) * 10 ^ (digitCount (2 ^ (-e).toNat) - digitCount m + 1) :=
            Nat.pow_add _ _ _
          _ ≤ m * 10 ^ (digitCount (2 ^ (-e).toNat) - digitCount m + 1) :=
            Nat.mul_le_mul_right _ hmlo

theorem gridFloor_spec (m : Nat) (e k : Int) :
    ((gridFloor m e k).1 : ℚ) * 10 ^ k ≤ m * 2 ^ e ∧
      (m : ℚ) * 2 ^ e < ((gridFloor m e k).1 + 1) * 10 ^ k ∧
      ((gridFloor m e k).2 = true ↔ ((gridFloor m e k).1 : ℚ) * 10 ^ k = m * 2 ^ e) := by
  unfold gridFloor
  simp only [Nat.pow_eq, beq_iff_eq]
  set num := m * 2 ^ e.toNat * 10 ^ (-k).toNat
  set den := 2 ^ (-e).toNat * 10 ^ k.toNat
  have hden : (0 : ℚ) < den := by positivity
  -- the value on the grid of spacing `10 ^ k` is `num / den`
  have hv : (m : ℚ) * 2 ^ e = num / den * 10 ^ k := by
    have h2 := zpow_mul_zpow_toNat_neg (by norm_num : (2 : ℚ) ≠ 0) e
    have h10 := zpow_mul_zpow_toNat_neg (by norm_num : (10 : ℚ) ≠ 0) k
    simp only [num, den]
    push_cast
    rw [← h2, ← h10]
    field_simp
  have hdiv : ((num / den : Nat) : ℚ) * den ≤ num := by exact_mod_cast Nat.div_mul_le_self num den
  have hlt : (num : ℚ) < ((num / den : Nat) + 1) * den := by
    exact_mod_cast Nat.lt_div_mul_add (a := num) (by positivity : 0 < den) |>.trans_eq
      (by ring)
  have h10 : (0 : ℚ) < 10 ^ k := zpow_pos (by norm_num) _
  rw [hv]
  refine ⟨?_, ?_, ?_⟩
  · gcongr
    rw [le_div_iff₀ hden]
    exact hdiv
  · gcongr
    rw [div_lt_iff₀ hden]
    exact hlt
  · rw [mul_left_inj' h10.ne', eq_div_iff hden.ne']
    constructor
    · intro h
      exact_mod_cast (Nat.div_mul_cancel (Nat.dvd_of_mod_eq_zero h))
    · intro h
      have h' : (num / den) * den = num := by exact_mod_cast h
      exact Nat.mod_eq_zero_of_dvd ⟨num / den, by rw [mul_comm]; exact h'.symm⟩

theorem nearer_eq_or (m : Nat) (e : Int) (c : Nat) (k : Int) :
    nearer m e c k = c ∨ nearer m e c k = c + 1 := by
  unfold nearer
  split
  · exact Or.inl rfl
  · exact Or.inr rfl
  · split
    · exact Or.inl rfl
    · exact Or.inr rfl

theorem abs_nearer_sub_le {m : Nat} {e : Int} {c : Nat} {k : Int}
    (hlo : (c : ℚ) * 10 ^ k ≤ m * 2 ^ e) (hhi : (m : ℚ) * 2 ^ e < (c + 1) * 10 ^ k) :
    |(nearer m e c k : ℚ) * 10 ^ k - m * 2 ^ e| ≤ 10 ^ k / 2 := by
  have hmid := compareScaled_eq (2 * c + 1) k (2 * m) e
  push_cast at hmid
  unfold nearer
  rw [hmid]
  rcases lt_trichotomy (((2 : ℚ) * c + 1) * 10 ^ k) (2 * m * 2 ^ e) with h | h | h
  · -- above the midpoint: the upper point
    rw [compare_lt_iff_lt.2 h]
    push_cast
    rw [abs_le]
    constructor <;> linarith
  · -- an exact tie: either point is half a step away
    rw [compare_eq_iff_eq.2 h]
    dsimp only
    split <;> push_cast <;> rw [abs_le] <;> constructor <;> linarith
  · -- below the midpoint: the lower point
    rw [compare_gt_iff_gt.2 h]
    rw [abs_le]
    constructor <;> linarith

/-! ## The rounding interval -/

/-- The rationals an interval stands for at exponent `e`: from `low * 2 ^ (e - 2)` to
`high * 2 ^ (e - 2)`, the ends included only when the interval is closed. -/
structure Interval.Mem (i : Interval) (e : Int) (v : ℚ) : Prop where
  low_le : (i.low : ℚ) * 2 ^ (e - 2) ≤ v
  le_high : v ≤ i.high * 2 ^ (e - 2)
  low_lt : i.closed = false → (i.low : ℚ) * 2 ^ (e - 2) < v
  lt_high : i.closed = false → v < i.high * 2 ^ (e - 2)

theorem two_zpow_sub_two (e : Int) : (2 : ℚ) ^ (e - 2) = 2 ^ e / 4 := by
  rw [zpow_sub₀ (by norm_num)]
  norm_num

theorem Interval.mem_of_lt {i : Interval} {e : Int} {v : ℚ} (h₁ : (i.low : ℚ) * 2 ^ (e - 2) < v)
    (h₂ : v < i.high * 2 ^ (e - 2)) : i.Mem e v :=
  ⟨h₁.le, h₂.le, fun _ => h₁, fun _ => h₂⟩

theorem Interval.contains_iff (i : Interval) (e : Int) (c : Nat) (k : Int) :
    i.contains e c k = true ↔ i.Mem e (c * 10 ^ k) := by
  unfold Interval.contains
  rw [compareScaled_eq, compareScaled_eq]
  rcases i with ⟨low, high, closed⟩
  cases closed
  · simp only [Bool.false_eq_true, if_false, Bool.and_eq_true, beq_iff_eq, compare_gt_iff_gt,
      compare_lt_iff_lt]
    constructor
    · rintro ⟨h₁, h₂⟩
      exact Interval.mem_of_lt h₁ h₂
    · intro h
      exact ⟨h.low_lt rfl, h.lt_high rfl⟩
  · simp only [if_true, Bool.and_eq_true, bne_iff_ne, compare_ge_iff_ge, compare_le_iff_le]
    constructor
    · rintro ⟨h₁, h₂⟩
      exact ⟨h₁, h₂, fun h => Bool.noConfusion h, fun h => Bool.noConfusion h⟩
    · intro h
      exact ⟨h.low_le, h.le_high⟩

/-- Every rational of the rounding interval of a positive float rounds to it. -/
theorem roundsTo_of_mem {m : Nat} {e : Int} {v : ℚ} (hm : 0 < m) (hn : Normalized m e)
    (hv : (roundingInterval m e).Mem e v) : RoundsTo v (m * 2 ^ e) := by
  obtain ⟨hlow, hhigh, hlow', hhigh'⟩ := hv
  simp only [roundingInterval, Nat.pow_eq, beq_eq_false_iff_ne] at hlow hhigh hlow' hhigh'
  have hpos : (0 : ℚ) < 2 ^ e := zpow_pos (by norm_num) _
  have hm53 : (m : ℚ) + 1 ≤ 2 ^ 53 := by exact_mod_cast hn.lt_two_pow
  -- measured in ulps of `m * 2 ^ e`, the value is `x`
  set x := v / 2 ^ e with hx
  have hvx : v = x * 2 ^ e := by rw [hx, div_mul_cancel₀ _ hpos.ne']
  have hhigh₂ : x ≤ m + 1 / 2 := by
    rw [two_zpow_sub_two, hvx] at hhigh
    push_cast at hhigh
    nlinarith
  by_cases hb : m = 2 ^ 52 ∧ -1074 < e
  · -- the least significand of a binade: the gap below is half as wide
    rw [if_pos hb] at hlow
    have hlow₂ : (m : ℚ) - 1 / 4 ≤ x := by
      rw [two_zpow_sub_two, hvx, Nat.cast_sub (by omega)] at hlow
      push_cast at hlow
      nlinarith
    have heven : m % 2 = 0 := by rw [hb.1]; norm_num
    have hm52 : (m : ℚ) = 2 ^ 52 := by rw [hb.1]; norm_num
    rcases le_or_gt (m : ℚ) x with hxm | hxm
    · refine ⟨e, m, ⟨hn.min_le, ?_, Or.inr ?_⟩, ⟨?_, fun _ => heven⟩, rfl⟩
      · rw [hvx]; gcongr; linarith
      · rw [hvx]; gcongr; linarith
      · rw [abs_le]; constructor <;> linarith
    · -- just below the binade: the ulp is half as large, and the value rounds up to `2 ^ 53` of them
      have hscaled : v / 2 ^ (e - 1) = 2 * x := by
        rw [zpow_sub_one₀ (by norm_num), hvx]
        field_simp
      refine ⟨e - 1, 2 ^ 53, ⟨by omega, ?_, Or.inr ?_⟩, ⟨?_, fun _ => by norm_num⟩, ?_⟩
      · rw [hvx, zpow_sub_one₀ (by norm_num)]
        have : x * 2 ^ e < 2 ^ 52 * 2 ^ e := by gcongr; linarith
        linarith
      · rw [hvx, zpow_sub_one₀ (by norm_num)]
        have : (2 : ℚ) ^ 51 * 2 ^ e ≤ x * 2 ^ e := by gcongr; linarith
        linarith
      · rw [hscaled, abs_le]
        push_cast
        constructor <;> linarith
      · rw [zpow_sub_one₀ (by norm_num), hm52]
        push_cast
        ring
  · rw [if_neg hb] at hlow hlow'
    have hlow₂ : (m : ℚ) - 1 / 2 ≤ x := by
      rw [two_zpow_sub_two, hvx, Nat.cast_sub (by omega)] at hlow
      push_cast at hlow
      nlinarith
    refine ⟨e, m, ⟨hn.min_le, ?_, ?_⟩, ⟨?_, fun htie => ?_⟩, rfl⟩
    · rw [hvx]; gcongr; linarith
    · -- above the least exponent the significand is past `2 ^ 52`, so the value keeps 53 bits
      rcases hn.normal with h52 | hmin
      · by_cases hmin : e = -1074
        · exact Or.inl hmin
        · right
          have := hn.min_le
          have : 2 ^ 52 + 1 ≤ m := by
            rcases Nat.lt_or_ge (2 ^ 52) m with h | h
            · omega
            · exact absurd ⟨by omega, by omega⟩ hb
          have : (2 : ℚ) ^ 52 + 1 ≤ m := by exact_mod_cast this
          rw [hvx]; gcongr; linarith
      · exact Or.inl hmin
    · rw [abs_le]; constructor <;> linarith
    · -- a tie sits at an end of the interval, which belongs to it only for an even significand
      by_contra hodd
      have h₁ := hlow' hodd
      have h₂ := hhigh' hodd
      rw [two_zpow_sub_two, hvx, Nat.cast_sub (by omega)] at h₁
      rw [two_zpow_sub_two, hvx] at h₂
      push_cast at h₁ h₂
      have hx₁ : (m : ℚ) - 1 / 2 < x := by nlinarith
      have hx₂ : x < m + 1 / 2 := by nlinarith
      rw [abs_eq (by norm_num)] at htie
      rcases htie with h | h <;> linarith

theorem value_mem (m : Nat) (e : Int) (hm : 0 < m) : (roundingInterval m e).Mem e (m * 2 ^ e) := by
  have hpos : (0 : ℚ) < 2 ^ e := zpow_pos (by norm_num) _
  apply Interval.mem_of_lt
  · simp only [roundingInterval]
    rw [two_zpow_sub_two]
    by_cases hb : m = Nat.pow 2 52 ∧ -1074 < e
    · rw [if_pos hb, Nat.cast_sub (by omega)]
      push_cast
      nlinarith
    · rw [if_neg hb, Nat.cast_sub (by omega)]
      push_cast
      nlinarith
  · simp only [roundingInterval]
    rw [two_zpow_sub_two]
    push_cast
    nlinarith

/-- At seventeen significant digits, the grid point nearer to the value lies in its rounding
interval: half a step of that grid is less than the gap to either neighbouring float. -/
theorem nearer_mem {m : Nat} {e : Int} (hm : 0 < m) (hn : Normalized m e) :
    (roundingInterval m e).Mem e (nearer m e (gridFloor m e (decimalExponent m e - 17 + 1)).1
      (decimalExponent m e - 17 + 1) * 10 ^ (decimalExponent m e - 17 + 1)) := by
  set k := decimalExponent m e - 17 + 1 with hk
  obtain ⟨hlo, hhi, -⟩ := gridFloor_spec m e k
  have hnear := abs_le.1 (abs_nearer_sub_le hlo hhi)
  -- a step of the grid is at most the value over `10 ^ 16`
  have hstep : (10 : ℚ) ^ k * 10 ^ 16 ≤ m * 2 ^ e := by
    have hk16 : (10 : ℚ) ^ k * 10 ^ 16 = 10 ^ decimalExponent m e := by
      rw [hk, ← zpow_natCast, ← zpow_add₀ (by norm_num)]
      congr 1
      push_cast
      ring
    rw [hk16]
    exact pow_decimalExponent_le e hm
  have hpos : (0 : ℚ) < 2 ^ e := zpow_pos (by norm_num) _
  have hm16 : (m : ℚ) < 10 ^ 16 := by
    have : m < 10 ^ 16 := lt_of_lt_of_le hn.lt_two_pow (by norm_num)
    exact_mod_cast this
  apply Interval.mem_of_lt
  · simp only [roundingInterval, Nat.pow_eq]
    rw [two_zpow_sub_two]
    by_cases hb : m = 2 ^ 52 ∧ -1074 < e
    · -- the narrow gap below `2 ^ 52 * 2 ^ e` is still wider than half a step
      rw [if_pos hb, Nat.cast_sub (by omega)]
      have hm52 : (m : ℚ) = 2 ^ 52 := by rw [hb.1]; norm_num
      push_cast
      rw [hm52] at hstep ⊢
      nlinarith
    · rw [if_neg hb, Nat.cast_sub (by omega)]
      push_cast
      nlinarith
  · simp only [roundingInterval]
    rw [two_zpow_sub_two]
    push_cast
    nlinarith

theorem searchGrids_mem {m : Nat} {e : Int} (hm : 0 < m) (hn : Normalized m e) :
    ∀ fuel p, p + fuel = 17 →
      (roundingInterval m e).Mem e
        ((searchGrids m e (roundingInterval m e) (decimalExponent m e) p fuel).1 *
          10 ^ (searchGrids m e (roundingInterval m e) (decimalExponent m e) p fuel).2) := by
  intro fuel
  induction fuel with
  | zero =>
    intro p hp
    obtain rfl : p = 17 := by omega
    exact nearer_mem hm hn
  | succ fuel ih =>
    intro p hp
    have hspec := gridFloor_spec m e (decimalExponent m e - p + 1)
    unfold searchGrids
    rcases hg : gridFloor m e (decimalExponent m e - p + 1) with ⟨c, exact⟩
    rw [hg] at hspec
    simp only [hg]
    split
    · -- the grid point is the value itself
      rename_i hexact
      rw [hspec.2.2.1 hexact]
      exact value_mem m e hm
    · split
      · rename_i h₁ h₂
        rcases nearer_eq_or m e c (decimalExponent m e - p + 1) with h | h <;> rw [h]
        · exact (Interval.contains_iff _ _ _ _).1 h₁
        · exact_mod_cast (Interval.contains_iff _ _ _ _).1 h₂
      · rename_i h₁ _
        exact (Interval.contains_iff _ _ _ _).1 h₁
      · rename_i _ h₂
        exact_mod_cast (Interval.contains_iff _ _ _ _).1 h₂
      · exact ih (p + 1) (by omega)

theorem stripZeros_value (c : Nat) (k : Int) (fuel : Nat) :
    ((stripZeros c k fuel).1 : ℚ) * 10 ^ (stripZeros c k fuel).2 = c * 10 ^ k := by
  induction fuel generalizing c k with
  | zero => rfl
  | succ fuel ih =>
    unfold stripZeros
    split
    · rename_i h
      rw [ih]
      obtain ⟨d, rfl⟩ : 10 ∣ c := Nat.dvd_of_mod_eq_zero h.2
      rw [Nat.mul_div_cancel_left _ (by norm_num), zpow_add_one₀ (by norm_num)]
      push_cast
      ring
    · rfl

theorem shortest_mem {m : Nat} {e : Int} (hm : 0 < m) (hn : Normalized m e) :
    (roundingInterval m e).Mem e ((shortest m e).1 * 10 ^ (shortest m e).2) := by
  have h := searchGrids_mem hm hn 16 1 rfl
  unfold shortest
  rcases hs : searchGrids m e (roundingInterval m e) (decimalExponent m e) 1 16 with ⟨c, k⟩
  rw [hs] at h
  dsimp only
  rw [stripZeros_value]
  exact h

/-- The shortest digits of a positive float round back to it. -/
theorem shortest_roundsTo {m : Nat} {e : Int} (hm : 0 < m) (hn : Normalized m e) :
    RoundsTo ((shortest m e).1 * 10 ^ (shortest m e).2) (m * 2 ^ e) :=
  roundsTo_of_mem hm hn (shortest_mem hm hn)

theorem shortest_pos {m : Nat} {e : Int} (hm : 0 < m) (hn : Normalized m e) :
    0 < (shortest m e).1 := by
  have hlow := (shortest_mem hm hn).low_le
  simp only [roundingInterval] at hlow
  have hpos : (0 : ℚ) < ((4 * m - if m = Nat.pow 2 52 ∧ -1074 < e then 1 else 2 : Nat) : ℚ) *
      2 ^ (e - 2) := by
    apply mul_pos _ (zpow_pos (by norm_num) _)
    exact_mod_cast (show 0 < 4 * m - (if m = Nat.pow 2 52 ∧ -1074 < e then 1 else 2) by
      split <;> omega)
  rcases Nat.eq_zero_or_pos (shortest m e).1 with h | h
  · rw [h] at hlow
    simp at hlow
    linarith
  · exact h

end Backtest.Decimal
