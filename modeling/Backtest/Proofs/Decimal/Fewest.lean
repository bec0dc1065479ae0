import Backtest.Proofs.Decimal.Shortest

/-!
# The shortest digits are the fewest

No decimal that rounds to a positive float has fewer significant digits than `shortest m e`
(`digitCount_shortest_le`). Such a decimal lies in the float's rounding interval
(`mem_of_roundsTo`); a decimal of `d` digits there puts a point of the grid of `d` digits into the
interval, since the interval has no gaps (`exists_grid_mem`); and the search, stopping at the first
grid with a point inside, returns at most `10 ^ d` (`searchGrids_le_pow`).
-/

namespace Backtest.Decimal

open Float.Model.UnpackedFloat

/-! ## Decimal exponents from above -/

theorem div_lt_pow_neg_iff {m D k : Nat} (hD : 0 < D) :
    (m : ℚ) / D < 10 ^ (-(k : Int)) ↔ m * 10 ^ k < D := by
  rw [zpow_neg, zpow_natCast, inv_eq_one_div, div_lt_div_iff₀ (by positivity) (by positivity),
    one_mul]
  norm_cast

theorem digitCount_pos (n : Nat) : 0 < digitCount n :=
  Nat.length_toDigits_pos

theorem digitCount_le_of_lt {n p : Nat} (hp : 0 < p) (h : n < 10 ^ p) : digitCount n ≤ p :=
  (Nat.length_toDigits_le_iff (by norm_num) hp).2 h

theorem lt_pow_decimalExponent {m : Nat} (e : Int) (hm : 0 < m) :
    (m : ℚ) * 2 ^ e < 10 ^ (decimalExponent m e + 1) := by
  unfold decimalExponent
  split
  · -- a whole number: below ten to its digit count
    rename_i he
    have hv := cast_mul_pow_toNat m he
    have hn : 0 < m * Nat.pow 2 e.toNat := by rw [Nat.pow_eq]; positivity
    rw [← hv, Int.sub_add_cancel, zpow_natCast]
    exact_mod_cast (digitCount_spec hn).2
  · rename_i he
    have hD : 0 < 2 ^ (-e).toNat := by positivity
    have hv := mul_zpow_eq_div m (lt_of_not_ge he)
    dsimp only
    rw [hv, Nat.pow_eq]
    split
    · -- at least one: below the power of ten above the whole part
      rename_i hle
      have hq : 0 < m / 2 ^ (-e).toNat := Nat.div_pos hle hD
      rw [Int.sub_add_cancel, zpow_natCast]
      calc (m : ℚ) / ((2 ^ (-e).toNat : Nat) : ℚ) < ((m / 2 ^ (-e).toNat : Nat) : ℚ) + 1 := by
            rw [div_lt_iff₀ (by positivity)]
            exact_mod_cast Nat.lt_div_mul_add hD |>.trans_eq (by ring)
        _ ≤ 10 ^ digitCount (m / 2 ^ (-e).toNat) := by exact_mod_cast (digitCount_spec hq).2
    · -- below one: the digit counts of the two sides fix the exponent
      rename_i hlt
      have hmhi := (digitCount_spec hm).2
      have hdlo := (digitCount_spec hD).1
      have hcount : digitCount m ≤ digitCount (2 ^ (-e).toNat) := by
        have := (Nat.pow_lt_pow_iff_right (by norm_num : 1 < 10)).1
          ((digitCount_spec hm).1.trans_lt ((Nat.lt_of_not_le hlt).trans (digitCount_spec hD).2))
        omega
      split
      · rename_i hge
        -- `m * 10 ^ (k - 1) < 10 ^ (digitCount m + k - 1) ≤ 2 ^ (-e).toNat`
        have hpow : (10 : ℚ) ^ (-((digitCount (2 ^ (-e).toNat) - digitCount m : Nat) : Int) + 1) =
            10 ^ digitCount m / 10 ^ (digitCount (2 ^ (-e).toNat) - 1) := by
          rw [← zpow_natCast, ← zpow_natCast, ← zpow_sub₀ (by norm_num)]
          congr 1
          have := digitCount_pos (2 ^ (-e).toNat)
          omega
        rw [hpow, div_lt_div_iff₀ (by positivity) (by positivity)]
        exact_mod_cast Nat.mul_lt_mul_of_lt_of_le hmhi hdlo (by positivity)
      · rename_i hgt
        rw [show -((digitCount (2 ^ (-e).toNat) - digitCount m + 1 : Nat) : Int) + 1 =
          -((digitCount (2 ^ (-e).toNat) - digitCount m : Nat) : Int) by push_cast; ring]
        exact (div_lt_pow_neg_iff hD).2 (Nat.lt_of_not_le hgt)

/-! ## Rounding only inside the interval -/

theorem Interval.Mem.of_le_of_le {i : Interval} {e : Int} {a b c : ℚ} (ha : i.Mem e a)
    (hc : i.Mem e c) (hab : a ≤ b) (hbc : b ≤ c) : i.Mem e b :=
  ⟨ha.low_le.trans hab, hbc.trans hc.le_high, fun h => (ha.low_lt h).trans_le hab,
    fun h => hbc.trans_lt (hc.lt_high h)⟩

section UlpCases

variable {m r : Nat} {e E : Int} {q : ℚ}

theorem mem_of_roundsTo_finer_ulp (hn : Normalized m e) (hulp : UlpExponent q E)
    (hne : NearestEven (q / 2 ^ E) r) (hw : (m : ℚ) * 2 ^ e = r * 2 ^ E) (hlt : E < e) :
    (roundingInterval m e).Mem e q := by
  have hE : (0 : ℚ) < 2 ^ E := zpow_pos (by norm_num) _
  have he : (0 : ℚ) < 2 ^ e := zpow_pos (by norm_num) _
  have hr53 : r ≤ 2 ^ 53 := hne.le_of_lt (by
    rw [div_lt_iff₀ hE]
    exact_mod_cast hulp.lt)
  have hdist := abs_le.1 hne.dist_le
  have hsplit : (2 : ℚ) ^ e = 2 ^ E * 2 ^ (e - E) := by
    rw [← zpow_add₀ (by norm_num), add_sub_cancel]
  have hr : (r : ℚ) = m * 2 ^ (e - E) := by
    apply mul_right_cancel₀ hE.ne'
    rw [← hw, hsplit]
    ring
  have hm52 : (2 : ℚ) ^ 52 ≤ m := by
    rcases hn.normal with h | h
    · exact_mod_cast h
    · have := hulp.min_le
      omega
  -- `2 ^ 53` finer ulps at most, so the finer ulp is half the float's
  have hgap : e - E = 1 := by
    by_contra hgap
    have h4 : (4 : ℚ) ≤ 2 ^ (e - E) := by
      rw [show (4 : ℚ) = 2 ^ (2 : Int) by norm_num]
      exact zpow_le_zpow_right₀ (by norm_num) (by omega)
    have : (r : ℚ) ≤ 2 ^ 53 := by exact_mod_cast hr53
    nlinarith
  rw [hgap, zpow_one] at hr
  have hmeq : m = 2 ^ 52 := by
    have : (r : ℚ) ≤ 2 ^ 53 := by exact_mod_cast hr53
    have : (m : ℚ) = 2 ^ 52 := by linarith
    exact_mod_cast this
  subst hmeq
  have hbelow : 2 ^ 52 = Nat.pow 2 52 ∧ -1074 < e := ⟨rfl, by have := hulp.min_le; omega⟩
  have hEe : (2 : ℚ) ^ E = 2 ^ e / 2 := by
    rw [hsplit, hgap, zpow_one]
    ring
  have hclosed : (roundingInterval (2 ^ 52) e).closed = true := by
    simp [roundingInterval]
  refine ⟨?_, ?_, fun h => absurd (hclosed.symm.trans h) (by decide),
    fun h => absurd (hclosed.symm.trans h) (by decide)⟩
  · -- at least half an ulp below `2 ^ 53` ulps of the finer size
    simp only [roundingInterval, if_pos hbelow]
    rw [Nat.cast_sub (by omega), two_zpow_sub_two]
    have hlow := hdist.1
    rw [le_sub_iff_add_le, le_div_iff₀ hE, hEe, hr] at hlow
    push_cast at hlow ⊢
    linarith
  · -- below the float itself
    simp only [roundingInterval]
    rw [two_zpow_sub_two]
    have hlt' := hulp.lt
    rw [hEe] at hlt'
    push_cast
    nlinarith

theorem mem_of_roundsTo_own_ulp (hm : 0 < m) (hulp : UlpExponent q e)
    (hne : NearestEven (q / 2 ^ e) m) : (roundingInterval m e).Mem e q := by
  have he : (0 : ℚ) < 2 ^ e := zpow_pos (by norm_num) _
  have hdist := abs_le.1 hne.dist_le
  set x := q / 2 ^ e with hx
  have hqx : q = x * 2 ^ e := (div_mul_cancel₀ _ he.ne').symm
  -- an end of the interval is a tie, which rounds to an even significand only
  have hends : (roundingInterval m e).closed = false → x - m ≠ -(1 / 2) ∧ x - m ≠ 1 / 2 := by
    intro hc
    have hodd : m % 2 ≠ 0 := by simpa [roundingInterval] using hc
    exact ⟨fun h => hodd (hne.even_of_tie (by rw [h]; norm_num)),
      fun h => hodd (hne.even_of_tie (by rw [h]; norm_num))⟩
  simp only [roundingInterval, Nat.pow_eq] at hends ⊢
  refine ⟨?_, ?_, fun hc => ?_, fun hc => ?_⟩
  · split
    · -- the least significand of a binade: not below the float at all
      rename_i hb
      have hlow : (2 : ℚ) ^ 52 * 2 ^ e ≤ q := hulp.normal.resolve_left (by omega)
      have hm52 : (m : ℚ) = 2 ^ 52 := by exact_mod_cast hb.1
      rw [Nat.cast_sub (by omega), two_zpow_sub_two]
      push_cast
      nlinarith
    · rw [Nat.cast_sub (by omega), two_zpow_sub_two, hqx]
      push_cast
      nlinarith [hdist.1]
  · rw [two_zpow_sub_two, hqx]
    push_cast
    nlinarith [hdist.2]
  · have hb : ¬ (m = 2 ^ 52 ∧ -1074 < e) := by
      rintro ⟨rfl, -⟩
      simp at hc
    rw [if_neg hb, Nat.cast_sub (by omega), two_zpow_sub_two, hqx]
    have hlt : -(1 / 2) < x - m := lt_of_le_of_ne hdist.1 (hends hc).1.symm
    push_cast
    nlinarith
  · rw [two_zpow_sub_two, hqx]
    have hlt : x - m < 1 / 2 := lt_of_le_of_ne hdist.2 (hends hc).2
    push_cast
    nlinarith

theorem not_roundsTo_coarser_ulp (hn : Normalized m e) (hulp : UlpExponent q E)
    (hne : NearestEven (q / 2 ^ E) r) (hw : (m : ℚ) * 2 ^ e = r * 2 ^ E) (hgt : e < E) :
    False := by
  have hE : (0 : ℚ) < 2 ^ E := zpow_pos (by norm_num) _
  have he : (0 : ℚ) < 2 ^ e := zpow_pos (by norm_num) _
  have hm53 : (m : ℚ) < 2 ^ 53 := by exact_mod_cast hn.lt_two_pow
  have hsplit : (2 : ℚ) ^ E = 2 ^ e * 2 ^ (E - e) := by
    rw [← zpow_add₀ (by norm_num), add_sub_cancel]
  have h2 : (2 : ℚ) ≤ 2 ^ (E - e) := by
    rw [show (2 : ℚ) = 2 ^ (1 : Int) by norm_num]
    exact zpow_le_zpow_right₀ (by norm_num) (by omega)
  have hr52 : 2 ^ 52 ≤ r := by
    apply hne.le_of_le'
    rcases hulp.normal with h | h
    · have := hn.min_le
      omega
    · rw [le_div_iff₀ hE]
      exact_mod_cast h
  have hr52' : (2 : ℚ) ^ 52 ≤ r := by exact_mod_cast hr52
  have hm : (m : ℚ) = r * 2 ^ (E - e) := by
    apply mul_right_cancel₀ he.ne'
    rw [hw, hsplit]
    ring
  nlinarith

end UlpCases

/-- A rational that rounds to a positive float lies in the float's rounding interval. -/
theorem mem_of_roundsTo {m : Nat} {e : Int} {q : ℚ} (hm : 0 < m) (hn : Normalized m e)
    (hq : RoundsTo q (m * 2 ^ e)) : (roundingInterval m e).Mem e q := by
  obtain ⟨E, r, hulp, hne, hw⟩ := hq
  -- the ulp the rational was rounded at, against the float's own
  rcases lt_trichotomy E e with hlt | rfl | hgt
  · exact mem_of_roundsTo_finer_ulp hn hulp hne hw hlt
  · have hr : m = r := by exact_mod_cast mul_right_cancel₀ (zpow_pos two_pos E).ne' hw
    subst hr
    exact mem_of_roundsTo_own_ulp hm hulp hne
  · exact (not_roundsTo_coarser_ulp hn hulp hne hw hgt).elim

/-! ## A grid point for every decimal of the interval -/

/-- A decimal of `d` digits in the rounding interval puts a point of the grid of `d` significant
digits into it. -/
theorem exists_grid_mem {m : Nat} {e : Int} (hm : 0 < m) {c : Nat} {k : Int} (hc : 0 < c)
    (hmem : (roundingInterval m e).Mem e (c * 10 ^ k)) :
    ∃ c' : Nat,
      (roundingInterval m e).Mem e (c' * 10 ^ (decimalExponent m e - digitCount c + 1)) := by
  set E := decimalExponent m e
  set d := digitCount c
  have hd := digitCount_spec hc
  have hd1 : 0 < d := digitCount_pos c
  have hv := value_mem m e hm
  have hlo := pow_decimalExponent_le e hm
  have hhi := lt_pow_decimalExponent e hm
  -- the decimal lies between the powers of ten around its leading digit
  have hcl : (10 : ℚ) ^ (k + d - 1) ≤ c * 10 ^ k := by
    rw [show k + d - 1 = ((d - 1 : Nat) : Int) + k by omega, zpow_add₀ (by norm_num), zpow_natCast]
    gcongr
    exact_mod_cast hd.1
  have hch : (c : ℚ) * 10 ^ k < 10 ^ (k + d) := by
    rw [add_comm, zpow_add₀ (by norm_num), zpow_natCast]
    gcongr
    exact_mod_cast hd.2
  have hpow : ∀ n : Nat, (10 : ℚ) ^ n * 10 ^ (E - d + 1) = 10 ^ ((n : Int) + (E - d + 1)) := by
    intro n
    rw [zpow_add₀ (by norm_num : (10 : ℚ) ≠ 0) (n : Int) (E - d + 1), zpow_natCast]
  rcases lt_trichotomy (k + d - 1) E with hL | hL | hL
  · -- a leading digit below the float's: `10 ^ E` lies between them
    refine ⟨10 ^ (d - 1), ?_⟩
    push_cast
    rw [hpow, show ((d - 1 : Nat) : Int) + (E - d + 1) = E by omega]
    refine hmem.of_le_of_le hv (hch.le.trans ?_) hlo
    exact zpow_le_zpow_right₀ (by norm_num) (by omega)
  · -- the same leading exponent: the decimal is itself a grid point
    exact ⟨c, by rwa [show E - d + 1 = k by omega]⟩
  · -- a leading digit above the float's: `10 ^ (E + 1)` lies between them
    refine ⟨10 ^ d, ?_⟩
    push_cast
    rw [hpow, show (d : Int) + (E - d + 1) = E + 1 by omega]
    refine hv.of_le_of_le hmem hhi.le (le_trans ?_ hcl)
    exact zpow_le_zpow_right₀ (by norm_num) (by omega)

/-! ## The search stops at the fewest digits -/

theorem gridFloor_lt_pow {m : Nat} {e : Int} (hm : 0 < m) (p : Nat) :
    (gridFloor m e (decimalExponent m e - p + 1)).1 < 10 ^ p := by
  have hfloor := (gridFloor_spec m e (decimalExponent m e - p + 1)).1
  have hhi := lt_pow_decimalExponent e hm
  rw [show decimalExponent m e + 1 = (p : Int) + (decimalExponent m e - p + 1) by omega,
    zpow_add₀ (by norm_num), zpow_natCast] at hhi
  have h := lt_of_mul_lt_mul_right (hfloor.trans_lt hhi) (zpow_pos (by norm_num) _).le
  exact_mod_cast h

theorem mem_gridFloor_or {m : Nat} {e : Int} (hm : 0 < m) {k : Int} {c : Nat}
    (hc : (roundingInterval m e).Mem e (c * 10 ^ k)) :
    (roundingInterval m e).Mem e ((gridFloor m e k).1 * 10 ^ k) ∨
      (roundingInterval m e).Mem e (((gridFloor m e k).1 + 1 : Nat) * 10 ^ k) := by
  obtain ⟨hfl, hfh, -⟩ := gridFloor_spec m e k
  have hv := value_mem m e hm
  have h10 : (0 : ℚ) < 10 ^ k := zpow_pos (by norm_num) _
  rcases le_or_gt c (gridFloor m e k).1 with hle | hlt
  · left
    exact hc.of_le_of_le hv (by gcongr) hfl
  · right
    push_cast
    exact hv.of_le_of_le hc hfh.le (by gcongr; exact_mod_cast hlt)

/-- The search returns at most `10 ^ q` for some `q` between one and any `d` whose grid has a
point in the interval. -/
theorem searchGrids_le_pow {m : Nat} {e : Int} (hm : 0 < m) :
    ∀ fuel p : Nat, p + fuel = 17 → 1 ≤ p → ∀ d : Nat, p ≤ d →
      (d < 17 → ∃ c : Nat, (roundingInterval m e).Mem e (c * 10 ^ (decimalExponent m e - d + 1))) →
      ∃ q : Nat, 1 ≤ q ∧ q ≤ d ∧
        (searchGrids m e (roundingInterval m e) (decimalExponent m e) p fuel).1 ≤ 10 ^ q := by
  intro fuel
  induction fuel with
  | zero =>
    -- the last grid: the nearer of the two points around the float
    intro p hp h1 d hd _
    have hc := @gridFloor_lt_pow m e hm p
    refine ⟨p, h1, hd, ?_⟩
    unfold searchGrids
    rcases nearer_eq_or m e (gridFloor m e (decimalExponent m e - p + 1)).1
      (decimalExponent m e - p + 1) with h | h <;> simp only [h] <;> omega
  | succ fuel ih =>
    intro p hp h1 d hd hgrid
    have hc := @gridFloor_lt_pow m e hm p
    unfold searchGrids
    rcases hg : gridFloor m e (decimalExponent m e - p + 1) with ⟨c, exact⟩
    rw [hg] at hc
    simp only [hg]
    split
    · exact ⟨p, h1, hd, by omega⟩
    · split
      · rcases nearer_eq_or m e c (decimalExponent m e - p + 1) with h | h <;> rw [h]
        · exact ⟨p, h1, hd, by omega⟩
        · exact ⟨p, h1, hd, by omega⟩
      · exact ⟨p, h1, hd, by omega⟩
      · exact ⟨p, h1, hd, by omega⟩
      · -- neither point around the float is in the interval, so this grid has none
        rename_i h₁ h₂
        rcases Nat.lt_or_ge p d with hlt | hge
        · exact ih (p + 1) (by omega) (by omega) d hlt hgrid
        · obtain ⟨c', hc'⟩ := hgrid (by omega)
          rw [show d = p by omega] at hc'
          rcases mem_gridFloor_or hm hc' with h | h <;> rw [hg] at h
          · exact absurd ((Interval.contains_iff _ _ _ _).2 h) (by simp [h₁])
          · exact absurd ((Interval.contains_iff _ _ _ _).2 h) (by simp [h₂])

/-! ## Fewest digits -/

theorem stripZeros_fst_le (c : Nat) (k : Int) (fuel : Nat) : (stripZeros c k fuel).1 ≤ c := by
  induction fuel generalizing c k with
  | zero => exact le_rfl
  | succ fuel ih =>
    unfold stripZeros
    split
    · exact (ih _ _).trans (Nat.div_le_self c 10)
    · exact le_rfl

theorem digitCount_stripZeros_le {c p : Nat} (k : Int) (hp : 1 ≤ p) (hc : c ≤ 10 ^ p) :
    digitCount (stripZeros c k (digitCount c)).1 ≤ p := by
  apply digitCount_le_of_lt hp
  rcases hc.lt_or_eq with hlt | rfl
  · exact (stripZeros_fst_le c k _).trans_lt hlt
  · obtain ⟨n, hn⟩ := Nat.exists_eq_add_of_lt (digitCount_pos (10 ^ p))
    have hzero : 10 ^ p ≠ 0 ∧ 10 ^ p % 10 = 0 :=
      ⟨by positivity, Nat.mod_eq_zero_of_dvd (dvd_pow_self 10 (by omega))⟩
    rw [hn, zero_add, stripZeros, if_pos hzero]
    calc (stripZeros (10 ^ p / 10) (k + 1) n).1 ≤ 10 ^ p / 10 := stripZeros_fst_le _ _ _
      _ < 10 ^ p := Nat.div_lt_self (by positivity) (by norm_num)

/-- No decimal that rounds to a positive float has fewer digits than the float's shortest
digits. -/
theorem digitCount_shortest_le {m : Nat} {e : Int} (hm : 0 < m) (hn : Normalized m e) {c : Nat}
    {k : Int} (hc : 0 < c) (h : RoundsTo (c * 10 ^ k) (m * 2 ^ e)) :
    digitCount (shortest m e).1 ≤ digitCount c := by
  have hmem := mem_of_roundsTo hm hn h
  obtain ⟨q, hq1, hqd, hle⟩ := searchGrids_le_pow hm 16 1 rfl le_rfl (digitCount c)
    (digitCount_pos c) (fun _ => exists_grid_mem hm hc hmem)
  unfold shortest
  rcases hs : searchGrids m e (roundingInterval m e) (decimalExponent m e) 1 16 with ⟨c', k'⟩
  rw [hs] at hle
  exact (digitCount_stripZeros_le k' hq1 hle).trans hqd

end Backtest.Decimal
