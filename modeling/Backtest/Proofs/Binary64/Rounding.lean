import Backtest.Proofs.Binary64.Encoding

/-!
# Rounding to nearest, ties to even

`roundWithAccuracy` shifts a significand right to its target exponent keeping a round and a
sticky bit, rounds to nearest with ties to even, and shifts once more on a carry into a 54th bit.
It rounds `(m + f) * 2 ^ e` to the nearest multiple of `2 ^ E`, the even one at a tie, where `E` is
the exponent of the last of 53 bits or `-1074` (`RoundsTo`, `roundWithAccuracy_rounds`); `round`
and `normalize` do the same for exact inputs.
-/

namespace Float.Model.UnpackedFloat

theorem targetExponent_binary64 (t : Int) :
    Format.binary64.targetExponent t = max (t - 53) (-1074) := by
  simp [Format.targetExponent, Format.mantissaBits, Format.minExponent]

/-! ## The bits dropped by a shift -/

/-- What an accuracy says of the fraction `f` of an ulp that lies beyond the significand. -/
def Accuracy.Describes : Accuracy → ℚ → Prop
  | .exact, f => f = 0
  | .inexact .lt, f => 0 < f ∧ f < 1 / 2
  | .inexact .eq, f => f = 1 / 2
  | .inexact .gt, f => 1 / 2 < f ∧ f < 1

/-- An extended significand standing for `x`: the significand is the whole part of `x`; the round
bit says whether the fraction reaches a half, the sticky bit whether it is neither zero nor a
half. -/
def ExtendedMantissa.Approximates : ExtendedMantissa → ℚ → Prop
  | ⟨m, false, false⟩, x => x = m
  | ⟨m, false, true⟩, x => m < x ∧ x < m + 1 / 2
  | ⟨m, true, false⟩, x => x = m + 1 / 2
  | ⟨m, true, true⟩, x => m + 1 / 2 < x ∧ x < m + 1

theorem approximates_ofMantissaAndAccuracy {acc : Accuracy} {f : ℚ} (m : Nat)
    (h : acc.Describes f) : (ExtendedMantissa.ofMantissaAndAccuracy m acc).Approximates (m + f) := by
  rcases acc with _ | ⟨_ | _ | _⟩ <;>
    simp only [Accuracy.Describes, ExtendedMantissa.ofMantissaAndAccuracy,
      ExtendedMantissa.Approximates] at h ⊢
  · rw [h, add_zero]
  · constructor <;> linarith [h.1, h.2]
  · rw [h]
  · constructor <;> linarith [h.1, h.2]

theorem ExtendedMantissa.Approximates.shiftRightOne {em : ExtendedMantissa} {x : ℚ}
    (h : em.Approximates x) : em.shiftRightOne.Approximates (x / 2) := by
  rcases em with ⟨m, r, s⟩
  -- the whole part halves, the bit shifted out becomes the round bit
  have hsplit : ((m % 2 : Nat) : ℚ) + 2 * ((m / 2 : Nat) : ℚ) = m := by
    exact_mod_cast Nat.mod_add_div m 2
  have hbit : m % 2 = 0 ∨ m % 2 = 1 := Nat.mod_two_eq_zero_or_one m
  rcases hbit with hbit | hbit <;> rw [hbit] at hsplit <;> push_cast at hsplit <;>
    cases r <;> cases s <;>
    simp only [ExtendedMantissa.shiftRightOne, ExtendedMantissa.Approximates, hbit,
      Nat.reduceBNe, Bool.or_false, Bool.or_true] at h ⊢
  all_goals (try obtain ⟨h₁, h₂⟩ := h)
  all_goals first
    | (constructor <;> linarith)
    | linarith

theorem ExtendedMantissa.Approximates.shiftRight {em : ExtendedMantissa} {x : ℚ}
    (h : em.Approximates x) (k : Nat) : (em >>> k).Approximates (x / 2 ^ k) := by
  induction k with
  | zero =>
    show em.Approximates (x / 2 ^ 0)
    simpa using h
  | succ k ih =>
    have hstep := ih.shiftRightOne
    rwa [pow_succ, ← div_div]

/-! ## Rounding a whole part -/

/-- `r` is an integer nearest to `x`, the even one at a tie. -/
structure NearestEven (x : ℚ) (r : Nat) : Prop where
  dist_le : |x - r| ≤ 1 / 2
  even_of_tie : |x - r| = 1 / 2 → r % 2 = 0

theorem NearestEven.le_add_half {x : ℚ} {r : Nat} (h : NearestEven x r) : (r : ℚ) ≤ x + 1 / 2 := by
  have := (abs_le.1 h.dist_le).1
  linarith

theorem NearestEven.sub_half_le {x : ℚ} {r : Nat} (h : NearestEven x r) : x - 1 / 2 ≤ r := by
  have := (abs_le.1 h.dist_le).2
  linarith

theorem NearestEven.le_of_le {x : ℚ} {r n : Nat} (h : NearestEven x r) (hx : x ≤ n) : r ≤ n := by
  have hr := h.le_add_half
  have : (r : ℚ) < n + 1 := by linarith
  exact_mod_cast Nat.lt_succ_iff.1 (by exact_mod_cast this)

theorem NearestEven.le_of_lt {x : ℚ} {r n : Nat} (h : NearestEven x r) (hx : x < n) : r ≤ n :=
  h.le_of_le hx.le

theorem NearestEven.le_of_le' {x : ℚ} {r n : Nat} (h : NearestEven x r) (hx : (n : ℚ) ≤ x) :
    n ≤ r := by
  have hr := h.sub_half_le
  have : (n : ℚ) < r + 1 := by linarith
  exact_mod_cast Nat.lt_succ_iff.1 (by exact_mod_cast this)

theorem ExtendedMantissa.Approximates.nearestEven {em : ExtendedMantissa} {x : ℚ}
    (h : em.Approximates x) : NearestEven x em.roundedMantissa := by
  rcases em with ⟨m, r, s⟩
  cases r <;> cases s <;>
    simp only [ExtendedMantissa.Approximates, ExtendedMantissa.roundedMantissa,
      ExtendedMantissa.accuracy, Accuracy.roundToNearestEven] at h ⊢
  · -- exact
    exact ⟨by simp [h], fun htie => by simp [h] at htie⟩
  · -- below the half
    have hlt : |x - m| < 1 / 2 := abs_lt.2 ⟨by linarith [h.1], by linarith [h.2]⟩
    exact ⟨hlt.le, fun htie => absurd htie (ne_of_lt hlt)⟩
  · -- a tie goes to the even neighbour
    have hbit : m % 2 = 0 ∨ m % 2 = 1 := Nat.mod_two_eq_zero_or_one m
    rcases hbit with hbit | hbit
    · have hdist : |x - ((m + m % 2 : Nat) : ℚ)| = 1 / 2 := by
        rw [hbit, Nat.add_zero, h]
        norm_num
      exact ⟨hdist.le, fun _ => by omega⟩
    · have hdist : |x - ((m + m % 2 : Nat) : ℚ)| = 1 / 2 := by
        rw [hbit, h]
        push_cast
        norm_num [abs_of_neg]
      exact ⟨hdist.le, fun _ => by omega⟩
  · -- above the half
    have hlt : |x - ((m + 1 : Nat) : ℚ)| < 1 / 2 := by
      push_cast
      exact abs_lt.2 ⟨by linarith [h.1], by linarith [h.2]⟩
    exact ⟨hlt.le, fun htie => absurd htie (ne_of_lt hlt)⟩

/-- There is one nearest integer with ties to even. -/
theorem NearestEven.unique {x : ℚ} {r r' : Nat} (h : NearestEven x r) (h' : NearestEven x r') :
    r = r' := by
  have h₁ := abs_le.1 h.dist_le
  have h₂ := abs_le.1 h'.dist_le
  have hle : (r : ℚ) ≤ r' + 1 := by linarith [h₁.1, h₂.2]
  have hge : (r' : ℚ) ≤ r + 1 := by linarith [h₁.2, h₂.1]
  have hle' : r ≤ r' + 1 := by exact_mod_cast hle
  have hge' : r' ≤ r + 1 := by exact_mod_cast hge
  rcases Nat.lt_trichotomy r r' with hlt | heq | hgt
  · -- neighbours one apart are both at distance a half, and one of them is odd
    have hr' : r' = r + 1 := by omega
    have hx : x = r + 1 / 2 := by
      subst hr'
      push_cast at h₁ h₂
      linarith [h₁.1, h₂.2]
    have he := h.even_of_tie (by rw [hx]; norm_num)
    have he' := h'.even_of_tie (by rw [hx, hr']; push_cast; norm_num [abs_of_neg])
    omega
  · exact heq
  · have hr : r = r' + 1 := by omega
    have hx : x = r' + 1 / 2 := by
      subst hr
      push_cast at h₁ h₂
      linarith [h₁.2, h₂.1]
    have he' := h'.even_of_tie (by rw [hx]; norm_num)
    have he := h.even_of_tie (by rw [hx, hr]; push_cast; norm_num [abs_of_neg])
    omega

/-! ## Rounding a value -/

/-- The exponent of the last significand bit binary64 keeps for a value: the last of 53 bits, or
`-1074` for a value too small for 53. -/
structure UlpExponent (v : ℚ) (E : Int) : Prop where
  min_le : -1074 ≤ E
  lt : v < 2 ^ 53 * 2 ^ E
  normal : E = -1074 ∨ 2 ^ 52 * 2 ^ E ≤ v

/-- `w` is the binary64 rounding of `v ≥ 0`: the nearest multiple of its ulp, ties to even. -/
def RoundsTo (v w : ℚ) : Prop :=
  ∃ E r, UlpExponent v E ∧ NearestEven (v / 2 ^ E) r ∧ w = r * 2 ^ E

/-- A rounded form of sign `s` and magnitude `w`: the zero of sign `s` when `w = 0`. -/
def HasMagnitude (s : Sign) (w : ℚ) : UnpackedFloat → Prop
  | .zero s' => s' = s ∧ w = 0
  | .finite s' m e _ => s' = s ∧ Normalized m e ∧ w = m * 2 ^ e
  | _ => False

theorem log2_shiftLeft {m : Nat} (hm : 0 < m) (j : Nat) : (m <<< j).log2 = m.log2 + j := by
  have hlo := Nat.log2_self_le hm.ne'
  have hhi := @Nat.lt_log2_self m
  rw [Nat.shiftLeft_eq]
  apply (Nat.log2_eq_iff (by positivity)).2
  constructor
  · rw [pow_add]
    exact Nat.mul_le_mul_right _ hlo
  · rw [show m.log2 + j + 1 = m.log2 + 1 + j by omega, pow_add]
    exact Nat.mul_lt_mul_of_pos_right hhi (by positivity)

theorem ulpExponent_target {m : Nat} {e : Int} {f : ℚ} (hm : 0 < m) (hf₀ : 0 ≤ f) (hf₁ : f < 1) :
    UlpExponent ((m + f) * 2 ^ e) (Format.binary64.targetExponent (totalExponent m e)) := by
  have hlo : (2 : ℚ) ^ m.log2 ≤ m := by exact_mod_cast Nat.log2_self_le hm.ne'
  have hhi : (m : ℚ) + 1 ≤ 2 ^ (m.log2 + 1) := by exact_mod_cast Nat.lt_log2_self
  have hpos : (0 : ℚ) < 2 ^ e := zpow_pos (by norm_num) _
  rw [targetExponent_binary64, totalExponent]
  refine ⟨le_max_right _ _, ?_, ?_⟩
  · -- the value has at most `log2 m + 1` bits above `2 ^ e`
    have hE : (m.log2 : Int) + 1 + e ≤ 53 + max ((m.log2 : Int) + 1 + e - 53) (-1074) := by omega
    calc (m + f) * 2 ^ e < (m + 1) * 2 ^ e := by gcongr
      _ ≤ 2 ^ (m.log2 + 1) * 2 ^ e := by gcongr
      _ = 2 ^ ((m.log2 : Int) + 1 + e) := by
        rw [← zpow_natCast, ← zpow_add₀ (by norm_num)]
        push_cast
        ring_nf
      _ ≤ 2 ^ (53 + max ((m.log2 : Int) + 1 + e - 53) (-1074)) :=
        zpow_le_zpow_right₀ (by norm_num) hE
      _ = 2 ^ 53 * 2 ^ max ((m.log2 : Int) + 1 + e - 53) (-1074) := by
        rw [zpow_add₀ (by norm_num)]
        norm_num
  · -- above the least exponent the value has its full 53 bits
    by_cases hmin : max ((m.log2 : Int) + 1 + e - 53) (-1074) = -1074
    · exact Or.inl hmin
    · right
      have hE : max ((m.log2 : Int) + 1 + e - 53) (-1074) = m.log2 + e - 52 := by omega
      rw [hE]
      calc (2 : ℚ) ^ 52 * 2 ^ ((m.log2 : Int) + e - 52) = 2 ^ m.log2 * 2 ^ e := by
            rw [← zpow_natCast, ← zpow_natCast, ← zpow_add₀ (by norm_num),
              ← zpow_add₀ (by norm_num)]
            ring_nf
        _ ≤ m * 2 ^ e := by gcongr
        _ ≤ (m + f) * 2 ^ e := by gcongr; linarith

theorem shiftToTargetExponent_rounded {r : Nat} {E : Int} (hr : r < 2 ^ 53) (hE : -1074 ≤ E) :
    shiftToTargetExponent Format.binary64 r E .exact = (⟨r, false, false⟩, E) := by
  have hlog : r.log2 < 53 := by
    rcases Nat.eq_zero_or_pos r with rfl | hpos
    · simp
    · exact (Nat.log2_lt hpos.ne').2 hr
  have hshift : (Format.binary64.targetExponent (totalExponent r E) - E).toNat = 0 := by
    rw [targetExponent_binary64, totalExponent]
    omega
  simp only [shiftToTargetExponent, shiftToExponent, hshift, Nat.cast_zero, Int.add_zero]
  rfl

theorem shiftToTargetExponent_carry {E : Int} (hE : -1074 ≤ E) :
    shiftToTargetExponent Format.binary64 (2 ^ 53) E .exact = (⟨2 ^ 52, false, false⟩, E + 1) := by
  have hshift : (Format.binary64.targetExponent (totalExponent (2 ^ 53) E) - E).toNat = 1 := by
    rw [targetExponent_binary64, totalExponent, Nat.log2_two_pow]
    omega
  simp only [shiftToTargetExponent, shiftToExponent, hshift]
  rw [show (E + ((1 : Nat) : Int)) = E + 1 by norm_num]
  rfl

theorem Accuracy.Describes.bounds {acc : Accuracy} {f : ℚ} (hf : acc.Describes f) :
    0 ≤ f ∧ f < 1 := by
  rcases acc with _ | ⟨_ | _ | _⟩ <;> simp only [Accuracy.Describes] at hf
  · exact ⟨hf.ge, by rw [hf]; norm_num⟩
  · exact ⟨hf.1.le, by linarith [hf.2]⟩
  · exact ⟨by rw [hf]; norm_num, by rw [hf]; norm_num⟩
  · exact ⟨by linarith [hf.1], hf.2⟩

theorem roundWithAccuracy_rounds_of_ulp (s : Sign) {m : Nat} {e : Int} {acc : Accuracy} {f : ℚ}
    (hf : acc.Describes f)
    (hulp : UlpExponent ((m + f) * 2 ^ e) (Format.binary64.targetExponent (totalExponent m e)))
    (he : e ≤ Format.binary64.targetExponent (totalExponent m e)) :
    ∃ w, RoundsTo ((m + f) * 2 ^ e) w ∧ HasMagnitude s w (roundWithAccuracy Format.binary64 s m e acc) := by
  set E := Format.binary64.targetExponent (totalExponent m e) with hEdef
  -- the first shift brings the significand to the target exponent
  have hk : e + ((E - e).toNat : Int) = E := by omega
  have happrox : ((ExtendedMantissa.ofMantissaAndAccuracy m acc) >>> (E - e).toNat).Approximates
      ((m + f) * 2 ^ e / 2 ^ E) := by
    have h := (approximates_ofMantissaAndAccuracy m hf).shiftRight (E - e).toNat
    have hpow : (2 : ℚ) ^ E = 2 ^ e * 2 ^ (E - e).toNat := by
      rw [← zpow_natCast, ← zpow_add₀ (by norm_num), hk]
    rwa [hpow, ← div_div, mul_div_cancel_right₀ _ (zpow_ne_zero _ (by norm_num))]
  set r := ((ExtendedMantissa.ofMantissaAndAccuracy m acc) >>> (E - e).toNat).roundedMantissa
    with hrdef
  have hnear : NearestEven ((m + f) * 2 ^ e / 2 ^ E) r := happrox.nearestEven
  have hpowE : (0 : ℚ) < 2 ^ E := zpow_pos (by norm_num) _
  have hscaled : (m + f) * 2 ^ e / 2 ^ E < 2 ^ 53 := by
    rw [div_lt_iff₀ hpowE]
    exact hulp.lt
  have hr : r ≤ 2 ^ 53 := hnear.le_of_lt (by exact_mod_cast hscaled)
  have hfirst : shiftToTargetExponent Format.binary64 m e acc =
      ((ExtendedMantissa.ofMantissaAndAccuracy m acc) >>> (E - e).toNat, E) := by
    simp only [shiftToTargetExponent, shiftToExponent, ← hEdef, hk]
  unfold roundWithAccuracy
  rw [hfirst]
  dsimp only
  rw [← hrdef]
  rcases Nat.lt_or_eq_of_le hr with hlt | heq
  · -- no carry: the rounded whole part is the significand at the target exponent
    refine ⟨r * 2 ^ E, ⟨E, r, hulp, hnear, rfl⟩, ?_⟩
    rw [shiftToTargetExponent_rounded hlt hulp.min_le]
    dsimp only
    split
    · rename_i hzero
      exact ⟨rfl, by simp [hzero]⟩
    · rename_i hzero
      refine ⟨rfl, ⟨hlt, hulp.min_le, ?_⟩, rfl⟩
      rcases hulp.normal with hmin | hnorm
      · exact Or.inr hmin
      · left
        apply hnear.le_of_le'
        rw [le_div_iff₀ hpowE]
        exact_mod_cast hnorm
  · -- a carry into the 54th bit: halve the significand, raise the exponent
    refine ⟨r * 2 ^ E, ⟨E, r, hulp, hnear, rfl⟩, ?_⟩
    rw [heq, shiftToTargetExponent_carry hulp.min_le]
    dsimp only
    rw [dif_neg (by norm_num)]
    refine ⟨rfl, ⟨by norm_num, by have := hulp.min_le; omega, Or.inl le_rfl⟩, ?_⟩
    rw [zpow_add_one₀ (by norm_num)]
    push_cast
    ring

/-- `roundWithAccuracy` rounds `(m + f) * 2 ^ e` to nearest, ties to even, when `e` is at most the
target exponent (the significand holds at least the bits kept). -/
theorem roundWithAccuracy_rounds (s : Sign) {m : Nat} {e : Int} {acc : Accuracy} {f : ℚ}
    (hm : 0 < m) (hf : acc.Describes f)
    (he : e ≤ Format.binary64.targetExponent (totalExponent m e)) :
    ∃ w, RoundsTo ((m + f) * 2 ^ e) w ∧ HasMagnitude s w (roundWithAccuracy Format.binary64 s m e acc) :=
  roundWithAccuracy_rounds_of_ulp s hf (ulpExponent_target hm hf.bounds.1 hf.bounds.2) he

/-- `round` rounds `m * 2 ^ e` to nearest, ties to even. -/
theorem round_rounds (s : Sign) {m : Nat} (e : Int) (hm : 0 < m) :
    ∃ w, RoundsTo (m * 2 ^ e) w ∧ HasMagnitude s w (round Format.binary64 s m e) := by
  set T := Format.binary64.targetExponent (totalExponent m e)
  set j := (e - T).toNat
  -- lowering the exponent to the target keeps the value and the target
  have hm' : 0 < m <<< j := by rw [Nat.shiftLeft_eq]; positivity
  have hvalue : ((m <<< j : Nat) : ℚ) * 2 ^ (e - j) = m * 2 ^ e := by
    rw [Nat.shiftLeft_eq, zpow_sub₀ (by norm_num), zpow_natCast]
    push_cast
    field_simp
  have htotal : totalExponent (m <<< j) (e - j) = totalExponent m e := by
    simp only [totalExponent, log2_shiftLeft hm]
    push_cast
    ring
  have hle : e - j ≤ Format.binary64.targetExponent (totalExponent (m <<< j) (e - j)) := by
    rw [htotal]
    omega
  obtain ⟨w, hw, hmag⟩ := @roundWithAccuracy_rounds s _ _ .exact 0 hm' rfl hle
  refine ⟨w, ?_, hmag⟩
  rwa [add_zero, hvalue] at hw

/-- The value a signed magnitude stands for. -/
def signed (s : Sign) (w : ℚ) : ℚ :=
  match s with
  | .positive => w
  | .negative => -w

theorem HasMagnitude.value_eq {s : Sign} {w : ℚ} {u : UnpackedFloat} (h : HasMagnitude s w u) :
    u.value = signed s w := by
  cases u with
  | zero s' =>
    obtain ⟨rfl, rfl⟩ := h
    cases s' <;> simp [signed]
  | finite s' m e hm =>
    obtain ⟨rfl, -, rfl⟩ := h
    cases s' <;> simp [signed]
  | _ => cases h

theorem HasMagnitude.rounded {s : Sign} {w : ℚ} {u : UnpackedFloat} (h : HasMagnitude s w u) :
    Rounded u := by
  cases u with
  | finite s' m e hm => exact h.2.1
  | zero _ => trivial
  | _ => cases h

/-- `normalize` rounds a signed significand times `2 ^ e` to nearest, ties to even; a zero
significand gives the zero of the sign asked for. -/
theorem normalize_rounds (n : Int) (e : Int) (zs : Sign) :
    (n = 0 ∧ normalize Format.binary64 n e zs = .zero zs) ∨
    (0 < n ∧ ∃ w, RoundsTo (n * 2 ^ e) w ∧ HasMagnitude .positive w (normalize Format.binary64 n e zs)) ∨
    (n < 0 ∧ ∃ w, RoundsTo (-n * 2 ^ e) w ∧ HasMagnitude .negative w (normalize Format.binary64 n e zs)) := by
  rcases lt_trichotomy n 0 with hn | rfl | hn
  · right; right
    refine ⟨hn, ?_⟩
    obtain ⟨w, hw, hmag⟩ := round_rounds .negative e (show 0 < (-n).toNat by omega)
    have hcast : (((-n).toNat : Nat) : ℚ) = -n := by
      have : (((-n).toNat : Nat) : Int) = -n := by omega
      exact_mod_cast this
    refine ⟨w, by rwa [hcast] at hw, ?_⟩
    unfold normalize
    rw [Int.compare_eq_lt.2 hn]
    exact hmag
  · left
    exact ⟨rfl, rfl⟩
  · right; left
    refine ⟨hn, ?_⟩
    obtain ⟨w, hw, hmag⟩ := round_rounds .positive e (show 0 < n.toNat by omega)
    have hcast : ((n.toNat : Nat) : ℚ) = n := by
      have : ((n.toNat : Nat) : Int) = n := by omega
      exact_mod_cast this
    refine ⟨w, by rwa [hcast] at hw, ?_⟩
    unfold normalize
    rw [Int.compare_eq_gt.2 hn]
    exact hmag

/-! ## What rounding keeps -/

/-- Rounding never passes a binary64 value that bounds the exact value. -/
theorem RoundsTo.le_of_le {v w : ℚ} {m : Nat} {e : Int} (h : RoundsTo v w) (hn : Normalized m e)
    (hv : v ≤ m * 2 ^ e) : w ≤ m * 2 ^ e := by
  obtain ⟨E, r, hulp, hnear, rfl⟩ := h
  have hpowE : (0 : ℚ) < 2 ^ E := zpow_pos (by norm_num) _
  -- the bound's exponent is at least the value's ulp exponent
  have hE : E ≤ e := by
    refine Int.not_lt.1 fun hlt => ?_
    have hnorm := hulp.normal.resolve_left (by have := hn.min_le; omega)
    have hm : (m : ℚ) < 2 ^ 53 := by exact_mod_cast hn.lt_two_pow
    have hpow : (2 : ℚ) ^ (e + 1) ≤ 2 ^ E := zpow_le_zpow_right₀ (by norm_num) (by omega)
    have : (m : ℚ) * 2 ^ e < 2 ^ 52 * 2 ^ E :=
      calc (m : ℚ) * 2 ^ e < 2 ^ 53 * 2 ^ e := by gcongr
        _ = 2 ^ 52 * 2 ^ (e + 1) := by rw [zpow_add_one₀ (by norm_num)]; ring
        _ ≤ 2 ^ 52 * 2 ^ E := by gcongr
    linarith
  -- so the bound is a whole number of ulps, and the nearest whole number does not pass it
  have hwhole : (m : ℚ) * 2 ^ e / 2 ^ E = ((m * 2 ^ (e - E).toNat : Nat) : ℚ) := by
    have hpow : (2 : ℚ) ^ e = 2 ^ E * 2 ^ (e - E).toNat := by
      rw [← zpow_natCast, ← zpow_add₀ (by norm_num)]
      congr 1
      omega
    rw [hpow]
    push_cast
    field_simp
  have hr : r ≤ m * 2 ^ (e - E).toNat := by
    apply hnear.le_of_le
    rw [← hwhole]
    exact div_le_div_of_nonneg_right hv hpowE.le
  calc (r : ℚ) * 2 ^ E ≤ ((m * 2 ^ (e - E).toNat : Nat) : ℚ) * 2 ^ E := by gcongr
    _ = m * 2 ^ e := by rw [← hwhole]; field_simp

end Float.Model.UnpackedFloat
