import Backtest.Proofs.Binary64.Rounding

/-!
# Sums, differences and products of unpacked floats

On finite operands `add`, `sub` and `mul` compute the exact result and round it once
(`RoundedValue`): a zero result gets the zero of a fixed sign, any other is rounded to nearest,
ties to even, with its sign (`add_finite_rounded`, `sub_finite_rounded`, `mul_finite_rounds`).
Packing the result of any of them only adds overflow (`add_rounded`, `sub_rounded`, `mul_rounded`).
-/

namespace Float.Model.UnpackedFloat

/-- `u` is the binary64 rounding of `v`, or the zero of sign `zs` when `v` is zero. -/
def RoundedValue (v : ℚ) (zs : Sign) (u : UnpackedFloat) : Prop :=
  (v = 0 ∧ u = .zero zs) ∨
  (0 < v ∧ ∃ w, RoundsTo v w ∧ HasMagnitude .positive w u) ∨
  (v < 0 ∧ ∃ w, RoundsTo (-v) w ∧ HasMagnitude .negative w u)

theorem RoundedValue.rounded {v : ℚ} {zs : Sign} {u : UnpackedFloat} (h : RoundedValue v zs u) :
    Rounded u := by
  rcases h with ⟨-, rfl⟩ | ⟨-, w, -, hmag⟩ | ⟨-, w, -, hmag⟩
  · trivial
  · exact hmag.rounded
  · exact hmag.rounded

theorem normalize_rounded (n e : Int) (zs : Sign) :
    RoundedValue (n * 2 ^ e) zs (normalize Format.binary64 n e zs) := by
  have hpos : (0 : ℚ) < 2 ^ e := zpow_pos (by norm_num) _
  rcases normalize_rounds n e zs with ⟨rfl, h⟩ | ⟨hn, w, hw, hmag⟩ | ⟨hn, w, hw, hmag⟩
  · exact Or.inl ⟨by simp, h⟩
  · have hn' : (0 : ℚ) < n := by exact_mod_cast hn
    exact Or.inr (Or.inl ⟨by positivity, w, hw, hmag⟩)
  · have hn' : (n : ℚ) < 0 := by exact_mod_cast hn
    refine Or.inr (Or.inr ⟨mul_neg_of_neg_of_pos hn' hpos, w, by rwa [← neg_mul], hmag⟩)

theorem apply_shiftLeft_mul_pow (s : Sign) (m : Nat) {e t : Int} (h : t ≤ e) :
    ((s.apply ((m <<< (e - t).toNat : Nat) : Int) : Int) : ℚ) * 2 ^ t = (s.apply m : ℚ) * 2 ^ e := by
  have hpow : (2 : ℚ) ^ e = 2 ^ (e - t).toNat * 2 ^ t := by
    rw [← zpow_natCast, ← zpow_add₀ (by norm_num)]
    congr 1
    omega
  rw [hpow, Nat.shiftLeft_eq]
  cases s <;> simp [Sign.apply] <;> ring

theorem add_finite_rounded (s₁ : Sign) {m₁ : Nat} (e₁ : Int) (h₁ : 0 < m₁) (s₂ : Sign) {m₂ : Nat}
    (e₂ : Int) (h₂ : 0 < m₂) :
    RoundedValue ((finite s₁ m₁ e₁ h₁).value + (finite s₂ m₂ e₂ h₂).value) .positive
      (add Format.binary64 (finite s₁ m₁ e₁ h₁) (finite s₂ m₂ e₂ h₂)) := by
  have hv := normalize_rounded
    (s₁.apply ((m₁ <<< (e₁ - min e₁ e₂).toNat : Nat) : Int) +
      s₂.apply ((m₂ <<< (e₂ - min e₁ e₂).toNat : Nat) : Int)) (min e₁ e₂) .positive
  rwa [Int.cast_add, add_mul, apply_shiftLeft_mul_pow s₁ m₁ (min_le_left e₁ e₂),
    apply_shiftLeft_mul_pow s₂ m₂ (min_le_right e₁ e₂)] at hv

theorem sub_finite_rounded (s₁ : Sign) {m₁ : Nat} (e₁ : Int) (h₁ : 0 < m₁) (s₂ : Sign) {m₂ : Nat}
    (e₂ : Int) (h₂ : 0 < m₂) :
    RoundedValue ((finite s₁ m₁ e₁ h₁).value - (finite s₂ m₂ e₂ h₂).value) .positive
      (sub Format.binary64 (finite s₁ m₁ e₁ h₁) (finite s₂ m₂ e₂ h₂)) := by
  have hv := normalize_rounded
    (s₁.apply ((m₁ <<< (e₁ - min e₁ e₂).toNat : Nat) : Int) -
      s₂.apply ((m₂ <<< (e₂ - min e₁ e₂).toNat : Nat) : Int)) (min e₁ e₂) .positive
  rwa [Int.cast_sub, sub_mul, apply_shiftLeft_mul_pow s₁ m₁ (min_le_left e₁ e₂),
    apply_shiftLeft_mul_pow s₂ m₂ (min_le_right e₁ e₂)] at hv

theorem mul_finite_rounds_of_le (s₁ s₂ : Sign) {m₁ m₂ : Nat} {e₁ e₂ : Int} (h₁ : 0 < m₁)
    (h₂ : 0 < m₂) (he : e₁ + e₂ ≤ Format.binary64.targetExponent (totalExponent (m₁ * m₂) (e₁ + e₂))) :
    ∃ w, RoundsTo (m₁ * 2 ^ e₁ * (m₂ * 2 ^ e₂)) w ∧
      HasMagnitude (s₁ * s₂) w (mul Format.binary64 (finite s₁ m₁ e₁ h₁) (finite s₂ m₂ e₂ h₂)) := by
  obtain ⟨w, hw, hmag⟩ :=
    @roundWithAccuracy_rounds (s₁ * s₂) _ _ .exact 0 (Nat.mul_pos h₁ h₂) rfl he
  refine ⟨w, ?_, hmag⟩
  rwa [add_zero, Nat.cast_mul, zpow_add₀ (by norm_num), mul_mul_mul_comm] at hw

/-- Multiplying finite normalized forms rounds the exact product of the magnitudes, with the
product of the signs. -/
theorem mul_finite_rounds (s₁ s₂ : Sign) {m₁ m₂ : Nat} {e₁ e₂ : Int} (h₁ : 0 < m₁) (h₂ : 0 < m₂)
    (c₁ : Normalized m₁ e₁) (c₂ : Normalized m₂ e₂) :
    ∃ w, RoundsTo (m₁ * 2 ^ e₁ * (m₂ * 2 ^ e₂)) w ∧
      HasMagnitude (s₁ * s₂) w (mul Format.binary64 (finite s₁ m₁ e₁ h₁) (finite s₂ m₂ e₂ h₂)) := by
  have hm : 0 < m₁ * m₂ := Nat.mul_pos h₁ h₂
  apply mul_finite_rounds_of_le s₁ s₂ h₁ h₂
  -- the product has at least the 53 bits kept, unless both factors are at the least exponent
  rw [targetExponent_binary64, totalExponent]
  by_cases hnormal : 2 ^ 52 ≤ m₁ * m₂
  · have := (Nat.le_log2 hm.ne').2 hnormal
    omega
  · have hsub₁ : e₁ = -1074 := c₁.normal.resolve_left fun h =>
      hnormal (le_trans h (Nat.le_mul_of_pos_right m₁ h₂))
    have hsub₂ : e₂ = -1074 := c₂.normal.resolve_left fun h =>
      hnormal (le_trans h (Nat.le_mul_of_pos_left m₂ h₁))
    omega

theorem ofScientific_rounds_of_nonneg {n : Nat} (e : Nat) (hn : 0 < n) (he : e ≤ 2 ^ 11) :
    ∃ w, RoundsTo (n * 10 ^ e) w ∧
      HasMagnitude .positive w (ofScientific Format.binary64 n e) := by
  have hshift : 0 < n <<< 53 := by rw [Nat.shiftLeft_eq]; positivity
  have hpow : 0 < 10 ^ e := by positivity
  -- the scaled product has more than 53 bits, so its exponent `-53` is below its target
  have hlog : 53 ≤ (n <<< 53 * 10 ^ e).log2 := by
    apply (Nat.le_log2 (Nat.mul_pos hshift hpow).ne').2
    rw [Nat.shiftLeft_eq]
    calc 2 ^ 53 ≤ n * 2 ^ 53 := Nat.le_mul_of_pos_left _ hn
      _ ≤ n * 2 ^ 53 * 10 ^ e := Nat.le_mul_of_pos_right _ hpow
  have hle : (-53 : Int) + (0 : Int) ≤
      Format.binary64.targetExponent (totalExponent (n <<< 53 * 10 ^ e) ((-53 : Int) + (0 : Int))) := by
    rw [targetExponent_binary64, totalExponent]
    omega
  obtain ⟨w, hw, hmag⟩ := mul_finite_rounds_of_le .positive .positive hshift hpow hle
  refine ⟨w, ?_, ?_⟩
  · have hvalue : ((n <<< 53 : Nat) : ℚ) * 2 ^ (-53 : Int) * (((10 ^ e : Nat) : ℚ) * 2 ^ (0 : Int)) =
        n * 10 ^ e := by
      rw [Nat.shiftLeft_eq, zpow_neg, zpow_zero]
      push_cast
      field_simp
    rwa [hvalue] at hw
  · have hbits : Format.binary64.exponentBits = 11 := rfl
    unfold ofScientific
    rw [dif_neg hn.ne', hbits, if_neg (by norm_num; omega), if_neg (by omega), if_pos (by omega)]
    simpa only [mantissaBits_binary64, Int.toNat_natCast, Nat.cast_ofNat,
      show Sign.positive * Sign.positive = Sign.positive from rfl] using hmag

/-! ## Rounded forms from canonical operands -/

theorem add_rounded {a b : UnpackedFloat} (ha : Canonical a) (hb : Canonical b) :
    Rounded (add Format.binary64 a b) := by
  cases a with
  | finite s₁ m₁ e₁ h₁ =>
    cases b with
    | finite s₂ m₂ e₂ h₂ => exact (add_finite_rounded s₁ e₁ h₁ s₂ e₂ h₂).rounded
    | zero _ => exact ha.rounded
    | _ => trivial
  | zero s₁ =>
    cases b with
    | finite _ _ _ _ => exact hb.rounded
    | zero _ =>
      simp only [add]
      split <;> trivial
    | _ => trivial
  | infinity s₁ =>
    cases b <;> simp only [add] <;> (try split) <;> trivial
  | notANumber => trivial

theorem sub_rounded {a b : UnpackedFloat} (ha : Canonical a) (hb : Canonical b) :
    Rounded (sub Format.binary64 a b) := by
  cases a with
  | finite s₁ m₁ e₁ h₁ =>
    cases b with
    | finite s₂ m₂ e₂ h₂ => exact (sub_finite_rounded s₁ e₁ h₁ s₂ e₂ h₂).rounded
    | zero _ => exact ha.rounded
    | _ => trivial
  | zero s₁ =>
    cases b with
    | finite _ _ _ _ => exact hb.1
    | zero _ =>
      simp only [sub]
      split <;> trivial
    | _ => trivial
  | infinity s₁ =>
    cases b <;> simp only [sub] <;> (try split) <;> trivial
  | notANumber => trivial

theorem mul_rounded {a b : UnpackedFloat} (ha : Canonical a) (hb : Canonical b) :
    Rounded (mul Format.binary64 a b) := by
  cases a with
  | finite s₁ m₁ e₁ h₁ =>
    cases b with
    | finite s₂ m₂ e₂ h₂ =>
      obtain ⟨w, -, hmag⟩ := mul_finite_rounds s₁ s₂ h₁ h₂ ha.1 hb.1
      exact hmag.rounded
    | _ => trivial
  | _ => cases b <;> trivial

end Float.Model.UnpackedFloat
