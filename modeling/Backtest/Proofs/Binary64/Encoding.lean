import Mathlib

/-!
# Binary64 words and their unpacked forms

A word unpacks to a significand of 53 bits, or fewer at the least exponent `-1074`, with an
exponent of at most `971` (`Canonical`); rounding produces the same shape with no bound above
(`Rounded`), and packing such a form and unpacking it again only overflows it (`unpack_pack`). On
these forms the model's comparison is the order of the values (`compare_eq_compare_value`).
-/

namespace Float.Model.UnpackedFloat

/-- A significand and an exponent as binary64 rounding leaves them: 53 bits, or fewer at the
least exponent. -/
structure Normalized (m : Nat) (e : Int) : Prop where
  lt_two_pow : m < 2 ^ 53
  min_le : -1074 ≤ e
  normal : 2 ^ 52 ≤ m ∨ e = -1074

/-- The forms a binary64 word unpacks to. -/
def Canonical : UnpackedFloat → Prop
  | .finite _ m e _ => Normalized m e ∧ e ≤ 971
  | _ => True

/-- The forms rounding produces: normalized, the exponent not yet checked for overflow. -/
def Rounded : UnpackedFloat → Prop
  | .finite _ m e _ => Normalized m e
  | _ => True

/-- Overflow: a finite float with an exponent past `971` becomes the infinity of its sign. -/
def fit : UnpackedFloat → UnpackedFloat
  | .finite s m e h => if e ≤ 971 then .finite s m e h else .infinity s
  | u => u

/-- The rational a finite float denotes; zero for the zeros, the infinities and NaN. -/
def value : UnpackedFloat → ℚ
  | .finite s m e _ => (s.apply m : ℚ) * 2 ^ e
  | _ => 0

theorem Canonical.rounded {u : UnpackedFloat} (h : Canonical u) : Rounded u := by
  cases u with
  | finite s m e hm => exact h.1
  | _ => trivial

theorem fit_of_canonical {u : UnpackedFloat} (h : Canonical u) : u.fit = u := by
  cases u with
  | finite s m e hm => simp [fit, h.2]
  | _ => rfl

@[simp] theorem value_zero (s : Sign) : (UnpackedFloat.zero s).value = 0 := rfl

@[simp] theorem value_finite_positive (m : Nat) (e : Int) (h : 0 < m) :
    (UnpackedFloat.finite .positive m e h).value = m * 2 ^ e := by
  simp [value, Sign.apply]

@[simp] theorem value_finite_negative (m : Nat) (e : Int) (h : 0 < m) :
    (UnpackedFloat.finite .negative m e h).value = -(m * 2 ^ e) := by
  simp [value, Sign.apply]

/-! ## Unpacking -/

theorem toNat_one_append (m : BitVec 52) : (1#1 ++ m).toNat = 2 ^ 52 + m.toNat := by
  rw [BitVec.toNat_append, ← Nat.shiftLeft_add_eq_or_of_lt m.isLt]
  simp [Nat.shiftLeft_eq]

theorem exponentBias_binary64 : Format.binary64.exponentBias = 1023 := by decide

theorem mantissaBits_binary64 : Format.binary64.mantissaBits = 53 := rfl

theorem unpack_canonical (b : BitVec Format.binary64.numBits) :
    Canonical (unpack Format.binary64 b) := by
  have hmant : (@unpackMantissa Format.binary64 b).toNat < 2 ^ 52 :=
    (@unpackMantissa Format.binary64 b).isLt
  have hexp : (@unpackExponent Format.binary64 b).toNat < 2 ^ 11 :=
    (@unpackExponent Format.binary64 b).isLt
  unfold unpack
  dsimp only
  split
  · split <;> trivial
  rename_i hnotTop
  have htop : (@unpackExponent Format.binary64 b).toNat ≠ 2047 := fun h =>
    hnotTop (BitVec.eq_of_toNat_eq (by simpa using h))
  split
  · -- subnormals and zeros: exponent bits all clear
    split
    · trivial
    rename_i hzero _
    have hz : (@unpackExponent Format.binary64 b).toNat = 0 := by simp [hzero]
    simp only [Canonical, exponentBias_binary64, hz]
    exact ⟨⟨by omega, by norm_num, Or.inr (by norm_num)⟩, by norm_num⟩
  · -- normal numbers: the implicit leading bit is set
    rename_i hnotZero
    have hnz : (@unpackExponent Format.binary64 b).toNat ≠ 0 := fun h =>
      hnotZero (BitVec.eq_of_toNat_eq (by simpa using h))
    simp only [Canonical, exponentBias_binary64, toNat_one_append]
    exact ⟨⟨by omega, by omega, Or.inl (by omega)⟩, by omega⟩

/-! ## Packing -/

theorem unpack_pack_finite (s : Sign) {m : Nat} {e : Int} (hm : 0 < m) (h : Normalized m e)
    (he : e ≤ 971) :
    unpack Format.binary64 (pack Format.binary64 (.finite s m e hm)) = .finite s m e hm := by
  obtain ⟨hlt, hmin, hnormal⟩ := h
  -- the biased exponent written to the word
  have hbiased : ((e + 1023 + 52).toNat : Int) = e + 1075 := by omega
  have hb : (BitVec.ofNat 11 (e + 1023 + 52).toNat).toNat = (e + 1023 + 52).toNat := by
    rw [BitVec.toNat_ofNat, Nat.mod_eq_of_lt (by omega)]
  have hlog : m.log2 < 53 := (Nat.log2_lt hm.ne').2 hlt
  unfold pack
  simp only [exponentBias_binary64, mantissaBits_binary64, Nat.cast_ofNat]
  rw [if_neg (by norm_num; omega)]
  by_cases hn : 2 ^ 52 ≤ m
  · have hlog52 : 52 ≤ m.log2 := (Nat.le_log2 hm.ne').2 hn
    have hm' : (1#1 ++ BitVec.ofNat 52 m).toNat = m := by
      rw [toNat_one_append, BitVec.toNat_ofNat]
      omega
    rw [if_pos (by omega)]
    unfold unpack
    simp only [unpackMantissa_packComponents, unpackExponent_packComponents,
      unpackSign_packComponents, Sign.ofBitVec_toBitVec, exponentBias_binary64, Nat.cast_ofNat]
    have hnotTop : BitVec.ofNat 11 (e + 1023 + 52).toNat ≠ -1#11 := fun h => by
      have := congrArg BitVec.toNat h
      rw [hb] at this
      simp at this
      omega
    have hnotZero : BitVec.ofNat 11 (e + 1023 + 52).toNat ≠ 0#11 := fun h => by
      have := congrArg BitVec.toNat h
      rw [hb] at this
      simp at this
      omega
    rw [if_neg hnotTop, if_neg hnotZero]
    congr 1
    rw [hb]
    omega
  · have hsub : e = -1074 := hnormal.resolve_left hn
    have hm52 : (BitVec.ofNat 52 m).toNat = m := by
      rw [BitVec.toNat_ofNat, Nat.mod_eq_of_lt (by omega)]
    have hnonzero : BitVec.ofNat 52 m ≠ 0#52 := fun h => by
      have := congrArg BitVec.toNat h
      rw [hm52] at this
      simp at this
      omega
    have hlog52 : m.log2 < 52 := (Nat.log2_lt hm.ne').2 (by omega)
    rw [if_neg (by omega)]
    unfold unpack
    simp only [unpackMantissa_packComponents, unpackExponent_packComponents,
      unpackSign_packComponents, Sign.ofBitVec_toBitVec, exponentBias_binary64]
    simp only [show (0#11 : BitVec 11) ≠ -1#11 by decide, if_false, if_true, hnonzero,
      dif_neg, not_false_eq_true, hm52]
    congr 1
    simp [hsub]

/-- Packing a rounded form and unpacking it again overflows it and changes nothing else. -/
theorem unpack_pack {u : UnpackedFloat} (h : Rounded u) :
    unpack Format.binary64 (pack Format.binary64 u) = u.fit := by
  cases u with
  | notANumber => rfl
  | infinity s => cases s <;> rfl
  | zero s => cases s <;> rfl
  | finite s m e hm =>
    by_cases he : e ≤ 971
    · rw [unpack_pack_finite s hm h he]
      simp [fit, he]
    · -- the biased exponent reaches the all-ones pattern of the infinities
      have hinf : pack Format.binary64 (.finite s m e hm) = packedInfinity Format.binary64 s := by
        unfold pack
        simp only [exponentBias_binary64]
        rw [if_pos (by norm_num; omega)]
      rw [hinf]
      simp only [fit, he, if_false]
      cases s <;> rfl

/-! ## Order -/

theorem Normalized.value_lt_of_exp_lt {m₁ m₂ : Nat} {e₁ e₂ : Int} (h₁ : Normalized m₁ e₁)
    (h₂ : Normalized m₂ e₂) (he : e₁ < e₂) : (m₁ : ℚ) * 2 ^ e₁ < m₂ * 2 ^ e₂ := by
  have hm₂ : 2 ^ 52 ≤ m₂ := h₂.normal.resolve_right (by have := h₁.min_le; omega)
  have hm₁ : (m₁ : ℚ) < 2 ^ 53 := by exact_mod_cast h₁.lt_two_pow
  have hm₂' : (2 : ℚ) ^ 52 ≤ m₂ := by exact_mod_cast hm₂
  have hpow : (2 : ℚ) ^ (e₁ + 1) ≤ 2 ^ e₂ := zpow_le_zpow_right₀ (by norm_num) (by omega)
  calc (m₁ : ℚ) * 2 ^ e₁ < 2 ^ 53 * 2 ^ e₁ := by gcongr
    _ = 2 ^ 52 * 2 ^ (e₁ + 1) := by rw [zpow_add_one₀ (by norm_num)]; ring
    _ ≤ m₂ * 2 ^ e₂ := by gcongr

theorem Normalized.exp_le_of_value_le {m₁ m₂ : Nat} {e₁ e₂ : Int} (h₁ : Normalized m₁ e₁)
    (h₂ : Normalized m₂ e₂) (hv : (m₁ : ℚ) * 2 ^ e₁ ≤ m₂ * 2 ^ e₂) : e₁ ≤ e₂ :=
  Int.not_lt.1 fun he => absurd hv (not_le.2 (h₂.value_lt_of_exp_lt h₁ he))

theorem compare_neg_neg (a b : ℚ) : compare (-a) (-b) = (compare a b).swap := by
  rcases lt_trichotomy a b with h | rfl | h
  · rw [compare_lt_iff_lt.2 h, compare_gt_iff_gt.2 (neg_lt_neg h)]
    rfl
  · rw [Std.compare_self, Std.compare_self]
    rfl
  · rw [compare_gt_iff_gt.2 h, compare_lt_iff_lt.2 (neg_lt_neg h)]
    rfl

theorem Normalized.compare_value {m₁ m₂ : Nat} {e₁ e₂ : Int} (h₁ : Normalized m₁ e₁)
    (h₂ : Normalized m₂ e₂) :
    compare ((m₁ : ℚ) * 2 ^ e₁) (m₂ * 2 ^ e₂) = (compare e₁ e₂).then (compare m₁ m₂) := by
  rcases lt_trichotomy e₁ e₂ with he | rfl | he
  · rw [compare_lt_iff_lt.2 he, compare_lt_iff_lt.2 (h₁.value_lt_of_exp_lt h₂ he)]
    rfl
  · have hpos : (0 : ℚ) < 2 ^ e₁ := zpow_pos (by norm_num) _
    rw [Std.compare_self, Ordering.eq_then]
    rcases lt_trichotomy m₁ m₂ with hm | rfl | hm
    · rw [compare_lt_iff_lt.2 hm, compare_lt_iff_lt.2 (by gcongr)]
    · rw [Std.compare_self, Std.compare_self]
    · rw [compare_gt_iff_gt.2 hm, compare_gt_iff_gt.2 (by gcongr)]
  · rw [compare_gt_iff_gt.2 he, compare_gt_iff_gt.2 (h₂.value_lt_of_exp_lt h₁ he)]
    rfl

/-- On canonical finite forms and zeros, the model's comparison is the order of the values. -/
theorem compare_eq_compare_value {u w : UnpackedFloat} (hu : Canonical u) (hw : Canonical w)
    (hfu : u.isFinite = true) (hfw : w.isFinite = true) :
    u.compare w = some (compare u.value w.value) := by
  cases u with
  | notANumber => cases hfu
  | infinity _ => cases hfu
  | zero s₁ =>
    cases w with
    | notANumber => cases hfw
    | infinity _ => cases hfw
    | zero s₂ => simp [UnpackedFloat.compare]
    | finite s₂ m₂ e₂ hm₂ =>
      have hpos : (0 : ℚ) < m₂ * 2 ^ e₂ := by positivity
      cases s₂
      · simp [UnpackedFloat.compare, compare_gt_iff_gt.2 (neg_neg_of_pos hpos)]
      · simp [UnpackedFloat.compare, compare_lt_iff_lt.2 hpos]
  | finite s₁ m₁ e₁ hm₁ =>
    have hpos₁ : (0 : ℚ) < m₁ * 2 ^ e₁ := by positivity
    cases w with
    | notANumber => cases hfw
    | infinity _ => cases hfw
    | zero s₂ =>
      cases s₁
      · simp [UnpackedFloat.compare, compare_lt_iff_lt.2 (neg_neg_of_pos hpos₁)]
      · simp [UnpackedFloat.compare, compare_gt_iff_gt.2 hpos₁]
    | finite s₂ m₂ e₂ hm₂ =>
      have hpos₂ : (0 : ℚ) < m₂ * 2 ^ e₂ := by positivity
      have hc := hu.1.compare_value hw.1
      cases s₁ <;> cases s₂
      · simp only [UnpackedFloat.compare, value_finite_negative, compare_neg_neg]
        rw [← hc]
      · simp [UnpackedFloat.compare, compare_lt_iff_lt.2 (by linarith : -((m₁ : ℚ) * 2 ^ e₁) < m₂ * 2 ^ e₂)]
      · simp [UnpackedFloat.compare, compare_gt_iff_gt.2 (by linarith : -((m₂ : ℚ) * 2 ^ e₂) < m₁ * 2 ^ e₁)]
      · simp only [UnpackedFloat.compare, value_finite_positive]
        rw [hc]

end Float.Model.UnpackedFloat

namespace Float.Model

open UnpackedFloat

theorem canonical_unpack (f : Float.Model) : Canonical f.unpack :=
  unpack_canonical f.toBits.toBitVec

theorem unpack_pack_of_rounded {u : UnpackedFloat} (h : Rounded u) : (pack u).unpack = u.fit := by
  simp only [Float.Model.unpack, Float.Model.pack, UInt64.toBitVec_ofBitVec]
  exact UnpackedFloat.unpack_pack h

end Float.Model
