import Backtest.Proofs.Binary64.Nearest

/-!
# Floats as extended reals

Away from NaN, floats compare as the extended reals they stand for, both zeros as `0`
(`Float.le_iff_extended`, `Float.lt_iff_extended`), so facts about comparisons of floats reduce to
the linear order of `EReal`. Negation and absolute value are exact (`Float.extended_neg`,
`Float.extended_abs`).
-/

namespace Float.Model.UnpackedFloat

/-- The extended real a form stands for: the value of a finite form or a zero, the infinity of
its sign for an infinity. NaN, which no comparison admits, is sent to zero. -/
noncomputable def extended : UnpackedFloat → EReal
  | .infinity .positive => ⊤
  | .infinity .negative => ⊥
  | u => ((u.value : ℝ) : EReal)

theorem extended_of_isFinite {u : UnpackedFloat} (h : u.isFinite = true) :
    u.extended = ((u.value : ℝ) : EReal) := by
  cases u with
  | infinity s => cases h
  | _ => rfl

theorem value_neg (u : UnpackedFloat) : u.neg.value = -u.value := by
  cases u with
  | finite s m e hm =>
    cases s
    · show (finite .positive m e hm).value = -(finite .negative m e hm).value
      simp
    · show (finite .negative m e hm).value = -(finite .positive m e hm).value
      simp
  | _ => simp [UnpackedFloat.neg, value]

theorem value_abs (u : UnpackedFloat) : u.abs.value = |u.value| := by
  cases u with
  | finite s m e hm =>
    have hpos : (0 : ℚ) < m * 2 ^ e := by positivity
    cases s
    · show (finite .positive m e hm).value = |(finite .negative m e hm).value|
      simp [abs_of_pos hpos]
    · show (finite .positive m e hm).value = |(finite .positive m e hm).value|
      simp [abs_of_pos hpos]
  | _ => simp [UnpackedFloat.abs, value]

theorem coe_abs_eq_max (v : ℚ) :
    (((|v| : ℚ) : ℝ) : EReal) = max ((v : ℝ) : EReal) (-((v : ℝ) : EReal)) := by
  rw [Rat.cast_abs, abs_eq_max_neg, ← EReal.coe_neg]
  exact EReal.coe_strictMono.monotone.map_max

theorem compare_coe_coe (a b : ℚ) :
    compare ((a : ℝ) : EReal) ((b : ℝ) : EReal) = compare a b := by
  rcases lt_trichotomy a b with h | rfl | h
  · rw [compare_lt_iff_lt.2 h, compare_lt_iff_lt.2 (by exact_mod_cast h)]
  · simp
  · rw [compare_gt_iff_gt.2 h, compare_gt_iff_gt.2 (by exact_mod_cast h)]

theorem compare_infinity_infinity (s₁ s₂ : Sign) :
    (infinity s₁).compare (infinity s₂) =
      some (compare (infinity s₁).extended (infinity s₂).extended) := by
  cases s₁ <;> cases s₂
  · exact congrArg some (compare_eq_iff_eq.2 rfl).symm
  · exact congrArg some (compare_lt_iff_lt.2 bot_lt_top).symm
  · exact congrArg some (compare_gt_iff_gt.2 bot_lt_top).symm
  · exact congrArg some (compare_eq_iff_eq.2 rfl).symm

theorem compare_infinity_finite (s : Sign) {w : UnpackedFloat} (hw : w.isFinite = true) :
    (infinity s).compare w = some (compare (infinity s).extended w.extended) := by
  rw [extended_of_isFinite hw]
  cases w with
  | zero _ | finite _ _ _ _ =>
    cases s <;> simp only [UnpackedFloat.compare, extended, Option.some.injEq] <;> rw [eq_comm] <;>
      simp only [compare_gt_iff_gt, compare_lt_iff_lt, EReal.coe_lt_top, EReal.bot_lt_coe]
  | _ => cases hw

theorem compare_finite_infinity {u : UnpackedFloat} (hu : u.isFinite = true) (s : Sign) :
    u.compare (infinity s) = some (compare u.extended (infinity s).extended) := by
  rw [extended_of_isFinite hu]
  cases u with
  | zero _ | finite _ _ _ _ =>
    cases s <;> simp only [UnpackedFloat.compare, extended, Option.some.injEq] <;> rw [eq_comm] <;>
      simp only [compare_gt_iff_gt, compare_lt_iff_lt, EReal.coe_lt_top, EReal.bot_lt_coe]
  | _ => cases hu

theorem compare_eq_compare_extended {u w : UnpackedFloat} (hu : Canonical u) (hw : Canonical w)
    (hnu : u ≠ .notANumber) (hnw : w ≠ .notANumber) :
    u.compare w = some (compare u.extended w.extended) := by
  -- a form other than NaN is finite or an infinity
  have hcases : ∀ v : UnpackedFloat, v ≠ .notANumber → v.isFinite = true ∨ ∃ s, v = .infinity s := by
    intro v hv
    cases v <;> simp_all [UnpackedFloat.isFinite]
  rcases hcases u hnu with hfu | ⟨s₁, rfl⟩ <;> rcases hcases w hnw with hfw | ⟨s₂, rfl⟩
  · rw [compare_eq_compare_value hu hw hfu hfw, extended_of_isFinite hfu,
      extended_of_isFinite hfw, compare_coe_coe]
  · exact compare_finite_infinity hfu s₂
  · exact compare_infinity_finite s₁ hfw
  · exact compare_infinity_infinity s₁ s₂

end Float.Model.UnpackedFloat

namespace Float

open Float.Model Float.Model.UnpackedFloat

/-- The extended real a float stands for (zero for NaN). -/
noncomputable def extended (x : Float) : EReal :=
  x.unpacked.extended

theorem compare_eq_extended {a b : Float} (ha : a.isNaN = false) (hb : b.isNaN = false) :
    a.unpacked.compare b.unpacked = some (compare a.extended b.extended) := by
  rw [Bool.eq_false_iff, ne_eq, isNaN_iff] at ha hb
  exact compare_eq_compare_extended a.canonical_unpacked b.canonical_unpacked ha hb

theorem compare_notANumber_left {a : Float} (b : Float) (ha : a.isNaN = true) :
    a.unpacked.compare b.unpacked = none := by
  rw [(isNaN_iff a).1 ha]
  rfl

theorem compare_notANumber_right (a : Float) {b : Float} (hb : b.isNaN = true) :
    a.unpacked.compare b.unpacked = none := by
  rw [(isNaN_iff b).1 hb]
  cases a.unpacked <;> rfl

/-- A comparison `a ≤ b` holds when neither is NaN and `a` stands for at most what `b` does. -/
theorem le_iff_extended (a b : Float) :
    a ≤ b ↔ a.isNaN = false ∧ b.isNaN = false ∧ a.extended ≤ b.extended := by
  rw [le_iff_compare]
  cases ha : a.isNaN
  · cases hb : b.isNaN
    · rw [compare_eq_extended ha hb]
      simp [compare_lt_iff_lt, le_iff_lt_or_eq]
    · simp [compare_notANumber_right a hb]
  · simp [compare_notANumber_left b ha]

/-- A comparison `a < b` holds when neither is NaN and `a` stands for less than `b` does. -/
theorem lt_iff_extended (a b : Float) :
    a < b ↔ a.isNaN = false ∧ b.isNaN = false ∧ a.extended < b.extended := by
  rw [lt_iff_compare]
  cases ha : a.isNaN
  · cases hb : b.isNaN
    · rw [compare_eq_extended ha hb]
      simp [compare_lt_iff_lt]
    · simp [compare_notANumber_right a hb]
  · simp [compare_notANumber_left b ha]

theorem isNaN_neg (a : Float) : (-a).isNaN = a.isNaN := by
  cases ha : a.isNaN
  · rw [Bool.eq_false_iff, ne_eq, isNaN_iff] at ha ⊢
    rw [unpacked_neg]
    cases hu : a.unpacked <;> simp_all [UnpackedFloat.neg]
  · rw [isNaN_iff, unpacked_neg, (isNaN_iff a).1 ha]
    rfl

/-- Negation is exact: the negated float stands for the negated extended real. -/
theorem extended_neg (a : Float) : (-a).extended = -a.extended := by
  unfold extended
  rw [unpacked_neg]
  cases a.unpacked with
  | notANumber => simp [UnpackedFloat.neg, UnpackedFloat.extended, value]
  | infinity s => cases s <;> simp [UnpackedFloat.neg, UnpackedFloat.extended]
  | zero _ | finite _ _ _ _ =>
    rw [extended_of_isFinite rfl, extended_of_isFinite rfl, value_neg, Rat.cast_neg, EReal.coe_neg]

theorem isNaN_abs (a : Float) : a.abs.isNaN = a.isNaN := by
  cases ha : a.isNaN
  · rw [Bool.eq_false_iff, ne_eq, isNaN_iff] at ha ⊢
    rw [unpacked_abs]
    cases hu : a.unpacked <;> simp_all [UnpackedFloat.abs]
  · rw [isNaN_iff, unpacked_abs, (isNaN_iff a).1 ha]
    rfl

/-- Absolute value is exact: it stands for the larger of the extended real and its negation. -/
theorem extended_abs (a : Float) : a.abs.extended = max a.extended (-a.extended) := by
  unfold extended
  rw [unpacked_abs]
  cases a.unpacked with
  | notANumber => simp [UnpackedFloat.abs, UnpackedFloat.extended, value]
  | infinity s => cases s <;> simp [UnpackedFloat.abs, UnpackedFloat.extended]
  | zero s => rw [extended_of_isFinite rfl, extended_of_isFinite rfl, value_abs, coe_abs_eq_max]
  | finite s m e hm =>
    rw [extended_of_isFinite rfl, extended_of_isFinite rfl, value_abs, coe_abs_eq_max]

theorem extended_inf : (1.0 / 0.0 : Float).extended = ⊤ := rfl

theorem isNaN_inf : (1.0 / 0.0 : Float).isNaN = false := rfl

theorem le_inf_iff (a : Float) : a ≤ 1.0 / 0.0 ↔ a.isNaN = false := by
  rw [le_iff_extended, isNaN_inf, extended_inf]
  simp only [le_top, and_true]

theorem le_neg_comm (a b : Float) : a ≤ -b ↔ b ≤ -a := by
  rw [le_iff_extended, le_iff_extended, isNaN_neg, isNaN_neg, extended_neg, extended_neg,
    EReal.le_neg]
  tauto

end Float
