import Backtest.Proofs.Binary64.Arithmetic

/-!
# Signs, order and NaN on floats

The facts about float arithmetic that money needs: sums and products of quantities that are not
negative are not negative, a difference `a - b` with finite `b ≤ a` is at least zero, a product
`n * r` with `0 ≤ r < 1` never exceeds a finite `n ≥ 0`, and NaN spreads through every operation
and is what two equal infinities subtract to and an infinity times a zero gives. Each operation of
`Float` is the rounded operation on unpacked forms, overflowed (`unpacked_add`, `unpacked_sub`,
`unpacked_mul`).
-/

namespace Float.Model.UnpackedFloat

/-- Not below zero: NaN, a zero, or a positive finite value or infinity. -/
def NotNegative : UnpackedFloat → Prop
  | .finite .negative _ _ _ => False
  | .infinity .negative => False
  | _ => True

theorem NotNegative.fit {u : UnpackedFloat} (h : NotNegative u) : NotNegative u.fit := by
  cases u with
  | finite s m e hm =>
    cases s
    · cases h
    · simp only [UnpackedFloat.fit]
      split <;> trivial
  | _ => exact h

theorem fit_ne_notANumber {u : UnpackedFloat} (h : u ≠ .notANumber) : u.fit ≠ .notANumber := by
  cases u with
  | finite s m e hm =>
    simp only [UnpackedFloat.fit]
    split <;> simp
  | _ => exact h

theorem HasMagnitude.notNegative {w : ℚ} {u : UnpackedFloat} (h : HasMagnitude .positive w u) :
    NotNegative u := by
  cases u with
  | zero _ => trivial
  | finite s m e hm =>
    obtain ⟨rfl, -⟩ := h
    trivial
  | _ => cases h

theorem HasMagnitude.ne_notANumber {s : Sign} {w : ℚ} {u : UnpackedFloat}
    (h : HasMagnitude s w u) : u ≠ .notANumber := by
  cases u with
  | notANumber => cases h
  | _ => simp

theorem RoundedValue.notNegative {v : ℚ} {u : UnpackedFloat} (h : RoundedValue v .positive u)
    (hv : 0 ≤ v) : NotNegative u := by
  rcases h with ⟨-, rfl⟩ | ⟨-, w, -, hmag⟩ | ⟨hneg, -⟩
  · trivial
  · exact hmag.notNegative
  · exact absurd hv (not_le.2 hneg)

theorem RoundedValue.ne_notANumber {v : ℚ} {zs : Sign} {u : UnpackedFloat}
    (h : RoundedValue v zs u) : u ≠ .notANumber := by
  rcases h with ⟨-, rfl⟩ | ⟨-, w, -, hmag⟩ | ⟨-, w, -, hmag⟩
  · simp
  · exact hmag.ne_notANumber
  · exact hmag.ne_notANumber

theorem compare_swap (u w : UnpackedFloat) : w.compare u = (u.compare w).map Ordering.swap := by
  rcases u with s₁ | _ | s₁ | ⟨s₁, m₁, e₁, h₁⟩ <;> rcases w with s₂ | _ | s₂ | ⟨s₂, m₂, e₂, h₂⟩ <;>
    (try cases s₁) <;> (try cases s₂) <;>
    first
    | rfl
    | simp [UnpackedFloat.compare, Ordering.swap_then, Int.compare_swap, Nat.compare_swap]

theorem compare_isSome {u w : UnpackedFloat} (hu : u ≠ .notANumber) (hw : w ≠ .notANumber) :
    ∃ o, u.compare w = some o := by
  rcases u with s₁ | _ | s₁ | ⟨s₁, m₁, e₁, h₁⟩ <;> rcases w with s₂ | _ | s₂ | ⟨s₂, m₂, e₂, h₂⟩ <;>
    (try cases s₁) <;> (try cases s₂) <;> simp_all [UnpackedFloat.compare]

theorem compare_isLE_iff {u w : UnpackedFloat} (hu : Canonical u) (hw : Canonical w)
    (hfu : u.isFinite = true) (hfw : w.isFinite = true) :
    (u.compare w = some .lt ∨ u.compare w = some .eq) ↔ u.value ≤ w.value := by
  rw [compare_eq_compare_value hu hw hfu hfw]
  simp only [Option.some.injEq, compare_lt_iff_lt, compare_eq_iff_eq]
  exact le_iff_lt_or_eq.symm

theorem HasMagnitude.canonical_of_le {s : Sign} {w : ℚ} {u : UnpackedFloat} {m : Nat} {e : Int}
    (h : HasMagnitude s w u) (hn : Normalized m e) (he : e ≤ 971) (hw : w ≤ m * 2 ^ e) :
    Canonical u ∧ u.fit = u ∧ u.isFinite = true := by
  cases u with
  | zero _ => exact ⟨trivial, rfl, rfl⟩
  | finite s' m' e' hm' =>
    obtain ⟨-, hn', rfl⟩ := h
    have he' : e' ≤ e := hn'.exp_le_of_value_le hn hw
    have hc : Canonical (finite s' m' e' hm') := ⟨hn', by omega⟩
    exact ⟨hc, fit_of_canonical hc, rfl⟩
  | _ => cases h

theorem NotNegative.add {a b : UnpackedFloat} (ha : NotNegative a) (hb : NotNegative b) :
    NotNegative (add Format.binary64 a b) := by
  cases a with
  | finite s₁ m₁ e₁ h₁ =>
    cases b with
    | finite s₂ m₂ e₂ h₂ =>
      -- two positive finite values: the rounded sum is not negative
      cases s₁
      · cases ha
      cases s₂
      · cases hb
      refine (add_finite_rounded .positive e₁ h₁ .positive e₂ h₂).notNegative ?_
      simp only [value_finite_positive]
      positivity
    | infinity _ => exact hb
    | zero _ => exact ha
    | notANumber => trivial
  | infinity s₁ =>
    cases b with
    | infinity s₂ =>
      simp only [UnpackedFloat.add]
      split
      · exact ha
      · trivial
    | notANumber => trivial
    | _ => exact ha
  | zero s₁ =>
    cases b with
    | zero s₂ =>
      simp only [UnpackedFloat.add]
      split <;> trivial
    | notANumber => trivial
    | _ => exact hb
  | notANumber => trivial

theorem NotNegative.mul {a b : UnpackedFloat} (ha : NotNegative a) (hb : NotNegative b)
    (hca : Canonical a) (hcb : Canonical b) : NotNegative (mul Format.binary64 a b) := by
  rcases a with s₁ | _ | s₁ | ⟨s₁, m₁, e₁, h₁⟩ <;> rcases b with s₂ | _ | s₂ | ⟨s₂, m₂, e₂, h₂⟩ <;>
    (try cases s₁) <;> (try cases s₂) <;> (try cases ha) <;> (try cases hb) <;> (try trivial)
  -- two positive finite values: the rounded product is positive
  obtain ⟨w, -, hmag⟩ := mul_finite_rounds .positive .positive h₁ h₂ hca.1 hcb.1
  exact hmag.notNegative

/-- The difference `a - b` of canonical forms with `b ≤ a` and `b` finite is not negative, and
not NaN. -/
theorem sub_notNegative_of_le {a b : UnpackedFloat} (ha : Canonical a) (hb : Canonical b)
    (hle : b.compare a = some .lt ∨ b.compare a = some .eq) (hbf : b.isFinite = true) :
    NotNegative (sub Format.binary64 a b) ∧ sub Format.binary64 a b ≠ .notANumber := by
  cases b with
  | zero s₂ =>
    cases a with
    | notANumber => simp [UnpackedFloat.compare] at hle
    | zero s₁ =>
      simp only [UnpackedFloat.sub]
      split <;> simp [NotNegative]
    | infinity s₁ => cases s₁ <;> simp_all [UnpackedFloat.compare, UnpackedFloat.sub, NotNegative]
    | finite s₁ m₁ e₁ h₁ =>
      cases s₁ <;> simp_all [UnpackedFloat.compare, UnpackedFloat.sub, NotNegative]
  | finite s₂ m₂ e₂ h₂ =>
    cases a with
    | notANumber => simp [UnpackedFloat.compare] at hle
    | zero s₁ => cases s₂ <;> simp_all [UnpackedFloat.compare, UnpackedFloat.sub, NotNegative]
    | infinity s₁ =>
      cases s₁ <;> cases s₂ <;> simp_all [UnpackedFloat.compare, UnpackedFloat.sub, NotNegative]
    | finite s₁ m₁ e₁ h₁ =>
      -- the exact difference is at least zero, so its rounding is not negative
      have hv : (finite s₂ m₂ e₂ h₂).value ≤ (finite s₁ m₁ e₁ h₁).value :=
        (compare_isLE_iff hb ha rfl rfl).1 hle
      have hr := sub_finite_rounded s₁ e₁ h₁ s₂ e₂ h₂
      exact ⟨hr.notNegative (by linarith), hr.ne_notANumber⟩
  | _ => cases hbf

theorem NotNegative.add_ne_notANumber {a b : UnpackedFloat} (ha : NotNegative a)
    (hb : NotNegative b) (ha' : a ≠ .notANumber) (hb' : b ≠ .notANumber) :
    UnpackedFloat.add Format.binary64 a b ≠ .notANumber := by
  cases a with
  | finite s₁ m₁ e₁ h₁ =>
    cases b with
    | finite s₂ m₂ e₂ h₂ => exact (add_finite_rounded s₁ e₁ h₁ s₂ e₂ h₂).ne_notANumber
    | infinity s₂ => simp [UnpackedFloat.add]
    | zero _ => simp [UnpackedFloat.add]
    | notANumber => exact absurd rfl hb'
  | infinity s₁ =>
    -- two infinities of the same sign add up to that infinity
    cases b with
    | infinity s₂ => cases s₁ <;> cases s₂ <;> simp_all [NotNegative, UnpackedFloat.add]
    | notANumber => exact absurd rfl hb'
    | _ => simp [UnpackedFloat.add]
  | zero s₁ =>
    cases b with
    | zero s₂ =>
      simp only [UnpackedFloat.add]
      split <;> simp
    | notANumber => exact absurd rfl hb'
    | _ => exact hb'
  | notANumber => exact absurd rfl ha'

/-- A product `n * r` with `n` finite and not negative and `0 ≤ r < 1` is canonical and finite,
not negative, and at most `n`. -/
theorem mul_le_of_value_lt_one {n r : UnpackedFloat} (hn : Canonical n) (hr : Canonical r)
    (hnn : NotNegative n) (hnf : n.isFinite = true) (hrn : NotNegative r) (hrf : r.isFinite = true)
    (hr1 : r.value < 1) :
    Canonical (mul Format.binary64 n r) ∧ (mul Format.binary64 n r).fit = mul Format.binary64 n r ∧
      (mul Format.binary64 n r).isFinite = true ∧ NotNegative (mul Format.binary64 n r) ∧
      (mul Format.binary64 n r).value ≤ n.value := by
  cases n with
  | zero s₁ =>
    cases r with
    | zero s₂ => exact ⟨trivial, rfl, rfl, trivial, le_rfl⟩
    | finite s₂ m₂ e₂ h₂ => exact ⟨trivial, rfl, rfl, trivial, le_rfl⟩
    | _ => cases hrf
  | finite s₁ m₁ e₁ h₁ =>
    cases s₁
    · cases hnn
    have hpos : (0 : ℚ) ≤ m₁ * 2 ^ e₁ := by positivity
    cases r with
    | zero s₂ => exact ⟨trivial, rfl, rfl, trivial, by simpa [UnpackedFloat.mul] using hpos⟩
    | finite s₂ m₂ e₂ h₂ =>
      cases s₂
      · cases hrn
      -- the exact product is below `n`, so its rounding does not pass `n` and cannot overflow
      obtain ⟨w, hw, hmag⟩ := mul_finite_rounds .positive .positive h₁ h₂ hn.1 hr.1
      have hr1' : (m₂ : ℚ) * 2 ^ e₂ < 1 := by simpa using hr1
      have hexact : (m₁ : ℚ) * 2 ^ e₁ * (m₂ * 2 ^ e₂) ≤ m₁ * 2 ^ e₁ :=
        mul_le_of_le_one_right hpos hr1'.le
      have hwle := hw.le_of_le hn.1 hexact
      obtain ⟨hc, hfit, hfin⟩ := hmag.canonical_of_le hn.1 hn.2 hwle
      refine ⟨hc, hfit, hfin, hmag.notNegative, ?_⟩
      rw [hmag.value_eq]
      simpa [signed] using hwle
    | _ => cases hrf
  | _ => cases hnf

theorem sub_canonical_of_le {a b : UnpackedFloat} (ha : Canonical a) (hb : Canonical b)
    (haf : a.isFinite = true) (hbf : b.isFinite = true) (hb0 : NotNegative b)
    (hle : b.value ≤ a.value) :
    Canonical (sub Format.binary64 a b) ∧ (sub Format.binary64 a b).fit = sub Format.binary64 a b ∧
      (sub Format.binary64 a b).isFinite = true := by
  cases b with
  | zero s₂ =>
    cases a with
    | zero s₁ =>
      simp only [UnpackedFloat.sub]
      split <;> exact ⟨trivial, rfl, rfl⟩
    | finite s₁ m₁ e₁ h₁ => exact ⟨ha, fit_of_canonical ha, rfl⟩
    | _ => cases haf
  | finite s₂ m₂ e₂ h₂ =>
    cases s₂
    · cases hb0
    have hbpos : (0 : ℚ) < m₂ * 2 ^ e₂ := by positivity
    cases a with
    | zero s₁ => simp at hle; linarith
    | finite s₁ m₁ e₁ h₁ =>
      cases s₁
      · have : (0 : ℚ) < m₁ * 2 ^ e₁ := by positivity
        simp at hle
        linarith
      -- the exact difference lies in `[0, a]`, so its rounding cannot overflow
      rcases sub_finite_rounded .positive e₁ h₁ .positive e₂ h₂ with
        ⟨-, hzero⟩ | ⟨-, w, hw, hmag⟩ | ⟨hneg, -⟩
      · rw [hzero]
        exact ⟨trivial, rfl, rfl⟩
      · simp only [value_finite_positive] at hw
        have hwle := hw.le_of_le ha.1 (by linarith)
        exact hmag.canonical_of_le ha.1 ha.2 hwle
      · simp at hneg hle
        linarith
    | _ => cases haf
  | _ => cases hbf

end Float.Model.UnpackedFloat

namespace Float

open Float.Model Float.Model.UnpackedFloat

/-- The unpacked form of a float, on which the model defines its operations. -/
def unpacked (x : Float) : UnpackedFloat := x.toModel.unpack

theorem canonical_unpacked (x : Float) : Canonical x.unpacked :=
  canonical_unpack x.toModel

@[simp] theorem unpacked_zero : (0.0 : Float).unpacked = .zero .positive := rfl

@[simp] theorem unpacked_one : (1.0 : Float).unpacked = .finite .positive (2 ^ 52) (-52) (by decide) :=
  rfl

theorem unpacked_add (a b : Float) :
    (a + b).unpacked = (UnpackedFloat.add Format.binary64 a.unpacked b.unpacked).fit :=
  unpack_pack_of_rounded (add_rounded a.canonical_unpacked b.canonical_unpacked)

theorem unpacked_sub (a b : Float) :
    (a - b).unpacked = (UnpackedFloat.sub Format.binary64 a.unpacked b.unpacked).fit :=
  unpack_pack_of_rounded (sub_rounded a.canonical_unpacked b.canonical_unpacked)

theorem unpacked_mul (a b : Float) :
    (a * b).unpacked = (UnpackedFloat.mul Format.binary64 a.unpacked b.unpacked).fit :=
  unpack_pack_of_rounded (mul_rounded a.canonical_unpacked b.canonical_unpacked)

theorem lt_iff_compare (a b : Float) : a < b ↔ a.unpacked.compare b.unpacked = some .lt := by
  simp [LT.lt, Float.lt, Float.Model.lt, UnpackedFloat.lt, unpacked]

theorem le_iff_compare (a b : Float) :
    a ≤ b ↔ a.unpacked.compare b.unpacked = some .lt ∨ a.unpacked.compare b.unpacked = some .eq := by
  show decide (a.toModel.le b.toModel = true) = true ↔ _
  rw [decide_eq_true_iff]
  unfold Float.Model.le UnpackedFloat.le unpacked
  cases a.toModel.unpack.compare b.toModel.unpack with
  | none => simp
  | some o => cases o <;> simp

theorem isNaN_iff (x : Float) : x.isNaN = true ↔ x.unpacked = .notANumber := by
  change x.unpacked.isNaN = true ↔ _
  cases x.unpacked <;> simp [UnpackedFloat.isNaN]

theorem isFinite_iff (x : Float) : x.isFinite = true ↔ x.unpacked.isFinite = true := Iff.rfl

theorem isInf_iff (x : Float) : x.isInf = true ↔ ∃ s, x.unpacked = .infinity s := by
  change x.unpacked.isInf = true ↔ _
  cases x.unpacked <;> simp [UnpackedFloat.isInf]

theorem not_lt_zero_iff (x : Float) : ¬ x < 0.0 ↔ x.unpacked.NotNegative := by
  rw [lt_iff_compare, unpacked_zero]
  cases x.unpacked with
  | finite s m e hm => cases s <;> simp [UnpackedFloat.compare, NotNegative]
  | infinity s => cases s <;> simp [UnpackedFloat.compare, NotNegative]
  | _ => simp [UnpackedFloat.compare, NotNegative]

theorem zero_le_iff (x : Float) :
    0.0 ≤ x ↔ x.unpacked.NotNegative ∧ x.unpacked ≠ .notANumber := by
  rw [le_iff_compare, unpacked_zero]
  cases x.unpacked with
  | finite s m e hm => cases s <;> simp [UnpackedFloat.compare, NotNegative]
  | infinity s => cases s <;> simp [UnpackedFloat.compare, NotNegative]
  | _ => simp [UnpackedFloat.compare, NotNegative]

theorem not_lt_zero_of_zero_le {x : Float} (h : 0.0 ≤ x) : ¬ x < 0.0 :=
  (not_lt_zero_iff x).2 ((zero_le_iff x).1 h).1

theorem isNaN_eq_false_of_zero_le {x : Float} (h : 0.0 ≤ x) : x.isNaN = false := by
  rw [Bool.eq_false_iff, ne_eq, isNaN_iff]
  exact ((zero_le_iff x).1 h).2

theorem le_of_not_lt {a b : Float} (h : ¬ a < b) (ha : a.isNaN = false) (hb : b.isNaN = false) :
    b ≤ a := by
  rw [lt_iff_compare] at h
  rw [le_iff_compare, compare_swap a.unpacked]
  rw [Bool.eq_false_iff, ne_eq, isNaN_iff] at ha hb
  -- away from NaN the comparison answers, and it is not `lt`
  obtain ⟨o, ho⟩ := compare_isSome ha hb
  rw [ho] at h ⊢
  cases o <;> simp_all

theorem ne_notANumber_of_isFinite {x : Float} (h : x.isFinite = true) :
    x.unpacked ≠ .notANumber := by
  intro hx
  rw [isFinite_iff, hx] at h
  cases h

theorem isNaN_or_inf_of_not_isFinite {x : Float} (h : ¬ x < 0.0) (hf : x.isFinite = false) :
    x.isNaN = true ∨ x.unpacked = .infinity .positive := by
  rw [not_lt_zero_iff] at h
  rw [isNaN_iff]
  change x.unpacked.isFinite = false at hf
  cases hx : x.unpacked with
  | infinity s =>
    rw [hx] at h
    cases s
    · cases h
    · exact Or.inr rfl
  | notANumber => exact Or.inl rfl
  | _ => rw [hx] at hf; cases hf

theorem isNaN_eq_false_of_isFinite {x : Float} (h : x.isFinite = true) : x.isNaN = false := by
  rw [Bool.eq_false_iff, ne_eq, isNaN_iff]
  exact ne_notANumber_of_isFinite h

theorem isInf_eq_false_of_isFinite {x : Float} (h : x.isFinite = true) : x.isInf = false := by
  rw [Bool.eq_false_iff, ne_eq, isInf_iff]
  rintro ⟨s, hs⟩
  rw [isFinite_iff, hs] at h
  cases h

theorem isInf_eq_false_of_isNaN {x : Float} (h : x.isNaN = true) : x.isInf = false := by
  rw [Bool.eq_false_iff, ne_eq, isInf_iff, (isNaN_iff x).1 h]
  simp

theorem not_lt_zero_of_isNaN {x : Float} (h : x.isNaN = true) : ¬ x < 0.0 := by
  rw [not_lt_zero_iff, (isNaN_iff x).1 h]
  trivial

theorem zero_le_of_not_lt_zero {x : Float} (h : ¬ x < 0.0) (hx : x.isNaN = false) : 0.0 ≤ x :=
  le_of_not_lt h hx rfl

theorem le_of_lt {a b : Float} (h : a < b) : a ≤ b := by
  rw [lt_iff_compare] at h
  rw [le_iff_compare]
  exact Or.inl h

theorem not_lt_of_lt {a b : Float} (h : a < b) : ¬ b < a := by
  rw [lt_iff_compare] at h ⊢
  rw [compare_swap a.unpacked, h]
  simp

theorem isNaN_eq_false_of_le {a b : Float} (h : a ≤ b) : a.isNaN = false ∧ b.isNaN = false := by
  rw [le_iff_compare] at h
  rw [Bool.eq_false_iff, Bool.eq_false_iff, ne_eq, ne_eq, isNaN_iff, isNaN_iff]
  constructor
  · intro ha
    rw [ha] at h
    simp [UnpackedFloat.compare] at h
  · intro hb
    have hnone : a.unpacked.compare .notANumber = none := by cases a.unpacked <;> rfl
    rw [hb, hnone] at h
    simp at h

/-! ## Sums, products and differences -/

theorem not_lt_zero_add {a b : Float} (ha : ¬ a < 0.0) (hb : ¬ b < 0.0) : ¬ a + b < 0.0 := by
  rw [not_lt_zero_iff] at ha hb ⊢
  rw [unpacked_add]
  exact (ha.add hb).fit

theorem zero_le_add {a b : Float} (ha : 0.0 ≤ a) (hb : 0.0 ≤ b) : 0.0 ≤ a + b := by
  rw [zero_le_iff] at ha hb ⊢
  rw [unpacked_add]
  exact ⟨(ha.1.add hb.1).fit, fit_ne_notANumber (ha.1.add_ne_notANumber hb.1 ha.2 hb.2)⟩

theorem not_lt_zero_mul {a b : Float} (ha : ¬ a < 0.0) (hb : ¬ b < 0.0) : ¬ a * b < 0.0 := by
  rw [not_lt_zero_iff] at ha hb ⊢
  rw [unpacked_mul]
  exact (ha.mul hb a.canonical_unpacked b.canonical_unpacked).fit

/-- `a - b` with `b ≤ a` and `b` finite is at least zero. -/
theorem zero_le_sub_of_le {a b : Float} (h : b ≤ a) (hb : b.isFinite = true) : 0.0 ≤ a - b := by
  rw [le_iff_compare] at h
  rw [zero_le_iff, unpacked_sub]
  obtain ⟨hnn, hnan⟩ := sub_notNegative_of_le a.canonical_unpacked b.canonical_unpacked h hb
  exact ⟨hnn.fit, fit_ne_notANumber hnan⟩

/-- `a - b` with `0 ≤ b ≤ a`, both finite, is finite. -/
theorem sub_isFinite_of_le {a b : Float} (ha : a.isFinite = true) (hb : 0.0 ≤ b)
    (hbf : b.isFinite = true) (hle : b ≤ a) : (a - b).isFinite = true := by
  rw [le_iff_compare, compare_isLE_iff b.canonical_unpacked a.canonical_unpacked hbf ha] at hle
  obtain ⟨-, hfit, hfin⟩ := sub_canonical_of_le a.canonical_unpacked b.canonical_unpacked ha hbf
    ((zero_le_iff b).1 hb).1 hle
  rw [isFinite_iff, unpacked_sub, hfit]
  exact hfin

theorem value_lt_one {r : Float} (hr : 0.0 ≤ r) (hr1 : r < 1.0) :
    r.isFinite = true ∧ r.unpacked.value < 1 := by
  have hone := canonical_unpacked 1.0
  rw [unpacked_one] at hone
  rw [zero_le_iff] at hr
  rw [lt_iff_compare, unpacked_one] at hr1
  have hfin : r.isFinite = true := by
    rw [isFinite_iff]
    cases hx : r.unpacked with
    | infinity s =>
      rw [hx] at hr hr1
      cases s
      · exact absurd hr.1 id
      · simp [UnpackedFloat.compare] at hr1
    | notANumber => exact absurd hx hr.2
    | _ => rfl
  refine ⟨hfin, ?_⟩
  rw [compare_eq_compare_value r.canonical_unpacked hone hfin rfl, Option.some.injEq,
    compare_lt_iff_lt] at hr1
  norm_num at hr1
  exact hr1

/-- A product `n * r` with `n` finite and not negative and `0 ≤ r < 1` is finite, at least zero
and at most `n`. -/
theorem mul_le_of_lt_one {n r : Float} (hn : 0.0 ≤ n) (hnf : n.isFinite = true) (hr : 0.0 ≤ r)
    (hr1 : r < 1.0) : 0.0 ≤ n * r ∧ n * r ≤ n ∧ (n * r).isFinite = true := by
  obtain ⟨hrf, hrv⟩ := value_lt_one hr hr1
  obtain ⟨hc, hfit, hfin, hnn, hle⟩ := mul_le_of_value_lt_one n.canonical_unpacked
    r.canonical_unpacked ((zero_le_iff n).1 hn).1 hnf ((zero_le_iff r).1 hr).1 hrf hrv
  have hu : (n * r).unpacked = UnpackedFloat.mul Format.binary64 n.unpacked r.unpacked := by
    rw [unpacked_mul, hfit]
  have hfin' : (n * r).isFinite = true := by rw [isFinite_iff, hu]; exact hfin
  refine ⟨?_, ?_, hfin'⟩
  · rw [zero_le_iff, hu]
    exact ⟨hnn, hu ▸ ne_notANumber_of_isFinite hfin'⟩
  · rw [le_iff_compare, hu]
    exact (compare_isLE_iff hc n.canonical_unpacked hfin hnf).2 hle

theorem zero_le_mul_of_pos {a b : Float} (ha : 0.0 ≤ a) (hb : 0.0 < b) (hbf : b.isFinite = true) :
    0.0 ≤ a * b := by
  rw [lt_iff_compare, unpacked_zero] at hb
  have hbnn : ¬ b < 0.0 := by
    rw [lt_iff_compare, unpacked_zero, compare_swap (.zero .positive), hb]
    simp
  rw [zero_le_iff] at ha ⊢
  rw [unpacked_mul]
  refine ⟨(ha.1.mul ((not_lt_zero_iff b).1 hbnn) a.canonical_unpacked b.canonical_unpacked).fit,
    fit_ne_notANumber ?_⟩
  -- a positive finite factor: NaN would need NaN or an infinity times a zero
  change b.unpacked.isFinite = true at hbf
  cases hb' : b.unpacked with
  | finite s₂ m₂ e₂ h₂ =>
    rw [hb'] at hb
    cases s₂
    · simp [UnpackedFloat.compare] at hb
    cases ha' : a.unpacked with
    | finite s₁ m₁ e₁ h₁ =>
      obtain ⟨w, -, hmag⟩ := mul_finite_rounds s₁ .positive h₁ h₂
        (ha' ▸ a.canonical_unpacked).1 (hb' ▸ b.canonical_unpacked).1
      exact hmag.ne_notANumber
    | notANumber => exact absurd ha' ha.2
    | _ => simp [UnpackedFloat.mul]
  | zero _ => rw [hb'] at hb; simp [UnpackedFloat.compare] at hb
  | _ => rw [hb'] at hbf; cases hbf

theorem zero_le_ofNat (n : Nat) : 0.0 ≤ Float.ofNat n := by
  show 0.0 ≤ Float.ofScientific n false 0
  unfold Float.ofScientific
  split
  · -- a small number converts exactly and is multiplied by `10 ^ 0`
    have hone : (0.0 : Float) < Float.exactlyRepresentablePowersOfTen[0] := by decide
    apply zero_le_mul_of_pos _ hone rfl
    have hconv : n.toUInt64.toFloat.unpacked =
        (Float.Model.pack (normalize Format.binary64 (n.toUInt64.toNat : Int) 0 .positive)).unpack :=
      rfl
    have hround := normalize_rounded (n.toUInt64.toNat : Int) 0 .positive
    rw [zero_le_iff, hconv, unpack_pack_of_rounded hround.rounded]
    exact ⟨(hround.notNegative (by positivity)).fit, fit_ne_notANumber hround.ne_notANumber⟩
  · -- a large one is rounded by the model
    rename_i hsmall
    have hn : 0 < n := by
      rcases Nat.eq_zero_or_pos n with rfl | hpos
      · exact absurd ⟨by norm_num, by norm_num⟩ hsmall
      · exact hpos
    obtain ⟨w, -, hmag⟩ := ofScientific_rounds_of_nonneg 0 hn (by norm_num)
    rw [Nat.cast_zero] at hmag
    rw [zero_le_iff]
    show NotNegative (Float.Model.ofScientific n 0).unpack ∧ (Float.Model.ofScientific n 0).unpack ≠ _
    rw [Float.Model.ofScientific, unpack_pack_of_rounded hmag.rounded]
    exact ⟨hmag.notNegative.fit, fit_ne_notANumber hmag.ne_notANumber⟩

/-! ## Where NaN comes from -/

theorem isNaN_add_left {a : Float} (b : Float) (h : a.isNaN = true) : (a + b).isNaN = true := by
  rw [isNaN_iff] at h ⊢
  rw [unpacked_add, h]
  rfl

theorem isNaN_add_right (a : Float) {b : Float} (h : b.isNaN = true) : (a + b).isNaN = true := by
  rw [isNaN_iff] at h ⊢
  rw [unpacked_add, h]
  cases a.unpacked <;> rfl

theorem isNaN_sub_left {a : Float} (b : Float) (h : a.isNaN = true) : (a - b).isNaN = true := by
  rw [isNaN_iff] at h ⊢
  rw [unpacked_sub, h]
  rfl

theorem isNaN_sub_right (a : Float) {b : Float} (h : b.isNaN = true) : (a - b).isNaN = true := by
  rw [isNaN_iff] at h ⊢
  rw [unpacked_sub, h]
  cases a.unpacked <;> rfl

theorem isNaN_sub_of_inf {a b : Float} (ha : a.unpacked = .infinity .positive)
    (hb : b.unpacked = .infinity .positive) : (a - b).isNaN = true := by
  rw [isNaN_iff, unpacked_sub, ha, hb]
  rfl

/-- The positive infinity times a float that is not negative: NaN for a zero or NaN, and the
positive infinity otherwise. -/
theorem inf_mul_of_not_lt_zero {a r : Float} (ha : a.unpacked = .infinity .positive)
    (hr : ¬ r < 0.0) : (a * r).isNaN = true ∨ (a * r).unpacked = .infinity .positive := by
  rw [not_lt_zero_iff] at hr
  rw [isNaN_iff, unpacked_mul, ha]
  cases hx : r.unpacked with
  | infinity s | finite s _ _ _ =>
    -- a negative operand is refused; a positive one leaves the positive infinity
    rw [hx] at hr
    cases s
    · cases hr
    · exact Or.inr rfl
  | _ => exact Or.inl rfl

theorem eq_inf_of_inf_le {a c : Float} (ha : a.unpacked = .infinity .positive) (h : a ≤ c) :
    c.unpacked = .infinity .positive := by
  rw [le_iff_compare, ha] at h
  cases hc : c.unpacked with
  | infinity s =>
    rw [hc] at h
    cases s
    · simp [UnpackedFloat.compare] at h
    · rfl
  | _ => rw [hc] at h; simp [UnpackedFloat.compare] at h

end Float
