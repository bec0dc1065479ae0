import Backtest.Proofs.Binary64.Decode

/-!
# Correctly rounded floats

A rational has one rounded form (`RoundedValue.unique`), and a float is determined by its unpacked
form, so it has at most one nearest float (`Float.IsNearest.unique`). Division rounds its exact
quotient once (`div_finite_rounds`), and reading a decimal rounds correctly: `Float.ofScientific m s
e` is the float nearest to `m * 10 ^ e`, or to `m / 10 ^ e` when `s`, on its fast path through the
table of exact powers of ten as on its general path (`Float.ofScientific_isNearest`).
-/

namespace Float.Model.UnpackedFloat

/-! ## Rounding is a function -/

theorem UlpExponent.not_lt {v : ℚ} {E E' : Int} (h : UlpExponent v E) (h' : UlpExponent v E') :
    ¬ E < E' := by
  intro hlt
  -- above the least exponent, `v` has its full 53 bits at `E'`, too many for `E`
  have hnorm := h'.normal.resolve_left (by have := h.min_le; omega)
  have hpow : (2 : ℚ) ^ (E + 1) ≤ 2 ^ E' := zpow_le_zpow_right₀ (by norm_num) (by omega)
  have hlt' := h.lt
  have hsplit : (2 : ℚ) ^ 53 * 2 ^ E = 2 ^ 52 * 2 ^ (E + 1) := by
    rw [zpow_add_one₀ (by norm_num)]
    ring
  have hmono := mul_le_mul_of_nonneg_left hpow (by norm_num : (0 : ℚ) ≤ 2 ^ 52)
  linarith

theorem UlpExponent.unique {v : ℚ} {E E' : Int} (h : UlpExponent v E) (h' : UlpExponent v E') :
    E = E' :=
  le_antisymm (Int.not_lt.1 (h'.not_lt h)) (Int.not_lt.1 (h.not_lt h'))

theorem RoundsTo.unique {v w w' : ℚ} (h : RoundsTo v w) (h' : RoundsTo v w') : w = w' := by
  obtain ⟨E, r, hE, hr, rfl⟩ := h
  obtain ⟨E', r', hE', hr', rfl⟩ := h'
  obtain rfl := hE.unique hE'
  rw [hr.unique hr']

theorem HasMagnitude.unique {s : Sign} {w : ℚ} {u u' : UnpackedFloat} (h : HasMagnitude s w u)
    (h' : HasMagnitude s w u') : u = u' := by
  cases u with
  | zero s₁ =>
    cases u' with
    | zero s₂ =>
      obtain ⟨rfl, -⟩ := h
      obtain ⟨rfl, -⟩ := h'
      rfl
    | finite s₂ m e hm =>
      obtain ⟨-, rfl⟩ := h
      obtain ⟨-, -, hw⟩ := h'
      have : (0 : ℚ) < m * 2 ^ e := by positivity
      linarith
    | _ => cases h'
  | finite s₁ m e hm =>
    cases u' with
    | zero s₂ =>
      obtain ⟨-, rfl⟩ := h'
      obtain ⟨-, -, hw⟩ := h
      have : (0 : ℚ) < m * 2 ^ e := by positivity
      linarith
    | finite s₂ m' e' hm' =>
      obtain ⟨rfl, hn, hw⟩ := h
      obtain ⟨rfl, hn', hw'⟩ := h'
      -- equal values of normalized forms have equal exponents, then equal significands
      have he : e = e' := le_antisymm (hn.exp_le_of_value_le hn' (by rw [← hw, ← hw']))
        (hn'.exp_le_of_value_le hn (by rw [← hw, ← hw']))
      subst he
      have hm : (m : ℚ) = m' := mul_right_cancel₀ (zpow_ne_zero _ two_ne_zero) (hw.symm.trans hw')
      obtain rfl : m = m' := by exact_mod_cast hm
      rfl
    | _ => cases h'
  | _ => cases h

theorem RoundedValue.unique {v : ℚ} {zs : Sign} {u u' : UnpackedFloat} (h : RoundedValue v zs u)
    (h' : RoundedValue v zs u') : u = u' := by
  rcases h with ⟨hv, rfl⟩ | ⟨hv, w, hw, hm⟩ | ⟨hv, w, hw, hm⟩ <;>
    rcases h' with ⟨hv', rfl⟩ | ⟨hv', w', hw', hm'⟩ | ⟨hv', w', hw', hm'⟩
  · rfl
  · linarith
  · linarith
  · linarith
  · rw [hw.unique hw'] at hm
    exact hm.unique hm'
  · linarith
  · linarith
  · linarith
  · rw [hw.unique hw'] at hm
    exact hm.unique hm'

/-! ## Exact values -/

theorem natCast_mul_zpow_div {m : Nat} {e E : Int} (h : E ≤ e) :
    (m : ℚ) * 2 ^ e / 2 ^ E = ((m * 2 ^ (e - E).toNat : Nat) : ℚ) := by
  have hpow : (2 : ℚ) ^ e = 2 ^ E * 2 ^ (e - E).toNat := by
    rw [← zpow_natCast, ← zpow_add₀ (by norm_num)]
    congr 1
    omega
  rw [hpow]
  push_cast
  field_simp

theorem roundsTo_exact {r : Nat} {E : Int} (hr : 0 < r) (hr53 : r < 2 ^ 53) (hE : -1074 ≤ E) :
    RoundsTo (r * 2 ^ E) (r * 2 ^ E) := by
  have hulp : UlpExponent (r * 2 ^ E) (Format.binary64.targetExponent (totalExponent r E)) := by
    simpa using ulpExponent_target (f := 0) hr le_rfl one_pos
  have hlog : r.log2 < 53 := (Nat.log2_lt hr.ne').2 hr53
  have hle : Format.binary64.targetExponent (totalExponent r E) ≤ E := by
    rw [targetExponent_binary64, totalExponent]
    omega
  -- the value is a whole number of ulps, so it is its own nearest whole number
  have hwhole := natCast_mul_zpow_div (m := r) hle
  refine ⟨_, r * 2 ^ (E - Format.binary64.targetExponent (totalExponent r E)).toNat, hulp,
    ⟨by rw [hwhole]; simp, fun htie => by rw [hwhole] at htie; norm_num at htie⟩, ?_⟩
  rw [← hwhole]
  field_simp

theorem roundsTo_zero_of_lt {v : ℚ} (h₀ : 0 ≤ v) (hv : v < 2 ^ (-1075 : Int)) : RoundsTo v 0 := by
  have hpow : (2 : ℚ) ^ (-1075 : Int) = 2 ^ (-1074 : Int) / 2 := by
    rw [show (-1074 : Int) = -1075 + 1 by norm_num, zpow_add_one₀ (by norm_num)]
    ring
  have hpos : (0 : ℚ) < 2 ^ (-1074 : Int) := zpow_pos (by norm_num) _
  have hscaled : v / 2 ^ (-1074 : Int) < 1 / 2 := by
    rw [div_lt_iff₀ hpos]
    linarith
  refine ⟨-1074, 0, ⟨le_rfl, by nlinarith, Or.inl rfl⟩, ⟨?_, fun _ => rfl⟩, by simp⟩
  rw [Nat.cast_zero, sub_zero, abs_of_nonneg (div_nonneg h₀ hpos.le)]
  exact hscaled.le

theorem roundedValue_of_pos {v w : ℚ} {u : UnpackedFloat} (hv : 0 < v) (hw : RoundsTo v w)
    (hu : HasMagnitude .positive w u) : RoundedValue v .positive u :=
  Or.inr (Or.inl ⟨hv, w, hw, hu⟩)

/-! ## Division -/

theorem accuracyOfFraction_describes {r d : Nat} (hr : r < d) :
    (accuracyOfFraction r d).Describes (r / d) := by
  have hd : (0 : ℚ) < d := by exact_mod_cast Nat.zero_lt_of_lt hr
  unfold accuracyOfFraction
  split
  · rename_i h0
    simp [Accuracy.Describes, h0]
  · rename_i h0
    have hpos : (0 : ℚ) < r / d := div_pos (by exact_mod_cast Nat.pos_of_ne_zero h0) hd
    have hlt : (r : ℚ) / d < 1 := (div_lt_one hd).2 (by exact_mod_cast hr)
    -- the fraction against a half is twice the remainder against the divisor
    rcases lt_trichotomy (2 * r) d with hc | hc | hc
    · have hc' : (2 : ℚ) * r < d := by exact_mod_cast hc
      rw [compare_lt_iff_lt.2 hc]
      exact ⟨hpos, by rw [div_lt_iff₀ hd]; linarith⟩
    · have hc' : (2 : ℚ) * r = d := by exact_mod_cast hc
      rw [compare_eq_iff_eq.2 hc]
      show (r : ℚ) / d = 1 / 2
      rw [div_eq_iff hd.ne']
      linarith
    · have hc' : (d : ℚ) < 2 * r := by exact_mod_cast hc
      rw [compare_gt_iff_gt.2 hc]
      exact ⟨by rw [lt_div_iff₀ hd]; linarith, hlt⟩

/-- Dividing finite forms rounds the exact quotient of the magnitudes, with the quotient of the
signs. -/
theorem div_finite_rounds (s₁ s₂ : Sign) {m₁ m₂ : Nat} (e₁ e₂ : Int) (h₁ : 0 < m₁) (h₂ : 0 < m₂) :
    ∃ w, RoundsTo (m₁ * 2 ^ e₁ / (m₂ * 2 ^ e₂)) w ∧
      HasMagnitude (s₁ / s₂) w (div Format.binary64 (finite s₁ m₁ e₁ h₁) (finite s₂ m₂ e₂ h₂)) := by
  set T := min (e₁ - e₂)
    (Format.binary64.targetExponent (totalExponent m₁ e₁ - totalExponent m₂ e₂)) with hT
  set j := (e₁ - e₂ - T).toNat with hj
  set q := (m₁ <<< j) / m₂ with hq
  have hcore : divCore Format.binary64 m₁ e₁ m₂ e₂ =
      (q, T, accuracyOfFraction ((m₁ <<< j) % m₂) m₂) := rfl
  have hf := accuracyOfFraction_describes (Nat.mod_lt (m₁ <<< j) h₂)
  have hm₂ : (0 : ℚ) < m₂ := by exact_mod_cast h₂
  -- the integer quotient with its fraction is the exact quotient at exponent `T`
  have hvalue : ((q : ℚ) + ((m₁ <<< j) % m₂ : Nat) / m₂) * 2 ^ T = m₁ * 2 ^ e₁ / (m₂ * 2 ^ e₂) := by
    have hsplit : (q : ℚ) + ((m₁ <<< j) % m₂ : Nat) / m₂ = ((m₁ <<< j : Nat) : ℚ) / m₂ := by
      rw [eq_div_iff hm₂.ne', add_mul, div_mul_cancel₀ _ hm₂.ne']
      exact_mod_cast (by rw [mul_comm]; exact Nat.div_add_mod (m₁ <<< j) m₂)
    have hpow : (2 : ℚ) ^ e₁ = 2 ^ j * 2 ^ T * 2 ^ e₂ := by
      rw [← zpow_natCast, ← zpow_add₀ (by norm_num), ← zpow_add₀ (by norm_num)]
      congr 1
      omega
    rw [hsplit, Nat.shiftLeft_eq, hpow]
    push_cast
    field_simp
  -- at an exponent above the least one, the quotient carries at least 53 bits
  have hbits : T ≤ -1074 ∨ 2 ^ 52 ≤ q := by
    by_cases hmin : T ≤ -1074
    · exact Or.inl hmin
    right
    have hlog₁ := Nat.log2_self_le (Nat.pos_iff_ne_zero.1 (by rw [Nat.shiftLeft_eq]; positivity :
      0 < m₁ <<< j))
    have hlog₂ := @Nat.lt_log2_self m₂
    rw [log2_shiftLeft h₁] at hlog₁
    have hj : m₂.log2 + 53 ≤ m₁.log2 + j := by
      rw [hT, targetExponent_binary64, totalExponent, totalExponent] at hmin
      rw [hj, hT, targetExponent_binary64, totalExponent, totalExponent]
      omega
    rw [hq, Nat.le_div_iff_mul_le h₂]
    calc 2 ^ 52 * m₂ ≤ 2 ^ 52 * 2 ^ (m₂.log2 + 1) := Nat.mul_le_mul_left _ hlog₂.le
      _ = 2 ^ (m₂.log2 + 53) := by rw [← Nat.pow_add]; ring_nf
      _ ≤ 2 ^ (m₁.log2 + j) := Nat.pow_le_pow_right (by norm_num) hj
      _ ≤ m₁ <<< j := hlog₁
  have he : T ≤ Format.binary64.targetExponent (totalExponent q T) := by
    rw [targetExponent_binary64, totalExponent]
    rcases hbits with hmin | hq52
    · omega
    · have := (Nat.le_log2 (by positivity : q ≠ 0)).2 hq52
      omega
  have hulp : UlpExponent ((q + ((m₁ <<< j) % m₂ : Nat) / m₂) * 2 ^ T)
      (Format.binary64.targetExponent (totalExponent q T)) := by
    rcases Nat.eq_zero_or_pos q with hq0 | hqpos
    · -- a quotient below one ulp is subnormal: its ulp exponent is the least one
      have hmin : T ≤ -1074 := hbits.resolve_right (by rw [hq0]; norm_num)
      have htarget : Format.binary64.targetExponent (totalExponent q T) = -1074 := by
        rw [targetExponent_binary64, totalExponent, hq0]
        simp only [Nat.log2_zero]
        omega
      rw [htarget, hq0, Nat.cast_zero, zero_add]
      have hfrac := hf.bounds
      have hpow : (2 : ℚ) ^ T ≤ 2 ^ (-1074 : Int) := zpow_le_zpow_right₀ (by norm_num) hmin
      have hpos : (0 : ℚ) < 2 ^ T := zpow_pos (by norm_num) _
      refine ⟨le_rfl, ?_, Or.inl rfl⟩
      calc (((m₁ <<< j) % m₂ : Nat) : ℚ) / m₂ * 2 ^ T < 1 * 2 ^ T :=
            mul_lt_mul_of_pos_right hfrac.2 hpos
        _ ≤ 1 * 2 ^ (-1074 : Int) := by gcongr
        _ < 2 ^ 53 * 2 ^ (-1074 : Int) := by gcongr; norm_num
    · exact ulpExponent_target hqpos hf.bounds.1 hf.bounds.2
  obtain ⟨w, hw, hmag⟩ := roundWithAccuracy_rounds_of_ulp (s₁ / s₂) hf hulp he
  refine ⟨w, hvalue ▸ hw, ?_⟩
  simpa only [div, hcore] using hmag

theorem div_rounded (a b : UnpackedFloat) : Rounded (div Format.binary64 a b) := by
  cases a <;> cases b
  case finite.finite s₁ m₁ e₁ h₁ s₂ m₂ e₂ h₂ =>
    obtain ⟨w, -, hmag⟩ := div_finite_rounds s₁ s₂ e₁ e₂ h₁ h₂
    exact hmag.rounded
  all_goals trivial

theorem RoundsTo.ge_of_ge {v w : ℚ} {m : Nat} {e : Int} (h : RoundsTo v w) (hn : Normalized m e)
    (hv : m * 2 ^ e ≤ v) : m * 2 ^ e ≤ w := by
  obtain ⟨E, r, hulp, hnear, rfl⟩ := h
  have hpowE : (0 : ℚ) < 2 ^ E := zpow_pos (by norm_num) _
  rcases le_or_gt E e with hE | hE
  · -- the bound is a whole number of ulps, and the nearest whole number does not fall below it
    have hwhole := natCast_mul_zpow_div (m := m) hE
    have hr : m * 2 ^ (e - E).toNat ≤ r := by
      apply hnear.le_of_le'
      rw [← hwhole]
      exact div_le_div_of_nonneg_right hv hpowE.le
    calc (m : ℚ) * 2 ^ e = ((m * 2 ^ (e - E).toNat : Nat) : ℚ) * 2 ^ E := by
          rw [← hwhole]; field_simp
      _ ≤ r * 2 ^ E := by gcongr
  · -- a coarser ulp: the value has its full 53 bits there, more than the bound has
    have hnorm := hulp.normal.resolve_left (by have := hn.min_le; omega)
    have hr : 2 ^ 52 ≤ r := by
      apply hnear.le_of_le'
      rw [le_div_iff₀ hpowE]
      exact_mod_cast hnorm
    have hm : (m : ℚ) < 2 ^ 53 := by exact_mod_cast hn.lt_two_pow
    have hpow : (2 : ℚ) ^ (e + 1) ≤ 2 ^ E := zpow_le_zpow_right₀ (by norm_num) (by omega)
    calc (m : ℚ) * 2 ^ e ≤ 2 ^ 53 * 2 ^ e := by gcongr
      _ = 2 ^ 52 * 2 ^ (e + 1) := by rw [zpow_add_one₀ (by norm_num)]; ring
      _ ≤ 2 ^ 52 * 2 ^ E := by gcongr
      _ ≤ r * 2 ^ E := by gcongr; exact_mod_cast hr

theorem two_pow_1024_eq : ((2 ^ 52 : Nat) : ℚ) * 2 ^ (972 : Int) = 2 ^ 1024 := by
  have h : (1024 : Nat) = 52 + 972 := rfl
  rw [h, pow_add, Nat.cast_pow, Nat.cast_ofNat, zpow_ofNat]

theorem RoundsTo.overflow {v w : ℚ} (h : RoundsTo v w) (hv : 2 ^ 1024 ≤ v) : 2 ^ 1024 ≤ w := by
  have hbound : Normalized (2 ^ 52) 972 := ⟨by norm_num, by norm_num, Or.inl le_rfl⟩
  rw [← two_pow_1024_eq] at hv ⊢
  exact h.ge_of_ge hbound hv

theorem HasMagnitude.fit_of_two_pow_le {s : Sign} {w : ℚ} {u : UnpackedFloat}
    (h : HasMagnitude s w u) (hw : (2 : ℚ) ^ 1024 ≤ w) : u.fit = .infinity s := by
  cases u with
  | zero s' =>
    obtain ⟨-, rfl⟩ := h
    exact absurd hw (not_le.2 (by positivity))
  | finite s' m e hm =>
    obtain ⟨rfl, hn, rfl⟩ := h
    have hbound : Normalized (2 ^ 52) 972 := ⟨by norm_num, by norm_num, Or.inl le_rfl⟩
    rw [← two_pow_1024_eq] at hw
    have he : 972 ≤ e := hbound.exp_le_of_value_le hn hw
    simp [fit, show ¬ e ≤ 971 by omega]
  | _ => cases h

/-! ## Reading a decimal -/

/-- The model's reading of `m * 10 ^ e`: the rounding of its value, where exponents far out of
range are cut off to an infinity or zero before any power of ten is formed. -/
theorem ofScientific_rounds (m : Nat) (e : Int) :
    Rounded (ofScientific Format.binary64 m e) ∧
      ∃ u, RoundedValue (m * 10 ^ e) .positive u ∧ (ofScientific Format.binary64 m e).fit = u.fit := by
  rcases Nat.eq_zero_or_pos m with rfl | hm
  · exact ⟨trivial, .zero .positive, Or.inl ⟨by simp, rfl⟩, rfl⟩
  have hbits : Format.binary64.exponentBits = 11 := rfl
  rcases le_or_gt 0 e with he | he
  · obtain ⟨k, rfl⟩ := Int.eq_ofNat_of_zero_le he
    by_cases hk : k ≤ 2 ^ 11
    · -- in range: the exact product, rounded once
      obtain ⟨w, hw, hmag⟩ := ofScientific_rounds_of_nonneg k hm hk
      exact ⟨hmag.rounded, _, roundedValue_of_pos (by positivity) (by simpa using hw) hmag, rfl⟩
    · -- past every finite float: the value exceeds `2 ^ 1024`, so it rounds to an infinity
      have hcut : ofScientific Format.binary64 m k = .infinity .positive := by
        unfold ofScientific
        rw [dif_neg hm.ne', hbits, if_pos (by push_cast; omega)]
      obtain ⟨w, hw, hmag⟩ := round_rounds .positive (m := m * 10 ^ k) 0 (by positivity)
      have hbig : (2 : ℚ) ^ 1024 ≤ ((m * 10 ^ k : Nat) : ℚ) * 2 ^ (0 : Int) := by
        rw [zpow_zero, mul_one, Nat.cast_mul, Nat.cast_pow, Nat.cast_ofNat]
        have hm1 : (1 : ℚ) ≤ m := by exact_mod_cast hm
        calc (2 : ℚ) ^ 1024 ≤ 10 ^ 1024 := pow_le_pow_left₀ (by norm_num) (by norm_num) _
          _ ≤ 10 ^ k := pow_le_pow_right₀ (by norm_num) (by omega)
          _ = 1 * 10 ^ k := (one_mul _).symm
          _ ≤ m * 10 ^ k := by gcongr
      refine ⟨by rw [hcut]; trivial, _, roundedValue_of_pos (by positivity) (by simpa using hw) hmag, ?_⟩
      rw [hcut, hmag.fit_of_two_pow_le (hw.overflow hbig)]
      rfl
  · obtain ⟨k, hk⟩ : ∃ k : Nat, e = -((k + 1 : Nat) : Int) := ⟨(-e - 1).toNat, by omega⟩
    by_cases hcut : e < -((2 ^ 11 : Int) + m.log2)
    · -- below half the least subnormal: the value rounds to zero
      have hzero : ofScientific Format.binary64 m e = .zero .positive := by
        unfold ofScientific
        rw [dif_neg hm.ne', hbits, if_neg (by omega), if_pos hcut]
      have hsmall : m * 2 ^ 1075 < 10 ^ (k + 1) := calc
        m * 2 ^ 1075 < 2 ^ (m.log2 + 1) * 2 ^ 1075 := Nat.mul_lt_mul_of_pos_right Nat.lt_log2_self
            (by positivity)
        _ = 2 ^ (m.log2 + 1 + 1075) := by rw [← Nat.pow_add]
        _ ≤ 2 ^ (3 * (k + 1)) := Nat.pow_le_pow_right (by norm_num) (by omega)
        _ = 8 ^ (k + 1) := by rw [Nat.pow_mul]
        _ ≤ 10 ^ (k + 1) := Nat.pow_le_pow_left (by norm_num) _
      have hv : (m : ℚ) * 10 ^ e < 2 ^ (-1075 : Int) := by
        have hsmall' : (m : ℚ) * 2 ^ 1075 < 10 ^ (k + 1) := by exact_mod_cast hsmall
        rw [hk, zpow_neg, zpow_natCast, zpow_neg, zpow_ofNat, ← div_eq_mul_inv,
          div_lt_iff₀ (by positivity), inv_mul_eq_div, lt_div_iff₀ (by positivity)]
        exact hsmall'
      refine ⟨by rw [hzero]; trivial, .zero .positive, ?_, by rw [hzero]⟩
      exact roundedValue_of_pos (by positivity) (roundsTo_zero_of_lt (by positivity) hv) ⟨rfl, rfl⟩
    · -- in range: the exact quotient by `10 ^ k`, rounded once
      have hke : (-e).toNat = k + 1 := by omega
      obtain ⟨w, hw, hmag⟩ := div_finite_rounds .positive .positive 0 0 hm
        (Nat.pow_pos (by decide : 0 < 10) : 0 < 10 ^ (k + 1))
      have hdiv : ofScientific Format.binary64 m e = div Format.binary64 (.finite .positive m 0 hm)
          (.finite .positive (10 ^ (k + 1)) 0 (Nat.pow_pos (by decide))) := by
        unfold ofScientific
        rw [dif_neg hm.ne', hbits, if_neg (by omega), if_neg hcut, if_neg (by omega)]
        simp only [hke]
      have hvalue : (m : ℚ) * 2 ^ (0 : Int) / (((10 ^ (k + 1) : Nat) : ℚ) * 2 ^ (0 : Int)) =
          m * 10 ^ e := by
        rw [hk, zpow_neg, zpow_natCast]
        push_cast
        field_simp
      rw [hdiv]
      exact ⟨hmag.rounded, _, roundedValue_of_pos (by positivity) (hvalue ▸ hw) hmag, rfl⟩

end Float.Model.UnpackedFloat

namespace Float

open Float.Model Float.Model.UnpackedFloat Backtest.Decimal

theorem eq_of_unpacked_eq {x y : Float} (h : x.unpacked = y.unpacked) : x = y :=
  Float.toBits_inj.1 (UInt64.toBitVec_inj.1
    ((unpack_inj_of_valid x.toModel.valid y.toModel.valid).1 h))

/-- `x` is the float nearest to the rational `v`, ties to even: the rounded form of `v`, an
infinity where that overflows, and positive zero for zero. -/
def IsNearest (v : ℚ) (x : Float) : Prop :=
  ∃ u, RoundedValue v .positive u ∧ x.unpacked = u.fit

/-- A rational has at most one nearest float. -/
theorem IsNearest.unique {v : ℚ} {x y : Float} (hx : IsNearest v x) (hy : IsNearest v y) :
    x = y := by
  obtain ⟨u, hu, hxu⟩ := hx
  obtain ⟨u', hu', hyu⟩ := hy
  apply eq_of_unpacked_eq
  rw [hxu, hyu, hu.unique hu']

theorem unpacked_div (a b : Float) :
    (a / b).unpacked = (UnpackedFloat.div Format.binary64 a.unpacked b.unpacked).fit :=
  unpack_pack_of_rounded (div_rounded _ _)

theorem Canonical.neg {u : UnpackedFloat} (h : Canonical u) : Canonical u.neg := by
  cases u with
  | finite s m e hm => exact h
  | _ => trivial

theorem Canonical.abs {u : UnpackedFloat} (h : Canonical u) : Canonical u.abs := by
  cases u with
  | finite s m e hm => exact h
  | _ => trivial

theorem unpacked_neg (a : Float) : (-a).unpacked = a.unpacked.neg := by
  have hc := Canonical.neg a.canonical_unpacked
  exact (unpack_pack_of_rounded hc.rounded).trans (fit_of_canonical hc)

theorem unpacked_abs (a : Float) : a.abs.unpacked = a.unpacked.abs := by
  have hc := Canonical.abs a.canonical_unpacked
  exact (unpack_pack_of_rounded hc.rounded).trans (fit_of_canonical hc)

theorem unpacked_eq_finite_of_ofFloat {x : Float} {M : Nat} {E : Int} (hM : 0 < M)
    (h : Binary64.ofFloat x = .finite false M E) : x.unpacked = .finite .positive M E hM := by
  rw [ofFloat_eq_toBinary64] at h
  cases hu : x.unpacked with
  | zero s =>
    rw [hu, toBinary64, Binary64.finite.injEq] at h
    omega
  | finite s m e hm =>
    rw [hu, toBinary64, Binary64.finite.injEq] at h
    obtain ⟨hs, rfl, rfl⟩ := h
    cases s
    · exact absurd hs (by decide)
    · rfl
  | infinity s =>
    rw [hu, toBinary64] at h
    cases h
  | notANumber =>
    rw [hu, toBinary64] at h
    cases h

/-! ## The fast path -/

theorem ofFloat_powerOfTen (e : Nat) (h : e < exactlyRepresentablePowersOfTen.size) :
    Binary64.ofFloat exactlyRepresentablePowersOfTen[e] =
      .finite false (5 ^ e * 2 ^ (52 - (5 ^ e).log2)) (e - (52 - (5 ^ e).log2 : Nat)) := by
  have h23 : e < 23 := h
  interval_cases e <;> decide +revert

theorem unpacked_powerOfTen (e : Nat) (h : e < exactlyRepresentablePowersOfTen.size) :
    ∃ M E hM, (exactlyRepresentablePowersOfTen[e]).unpacked = .finite .positive M E hM ∧
      Normalized M E ∧ (M : ℚ) * 2 ^ E = 10 ^ e := by
  have h23 : e < 23 := h
  have hsmall : 5 ^ e < 2 ^ 53 := lt_of_le_of_lt
    (Nat.pow_le_pow_right (by norm_num) (by omega : e ≤ 22)) (by norm_num)
  have hlo : 2 ^ (5 ^ e).log2 ≤ 5 ^ e := Nat.log2_self_le (by positivity)
  have hhi : 5 ^ e < 2 ^ ((5 ^ e).log2 + 1) := Nat.lt_log2_self
  have hL : (5 ^ e).log2 ≤ 52 := by
    have := (Nat.log2_lt (by positivity)).2 hsmall
    omega
  have hM53 : 5 ^ e * 2 ^ (52 - (5 ^ e).log2) < 2 ^ 53 := calc
    5 ^ e * 2 ^ (52 - (5 ^ e).log2) < 2 ^ ((5 ^ e).log2 + 1) * 2 ^ (52 - (5 ^ e).log2) :=
        Nat.mul_lt_mul_of_pos_right hhi (by positivity)
    _ = 2 ^ 53 := by rw [← Nat.pow_add]; congr 1; omega
  have hM52 : 2 ^ 52 ≤ 5 ^ e * 2 ^ (52 - (5 ^ e).log2) := calc
    2 ^ 52 = 2 ^ (5 ^ e).log2 * 2 ^ (52 - (5 ^ e).log2) := by rw [← Nat.pow_add]; congr 1; omega
    _ ≤ 5 ^ e * 2 ^ (52 - (5 ^ e).log2) := Nat.mul_le_mul_right _ hlo
  refine ⟨_, _, by positivity, unpacked_eq_finite_of_ofFloat _ (ofFloat_powerOfTen e h),
    ⟨hM53, by omega, Or.inl hM52⟩, ?_⟩
  rw [zpow_sub₀ (by norm_num), zpow_natCast, zpow_natCast]
  push_cast
  field_simp
  rw [show (10 : ℚ) = 5 * 2 by norm_num, mul_pow]

theorem unpacked_toFloat_zero : ((0 : Nat).toUInt64.toFloat).unpacked = .zero .positive := rfl

theorem unpacked_toFloat {m : Nat} (hm : 0 < m) (hm53 : m < 2 ^ 53) :
    ∃ m' e' h', (m.toUInt64.toFloat).unpacked = .finite .positive m' e' h' ∧ Normalized m' e' ∧
      (m' : ℚ) * 2 ^ e' = m := by
  have hnat : m.toUInt64.toNat = m := by
    rw [Nat.toUInt64_eq, UInt64.toNat_ofNat']
    exact Nat.mod_eq_of_lt (by omega)
  have hunp : (m.toUInt64.toFloat).unpacked =
      (normalize Format.binary64 (m.toUInt64.toNat : Int) 0 .positive).fit :=
    unpack_pack_of_rounded (normalize_rounded _ 0 .positive).rounded
  rw [hnat] at hunp
  rcases normalize_rounds (m : Int) 0 .positive with ⟨h0, -⟩ | ⟨-, w, hw, hmag⟩ | ⟨hneg, -⟩
  · omega
  · -- the value is representable, so it is its own rounding
    have hexact : RoundsTo (((m : Int) : ℚ) * 2 ^ (0 : Int)) (m * 2 ^ (0 : Int)) := by
      simpa using roundsTo_exact (E := 0) hm hm53 (by norm_num)
    rw [hw.unique hexact] at hmag
    generalize normalize Format.binary64 (m : Int) 0 .positive = u at hmag hunp
    cases u with
    | finite s m' e' h' =>
      obtain ⟨rfl, hn, hval⟩ := hmag
      have hbound : Normalized (2 ^ 53 - 1) 0 := ⟨by norm_num, by norm_num, Or.inl (by norm_num)⟩
      have hle : (m' : ℚ) * 2 ^ e' ≤ ((2 ^ 53 - 1 : Nat) : ℚ) * 2 ^ (0 : Int) := by
        rw [← hval]
        gcongr
        omega
      have he : e' ≤ 0 := hn.exp_le_of_value_le hbound hle
      refine ⟨m', e', h', ?_, hn, by rw [← hval]; simp⟩
      rw [hunp]
      simp only [fit, show e' ≤ 971 by omega, if_true]
    | zero s =>
      obtain ⟨-, h⟩ := hmag
      have : (0 : ℚ) < m := by exact_mod_cast hm
      simp at h
      omega
    | _ => cases hmag
  · omega

/-! ## Reading a decimal -/

/-- Reading a decimal rounds correctly: `Float.ofScientific m s e` is the float nearest to
`m * 10 ^ e`, or to `m * 10 ^ -e` when `s`. -/
theorem ofScientific_isNearest (m : Nat) (s : Bool) (e : Nat) :
    IsNearest (m * 10 ^ (if s then -(e : Int) else e)) (Float.ofScientific m s e) := by
  unfold Float.ofScientific
  by_cases hfast : m < 2 ^ 53 ∧ e ≤ 22
  · -- a significand below `2 ^ 53` and an exact power of ten: one rounding
    rw [dif_pos hfast]
    obtain ⟨M, E, hM, hp, hn, hv⟩ :=
      unpacked_powerOfTen e (by simp [exactlyRepresentablePowersOfTen]; omega)
    rcases Nat.eq_zero_or_pos m with rfl | hm
    · refine ⟨.zero .positive, Or.inl ⟨by simp, rfl⟩, ?_⟩
      cases s
      · rw [if_neg Bool.false_ne_true, unpacked_mul, unpacked_toFloat_zero, hp]
        rfl
      · rw [if_pos rfl, unpacked_div, unpacked_toFloat_zero, hp]
        rfl
    obtain ⟨m', e', h', hx, hn', hv'⟩ := unpacked_toFloat hm hfast.1
    cases s
    · obtain ⟨w, hw, hmag⟩ := mul_finite_rounds .positive .positive h' hM hn' hn
      rw [hv', hv] at hw
      refine ⟨_, roundedValue_of_pos (by positivity) (by simpa using hw) hmag, ?_⟩
      rw [if_neg Bool.false_ne_true, unpacked_mul, hx, hp]
    · obtain ⟨w, hw, hmag⟩ := div_finite_rounds .positive .positive e' E h' hM
      rw [hv', hv] at hw
      refine ⟨_, roundedValue_of_pos (by positivity) (by simpa [div_eq_mul_inv] using hw) hmag, ?_⟩
      rw [if_pos rfl, unpacked_div, hx, hp]
  · -- otherwise the model rounds the exact product or quotient once
    obtain ⟨hround, u, hu, hfit⟩ :=
      UnpackedFloat.ofScientific_rounds m (if s then -(e : Int) else e)
    rw [dif_neg hfast]
    refine ⟨u, hu, ?_⟩
    have hexp : (if s = true then Int.negOfNat e else Int.ofNat e) = if s then -(e : Int) else e := by
      cases s <;> simp [Int.negOfNat_eq]
    show (Model.pack (UnpackedFloat.ofScientific Format.binary64 m _)).unpack = u.fit
    rw [hexp, unpack_pack_of_rounded hround, hfit]

end Float
