import Backtest.Proofs.Decimal.Fewest
import Backtest.Proofs.Decimal.RoundTrip

/-!
# The plain text of a float

The plain text of a finite float is an optional minus sign and digits, with a point and more digits
when there is a fraction, and never an exponent (`WritesPlain`); it writes the same decimal as the
shortest text `shortText` (`WritesNumeral`), and that decimal has the fewest digits of all that read
as the float (`IsShortestDecimal`). It reads back as the float, bit for bit (`plainText_spec`).
-/

namespace Backtest.Decimal

open Float.Model.UnpackedFloat

/-! ## Shortest decimals of a float -/

/-- `c * 10 ^ k` is a shortest decimal of `y`: `y` is the float nearest to it, and no decimal
that `y` is nearest to has fewer digits than `c`. -/
def IsShortestDecimal (y : Float) (c : Nat) (k : Int) : Prop :=
  Float.IsNearest (c * 10 ^ k) y ∧
    ∀ (c' : Nat) (k' : Int), Float.IsNearest (c' * 10 ^ k') y → digitCount c ≤ digitCount c'

theorem roundsTo_of_isNearest {y : Float} {m : Nat} {e : Int} {hm : 0 < m}
    (hy : y.unpacked = .finite .positive m e hm) {q : ℚ} (h : Float.IsNearest q y) :
    0 < q ∧ RoundsTo q (m * 2 ^ e) := by
  obtain ⟨u, hu, hfit⟩ := h
  rw [hy] at hfit
  -- only a finite form of the same sign and value fits to the float
  have hu' : u = .finite .positive m e hm := by
    cases u with
    | finite s m' e' h' =>
      simp only [fit] at hfit
      split at hfit
      · cases hfit
        rfl
      · cases hfit
    | _ => cases hfit
  subst hu'
  rcases hu with ⟨-, h⟩ | ⟨hq, w, hw, hmag⟩ | ⟨-, w, -, hmag⟩
  · cases h
  · obtain ⟨-, -, rfl⟩ := hmag
    exact ⟨hq, hw⟩
  · cases hmag.1

/-- The shortest digits of a positive finite float are a shortest decimal of it. -/
theorem isShortestDecimal_shortest {y : Float} {m : Nat} {e : Int} {hm : 0 < m}
    (hy : y.unpacked = .finite .positive m e hm) :
    IsShortestDecimal y (shortest m e).1 (shortest m e).2 := by
  have hc : Canonical y.unpacked := Float.canonical_unpacked y
  rw [hy] at hc
  obtain ⟨hn, he⟩ := hc
  have hpos : (0 : ℚ) < (shortest m e).1 * 10 ^ (shortest m e).2 := by
    have := shortest_pos hm hn
    positivity
  refine ⟨⟨.finite .positive m e hm,
    roundedValue_of_pos hpos (shortest_roundsTo hm hn) ⟨rfl, hn, rfl⟩, by rw [hy]; simp [fit, he]⟩,
    fun c' k' h => ?_⟩
  obtain ⟨hq, hround⟩ := roundsTo_of_isNearest hy h
  have hc' : 0 < c' := by
    rcases Nat.eq_zero_or_pos c' with rfl | hc'
    · simp at hq
    · exact hc'
  exact digitCount_shortest_le hm hn hc' hround

theorem isShortestDecimal_zero {y : Float} (hy : y.unpacked = .zero .positive) :
    IsShortestDecimal y 0 0 :=
  ⟨⟨.zero .positive, Or.inl ⟨by simp, rfl⟩, by rw [hy]; rfl⟩,
    fun c' _ _ => digitCount_pos c'⟩

/-! ## Numerals -/

/-- `s` is `-?[0-9]+(\.[0-9]+)?` for the sign `negative` and the magnitude `v`: a minus sign when
negative, then digits with a point and more digits when there are any. -/
def WritesPlain (s : List Char) (negative : Bool) (v : ℚ) : Prop :=
  ∃ body, s = (if negative then '-' :: body else body) ∧ WritesDecimal body v

/-- `s` is an exponent mark for `x`: `e`, a sign, and digits. -/
def WritesExponent (s : List Char) (x : Int) : Prop :=
  ∃ (negative : Bool) (ds : List Char), s = 'e' :: (if negative then '-' else '+') :: ds ∧
    ds ≠ [] ∧ (∀ c ∈ ds, c.isDigit = true) ∧
    x = if negative then -(digitsValue ds : Int) else digitsValue ds

/-- `s` writes the sign `negative` and the magnitude `v` in plain form, or in scientific form: a
decimal and an exponent mark, worth the decimal times ten to the exponent. -/
def WritesNumeral (s : List Char) (negative : Bool) (v : ℚ) : Prop :=
  WritesPlain s negative v ∨
    ∃ (body ex : List Char) (u : ℚ) (x : Int),
      s = (if negative then '-' :: (body ++ ex) else body ++ ex) ∧ WritesDecimal body u ∧
        WritesExponent ex x ∧ v = u * 10 ^ x

theorem writesExponent_exponentMark (x : Int) : WritesExponent (exponentMark x) x := by
  have hds := natDigits_ne_nil x.natAbs
  have hd : ∀ c ∈ natDigits x.natAbs, c.isDigit = true := fun _ => isDigit_of_mem_natDigits
  -- a one-digit exponent is padded with a zero, which adds nothing
  obtain ⟨ds, hpad, hne, hdig, hval⟩ : ∃ ds, (if (natDigits x.natAbs).length < 2 then
      '0' :: natDigits x.natAbs else natDigits x.natAbs) = ds ∧ ds ≠ [] ∧
      (∀ c ∈ ds, c.isDigit = true) ∧ digitsValue ds = x.natAbs := by
    split
    · refine ⟨_, rfl, by simp, fun c hc => ?_, ?_⟩
      · rcases List.mem_cons.1 hc with rfl | hc
        · rfl
        · exact hd c hc
      · rw [show '0' :: natDigits x.natAbs = zeros 1 ++ natDigits x.natAbs from rfl,
          digitsValue_zeros_append, digitsValue_natDigits]
    · exact ⟨_, rfl, hds, hd, digitsValue_natDigits _⟩
  refine ⟨decide (x < 0), ds, ?_, hne, hdig, ?_⟩
  · unfold exponentMark
    rw [hpad]
    by_cases hx : x < 0 <;> simp [hx]
  · rw [hval]
    by_cases hx : x < 0
    · rw [if_pos (decide_eq_true hx)]
      omega
    · rw [if_neg (by simpa using hx)]
      omega

theorem writesDecimal_mantissa {ds : List Char} (hds : ds ≠ []) (hd : ∀ c ∈ ds, c.isDigit = true) :
    WritesDecimal (mantissa ds) (digitsValue ds * 10 ^ (1 - ds.length : Int)) := by
  match ds, hds, hd with
  | [d], _, hd => exact ⟨[d], [], by simp [mantissa, decimalText], by simp, hd, by simp, by simp⟩
  | d :: d' :: rest, _, hd =>
    refine ⟨[d], d' :: rest, by simp [mantissa, decimalText], by simp,
      fun c hc => hd c (by simp_all), fun c hc => hd c (List.mem_cons_of_mem _ hc), ?_⟩
    simp only [List.singleton_append, List.length_cons]
    congr 2

theorem writesNumeral_scientificForm {ds : List Char} (hds : ds ≠ [])
    (hd : ∀ c ∈ ds, c.isDigit = true) (negative : Bool) (x : Int) :
    WritesNumeral (if negative then '-' :: scientificForm ds x else scientificForm ds x) negative
      (digitsValue ds * 10 ^ (x + 1 - ds.length)) := by
  refine Or.inr ⟨mantissa ds, exponentMark x, _, x, ?_, writesDecimal_mantissa hds hd,
    writesExponent_exponentMark x, ?_⟩
  · cases negative <;> rfl
  · rw [mul_assoc, ← zpow_add₀ (by norm_num)]
    congr 2
    omega

/-! ## The two layouts of a float -/

theorem writesNumeral_arrange_short {ds : List Char} (hds : ds ≠ [])
    (hd : ∀ c ∈ ds, c.isDigit = true) (negative : Bool) (x : Int) :
    WritesNumeral
      (if negative then '-' :: Layout.short.arrange ds x else Layout.short.arrange ds x) negative
      (digitsValue ds * 10 ^ (x + 1 - ds.length)) := by
  unfold Layout.arrange
  by_cases hpos : Layout.short.lowest ≤ x ∧ x ≤ Layout.short.highest
  · rw [if_pos hpos]
    exact Or.inl ⟨_, rfl, writesDecimal_positional hds hd x⟩
  · have hsci : Layout.short.scientific = true := rfl
    rw [if_neg hpos, if_pos hsci]
    exact writesNumeral_scientificForm hds hd negative x

theorem writesNumeral_magnitude_short {m : Nat} (hm : 0 < m) (e : Int) (negative : Bool) :
    WritesNumeral
      (if negative then '-' :: Layout.short.magnitude m e else Layout.short.magnitude m e)
      negative ((shortest m e).1 * 10 ^ (shortest m e).2) := by
  have h := writesNumeral_arrange_short (natDigits_ne_nil (shortest m e).1)
    (fun _ => isDigit_of_mem_natDigits)
    negative ((shortest m e).2 + (natDigits (shortest m e).1).length - 1)
  rw [digitsValue_natDigits] at h
  unfold Layout.magnitude
  rw [if_neg hm.ne']
  convert h using 3
  omega

theorem writesDecimal_zero : WritesDecimal ['0', '.', '0'] ((0 : Nat) * 10 ^ (0 : Int)) :=
  ⟨['0'], ['0'], rfl, by simp, by simp, by simp, by simp [digitsValue]⟩

theorem render_toList {l : Layout} {x : Float} {negative : Bool} {m : Nat} {e : Int}
    (h : Binary64.ofFloat x = .finite negative m e) :
    (l.render x).toList = if negative then '-' :: l.magnitude m e else l.magnitude m e := by
  unfold Layout.render
  rw [h, String.toList_ofList]
  cases negative <;> rfl

/-! ## The plain text of a float -/

/-- A finite float's plain text is a plain decimal, its short text writes the same decimal with
the same sign, and that decimal is a shortest decimal of the float's magnitude. -/
theorem plainText_finite {x : Float} (hx : x.isFinite = true) :
    ∃ (negative : Bool) (c : Nat) (k : Int),
      WritesPlain (plainText x).toList negative (c * 10 ^ k) ∧
        WritesNumeral (shortText x).toList negative (c * 10 ^ k) ∧ IsShortestDecimal x.abs c k := by
  have habs := Float.unpacked_abs x
  rw [Float.isFinite_iff] at hx
  cases hu : x.unpacked with
  | zero s =>
    -- both layouts write a zero as `0.0`
    have hb : Binary64.ofFloat x = .finite s.isNegative 0 (-1074) := by
      rw [ofFloat_eq_toBinary64, hu]
      rfl
    have hmag : ∀ l : Layout, l.magnitude 0 (-1074) = ['0', '.', '0'] := fun _ => rfl
    refine ⟨s.isNegative, 0, 0, ⟨_, ?_, writesDecimal_zero⟩, Or.inl ⟨_, ?_, writesDecimal_zero⟩,
      isShortestDecimal_zero (by rw [habs, hu]; rfl)⟩
    · rw [plainText, render_toList hb, hmag]
    · rw [shortText, render_toList hb, hmag]
  | finite s m e hm =>
    have hb : Binary64.ofFloat x = .finite s.isNegative m e := by
      rw [ofFloat_eq_toBinary64, hu]
      rfl
    refine ⟨s.isNegative, (shortest m e).1, (shortest m e).2,
      ⟨_, by rw [plainText, render_toList hb], writesDecimal_magnitude hm e⟩, ?_,
      isShortestDecimal_shortest (by rw [habs, hu]; rfl)⟩
    rw [shortText, render_toList hb]
    exact writesNumeral_magnitude_short hm e _
  | notANumber =>
    rw [hu] at hx
    cases hx
  | infinity s =>
    rw [hu] at hx
    cases hx

theorem plainText_of_isNaN {x : Float} (h : x.isNaN = true) : plainText x = "nan" := by
  rw [Float.isNaN_iff] at h
  unfold plainText Layout.render
  rw [ofFloat_eq_toBinary64, h]
  rfl

theorem plainText_of_isInf {x : Float} (h : x.isInf = true) :
    plainText x = if x < 0.0 then "-inf" else "inf" := by
  obtain ⟨s, hs⟩ := (Float.isInf_iff x).1 h
  have hlt : x < 0.0 ↔ s = .negative := by
    rw [Float.lt_iff_compare, hs, Float.unpacked_zero]
    cases s <;> simp [Float.Model.UnpackedFloat.compare]
  unfold plainText Layout.render
  rw [ofFloat_eq_toBinary64, hs]
  cases s <;> simp [toBinary64, Sign.isNegative, hlt]

/-- The plain text of a float reads back as the float, bit for bit. A finite float's plain text
is an optional minus sign and digits, with a point and more digits when there is a fraction; it
writes the same decimal as the float's shortest text, and that decimal has the fewest digits of
all decimals that read as the float's magnitude. NaN and the infinities are written as words. -/
theorem plainText_spec (x : Float) :
    readFloat? (plainText x) = some x ∧
      (x.isFinite = true → ∃ (negative : Bool) (c : Nat) (k : Int),
        WritesPlain (plainText x).toList negative (c * 10 ^ k) ∧
          WritesNumeral (shortText x).toList negative (c * 10 ^ k) ∧
            IsShortestDecimal x.abs c k) ∧
      (x.isNaN = true → plainText x = "nan") ∧
      (x.isInf = true → plainText x = if x < 0.0 then "-inf" else "inf") :=
  ⟨readChars_plainText x, plainText_finite, plainText_of_isNaN, plainText_of_isInf⟩

example : plainText 1e-5 = "0.00001" ∧ shortText 1e-5 = "1e-05" := by
  decide +kernel

end Backtest.Decimal
