import Backtest.Proofs.Binary64.Extended
import Backtest.Proofs.Simulation.Integrity

/-!
# Conditions as ranges of percentage changes

Every condition but `always` reports the percentage change of one price field and fails exactly
when the earlier price is not positive (`Condition.evaluate_derived`). A threshold is the range from
it up to the positive infinity (`change_eq_changeRange`), a range on the size of the change holds
when it holds of the change or its negation (`holds_both`), and opening a bound only narrows a
range (`holds_withBounds_mono`). The proofs read float comparisons as comparisons of extended reals
(`Float.le_iff_extended`).
-/

namespace Backtest.Rules

open Backtest.Market

/-- The sense of a range that compares the change as a threshold in a direction does. -/
def Direction.sense : Direction → Sense
  | .up => .up
  | .down => .down

/-- The change a range of a sense compares: the change itself, its negation, or its size. -/
def Sense.adjust : Sense → Float → Float
  | .up, pct => pct
  | .down, pct => -pct
  | .both, pct => pct.abs

/-- The same condition with other bounds, for the two ranges; other conditions have none. -/
def Condition.withBounds (c : Condition) (b : Bounds) : Condition :=
  match c with
  | .changeRange low high field sense _ => .changeRange low high field sense b
  | .valueRange low high _ => .valueRange low high b
  | c => c

/-- Whether `value` lies between `lower` and `upper` in a linear order, ends included as the bounds
say. -/
def Bounds.Admits {α : Type} [LinearOrder α] (b : Bounds) (value lower upper : α) : Prop :=
  match b with
  | .inclusive => lower ≤ value ∧ value ≤ upper
  | .exclusive => lower < value ∧ value < upper
  | .leftInclusive => lower ≤ value ∧ value < upper
  | .rightInclusive => lower < value ∧ value ≤ upper

/-! ## Bounds -/

/-- A float is in a range exactly when neither it nor an end is NaN and the extended reals they
stand for are in that range. -/
theorem Bounds.contains_iff (b : Bounds) (value lower upper : Float) :
    b.contains value lower upper = true ↔ value.isNaN = false ∧ lower.isNaN = false ∧
      upper.isNaN = false ∧ b.Admits value.extended lower.extended upper.extended := by
  cases b <;>
    simp only [Bounds.contains, Bounds.Admits, Bool.and_eq_true, decide_eq_true_eq,
      Float.le_iff_extended, Float.lt_iff_extended] <;>
    tauto

theorem Bounds.Admits.lower_le {α : Type} [LinearOrder α] {b : Bounds} {value lower upper : α}
    (h : b.Admits value lower upper) : lower ≤ value := by
  cases b
  · exact h.1
  · exact h.1.le
  · exact h.1
  · exact h.1.le

theorem Bounds.admits_max_neg (b : Bounds) {x lower upper : EReal} (hlower : 0 ≤ lower) :
    b.Admits (max x (-x)) lower upper ↔ b.Admits x lower upper ∨ b.Admits (-x) lower upper := by
  rcases le_total 0 x with hx | hx
  · have hneg : -x ≤ x := (EReal.neg_le_zero.2 hx).trans hx
    rw [max_eq_left hneg]
    refine ⟨.inl, fun h => h.elim id fun h' => ?_⟩
    -- the negation is in the range only if it is not negative, so `x` is zero
    have hzero : x = 0 := le_antisymm (EReal.neg_nonneg.1 (hlower.trans h'.lower_le)) hx
    subst hzero
    simpa only [neg_zero] using h'
  · have hneg : x ≤ -x := hx.trans (EReal.neg_nonneg.2 hx)
    rw [max_eq_right hneg]
    refine ⟨.inr, fun h => h.elim (fun h' => ?_) id⟩
    have hzero : x = 0 := le_antisymm hx (hlower.trans h'.lower_le)
    subst hzero
    simpa only [neg_zero] using h'

theorem extended_nonneg {x : Float} (h : 0.0 ≤ x) : 0 ≤ x.extended := by
  have hz : (0.0 : Float).extended = 0 := by
    simp [Float.extended, Float.Model.UnpackedFloat.extended, Float.Model.UnpackedFloat.value]
  rw [← hz]
  exact ((Float.le_iff_extended _ _).1 h).2.2

theorem Bounds.contains_abs (b : Bounds) {lower : Float} (hlower : 0.0 ≤ lower)
    (value upper : Float) :
    b.contains value.abs lower upper = true ↔
      b.contains value lower upper = true ∨ b.contains (-value) lower upper = true := by
  simp only [Bounds.contains_iff, Float.isNaN_abs, Float.isNaN_neg, Float.extended_abs,
    Float.extended_neg, b.admits_max_neg (extended_nonneg hlower)]
  tauto

theorem Bounds.contains_exclusive {value lower upper : Float}
    (h : Bounds.exclusive.contains value lower upper = true) :
    Bounds.leftInclusive.contains value lower upper = true ∧
      Bounds.rightInclusive.contains value lower upper = true := by
  simp only [Bounds.contains, Bool.and_eq_true, decide_eq_true_eq] at h ⊢
  exact ⟨⟨Float.le_of_lt h.1, h.2⟩, ⟨h.1, Float.le_of_lt h.2⟩⟩

theorem Bounds.contains_leftInclusive {value lower upper : Float}
    (h : Bounds.leftInclusive.contains value lower upper = true) :
    Bounds.inclusive.contains value lower upper = true := by
  simp only [Bounds.contains, Bool.and_eq_true, decide_eq_true_eq] at h ⊢
  exact ⟨h.1, Float.le_of_lt h.2⟩

theorem Bounds.contains_rightInclusive {value lower upper : Float}
    (h : Bounds.rightInclusive.contains value lower upper = true) :
    Bounds.inclusive.contains value lower upper = true := by
  simp only [Bounds.contains, Bool.and_eq_true, decide_eq_true_eq] at h ⊢
  exact ⟨Float.le_of_lt h.1, h.2⟩

/-! ## Evaluating conditions -/

theorem percentChange_of_pos {previous : Observation} {field : Field}
    (h : ¬ previous.price field ≤ 0.0) (current : Observation) :
    percentChange current previous field =
      .ok ((current.price field - previous.price field) / previous.price field * 100.0) := by
  simp [percentChange, h]

/-- A condition other than `always` reports the percentage change of the field it looks at, and
fails exactly where that change does. -/
theorem Condition.evaluate_derived {c : Condition} {field : Field} (hbase : c.base = some field)
    (current previous : Observation) :
    (c.evaluate current previous).map Verdict.derived = percentChange current previous field := by
  cases c with
  | always => cases hbase
  | _ =>
    simp only [Condition.base, Option.some.injEq] at hbase
    subst hbase
    simp only [Condition.evaluate]
    cases percentChange current previous _ <;> rfl

theorem Condition.evaluate_base {c : Condition} {field : Field} (hbase : c.base = some field)
    (current previous : Observation) :
    (∀ f, c.evaluate current previous = .error f ↔
      previous.price field ≤ 0.0 ∧ f = baseFault previous field) ∧
    ∀ v, c.evaluate current previous = .ok v →
      v.derived = (current.price field - previous.price field) / previous.price field * 100.0 := by
  have hmap := c.evaluate_derived hbase current previous
  refine ⟨fun f => ⟨fun h => ?_, fun ⟨hle, hf⟩ => ?_⟩, fun v h => ?_⟩
  · rw [h] at hmap
    exact percentChange_eq_error hmap.symm
  · rw [percentChange_of_le hle, ← hf] at hmap
    cases h : c.evaluate current previous with
    | ok v => rw [h] at hmap; cases hmap
    | error f' => rw [h] at hmap; cases hmap; rfl
  · rw [h] at hmap
    by_cases hle : previous.price field ≤ 0.0
    · rw [percentChange_of_le hle] at hmap
      cases hmap
    · rw [percentChange_of_pos hle] at hmap
      exact Except.ok.inj hmap

theorem decide_le_and_le_inf (a b : Float) :
    (decide (a ≤ b) && decide (b ≤ 1.0 / 0.0)) = decide (a ≤ b) := by
  by_cases h : a ≤ b
  · simp [h, (Float.le_inf_iff b).2 (Float.isNaN_eq_false_of_le h).2]
  · simp [h]

theorem evaluate_change_up (field : Field) (threshold : Float) (current previous : Observation) :
    (Condition.change field threshold .up).evaluate current previous =
      percentChange current previous field >>= fun pct => pure ⟨decide (threshold ≤ pct), pct⟩ :=
  rfl

theorem evaluate_change_down (field : Field) (threshold : Float) (current previous : Observation) :
    (Condition.change field threshold .down).evaluate current previous =
      percentChange current previous field >>= fun pct => pure ⟨decide (pct ≤ -threshold), pct⟩ :=
  rfl

theorem evaluate_changeRange (low high : Float) (field : Field) (sense : Sense) (bounds : Bounds)
    (current previous : Observation) :
    (Condition.changeRange low high field sense bounds).evaluate current previous =
      percentChange current previous field >>= fun pct =>
        pure ⟨bounds.contains (sense.adjust pct) low high, pct⟩ := by
  cases sense <;> rfl

/-- A threshold condition is the range from its threshold up to the positive infinity, taken in
its direction with both ends included: they fail alike, hold alike and report the same change. -/
theorem change_eq_changeRange (field : Field) (threshold : Float) (direction : Direction)
    (current previous : Observation) :
    (Condition.change field threshold direction).evaluate current previous =
      (Condition.changeRange threshold (1.0 / 0.0) field direction.sense .inclusive).evaluate
        current previous := by
  cases direction
  · rw [evaluate_change_up, evaluate_changeRange]
    congr 1
    funext pct
    show (pure ⟨decide (threshold ≤ pct), pct⟩ : Except Fault Verdict) =
      pure ⟨decide (threshold ≤ pct) && decide (pct ≤ 1.0 / 0.0), pct⟩
    rw [decide_le_and_le_inf]
  · rw [evaluate_change_down, evaluate_changeRange]
    congr 1
    funext pct
    show (pure ⟨decide (pct ≤ -threshold), pct⟩ : Except Fault Verdict) =
      pure ⟨decide (threshold ≤ -pct) && decide (-pct ≤ 1.0 / 0.0), pct⟩
    rw [decide_le_and_le_inf, decide_eq_decide.2 (Float.le_neg_comm pct threshold)]

theorem holds_changeRange (low high : Float) (field : Field) (sense : Sense) (bounds : Bounds)
    (current previous : Observation) :
    (Condition.changeRange low high field sense bounds).holds current previous =
      match percentChange current previous field with
      | .ok pct => bounds.contains (sense.adjust pct) low high
      | .error _ => false := by
  simp only [Condition.holds, evaluate_changeRange]
  cases percentChange current previous field <;> rfl

/-- With a lower end that is not negative, a range on the size of the change holds exactly when
the same range holds of the change or of its negation. -/
theorem holds_both {low : Float} (hlow : 0.0 ≤ low) (high : Float) (field : Field)
    (bounds : Bounds) (current previous : Observation) :
    (Condition.changeRange low high field .both bounds).holds current previous = true ↔
      (Condition.changeRange low high field .up bounds).holds current previous = true ∨
        (Condition.changeRange low high field .down bounds).holds current previous = true := by
  simp only [holds_changeRange]
  cases percentChange current previous field with
  | error => simp
  | ok pct => exact bounds.contains_abs hlow pct high

theorem holds_withBounds_mono {b₁ b₂ : Bounds}
    (hmono : ∀ value lower upper, b₁.contains value lower upper = true →
      b₂.contains value lower upper = true)
    (c : Condition) (current previous : Observation)
    (h : (c.withBounds b₁).holds current previous = true) :
    (c.withBounds b₂).holds current previous = true := by
  cases c with
  | changeRange low high field sense bounds =>
    simp only [Condition.withBounds, holds_changeRange] at h ⊢
    cases hpct : percentChange current previous field with
    | error => simp [hpct] at h
    | ok pct =>
      simp only [hpct] at h ⊢
      exact hmono _ _ _ h
  | valueRange low high bounds =>
    simp only [Condition.withBounds, Condition.holds, Condition.evaluate] at h ⊢
    cases hpct : percentChange current previous .close with
    | error => simp [hpct, bind, Except.bind] at h
    | ok pct =>
      simp only [hpct, bind, Except.bind, pure, Except.pure] at h ⊢
      exact hmono _ _ _ h
  | _ => exact h

/-- How conditions relate as ranges of the percentage change, on every step: a threshold is the
range from it up to the positive infinity, with the same outcome; above a lower end that is not
negative, a range on the size of the change holds exactly when it holds of the change or of its
negation; leaving an end out of a range only makes it hold less often; and every condition but
`always` fails exactly when the earlier price of its field is not positive, and otherwise reports
that field's signed percentage change. -/
theorem Condition.rangeLaws (current previous : Observation) :
    (∀ field threshold direction,
      (Condition.change field threshold direction).evaluate current previous =
        (Condition.changeRange threshold (1.0 / 0.0) field direction.sense .inclusive).evaluate
          current previous) ∧
    (∀ low high field bounds, 0.0 ≤ low →
      ((Condition.changeRange low high field .both bounds).holds current previous = true ↔
        (Condition.changeRange low high field .up bounds).holds current previous = true ∨
          (Condition.changeRange low high field .down bounds).holds current previous = true)) ∧
    (∀ c : Condition,
      ((c.withBounds .exclusive).holds current previous = true →
        (c.withBounds .leftInclusive).holds current previous = true ∧
          (c.withBounds .rightInclusive).holds current previous = true) ∧
      ((c.withBounds .leftInclusive).holds current previous = true →
        (c.withBounds .inclusive).holds current previous = true) ∧
      ((c.withBounds .rightInclusive).holds current previous = true →
        (c.withBounds .inclusive).holds current previous = true)) ∧
    (∀ (c : Condition) field, c.base = some field →
      (∀ f, c.evaluate current previous = .error f ↔
        previous.price field ≤ 0.0 ∧ f = baseFault previous field) ∧
      ∀ v, c.evaluate current previous = .ok v →
        v.derived = (current.price field - previous.price field) / previous.price field * 100.0) := by
  refine ⟨fun field threshold direction => change_eq_changeRange field threshold direction
      current previous,
    fun low high field bounds hlow => holds_both hlow high field bounds current previous,
    fun c => ⟨fun h => ⟨?_, ?_⟩, ?_, ?_⟩,
    fun c field hbase => c.evaluate_base hbase current previous⟩
  · exact holds_withBounds_mono (fun _ _ _ h => (Bounds.contains_exclusive h).1) c current
      previous h
  · exact holds_withBounds_mono (fun _ _ _ h => (Bounds.contains_exclusive h).2) c current
      previous h
  · exact holds_withBounds_mono (fun _ _ _ h => Bounds.contains_leftInclusive h) c current previous
  · exact holds_withBounds_mono (fun _ _ _ h => Bounds.contains_rightInclusive h) c current
      previous

/-- On a step from a close of 10 to one of 12, with a lower end of 2 for the range on the size of
the change, and for a range of closes, which looks at the close. -/
theorem rangeLaws_tenToTwelve :
    (0.0 : Float) ≤ 2.0 ∧
    ((Condition.changeRange 2.0 30.0 .close .both .inclusive).holds
        ⟨⟨2024, 1, 2⟩, 12.0, 12.0, 12.0, 12.0, 0.0⟩ ⟨⟨2024, 1, 1⟩, 10.0, 10.0, 10.0, 10.0, 0.0⟩ =
          true ↔
      (Condition.changeRange 2.0 30.0 .close .up .inclusive).holds
          ⟨⟨2024, 1, 2⟩, 12.0, 12.0, 12.0, 12.0, 0.0⟩ ⟨⟨2024, 1, 1⟩, 10.0, 10.0, 10.0, 10.0, 0.0⟩ =
            true ∨
        (Condition.changeRange 2.0 30.0 .close .down .inclusive).holds
          ⟨⟨2024, 1, 2⟩, 12.0, 12.0, 12.0, 12.0, 0.0⟩ ⟨⟨2024, 1, 1⟩, 10.0, 10.0, 10.0, 10.0, 0.0⟩ =
            true) ∧
    (Condition.valueRange 5.0 20.0 .inclusive).base = some .close ∧
    ((∀ f, (Condition.valueRange 5.0 20.0 .inclusive).evaluate
          ⟨⟨2024, 1, 2⟩, 12.0, 12.0, 12.0, 12.0, 0.0⟩ ⟨⟨2024, 1, 1⟩, 10.0, 10.0, 10.0, 10.0, 0.0⟩ =
            .error f ↔
        (10.0 : Float) ≤ 0.0 ∧ f = baseFault ⟨⟨2024, 1, 1⟩, 10.0, 10.0, 10.0, 10.0, 0.0⟩ .close) ∧
      ∀ v, (Condition.valueRange 5.0 20.0 .inclusive).evaluate
          ⟨⟨2024, 1, 2⟩, 12.0, 12.0, 12.0, 12.0, 0.0⟩ ⟨⟨2024, 1, 1⟩, 10.0, 10.0, 10.0, 10.0, 0.0⟩ =
            .ok v →
        v.derived = ((12.0 : Float) - 10.0) / 10.0 * 100.0) :=
  ⟨by decide,
    (Condition.rangeLaws ⟨⟨2024, 1, 2⟩, 12.0, 12.0, 12.0, 12.0, 0.0⟩
      ⟨⟨2024, 1, 1⟩, 10.0, 10.0, 10.0, 10.0, 0.0⟩).2.1 2.0 30.0 .close .inclusive (by decide),
    rfl,
    (Condition.rangeLaws ⟨⟨2024, 1, 2⟩, 12.0, 12.0, 12.0, 12.0, 0.0⟩
      ⟨⟨2024, 1, 1⟩, 10.0, 10.0, 10.0, 10.0, 0.0⟩).2.2.2 (.valueRange 5.0 20.0 .inclusive) .close rfl⟩

end Backtest.Rules
