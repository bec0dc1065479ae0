import Backtest.Proofs.Simulation.Outcome

/-!
# The faults that stop a run

A run stops on bad market data or on a size that has no share count, and on nothing else
(`simulate_dataFault`). Bad market data is found in a fixed order that reads only the series and
the rules: an empty series, then the first pair of dates that do not increase, then, step by step
and rule by rule, a condition dividing by a price that is not positive or holding at a close that is
not positive (`Rule.dataFault`). A NaN close passes those checks, so a size fault can come first.
-/

namespace Backtest.Market

/-- The fault of dividing by the earlier observation's price of a field that is not positive. -/
def baseFault (previous : Observation) (field : Field) : Fault :=
  .integrity .nonPositivePrice ("Non-positive " ++ field.name ++ " price " ++
    Decimal.shortText (previous.price field) ++ " on " ++ previous.date.iso)

theorem percentChange_eq_error {current previous : Observation} {field : Field} {f : Fault}
    (h : percentChange current previous field = .error f) :
    previous.price field ≤ 0.0 ∧ f = baseFault previous field := by
  unfold percentChange at h
  dsimp only at h
  split at h
  · cases h
    exact ⟨‹_›, rfl⟩
  · cases h

theorem percentChange_of_le {previous : Observation} {field : Field}
    (h : previous.price field ≤ 0.0) (current : Observation) :
    percentChange current previous field = .error (baseFault previous field) := by
  simp [percentChange, h, baseFault]

/-- The relation of adjacent observations whose dates increase. -/
def DatesIncrease (previous current : Observation) : Prop :=
  ¬ current.date ≤ previous.date

theorem checkIncreasing_eq_ok_iff (previous : Observation) (obs : List Observation) :
    checkIncreasing previous obs = .ok () ↔ (previous :: obs).IsChain DatesIncrease := by
  induction obs generalizing previous with
  | nil => simp [checkIncreasing]
  | cons current rest ih =>
    rw [List.isChain_cons_cons, ← ih]
    by_cases hle : current.date ≤ previous.date <;> simp [checkIncreasing, DatesIncrease, hle]

/-- A series fails the date check on its first adjacent pair whose dates do not increase, and the
message names that pair. -/
theorem checkIncreasing_eq_error {previous : Observation} {obs : List Observation} {f : Fault}
    (h : checkIncreasing previous obs = .error f) :
    ∃ pre a b post, previous :: obs = pre ++ a :: b :: post ∧
      (pre ++ [a]).IsChain DatesIncrease ∧ b.date ≤ a.date ∧
      f = .integrity .nonMonotonicDates
        ("Price dates must strictly increase: " ++ b.date.iso ++ " follows " ++ a.date.iso) := by
  induction obs generalizing previous with
  | nil => cases h
  | cons current rest ih =>
    unfold checkIncreasing at h
    split at h
    · -- the first pair is the culprit
      cases h
      exact ⟨[], previous, current, rest, rfl, List.isChain_singleton _, ‹_›, rfl⟩
    · -- the culprit comes later, after the increasing pair `previous`, `current`
      rename_i hlt
      obtain ⟨pre, a, b, post, hsplit, hchain, hle, rfl⟩ := ih h
      refine ⟨previous :: pre, a, b, post, by rw [hsplit]; rfl, ?_, hle, rfl⟩
      cases pre with
      | nil =>
        cases hsplit
        exact List.isChain_pair.mpr hlt
      | cons c pre =>
        cases hsplit
        exact List.isChain_cons_cons.mpr ⟨hlt, hchain⟩

end Backtest.Market

namespace Backtest.Rules

open Backtest.Market Backtest.Ledger Backtest.Simulation

/-- The field of the earlier observation a condition divides by: the field of a change, the close
for a price range (its change is taken first), none for `always`. -/
def Condition.base : Condition → Option Field
  | .always => none
  | .change field _ _ => some field
  | .changeRange _ _ field _ _ => some field
  | .valueRange _ _ _ => some .close

/-- The fault of a condition whose earlier price is not positive. -/
def Condition.baseFault? (c : Condition) (previous : Observation) : Option Fault :=
  match c.base with
  | some field => if previous.price field ≤ 0.0 then some (baseFault previous field) else none
  | none => none

/-- Whether a condition holds on a step; one that cannot be evaluated does not. -/
def Condition.holds (c : Condition) (current previous : Observation) : Bool :=
  match c.evaluate current previous with
  | .ok v => v.matched
  | .error _ => false

theorem Condition.baseFault?_of_error {c : Condition} {current previous : Observation} {f : Fault}
    (h : c.evaluate current previous = .error f) : c.baseFault? previous = some f := by
  -- `always` cannot fail; every other condition fails only in its percentage change
  have hpct : ∀ {field : Field} {g : Float → Except Fault Verdict},
      (percentChange current previous field >>= g) = .error f →
        (∀ x, g x ≠ .error f) → previous.price field ≤ 0.0 ∧ f = baseFault previous field := by
    intro field g hbind hg
    rcases bind_eq_error hbind with hp | ⟨x, -, hx⟩
    · exact percentChange_eq_error hp
    · exact absurd hx (hg x)
  cases c with
  | always => cases h
  | change _ _ _ | changeRange _ _ _ _ _ | valueRange _ _ _ =>
    obtain ⟨hle, rfl⟩ := hpct h (fun _ => nofun)
    simp [baseFault?, Condition.base, hle]

theorem Condition.evaluate_of_baseFault? {c : Condition} {previous : Observation} {f : Fault}
    (h : c.baseFault? previous = some f) (current : Observation) :
    c.evaluate current previous = .error f := by
  unfold baseFault? at h
  split at h
  · rename_i field hbase
    split at h
    · rename_i hle
      cases h
      cases c <;> cases hbase <;>
        simp [Condition.evaluate, percentChange_of_le hle, bind, Except.bind]
    · cases h
  · cases h

theorem Condition.baseFault?_of_ok {c : Condition} {current previous : Observation} {v : Verdict}
    (h : c.evaluate current previous = .ok v) : c.baseFault? previous = none := by
  cases hf : c.baseFault? previous with
  | none => rfl
  | some f =>
    rw [Condition.evaluate_of_baseFault? hf current] at h
    cases h

/-- The first fault of market data a rule meets on a step: none for a disabled rule; for an
enabled one, the fault of its condition's earlier price, or else, when its condition holds at a
close that is not positive, the fault of trading there. -/
def Rule.dataFault (current previous : Observation) (rule : Rule) : Option Fault :=
  if rule.enabled then
    match rule.condition.baseFault? previous with
    | some f => some f
    | none =>
      if rule.condition.holds current previous = true ∧ current.close ≤ 0.0 then
        some (tradeFault current.close)
      else none
  else none

theorem Rule.dataFault_of_disabled {rule : Rule} (hen : rule.enabled = false)
    (current previous : Observation) : rule.dataFault current previous = none := by
  simp [Rule.dataFault, hen]

theorem Rule.dataFault_of_error {rule : Rule} {current previous : Observation} {f : Fault}
    (hen : rule.enabled = true) (hev : rule.condition.evaluate current previous = .error f) :
    rule.dataFault current previous = some f := by
  simp [Rule.dataFault, hen, Condition.baseFault?_of_error hev]

theorem Rule.dataFault_of_ok {rule : Rule} {current previous : Observation} {v : Verdict}
    (hen : rule.enabled = true) (hev : rule.condition.evaluate current previous = .ok v) :
    rule.dataFault current previous =
      if v.matched = true ∧ current.close ≤ 0.0 then some (tradeFault current.close) else none := by
  simp [Rule.dataFault, hen, Condition.baseFault?_of_ok hev, Condition.holds, hev]

end Backtest.Rules

namespace Backtest.Simulation

open Backtest.Ledger Backtest.Market Backtest.Rules

/-- The first fault of market data on a step, scanning the rules in declared order. -/
def stepDataFault (rules : List Rule) (current previous : Observation) : Option Fault :=
  rules.findSome? (Rule.dataFault current previous)

/-- The first fault of market data on the steps from `previous` through `obs`, in order. -/
def runDataFault (rules : List Rule) : Observation → List Observation → Option Fault
  | _, [] => none
  | previous, current :: rest =>
    (stepDataFault rules current previous).or (runDataFault rules current rest)

/-- The first fault of market data of a series: its emptiness, its first pair of dates that do
not increase, or the first fault of its steps. -/
def seriesDataFault (rules : List Rule) : List Observation → Option Fault
  | [] => some (.integrity .emptyPrices "Price series is empty")
  | first :: rest =>
    match checkIncreasing first rest with
    | .error f => some f
    | .ok () => runDataFault rules first rest

/-- How a run may end, given the first fault of market data a scan finds: it returns only when
there is none, and it stops on that fault or on a size fault. -/
def Stops {α : Type} (first : Option Fault) : Except Fault α → Prop
  | .ok _ => first = none
  | .error f => first = some f ∨ SizeFault f

theorem StepOrders.stops {rate : Float} {current previous : Observation} {position : Nat}
    {rules : List Rule} {p : Portfolio} {orders : List Order} {r : Except Fault Portfolio}
    (h : StepOrders rate current previous position rules p orders r) :
    Stops (stepDataFault rules current previous) r := by
  unfold stepDataFault
  induction h with
  | done => rfl
  | disabled hen _ ih =>
    rw [List.findSome?_cons, Rule.dataFault_of_disabled hen]
    exact ih
  | unmatched hen hev hm _ ih =>
    rw [List.findSome?_cons, Rule.dataFault_of_ok hen hev, hm]
    exact ih
  | unreadable hen hev =>
    rw [List.findSome?_cons, Rule.dataFault_of_error hen hev]
    exact .inl rfl
  | failed hen hev hm hex =>
    rcases execute_eq_error hex with ⟨hle, rfl⟩ | ⟨-, hsize⟩
    · rw [List.findSome?_cons, Rule.dataFault_of_ok hen hev, hm, if_pos ⟨rfl, hle⟩]
      exact .inl rfl
    · exact .inr hsize
  | placed hen hev hm hex _ ih =>
    have hpos := execute_price hex
    rw [List.findSome?_cons, Rule.dataFault_of_ok hen hev, if_neg (fun h => hpos h.2)]
    exact ih

theorem RunOrders.stops {rate : Float} {rules : List Rule} {previous : Observation}
    {obs : List Observation} {p : Portfolio} {orders : List Order} {points : List Valuation}
    {r : Except Fault Portfolio} (h : RunOrders rate rules previous obs p orders points r) :
    Stops (runDataFault rules previous obs) r := by
  induction h with
  | done => rfl
  | stopped hs =>
    rcases hs.stops with hfirst | hsize
    · exact .inl (by rw [runDataFault, hfirst]; rfl)
    · exact .inr hsize
  | unvalued _ hv =>
    -- valuing the portfolio the step left fails only on its share count
    exact .inr (by rw [valueAt_error hv]; exact .tooLarge)
  | step hs _ _ ih =>
    have hnone : stepDataFault _ _ _ = none := hs.stops
    rw [runDataFault, hnone]
    exact ih

theorem stops_runOutcome {first : Option Fault} {ending : Except Fault Portfolio}
    (h : Stops first ending) (initial : Portfolio) (start : Observation) (orders : List Order)
    (points : List Valuation) : Stops first (runOutcome initial start orders points ending) := by
  cases ending with
  | error f => exact h
  | ok p =>
    unfold runOutcome
    cases hvalue : valueAt initial start.close with
    | ok value => exact h
    | error f =>
      rw [valueAt_error hvalue]
      exact .inr .tooLarge

theorem simulate_of_checkSeries {rate : Float} {series : List Observation} {rules : List Rule}
    {initial : Portfolio} {f : Fault} (hrate : 0.0 ≤ rate ∧ rate < 1.0)
    (h : checkSeries series = .error f) :
    (simulate rate series rules initial).outcome = .error f := by
  cases hout : (simulate rate series rules initial).outcome with
  | ok R =>
    obtain ⟨first, rest, -, -, rfl, hinc, -⟩ := replay_eq_ok (simulate_eq_ok hout)
    rw [checkSeries, hinc] at h
    cases h
  | error f' =>
    rcases simulate_eq_error hout with hcheck | ⟨j, hrep⟩
    · rw [checkRate_of_bounds hrate] at hcheck
      cases hcheck
    rcases replay_eq_error hrep with ⟨hcheck, -⟩ | ⟨first, rest, -, -, -, rfl, hinc, -⟩
    · rw [h] at hcheck
      cases hcheck
      rfl
    · rw [checkSeries, hinc] at h
      cases h

/-- The faults that stop a run, for a commission rate in `[0, 1)`: a run returns only when the
scan of its series finds no fault of market data, and otherwise stops on the scan's first fault,
unless a size fault stops it first. A size fault can also stop a run whose scan finds nothing.
The scan fails an empty series, then a series at its first adjacent pair of observations whose
dates do not increase, with the message naming that pair; a series that fails so stops the run
with exactly that fault. -/
theorem simulate_dataFault {rate : Float} (hrate : 0.0 ≤ rate ∧ rate < 1.0)
    (series : List Observation) (rules : List Rule) (initial : Portfolio) :
    Stops (seriesDataFault rules series) (simulate rate series rules initial).outcome ∧
    (∀ f, checkSeries series = .error f → (simulate rate series rules initial).outcome = .error f) ∧
    (∀ first rest, series = first :: rest →
      (checkIncreasing first rest = .ok () ↔ series.IsChain DatesIncrease) ∧
      ∀ f, checkIncreasing first rest = .error f →
        ∃ pre a b post, series = pre ++ a :: b :: post ∧
          (pre ++ [a]).IsChain DatesIncrease ∧ b.date ≤ a.date ∧
          f = .integrity .nonMonotonicDates
            ("Price dates must strictly increase: " ++ b.date.iso ++ " follows " ++ a.date.iso)) := by
  refine ⟨?_, fun f h => simulate_of_checkSeries hrate h, ?_⟩
  · cases series with
    | nil =>
      rw [simulate_of_checkSeries hrate (show checkSeries [] = _ from rfl)]
      exact .inl rfl
    | cons first rest =>
      cases hinc : checkIncreasing first rest with
      | error f =>
        rw [seriesDataFault, hinc,
          simulate_of_checkSeries hrate (show checkSeries (first :: rest) = .error f from hinc)]
        exact .inl rfl
      | ok u =>
        -- the run over a checked series returns what its run relation says
        obtain ⟨orders, points, ending, hrun⟩ := RunOrders.exists rate rules first rest initial
        rw [seriesDataFault, hinc, simulate_outcome hrate hinc hrun]
        exact stops_runOutcome hrun.stops initial first orders points
  · rintro first rest rfl
    exact ⟨checkIncreasing_eq_ok_iff first rest, fun f h => checkIncreasing_eq_error h⟩

/-- A run that buys for a fixed amount every day, over a close that is NaN and then `-1`: the scan
stops at the close of `-1`, and the run stops no later. -/
theorem simulate_dataFault_nanClose :
    ((0.0 : Float) ≤ 0.0 ∧ (0.0 : Float) < 1.0) ∧
    (Stops (seriesDataFault [{ condition := .always, action := .amount .buy 100.0 }]
        [⟨⟨2024, 1, 1⟩, 10.0, 10.0, 10.0, 10.0, 0.0⟩, ⟨⟨2024, 1, 2⟩, 10.0, 10.0, 10.0, 0.0 / 0.0, 0.0⟩,
          ⟨⟨2024, 1, 3⟩, 10.0, 10.0, 10.0, -1.0, 0.0⟩])
      (simulate 0.0
        [⟨⟨2024, 1, 1⟩, 10.0, 10.0, 10.0, 10.0, 0.0⟩, ⟨⟨2024, 1, 2⟩, 10.0, 10.0, 10.0, 0.0 / 0.0, 0.0⟩,
          ⟨⟨2024, 1, 3⟩, 10.0, 10.0, 10.0, -1.0, 0.0⟩]
        [{ condition := .always, action := .amount .buy 100.0 }] ⟨1000.0, 0⟩).outcome ∧
    (∀ f, checkSeries [⟨⟨2024, 1, 1⟩, 10.0, 10.0, 10.0, 10.0, 0.0⟩,
          ⟨⟨2024, 1, 2⟩, 10.0, 10.0, 10.0, 0.0 / 0.0, 0.0⟩, ⟨⟨2024, 1, 3⟩, 10.0, 10.0, 10.0, -1.0, 0.0⟩] =
        .error f →
      (simulate 0.0
        [⟨⟨2024, 1, 1⟩, 10.0, 10.0, 10.0, 10.0, 0.0⟩, ⟨⟨2024, 1, 2⟩, 10.0, 10.0, 10.0, 0.0 / 0.0, 0.0⟩,
          ⟨⟨2024, 1, 3⟩, 10.0, 10.0, 10.0, -1.0, 0.0⟩]
        [{ condition := .always, action := .amount .buy 100.0 }] ⟨1000.0, 0⟩).outcome = .error f) ∧
    (∀ first rest, [(⟨⟨2024, 1, 1⟩, 10.0, 10.0, 10.0, 10.0, 0.0⟩ : Observation),
          ⟨⟨2024, 1, 2⟩, 10.0, 10.0, 10.0, 0.0 / 0.0, 0.0⟩, ⟨⟨2024, 1, 3⟩, 10.0, 10.0, 10.0, -1.0, 0.0⟩] =
        first :: rest →
      (checkIncreasing first rest = .ok () ↔
        [(⟨⟨2024, 1, 1⟩, 10.0, 10.0, 10.0, 10.0, 0.0⟩ : Observation),
          ⟨⟨2024, 1, 2⟩, 10.0, 10.0, 10.0, 0.0 / 0.0, 0.0⟩,
          ⟨⟨2024, 1, 3⟩, 10.0, 10.0, 10.0, -1.0, 0.0⟩].IsChain DatesIncrease) ∧
      ∀ f, checkIncreasing first rest = .error f →
        ∃ pre a b post, [(⟨⟨2024, 1, 1⟩, 10.0, 10.0, 10.0, 10.0, 0.0⟩ : Observation),
            ⟨⟨2024, 1, 2⟩, 10.0, 10.0, 10.0, 0.0 / 0.0, 0.0⟩,
            ⟨⟨2024, 1, 3⟩, 10.0, 10.0, 10.0, -1.0, 0.0⟩] = pre ++ a :: b :: post ∧
          (pre ++ [a]).IsChain DatesIncrease ∧ b.date ≤ a.date ∧
          f = .integrity .nonMonotonicDates
            ("Price dates must strictly increase: " ++ b.date.iso ++ " follows " ++ a.date.iso))) :=
  have hrate : (0.0 : Float) ≤ 0.0 ∧ (0.0 : Float) < 1.0 := ⟨by decide, by decide⟩
  ⟨hrate, simulate_dataFault hrate _ _ _⟩

end Backtest.Simulation
