import Backtest.Simulation.Journal
import Backtest.Rules.Condition
import Backtest.Ledger.Execute
import Backtest.Market.Series

/-!
# Running a strategy over a price series

A run replays a non-empty series with increasing dates against an ordered list of rules: every step
after the first observation applies the enabled rules in order to the pair of observations, each on
the portfolio the rules before it left, and then values the portfolio at the close. Bad market data
stops the run and is recorded as a failure in the journal; any other fault, a size that has no share
count, stops it leaving the journal as it stood.
-/

namespace Backtest.Simulation

open Backtest.Market Backtest.Ledger Backtest.Rules Backtest.Decimal

/-- The portfolio's value at the close of a step. -/
structure Valuation where
  date : Calendar.Date
  cash : Float
  shares : Nat
  close : Float
  totalValue : Float

/-- What a completed run produced. -/
structure Result where
  initialPortfolio : Portfolio
  initialValue : Float
  finalPortfolio : Portfolio
  trades : List Trade
  valuation : List Valuation

/-- The last recorded value, or the start value when no step was taken. -/
def Result.finalValue (r : Result) : Float :=
  match r.valuation.getLast? with
  | some v => v.totalValue
  | none => r.initialValue

/-- The gain of the run. -/
def Result.totalReturn (r : Result) : Float :=
  r.finalValue - r.initialValue

/-- The gain in percent of a positive start value, zero otherwise. -/
def Result.totalReturnPct (r : Result) : Float :=
  if r.initialValue ≤ 0.0 then 0.0 else r.totalReturn / r.initialValue * 100.0

/-- The value of a portfolio at a price. -/
def valueAt (p : Portfolio) (price : Float) : Except Fault Float := do
  let s ← asFloat p.shares
  pure (p.cash + s * price)

/-- The state of a run between steps. -/
structure State where
  portfolio : Portfolio
  trades : List Trade
  valuation : List Valuation
  journal : Journal

/-- A run stopped by a fault, with the state it stopped in. -/
abbrev Stopped := Fault × State

/-- Lifts a fallible step into the run, keeping the state at a fault. -/
def within {α : Type} (st : State) (x : Except Fault α) : Except Stopped α :=
  x.mapError fun f => (f, st)

/-- The label of a rule: its name, or `rule-<position>` counting from one. -/
def label (rule : Rule) (position : Nat) : String :=
  if rule.name.isEmpty then "rule-" ++ toString (position + 1) else rule.name

/-- Records an order's outcome: the new portfolio, and the trade or the formula error. -/
def State.record (st : State) (rule : String) (date : Calendar.Date) (o : Outcome) : State :=
  let st := { st with portfolio := o.portfolio }
  match o.trade with
  | some t =>
    let t := { t with date := some date }
    { st with trades := st.trades ++ [t], journal := st.journal.log (.trade rule t) }
  | none =>
    match o.reason.code with
    | some code =>
      { st with journal := ((st.journal.log (.skipped rule date code o.reason.text)).notify
          .formulaError (rule ++ ": " ++ o.reason.text)) }
    | none => st

/-- Records the value at the close of a step and reports the step done. -/
def State.close (st : State) (point : Valuation) (step total : Nat) : State :=
  { st with
    valuation := st.valuation ++ [point]
    journal := st.journal.report .running step total point.date }

/-- Applies one rule on a step. -/
def applyRule (rate : Float) (current previous : Observation) (position : Nat) (rule : Rule)
    (st : State) : Except Stopped State := do
  if !rule.enabled then return st
  let v ← within st (rule.condition.evaluate current previous)
  if !v.matched then return st
  let o ← within st (execute rate rule.action current.close st.portfolio v.derived)
  return st.record (label rule position) current.date o

/-- Applies the rules from `position` on, in order, on a step. -/
def applyRules (rate : Float) (current previous : Observation) :
    Nat → List Rule → State → Except Stopped State
  | _, [], st => .ok st
  | position, rule :: rest, st => do
    let st ← applyRule rate current previous position rule st
    applyRules rate current previous (position + 1) rest st

/-- Runs the steps from `previous` through the remaining observations; `step` counts them. -/
def runSteps (rate : Float) (rules : List Rule) (total : Nat) :
    Nat → Observation → List Observation → State → Except Stopped State
  | _, _, [], st => .ok st
  | step, previous, current :: rest, st => do
    let st ← applyRules rate current previous 0 rules st
    let value ← within st (valueAt st.portfolio current.close)
    let point : Valuation := ⟨current.date, st.portfolio.cash, st.portfolio.shares, current.close,
      value⟩
    runSteps rate rules total (step + 1) current rest (st.close point step total)

/-- Replays a series on a checked commission rate: the result and the journal, or the fault and
the journal so far. -/
def replay (rate : Float) (series : List Observation) (rules : List Rule) (initial : Portfolio) :
    Except (Fault × Journal) (Result × Journal) := do
  (checkSeries series).mapError fun f => (f, {})
  match series with
  | [] => .error (.integrity .emptyPrices "Price series is empty", {})
  | first :: rest =>
    let total := rest.length
    let journal : Journal := ({} : Journal).report .preparing 0 total first.date
    let journal := journal.log (.start series.length rules.length initial.cash initial.shares rate)
    let st ← (runSteps rate rules total 1 first rest ⟨initial, [], [], journal⟩).mapError
      fun (f, st) => (f, st.journal)
    let initialValue ← (valueAt initial first.close).mapError fun f => (f, st.journal)
    let result : Result := ⟨initial, initialValue, st.portfolio, st.trades, st.valuation⟩
    let last := (rest.getLast?).getD first
    let journal := st.journal.report .completed total total last.date
    let journal := journal.log (.complete st.trades.length result.finalValue result.totalReturnPct)
    let journal := journal.notify .runCompleted (toString st.trades.length ++
      " trades, final value " ++ fixedText 2 result.finalValue)
    pure (result, journal)

/-- A run's journal and its result or fault. -/
structure Report where
  journal : Journal
  outcome : Except Fault Result

/-- Runs a strategy: checks the commission rate, replays the series, and records a failure on bad
market data. -/
def simulate (rate : Float) (series : List Observation) (rules : List Rule) (initial : Portfolio) :
    Report :=
  match checkRate rate with
  | .error f => ⟨{}, .error f⟩
  | .ok rate =>
    match replay rate series rules initial with
    | .ok (result, journal) => ⟨journal, .ok result⟩
    | .error (f, journal) =>
      match f with
      | .integrity kind message => ⟨journal.fail kind message, .error f⟩
      | _ => ⟨journal, .error f⟩

end Backtest.Simulation
