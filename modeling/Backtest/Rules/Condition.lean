import Backtest.Rules.Spec

/-!
# Evaluating conditions

A condition is evaluated on a step, the current observation and the one before it. The result is
whether it holds, together with the percentage change it looked at (`derived`), which the step's
action may use as the formula variable. Conditions on a change need a positive earlier price;
`valueRange` also takes the close's change first, so it needs a positive earlier close although
it compares only the current close. `always` looks at nothing and reports a change of zero.
-/

namespace Backtest.Rules

open Backtest.Market

/-- Whether a condition holds on a step, and the percentage change it looked at. -/
structure Verdict where
  matched : Bool
  derived : Float

/-- Evaluates a condition on the step from `previous` to `current`. -/
def Condition.evaluate (c : Condition) (current previous : Observation) : Except Fault Verdict :=
  match c with
  | .always => .ok ⟨true, 0.0⟩
  | .change field threshold direction => do
    let pct ← percentChange current previous field
    let matched := match direction with
      | .up => threshold ≤ pct
      | .down => pct ≤ -threshold
    pure ⟨matched, pct⟩
  | .changeRange low high field sense bounds => do
    let pct ← percentChange current previous field
    let adjusted := match sense with
      | .up => pct
      | .down => -pct
      | .both => pct.abs
    pure ⟨bounds.contains adjusted low high, pct⟩
  | .valueRange low high bounds => do
    let pct ← percentChange current previous .close
    pure ⟨bounds.contains current.close low high, pct⟩

end Backtest.Rules
