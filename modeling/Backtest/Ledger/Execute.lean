import Backtest.Rules.Spec
import Backtest.Formula.Eval
import Backtest.Document.Coerce

/-!
# Executing actions

An action becomes at most one trade. Buys by money (`buyNotional`) take the commission from the
notional and buy the whole shares the rest pays for; orders by shares (`buyQuantity`,
`sellQuantity`) add the commission to a buy and take it off a sell. An order that cannot be filled
leaves the portfolio unchanged and says why; a price that is not positive stops execution with an
integrity fault, and an infinite or NaN size fails as integer conversion does.
-/

namespace Backtest.Ledger

open Backtest.Decimal Backtest.Rules

/-- The largest integer not above a float, failing for infinities and NaN. -/
def floorOf (x : Float) : Except Fault Int :=
  (floor? x).mapError Document.Value.floorFault

/-- A share count as a float, failing when it is too large for one. -/
def asFloat (n : Nat) : Except Fault Float :=
  match ofInt? n with
  | some x => .ok x
  | none => .error Fault.tooLargeForFloat

/-- A commission rate, refused outside `[0, 1)`. -/
def checkRate (rate : Float) : Except Fault Float :=
  if 0.0 ≤ rate && rate < 1.0 then .ok rate
  else .error (.invalid ("commission_rate must be in [0, 1), got " ++ shortText rate))

/-- An order left unfilled. -/
def skip (p : Portfolio) (reason : Reason) : Outcome :=
  { portfolio := p, trade := none, reason }

/-- A filled buy of `quantity` shares costing `gross` in all. -/
def fillBuy (quantity : Nat) (price commission gross : Float) (p : Portfolio) : Outcome :=
  { portfolio := { cash := p.cash - gross, shares := p.shares + quantity },
    trade := some { side := .buy, quantity, price, commission, total := gross },
    reason := .bought }

/-- A filled sell of `quantity` shares bringing in `proceeds`. -/
def fillSell (quantity : Nat) (price commission proceeds : Float) (p : Portfolio) : Outcome :=
  { portfolio := { cash := p.cash + proceeds, shares := p.shares - quantity },
    trade := some { side := .sell, quantity, price, commission, total := proceeds },
    reason := .sold }

/-- Buys the whole shares that `notional`, less its commission, pays for. -/
def buyNotional (rate notional price : Float) (p : Portfolio) : Except Fault Outcome := do
  let commission := notional * rate
  let quantity ← if 0.0 < notional then floorOf ((notional - commission) / price) else pure 0
  if quantity ≤ 0 then return skip p .tooSmall
  let q := quantity.toNat
  let gross := (← asFloat q) * price + commission
  if p.cash < gross then return skip p .insufficientCash
  return fillBuy q price commission gross p

/-- Buys `quantity` shares plus commission. -/
def buyQuantity (rate : Float) (quantity : Int) (price : Float) (p : Portfolio) :
    Except Fault Outcome := do
  if quantity ≤ 0 then return skip p .nonPositiveCount
  let q := quantity.toNat
  let notional := (← asFloat q) * price
  let commission := notional * rate
  let gross := notional + commission
  if p.cash < gross then return skip p .insufficientCash
  return fillBuy q price commission gross p

/-- Sells `quantity` shares, the commission taken off the proceeds. -/
def sellQuantity (rate : Float) (quantity : Int) (price : Float) (p : Portfolio) :
    Except Fault Outcome := do
  if quantity ≤ 0 then return skip p .noShares
  if (p.shares : Int) < quantity then return skip p .insufficientShares
  let q := quantity.toNat
  let notional := (← asFloat q) * price
  let commission := notional * rate
  return fillSell q price commission (notional - commission) p

/-- A formula percentage clamped to `[0, 100]`. -/
def clampPercent (v : Float) : Float :=
  let atLeastZero := if 0.0 < v then v else 0.0
  if atLeastZero < 100.0 then atLeastZero else 100.0

/-- The order for a positive finite formula value read as the measure says. -/
def sized (rate : Float) (side : Side) (measure : Measure) (v price : Float) (p : Portfolio) :
    Except Fault Outcome :=
  match side, measure with
  | .buy, .amount => buyNotional rate v price p
  | .buy, .shares => do buyQuantity rate (← floorOf v) price p
  | .buy, .percent => buyNotional rate (p.cash * clampPercent v / 100.0) price p
  | .sell, .amount => do sellQuantity rate (← floorOf (v / price)) price p
  | .sell, .shares => do sellQuantity rate (← floorOf v) price p
  | .sell, .percent => do
    let s ← asFloat p.shares
    sellQuantity rate (← floorOf (s * clampPercent v / 100.0)) price p

/-- Executes an action at a price, with `derived` as the formula variable, for a commission
rate already checked. -/
def execute (rate : Float) (action : Action) (price : Float) (p : Portfolio) (derived : Float) :
    Except Fault Outcome := do
  if price ≤ 0.0 then
    throw (.integrity .nonPositivePrice ("Cannot trade at non-positive price " ++ shortText price))
  match action with
  | .hold => return skip p .hold
  | .percent .buy pct => buyNotional rate (p.cash * pct / 100.0) price p
  | .amount .buy a => buyNotional rate a price p
  | .shares .buy n => buyQuantity rate n price p
  | .sellAll => sellQuantity rate p.shares price p
  | .percent .sell pct =>
    let s ← asFloat p.shares
    sellQuantity rate (← floorOf (s * pct / 100.0)) price p
  | .amount .sell a => sellQuantity rate (← floorOf (a / price)) price p
  | .shares .sell n => sellQuantity rate n price p
  | .formula side measure text =>
    match Formula.evaluate text derived with
    | .error e => return skip p (.formulaError e)
    | .ok v =>
      if !v.isFinite || v ≤ 0.0 then return skip p (.notPositive v)
      else sized rate side measure v price p

/-- Checks the commission rate, then executes the action. -/
def executeAction (rate : Float) (action : Action) (price : Float) (p : Portfolio)
    (derived : Float) : Except Fault Outcome := do
  let rate ← checkRate rate
  execute rate action price p derived

end Backtest.Ledger
