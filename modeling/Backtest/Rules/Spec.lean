import Backtest.Market.Observation
import Backtest.Ledger.Portfolio
import Backtest.Document.Value

/-!
# Conditions, actions and rules

A rule pairs a condition on two adjacent observations with an action on the portfolio. Conditions
hold always, on a percentage change past a threshold, on a change within a range, or on a close
within a range; actions buy or sell a percentage, an amount or a share count, size an order by a
formula over the condition's change, sell everything, or hold. Every kind has a document name, a
class name for messages and named parameters in a fixed order (`Condition.toValue`,
`Action.toValue`).
-/

namespace Backtest.Rules

open Backtest.Market Backtest.Ledger Backtest.Document

/-- The direction a threshold change is taken in. -/
inductive Direction where
  | up
  | down
deriving DecidableEq, Repr, Inhabited

/-- How a change is compared with a range: as is, negated, or by its size. -/
inductive Sense where
  | up
  | down
  | both
deriving DecidableEq, Repr, Inhabited

/-- Which ends of a range belong to it. -/
inductive Bounds where
  | inclusive
  | exclusive
  | leftInclusive
  | rightInclusive
deriving DecidableEq, Repr, Inhabited

/-- The document name of a direction. -/
def Direction.name : Direction → String
  | .up => "up"
  | .down => "down"

/-- The document name of a sense. -/
def Sense.name : Sense → String
  | .up => "up"
  | .down => "down"
  | .both => "both"

/-- The document name of a bounds choice. -/
def Bounds.name : Bounds → String
  | .inclusive => "inclusive"
  | .exclusive => "exclusive"
  | .leftInclusive => "left_inclusive"
  | .rightInclusive => "right_inclusive"

/-- Whether `value` lies between `lower` and `upper`, ends included as the bounds say. -/
def Bounds.contains (b : Bounds) (value lower upper : Float) : Bool :=
  match b with
  | .inclusive => lower ≤ value && value ≤ upper
  | .exclusive => lower < value && value < upper
  | .leftInclusive => lower ≤ value && value < upper
  | .rightInclusive => lower < value && value ≤ upper

/-- A condition on a step. -/
inductive Condition where
  | always
  | change (field : Field) (threshold : Float) (direction : Direction)
  | changeRange (low high : Float) (field : Field) (sense : Sense) (bounds : Bounds)
  | valueRange (low high : Float) (bounds : Bounds)
deriving Inhabited

/-- What a formula's value is read as. -/
inductive Measure where
  | amount
  | shares
  | percent
deriving DecidableEq, Repr, Inhabited

/-- The document name of a measure. -/
def Measure.name : Measure → String
  | .amount => "amount"
  | .shares => "shares"
  | .percent => "percent"

/-- An action on the portfolio. -/
inductive Action where
  /-- A percentage of the cash (buy) or of the shares (sell). -/
  | percent (side : Side) (p : Float)
  /-- A fixed amount of money. -/
  | amount (side : Side) (a : Float)
  /-- A fixed number of shares. -/
  | shares (side : Side) (count : Nat)
  /-- An order sized by a formula over the step's percentage change. -/
  | formula (side : Side) (measure : Measure) (text : String)
  /-- Sell every share held. -/
  | sellAll
  /-- Do nothing. -/
  | hold
deriving Inhabited

/-- A rule: a condition, an action, a name (possibly empty) and whether it is enabled. -/
structure Rule where
  condition : Condition
  action : Action
  name : String := ""
  enabled : Bool := true
deriving Inhabited

/-- The kinds of conditions. -/
inductive ConditionKind where
  | always
  | change (field : Field)
  | changeRange
  | valueRange
deriving DecidableEq, Repr

/-- The kinds of actions. -/
inductive ActionKind where
  | percent (side : Side)
  | amount (side : Side)
  | shares (side : Side)
  | formula (side : Side) (measure : Measure)
  | sellAll
  | hold
deriving DecidableEq, Repr

/-- Every condition kind, in catalogue order. -/
def ConditionKind.all : List ConditionKind :=
  [.always, .change .close, .change .high, .change .low, .changeRange, .valueRange]

/-- Every action kind, in catalogue order. -/
def ActionKind.all : List ActionKind :=
  [.percent .buy, .amount .buy, .shares .buy,
    .formula .buy .amount, .formula .buy .shares, .formula .buy .percent,
    .percent .sell, .amount .sell, .shares .sell,
    .formula .sell .amount, .formula .sell .shares, .formula .sell .percent,
    .sellAll, .hold]

/-- The document name of a condition kind. -/
def ConditionKind.name : ConditionKind → String
  | .always => "always"
  | .change f => f.name ++ "_price_change"
  | .changeRange => "price_change_range"
  | .valueRange => "price_value_range"

/-- The class name of a condition kind, as messages show it. -/
def ConditionKind.className : ConditionKind → String
  | .always => "Always"
  | .change .close => "ClosePriceChange"
  | .change .high => "HighPriceChange"
  | .change .low => "LowPriceChange"
  | .changeRange => "PriceChangeRange"
  | .valueRange => "PriceValueRange"

/-- The capitalised name of a measure. -/
def Measure.title : Measure → String
  | .amount => "Amount"
  | .shares => "Shares"
  | .percent => "Percent"

/-- The document name of an action kind. -/
def ActionKind.name : ActionKind → String
  | .percent .buy => "buy_percent_cash"
  | .percent .sell => "sell_percent_shares"
  | .amount s => s.name ++ "_fixed_amount"
  | .shares s => s.name ++ "_shares"
  | .formula s m => s.name ++ "_formula_" ++ m.name
  | .sellAll => "sell_all"
  | .hold => "hold"

/-- The class name of an action kind, as messages show it. -/
def ActionKind.className : ActionKind → String
  | .percent .buy => "BuyPercentCash"
  | .percent .sell => "SellPercentShares"
  | .amount s => s.title ++ "FixedAmount"
  | .shares s => s.title ++ "Shares"
  | .formula s m => s.title ++ "Formula" ++ m.title
  | .sellAll => "SellAll"
  | .hold => "Hold"

/-- The kind of a condition. -/
def Condition.kind : Condition → ConditionKind
  | .always => .always
  | .change f _ _ => .change f
  | .changeRange .. => .changeRange
  | .valueRange .. => .valueRange

/-- The kind of an action. -/
def Action.kind : Action → ActionKind
  | .percent s _ => .percent s
  | .amount s _ => .amount s
  | .shares s _ => .shares s
  | .formula s m _ => .formula s m
  | .sellAll => .sellAll
  | .hold => .hold

/-- Whether an action is sized by a formula. -/
def Action.formula? : Action → Option String
  | .formula _ _ text => some text
  | _ => none

/-- The parameters of a condition, by name, in the kind's order. -/
def Condition.params : Condition → List (String × Value)
  | .always => []
  | .change _ t d => [("threshold_percent", .float t), ("direction", .str d.name)]
  | .changeRange lo hi f s b =>
    [("min_percent", .float lo), ("max_percent", .float hi), ("field", .str f.name),
      ("direction", .str s.name), ("bounds", .str b.name)]
  | .valueRange lo hi b =>
    [("min_price", .float lo), ("max_price", .float hi), ("bounds", .str b.name)]

/-- The parameters of an action, by name, in the kind's order. -/
def Action.params : Action → List (String × Value)
  | .percent _ p => [("percent", .float p)]
  | .amount _ a => [("amount", .float a)]
  | .shares _ n => [("count", .int n)]
  | .formula _ _ text => [("formula", .str text)]
  | .sellAll | .hold => []

/-- A document of a kind name and parameters. -/
def specDocument (kind : String) (params : List (String × Value)) : Value :=
  .map ((.str "type", .str kind) :: params.map fun (k, v) => (.str k, v))

/-- A condition as a document, every parameter written. -/
def Condition.toValue (c : Condition) : Value :=
  specDocument c.kind.name c.params

/-- An action as a document, every parameter written. -/
def Action.toValue (a : Action) : Value :=
  specDocument a.kind.name a.params

end Backtest.Rules
