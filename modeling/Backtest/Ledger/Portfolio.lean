import Backtest.Calendar.Date
import Backtest.Decimal.Layout
import Backtest.Fault

/-!
# Portfolios and trades

A portfolio is cash and a whole number of shares. A trade buys or sells a positive quantity at a
price with a commission; its total leaves the cash on a buy (the shares' price plus the commission)
or enters it on a sell (the shares' price less the commission).
-/

namespace Backtest.Ledger

open Backtest.Decimal

/-- The side of an order. -/
inductive Side where
  | buy
  | sell
deriving DecidableEq, Repr, Inhabited

/-- The name of a side. -/
def Side.name : Side → String
  | .buy => "buy"
  | .sell => "sell"

/-- The capitalised name of a side. -/
def Side.title : Side → String
  | .buy => "Buy"
  | .sell => "Sell"

/-- Cash and shares. -/
structure Portfolio where
  cash : Float
  shares : Nat
deriving Inhabited

/-- A portfolio from cash and a share count, refused when either is negative. -/
def Portfolio.make (cash : Float) (shares : Int) : Except Fault Portfolio :=
  if cash < 0.0 then .error (.invalid ("cash must be non-negative, got " ++ shortText cash))
  else if shares < 0 then .error (.invalid ("shares must be non-negative, got " ++ toString shares))
  else .ok { cash, shares := shares.toNat }

/-- One filled order. -/
structure Trade where
  side : Side
  quantity : Nat
  price : Float
  commission : Float
  total : Float
  date : Option Calendar.Date := none
deriving Inhabited

/-- Why an order was or was not filled. -/
inductive Reason where
  /-- The action is to do nothing. -/
  | hold
  /-- A buy was filled. -/
  | bought
  /-- A sell was filled. -/
  | sold
  /-- The amount buys no whole share. -/
  | tooSmall
  /-- The cash does not cover the shares and the commission. -/
  | insufficientCash
  /-- A buy of no shares. -/
  | nonPositiveCount
  /-- A sell of no shares. -/
  | noShares
  /-- A sell of more shares than held. -/
  | insufficientShares
  /-- The sizing formula has no value. -/
  | formulaError (e : Formula.Error)
  /-- The sizing formula's value is not a positive finite amount. -/
  | notPositive (value : Float)

/-- The text of a reason. -/
def Reason.text : Reason → String
  | .hold => "Hold"
  | .bought => "Bought"
  | .sold => "Sold"
  | .tooSmall => "Amount too small for one share"
  | .insufficientCash => "Insufficient cash"
  | .nonPositiveCount => "Non-positive share count"
  | .noShares => "No shares to sell"
  | .insufficientShares => "Insufficient shares"
  | .formulaError e => "Formula error: " ++ e.message
  | .notPositive v => "Formula result " ++ shortText v ++ " is not a positive amount"

/-- The formula error code of a reason, if it has one. -/
def Reason.code : Reason → Option String
  | .formulaError e => some e.code
  | _ => none

/-- The result of an order: the portfolio after it, the trade if one was made, and why. -/
structure Outcome where
  portfolio : Portfolio
  trade : Option Trade
  reason : Reason

/-- Whether the order was filled. -/
def Outcome.executed (o : Outcome) : Bool :=
  o.trade.isSome

end Backtest.Ledger
