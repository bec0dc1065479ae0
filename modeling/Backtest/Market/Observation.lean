import Backtest.Calendar.Date
import Backtest.Decimal.Layout
import Backtest.Fault

/-!
# Daily observations

An observation is one day's bar: its date, the opening, high, low and closing prices, and the
traded volume. Conditions compare one price field of two adjacent observations; the percentage
change is taken against the earlier one, which must then be positive.
-/

namespace Backtest.Market

open Backtest.Decimal

/-- The price fields a condition can compare. -/
inductive Field where
  | close
  | high
  | low
deriving DecidableEq, Repr, Inhabited

/-- The name of a price field. -/
def Field.name : Field → String
  | .close => "close"
  | .high => "high"
  | .low => "low"

/-- One day of market data. -/
structure Observation where
  date : Calendar.Date
  opening : Float
  high : Float
  low : Float
  close : Float
  volume : Float
deriving Inhabited

/-- An observation, refused when its volume is negative. -/
def Observation.make (date : Calendar.Date) (opening high low close volume : Float) :
    Except Fault Observation :=
  if volume < 0.0 then .error (.invalid "volume must be non-negative")
  else .ok { date, opening, high, low, close, volume }

/-- The price of a field. -/
def Observation.price (o : Observation) : Field → Float
  | .close => o.close
  | .high => o.high
  | .low => o.low

/-- The percentage change of a price field from `previous` to `current`:
`(current - previous) / previous * 100`, for a positive earlier price. -/
def percentChange (current previous : Observation) (field : Field) : Except Fault Float :=
  let base := previous.price field
  if base ≤ 0.0 then
    .error (.integrity .nonPositivePrice
      ("Non-positive " ++ field.name ++ " price " ++ shortText base ++ " on " ++ previous.date.iso))
  else .ok ((current.price field - base) / base * 100.0)

end Backtest.Market
