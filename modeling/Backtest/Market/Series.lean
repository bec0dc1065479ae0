import Backtest.Market.Observation

/-!
# Price series

A series is a list of observations in date order. A run needs a series that is not empty and
whose dates strictly increase; a configured date window keeps the observations from a start
date through an end date, both included and both optional, in their order.
-/

namespace Backtest.Market

/-- Checks that each date comes strictly after `previous` and the dates before it. -/
def checkIncreasing (previous : Observation) : List Observation → Except Fault Unit
  | [] => .ok ()
  | current :: rest =>
    if current.date ≤ previous.date then
      .error (.integrity .nonMonotonicDates ("Price dates must strictly increase: " ++
        current.date.iso ++ " follows " ++ previous.date.iso))
    else checkIncreasing current rest

/-- Checks that a series is not empty and its dates strictly increase. -/
def checkSeries : List Observation → Except Fault Unit
  | [] => .error (.integrity .emptyPrices "Price series is empty")
  | first :: rest => checkIncreasing first rest

/-- Whether a date lies in a window whose ends are optional and included. -/
def inWindow (start finish : Option Calendar.Date) (d : Calendar.Date) : Bool :=
  (match start with
    | some s => decide (s ≤ d)
    | none => true) &&
  (match finish with
    | some e => decide (d ≤ e)
    | none => true)

/-- The observations of a series within a window, in their order. -/
def window (start finish : Option Calendar.Date) (series : List Observation) : List Observation :=
  series.filter fun o => inWindow start finish o.date

end Backtest.Market
