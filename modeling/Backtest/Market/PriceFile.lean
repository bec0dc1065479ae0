import Backtest.Market.Series
import Backtest.Csv
import Backtest.Document.Coerce

/-!
# Price files

A price file is a table with the columns `date`, `open`, `high`, `low` and `close`, and optionally
`volume`; each row is one observation. Rows are numbered as lines of a file without blank lines, a
fault in a row reported as `<path>:<line>: invalid price row (<message>)`, except for a row too
short to have a date. Rows are read as the reader yields them, so a field past the reader's limit
fails the file only once every row before it has read.
-/

namespace Backtest.Market

open Backtest.Csv Backtest.Document

/-- The columns every price file must have. -/
def requiredColumns : List String :=
  ["date", "open", "high", "low", "close"]

/-- A price field read as a float; a missing field is of the wrong kind. -/
def priceField (header row : List String) (name : String) : Except Fault Float :=
  match cell header row name with
  | some (some s) => Value.toFloat (.str s)
  | _ => Value.toFloat .null

/-- The observation of one row. -/
def readRow (header row : List String) : Except Fault Observation := do
  let date ← match cell header row "date" with
    | some (some s) => (Calendar.Date.ofIso (Text.trim s)).mapError Fault.invalid
    | _ => throw (.noAttribute "'NoneType' object has no attribute 'strip'")
  let o ← priceField header row "open"
  let h ← priceField header row "high"
  let l ← priceField header row "low"
  let c ← priceField header row "close"
  let v ← match cell header row "volume" with
    | some (some s) => if s.isEmpty then pure 0.0 else Value.toFloat (.str s)
    | _ => pure 0.0
  Observation.make date o h l c v

/-- Reads the rows from line `line` on. -/
def readRows (path : String) (header : List String) :
    Nat → List (List String) → Except Fault (List Observation)
  | _, [] => .ok []
  | line, row :: rest => do
    let o ← (readRow header row).mapError
      (Fault.framed (path ++ ":" ++ toString line ++ ": invalid price row (") ")")
    let os ← readRows path header (line + 1) rest
    pure (o :: os)

/-- Reads the observations of a price file's text; `path` names the file in messages. -/
def readPriceFile (path : String) (text : String) : Except Fault (List Observation) := do
  let table ← Table.read text
  let missing := requiredColumns.filter fun c => c ∉ table.header
  if !missing.isEmpty then
    throw (.invalid (path ++ ": missing columns " ++ ", ".intercalate missing))
  let os ← readRows path table.header 2 table.rows
  if table.overflow then throw fieldTooLarge
  pure os

end Backtest.Market
