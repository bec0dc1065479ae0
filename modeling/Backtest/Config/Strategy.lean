import Backtest.Rules.Build
import Backtest.Ledger.Execute
import Backtest.Calendar.Moment
import Backtest.Market.Series

/-!
# Strategy files

A strategy file is a mapping read key by key in a fixed order: `name`, `version`, `run_id_prefix`,
`initial_portfolio` (`cash`, `shares`), `commission_rate` (in `[0, 1)`, 0.0025 when absent), `rules`
(each a `condition`, an `action`, a `name` and `enabled`), `prices` (a `path` and an optional date
window) and `monitoring`; faults are reported under the heading of the part they are in.
`Strategy.toValue` writes a strategy back with every setting filled in.
-/

namespace Backtest.Config

open Backtest.Document Backtest.Rules Backtest.Ledger

/-- Where the prices come from: a file and an optional window of calendar points. -/
structure PriceSource where
  path : String
  start : Option Calendar.Point
  finish : Option Calendar.Point

/-- A strategy as configured. -/
structure Strategy where
  name : String
  version : String
  runIdPrefix : String
  portfolio : Portfolio
  commissionRate : Float
  rules : List Rule
  prices : PriceSource
  auditLogPath : String

/-- The value under a key of a mapping, required. -/
def require (doc : Value) (key : String) : Except Fault Value :=
  match doc with
  | .map _ =>
    match doc.get? key with
    | some v => .ok v
    | none => .error (.invalid ("Missing required config key: " ++ key))
  | _ => .error (.invalid ("Missing required config key: " ++ key))

/-- The value under a key of a mapping, or a default. -/
def getOr (doc : Value) (key : String) (default : Value) : Value :=
  (doc.get? key).getD default

/-- The items a value yields when iterated: list, tuple or set items, mapping keys, the bytes of
a byte string as integers, or a text's characters. -/
def items : Value → Except Fault (List Value)
  | .list xs | .tuple xs | .set xs => .ok xs
  | .map entries => .ok (entries.map Prod.fst)
  | .bytes data => .ok (data.map fun b => .int b.toNat)
  | .str s => .ok ((Text.codes s).map fun u => .str (Text.ofCode u))
  | other => .error (.wrongType ("'" ++ other.typeName ++ "' object is not iterable"))

/-- A path as the path type writes it: repeated and trailing separators and `.` parts dropped,
`.` for an empty relative path. -/
def normalizePath (s : String) : String :=
  let cs := s.toList
  let root := match cs with
    | '/' :: '/' :: c :: _ => if c = '/' then "/" else "//"
    | ['/', '/'] => "//"
    | '/' :: _ => "/"
    | _ => ""
  let parts := (s.splitOn "/").filter fun p => p ≠ "" && p ≠ "."
  if root.isEmpty && parts.isEmpty then "." else root ++ "/".intercalate parts

/-- Whether a path is absolute. -/
def isAbsolute (path : String) : Bool :=
  path.startsWith "/"

/-- Reads one rule, the `index`-th counting from one. -/
def parseRule (item : Value) (index : Nat) : Except Fault Rule := do
  let fallback := "rule-" ++ toString index
  let name ← if item.isMap then (getOr item "name" (.str fallback)).toText else pure fallback
  let spec : Except Fault (Condition × Action) := do
    let c ← buildCondition (← require item "condition")
    let a ← parseAction (← require item "action")
    pure (c, a)
  let (condition, action) ← spec.mapError fun f =>
    if f.isValue then .invalid ("Rule " ++ name ++ ": " ++ f.message) else f
  let enabled := (getOr item "enabled" (.bool true)).truthy
  pure { condition, action, name, enabled }

/-- Reads an optional date setting: null is absent, a date or a moment is itself, anything else
is read as a date from its text. -/
def parseDate (v : Value) (key : String) : Except Fault (Option Calendar.Point) :=
  match v with
  | .null => .ok none
  | .date d => .ok (some (.day d))
  | .moment m => .ok (some (.moment m))
  | other => do
    let text ← other.toText
    match Calendar.Date.ofIso text with
    | .ok d => .ok (some (.day d))
    | .error _ => .error (.invalid ("Invalid " ++ key ++ ": " ++ text))

/-- How two calendar points compare; points that do not compare are a type fault. -/
def pointOrder (a b : Calendar.Point) : Except Fault Ordering :=
  (a.order b).mapError Fault.wrongType

/-- Reads the price source. -/
def parsePrices (doc : Value) : Except Fault PriceSource := do
  let path := normalizePath (← (← require doc "path").toText)
  let start ← parseDate (getOr doc "start_date" .null) "start_date"
  let finish ← parseDate (getOr doc "end_date" .null) "end_date"
  match start, finish with
  | some s, some e =>
    if (← pointOrder s e) = .gt then throw (.invalid "start_date must not be after end_date")
  | _, _ => pure ()
  pure { path, start, finish }

/-- Reads the initial portfolio. -/
def parsePortfolio (doc : Value) : Except Fault Portfolio :=
  (do
    let cash ← (← require doc "cash").toFloat
    let shares ← (getOr doc "shares" (.int 0)).toInt
    Portfolio.make cash shares).mapError (Fault.framed "Invalid initial_portfolio: " "")

/-- Reads the audit log path from the monitoring settings. -/
def parseMonitoring (v : Value) : Except Fault String :=
  match v with
  | .map _ => (getOr v "audit_log_path" (.str "runtime/audit.log")).toText
  | other => .error (.noAttribute ("'" ++ other.typeName ++ "' object has no attribute 'get'"))

/-- Reads a strategy from a document. -/
def Strategy.ofDocument (doc : Value) : Except Fault Strategy := do
  if !doc.isMap then throw (.invalid "Config must be a mapping")
  let name ← (← require doc "name").toText
  let version ← (← require doc "version").toText
  let runIdPrefix ← (getOr doc "run_id_prefix" (.str name)).toText
  let portfolio ← parsePortfolio (← require doc "initial_portfolio")
  let rate ← checkRate (← (getOr doc "commission_rate" (.float 0.0025)).toFloat)
  let ruleItems ← items (← require doc "rules")
  let rules ← ruleItems.zipIdx.mapM fun (item, i) => parseRule item (i + 1)
  let prices ← parsePrices (← require doc "prices")
  let auditLogPath ← parseMonitoring (getOr doc "monitoring" (.map []))
  pure { name, version, runIdPrefix, portfolio, commissionRate := rate, rules, prices,
         auditLogPath }

/-- A document with text keys. -/
def fieldsOf (entries : List (String × Value)) : Value :=
  .map (entries.map fun (k, v) => (.str k, v))

/-- An optional calendar point as a document value. -/
def dateValue : Option Calendar.Point → Value
  | some p => .str p.iso
  | none => .null

/-- The observations of a series inside a price source's window, in order. Each observation's
day is compared with the start first, and with the end only when it is not before the start; a
comparison that fails stops the selection. With days for bounds this is `Market.window`. -/
def PriceSource.select (src : PriceSource) (series : List Market.Observation) :
    Except Fault (List Market.Observation) :=
  series.filterM fun o => do
    if let some s := src.start then
      if (← pointOrder (.day o.date) s) = .lt then return false
    if let some e := src.finish then
      if (← pointOrder (.day o.date) e) = .gt then return false
    return true

/-- A strategy written back as a document. -/
def Strategy.toValue (s : Strategy) : Value :=
  fieldsOf [
    ("name", .str s.name),
    ("version", .str s.version),
    ("run_id_prefix", .str s.runIdPrefix),
    ("initial_portfolio", fieldsOf [("cash", .float s.portfolio.cash),
      ("shares", .int s.portfolio.shares)]),
    ("commission_rate", .float s.commissionRate),
    ("rules", .list (s.rules.map fun r => fieldsOf [("name", .str r.name),
      ("enabled", .bool r.enabled), ("condition", r.condition.toValue),
      ("action", r.action.toValue)])),
    ("prices", fieldsOf [("path", .str s.prices.path), ("start_date", dateValue s.prices.start),
      ("end_date", dateValue s.prices.finish)]),
    ("monitoring", fieldsOf [("audit_log_path", .str s.auditLogPath)])]

end Backtest.Config
