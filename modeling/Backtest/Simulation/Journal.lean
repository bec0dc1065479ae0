import Backtest.Ledger.Portfolio
import Backtest.Document.Value
import Backtest.Text.Lines

/-!
# The journal of a run

While a strategy runs it keeps three records beside its result, appended in the order things
happen and never read by the run itself: the audit trail, one event per start, trade, skipped
formula action, completion or failure; notices printed as `[SIM] <LEVEL> <EVENT>: <message>` unless
muted; and progress reports after each step.
-/

namespace Backtest.Simulation

open Backtest.Ledger Backtest.Document

/-- The phase a progress report is sent from. -/
inductive Status where
  | preparing
  | running
  | completed
deriving DecidableEq, Repr

/-- The name of a phase. -/
def Status.name : Status → String
  | .preparing => "preparing"
  | .running => "running"
  | .completed => "completed"

/-- A progress report: the phase, the steps done, the steps in all, and the date reached. -/
structure Progress where
  status : Status
  current : Nat
  total : Nat
  date : Calendar.Date

/-- An audit event. -/
inductive Event where
  /-- The run starts with this many observations and rules, this portfolio and commission rate. -/
  | start (observations rules : Nat) (cash : Float) (shares : Nat) (rate : Float)
  /-- A rule made a trade (dated). -/
  | trade (rule : String) (t : Trade)
  /-- A rule's formula action was skipped on a date, with the formula error code and reason. -/
  | skipped (rule : String) (date : Calendar.Date) (code reason : String)
  /-- The run completed with this many trades, this final value and return in percent. -/
  | complete (trades : Nat) (finalValue returnPct : Float)
  /-- The run stopped on bad market data, with its code and message. -/
  | failed (code message : String)

/-- The name of an event. -/
def Event.name : Event → String
  | .start .. => "simulation_start"
  | .trade .. => "trade"
  | .skipped .. => "action_skipped"
  | .complete .. => "simulation_complete"
  | .failed .. => "simulation_failed"

/-- A document with text keys. -/
def fields (entries : List (String × Value)) : Value :=
  .map (entries.map fun (k, v) => (.str k, v))

/-- The date of a trade as a document value. -/
def tradeDate (t : Trade) : Value :=
  match t.date with
  | some d => .str d.iso
  | none => .null

/-- The payload of an event. -/
def Event.payload : Event → Value
  | .start observations rules cash shares rate =>
    fields [("observations", .int observations), ("rules", .int rules), ("cash", .float cash),
      ("shares", .int shares), ("commission_rate", .float rate)]
  | .trade rule t =>
    fields [("rule", .str rule), ("date", tradeDate t), ("side", .str t.side.name),
      ("quantity", .int t.quantity), ("price", .float t.price),
      ("commission", .float t.commission), ("total", .float t.total)]
  | .skipped rule date code reason =>
    fields [("rule", .str rule), ("date", .str date.iso), ("code", .str code),
      ("reason", .str reason)]
  | .complete trades finalValue returnPct =>
    fields [("trades", .int trades), ("final_value", .float finalValue),
      ("total_return_pct", .float returnPct)]
  | .failed code message => fields [("code", .str code), ("message", .str message)]

/-- The kinds of notices. -/
inductive Alert where
  | formulaError
  | runFailed
  | runCompleted
deriving DecidableEq, Repr

/-- The event name of a notice kind. -/
def Alert.name : Alert → String
  | .formulaError => "FORMULA_ERROR"
  | .runFailed => "RUN_FAILED"
  | .runCompleted => "RUN_COMPLETED"

/-- The severity of a notice kind. -/
def Alert.level : Alert → String
  | .formulaError => "WARN"
  | .runFailed => "ERROR"
  | .runCompleted => "INFO"

/-- A notice. -/
structure Notice where
  alert : Alert
  message : String

/-- The printed line of a notice. -/
def Notice.line (n : Notice) : String :=
  "[SIM] " ++ n.alert.level ++ " " ++ n.alert.name ++ ": " ++ n.message

/-- The records of a run so far. -/
structure Journal where
  audit : List Event := []
  notices : List Notice := []
  progress : List Progress := []

/-- Appends an audit event. -/
def Journal.log (j : Journal) (e : Event) : Journal :=
  { j with audit := j.audit ++ [e] }

/-- Appends a notice. -/
def Journal.notify (j : Journal) (alert : Alert) (message : String) : Journal :=
  { j with notices := j.notices ++ [⟨alert, message⟩] }

/-- Appends a progress report. -/
def Journal.report (j : Journal) (status : Status) (current total : Nat) (date : Calendar.Date) :
    Journal :=
  { j with progress := j.progress ++ [⟨status, current, total, date⟩] }

/-- Records a failure on bad market data: the audit event and the error notice. -/
def Journal.fail (j : Journal) (kind : Integrity) (message : String) : Journal :=
  (j.log (.failed kind.code message)).notify .runFailed (kind.code ++ ": " ++ message)

/-- The lines a notice prints: its line and a line feed, read back as lines, so a message holding
line breaks prints several lines. -/
def Notice.printed (n : Notice) : List String :=
  Text.lines (n.line ++ "\n")

/-- The printed notice lines, without those of muted event names. -/
def Journal.lines (j : Journal) (muted : List String) : List String :=
  (j.notices.filter fun n => !muted.contains n.alert.name).flatMap Notice.printed

/-- A text that may be absent, as a document value. -/
def optionalText : Option String → Value
  | some s => .str s
  | none => .null

/-- The audit records as documents, tagged with the run id and configuration hash when known. -/
def Journal.records (j : Journal) (runId configHash : Option String) : List Value :=
  j.audit.map fun e =>
    fields [("run_id", optionalText runId), ("config_hash", optionalText configHash),
      ("event", .str e.name), ("payload", e.payload)]

end Backtest.Simulation
