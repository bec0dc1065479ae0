import Backtest.Config.Folder
import Backtest.Simulation.Run
import Backtest.Text.Blank

/-!
# Running a strategy file

A configured run loads the strategy file and its prices within the date window, names the run, makes
the directory of its audit log and runs the strategy; faults while loading stop before the run. The
audit log is a file of JSON lines kept across runs: each record is added at its end with a time
stamp, and the answer's records are its lines read back without their stamps.
-/

namespace Backtest.Config

open Backtest.Document Backtest.Simulation

/-- The shape of the wall-clock stamp of an audit record. Records read back drop the stamp, so
only its length can show: in the position of a fault on a line that the record follows. -/
def stampShape : String := "2000-01-01T00:00:00.000000+00:00"

/-- An audit record as a line of the log: its JSON text with the stamp first, and a line feed. -/
def recordLine (record : Value) : String :=
  let stamped := match record with
    | .map entries => .map ((.str "ts", .str stampShape) :: entries)
    | other => other
  writeJson stamped ++ "\n"

/-- The lines of a text as a file yields them: each but the last ends with its line feed, and an
empty end is no line. -/
def fileLines (text : String) : List String :=
  match (text.splitOn "\n").reverse with
  | [] => []
  | last :: earlier => earlier.reverse.map (· ++ "\n") ++ (if last.isEmpty then [] else [last])

/-- Whether a key is the stamp's. -/
def isStampKey : Value → Bool
  | .str "ts" => true
  | _ => false

/-- A record read back without its stamp; only a mapping has entries to keep. -/
def unstamped : Value → Except Fault Value
  | .map entries => .ok (.map (entries.filter fun (k, _) => !isStampKey k))
  | other => .error (.noAttribute ("'" ++ other.typeName ++ "' object has no attribute 'items'"))

/-- The records of an audit log: none when it does not exist, otherwise the JSON value of every
line that is not blank, all read before their stamps are dropped. -/
def Folder.readAudit (folder : Folder) (path : String) : Except Fault (List Value) := do
  if !folder.exists path then return []
  let lines := (fileLines (← folder.readText path)).filter fun line =>
    !(Text.trimBlanks line.toList).isEmpty
  let records ← lines.mapM fun line => (parseJson line).mapError (JsonError.toFault line)
  records.mapM unstamped

/-- A configured run: its context, the number of observations it ran over, its report, and the
records of its audit log. -/
structure StrategyRun where
  context : RunContext
  observations : Nat
  report : Report
  audit : List Value

/-- Runs the strategy file at `path` of a folder. -/
def Folder.run (folder : Folder) (path : String) (runId : Option String)
    (now : Calendar.Moment) : Except Fault StrategyRun := do
  let s ← folder.loadStrategy path
  let prices ← folder.loadPrices s
  let context ← folder.runContext path s.runIdPrefix runId now
  let folder ← folder.makeParent s.auditLogPath
  let report := simulate s.commissionRate prices s.rules s.portfolio
  let lines := (report.journal.records (some context.runId) (some context.configHash)).map
    recordLine
  let folder ← if lines.isEmpty then pure folder
    else folder.append s.auditLogPath (String.join lines)
  pure ⟨context, prices.length, report, ← folder.readAudit s.auditLogPath⟩

end Backtest.Config
