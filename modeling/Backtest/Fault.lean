import Backtest.Formula.Error

/-!
# Faults

A request that cannot be answered fails with a fault, a kind and a message. A caller that reports
bad input under its own heading catches exactly the value and type faults (`Fault.underHeading`);
overflows, missing attributes, file faults, malformed YAML, unreadable tables and too deep nesting
pass through unchanged.
-/

namespace Backtest

/-- What is wrong with market data that stops a run, each with its code. -/
inductive Integrity where
  /-- The series has no observation. -/
  | emptyPrices
  /-- A date does not come strictly after the one before it. -/
  | nonMonotonicDates
  /-- A price that a percentage or a trade divides or multiplies by is not positive. -/
  | nonPositivePrice
deriving DecidableEq, Repr

/-- The code of an integrity fault. -/
def Integrity.code : Integrity → String
  | .emptyPrices => "EMPTY_PRICES"
  | .nonMonotonicDates => "NON_MONOTONIC_DATES"
  | .nonPositivePrice => "NON_POSITIVE_PRICE"

/-- The stage of reading YAML that found a problem: the character check, the tokens, the
events, the node graph, or the values built from nodes. -/
inductive YamlStage where
  | reader
  | scanner
  | parser
  | composer
  | constructor
deriving DecidableEq, Repr

/-- Why a request failed. -/
inductive Fault where
  /-- A value outside its domain. -/
  | invalid (message : String)
  /-- A value of the wrong kind for the operation. -/
  | wrongType (message : String)
  /-- A number too large for a float, or an infinity where an integer is needed. -/
  | overflow (message : String)
  /-- A field asked of a value that has none. -/
  | noAttribute (message : String)
  /-- Market data that cannot be simulated. -/
  | integrity (kind : Integrity) (message : String)
  /-- A formula without a value. -/
  | formula (e : Formula.Error)
  /-- A file that does not exist, or a path through a directory that does not. -/
  | missingFile (message : String)
  /-- A path that names a directory where a file is needed. -/
  | isDirectory (message : String)
  /-- A path through a file as if it were a directory. -/
  | notDirectory (message : String)
  /-- A directory to be made where a file is. -/
  | fileExists (message : String)
  /-- Text that cannot be encoded for a file. -/
  | unencodable (message : String)
  /-- Text that is not JSON. -/
  | malformedJson (message : String)
  /-- Text that is not a YAML document, with the stage that found it. -/
  | yaml (stage : YamlStage) (message : String)
  /-- A key that a table does not hold. -/
  | missingKey (message : String)
  /-- An index past the end of a text or list. -/
  | outOfRange (message : String)
  /-- A document nested deeper than its reader follows. -/
  | tooDeep (message : String)
  /-- A table file that its reader gives up on. -/
  | table (message : String)
deriving Repr

/-- The message of a fault. -/
def Fault.message : Fault → String
  | .invalid m | .wrongType m | .overflow m | .noAttribute m | .integrity _ m | .missingFile m
  | .isDirectory m | .notDirectory m | .fileExists m | .unencodable m | .malformedJson m
  | .yaml _ m | .missingKey m | .outOfRange m | .tooDeep m | .table m => m
  | .formula e => e.message

/-- Whether a fault is a value fault: a value out of its domain, bad market data, a formula
without a value, or malformed JSON. -/
def Fault.isValue : Fault → Bool
  | .invalid _ | .integrity .. | .formula _ | .malformedJson _ => true
  | _ => false

/-- Whether a fault is a value or type fault, the families a caller reports under its own
heading. -/
def Fault.isValueOrType (f : Fault) : Bool :=
  match f with
  | .wrongType _ => true
  | _ => f.isValue

/-- A value or type fault restated as a value fault with its message framed by two texts; other
faults unchanged. -/
def Fault.framed (before after : String) (f : Fault) : Fault :=
  if f.isValueOrType then .invalid (before ++ f.message ++ after) else f

/-- A value or type fault restated as a value fault under a heading; other faults unchanged. -/
def Fault.underHeading (heading : String) (f : Fault) : Fault :=
  f.framed heading ""

/-- Runs a step, restating its value and type faults under a heading. -/
def headed {α : Type} (heading : String) (x : Except Fault α) : Except Fault α :=
  x.mapError (Fault.underHeading heading)

/-- The fault of an integer read from more than 4300 digits (the count is given). -/
def Fault.tooManyDigits (digits : Nat) : Fault :=
  .invalid ("Exceeds the limit (4300 digits) for integer string conversion: value has " ++
    toString digits ++ " digits; use sys.set_int_max_str_digits() to increase the limit")

/-- The fault of an integer of more than 4300 digits that is to be written out. -/
def Fault.tooManyDigitsToWrite : Fault :=
  .invalid ("Exceeds the limit (4300 digits) for integer string conversion; " ++
    "use sys.set_int_max_str_digits() to increase the limit")

/-- The fault of a number too large for a float. -/
def Fault.tooLargeForFloat : Fault :=
  .overflow "int too large to convert to float"

end Backtest
