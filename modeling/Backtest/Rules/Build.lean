import Backtest.Rules.Spec
import Backtest.Document.Coerce
import Backtest.Document.Order
import Backtest.Document.KeyTable
import Backtest.Formula.Eval

/-!
# Building specs from documents

A condition or action is written as a mapping with a `type` and the kind's parameters, for instance
`{type: close_price_change, threshold_percent: 5, direction: down}`. `Catalogue.build` checks the
type, the stray keys, each parameter's reading, the missing required parameters and the kind's
constraints, in that order, each with its own message; the faults of reading and assembly are
reported under `Invalid <what> <type>: ` unless they are overflows.
-/

namespace Backtest.Rules

open Backtest.Document Backtest.Market Backtest.Ledger

/-- How a parameter's document value is read. -/
inductive Reading where
  | real
  | count
  | text
  | direction
  | sense
  | bounds
  | field
deriving DecidableEq, Repr

/-- A parameter of a kind: its name, how it is read, and whether it must be given. -/
structure Param where
  name : String
  reading : Reading
  required : Bool

/-- A parameter's value once read. -/
inductive Arg where
  | real (x : Float)
  | count (n : Int)
  | text (s : String)
  | direction (d : Direction)
  | sense (s : Sense)
  | bounds (b : Bounds)
  | field (f : Field)

/-- Read parameters by name. -/
abbrev Args := List (String × Arg)

/-- The choice whose name is the given text. -/
def choose {α : Type} (choices : List α) (name : α → String) (key : String) (v : Value) :
    Except Fault α :=
  let found := match v with
    | .str s => choices.find? (fun c => name c == s)
    | _ => none
  match found with
  | some c => .ok c
  | none => do .error (.invalid ("Invalid " ++ key ++ ": " ++ (← v.toText)))

/-- Reads a parameter's value. -/
def Reading.read (r : Reading) (key : String) (v : Value) : Except Fault Arg :=
  match r with
  | .real => Arg.real <$> v.toFloat
  | .count => Arg.count <$> v.toCount key
  | .text => Arg.text <$> v.toText
  | .direction => Arg.direction <$> choose [.up, .down] Direction.name key v
  | .sense => Arg.sense <$> choose [.up, .down, .both] Sense.name key v
  | .bounds => Arg.bounds <$> choose [.inclusive, .exclusive, .leftInclusive, .rightInclusive]
      Bounds.name key v
  | .field => Arg.field <$> choose [.close, .high, .low] Field.name key v

/-- The float parameter `key`, or zero when absent. -/
def Args.real (args : Args) (key : String) : Float :=
  match args.lookup key with
  | some (.real x) => x
  | _ => 0.0

/-- The count parameter `key`, or zero when absent. -/
def Args.count (args : Args) (key : String) : Int :=
  match args.lookup key with
  | some (.count n) => n
  | _ => 0

/-- The text parameter `key`, or the empty text when absent. -/
def Args.text (args : Args) (key : String) : String :=
  match args.lookup key with
  | some (.text s) => s
  | _ => ""

/-- The direction parameter, `up` when absent. -/
def Args.direction (args : Args) : Direction :=
  match args.lookup "direction" with
  | some (.direction d) => d
  | _ => .up

/-- The sense parameter (named `direction`), `up` when absent. -/
def Args.sense (args : Args) : Sense :=
  match args.lookup "direction" with
  | some (.sense s) => s
  | _ => .up

/-- The bounds parameter, inclusive when absent. -/
def Args.bounds (args : Args) : Bounds :=
  match args.lookup "bounds" with
  | some (.bounds b) => b
  | _ => .inclusive

/-- The field parameter, the close when absent. -/
def Args.field (args : Args) : Field :=
  match args.lookup "field" with
  | some (.field f) => f
  | _ => .close

/-- A required float parameter. -/
def real (name : String) : Param := { name, reading := .real, required := true }

/-- An optional choice parameter. -/
def choice (name : String) (reading : Reading) : Param := { name, reading, required := false }

/-- The parameters of a condition kind, in order. -/
def ConditionKind.params : ConditionKind → List Param
  | .always => []
  | .change _ => [real "threshold_percent", choice "direction" .direction]
  | .changeRange => [real "min_percent", real "max_percent", choice "field" .field,
      choice "direction" .sense, choice "bounds" .bounds]
  | .valueRange => [real "min_price", real "max_price", choice "bounds" .bounds]

/-- The parameters of an action kind, in order. -/
def ActionKind.params : ActionKind → List Param
  | .percent _ => [real "percent"]
  | .amount _ => [real "amount"]
  | .shares _ => [{ name := "count", reading := .count, required := true }]
  | .formula _ _ => [{ name := "formula", reading := .text, required := true }]
  | .sellAll | .hold => []

/-- Assembles a condition from its read parameters, checking its constraints. -/
def ConditionKind.assemble (k : ConditionKind) (args : Args) : Except Fault Condition :=
  match k with
  | .always => .ok .always
  | .change f =>
    let t := args.real "threshold_percent"
    if t < 0.0 then .error (.invalid "threshold_percent must be non-negative")
    else .ok (.change f t args.direction)
  | .changeRange =>
    .ok (.changeRange (args.real "min_percent") (args.real "max_percent") args.field args.sense
      args.bounds)
  | .valueRange => .ok (.valueRange (args.real "min_price") (args.real "max_price") args.bounds)

/-- Whether a percentage lies between 0 and 100 (NaN does not). -/
def isPercent (p : Float) : Bool :=
  0.0 ≤ p && p ≤ 100.0

/-- Assembles an action from its read parameters, checking its constraints. -/
def ActionKind.assemble (k : ActionKind) (args : Args) : Except Fault Action :=
  match k with
  | .percent s =>
    let p := args.real "percent"
    if isPercent p then .ok (.percent s p)
    else .error (.invalid "percent must be between 0 and 100")
  | .amount s => .ok (.amount s (args.real "amount"))
  | .shares s =>
    let n := args.count "count"
    if n ≤ 0 then .error (.invalid "count must be a positive share count")
    else .ok (.shares s n.toNat)
  | .formula s m => .ok (.formula s m (args.text "formula"))
  | .sellAll => .ok .sellAll
  | .hold => .ok .hold

/-- A catalogue of spec kinds: what they are called in messages, and per kind its names,
parameters and assembly. -/
structure Catalogue (κ σ : Type) where
  what : String
  kinds : List κ
  name : κ → String
  className : κ → String
  params : κ → List Param
  assemble : κ → Args → Except Fault σ

/-- The condition catalogue. -/
def conditions : Catalogue ConditionKind Condition :=
  { what := "condition", kinds := ConditionKind.all, name := ConditionKind.name,
    className := ConditionKind.className, params := ConditionKind.params,
    assemble := ConditionKind.assemble }

/-- The action catalogue. -/
def actions : Catalogue ActionKind Action :=
  { what := "action", kinds := ActionKind.all, name := ActionKind.name,
    className := ActionKind.className, params := ActionKind.params,
    assemble := ActionKind.assemble }

/-- The names of sorted keys joined by commas, or the type fault of a key that is no text (the
first such, with its position). -/
def joinNames (keys : List Value) : Except Fault String :=
  match keys.zipIdx.find? (fun (k, _) => !k.isStr) with
  | some (k, i) =>
    .error (.wrongType ("sequence item " ++ toString i ++ ": expected str instance, " ++
      k.typeName ++ " found"))
  | none => .ok (", ".intercalate (keys.map Value.display))

/-- The fault for stray keys: their sorted list, or the type fault of sorting or listing keys
that are not all texts. -/
def strayKeysFault (what kind : String) (strays : List Value) : Fault :=
  let listed := do
    let names ← joinNames (← sortValues strays)
    pure (Fault.invalid ("Unknown " ++ what ++ " parameters for " ++ kind ++ ": " ++ names))
  match listed with
  | .ok f | .error f => f

/-- Quotes names and joins them as a sentence: `'a'`, `'a' and 'b'`, `'a', 'b', and 'c'`. -/
def nameList (names : List String) : String :=
  let quoted := names.map fun n => "'" ++ n ++ "'"
  match quoted with
  | [] => ""
  | [a] => a
  | [a, b] => a ++ " and " ++ b
  | _ => ", ".intercalate quoted.dropLast ++ ", and " ++ quoted.getLast!

/-- The fault of missing required parameters. -/
def missingFault (className : String) (missing : List String) : Fault :=
  let count := missing.length
  .wrongType (className ++ ".__init__() missing " ++ toString count ++ " required positional " ++
    (if count = 1 then "argument" else "arguments") ++ ": " ++ nameList missing)

/-- Reads the parameters named by `order` from a document, in that order. -/
def readParams (params : List Param) (order : List Value) (doc : Value) : Except Fault Args :=
  order.foldlM (fun acc key =>
    match key with
    | .str name =>
      match params.find? (·.name == name), doc.get? name with
      | some p, some v => (fun a => acc ++ [(p.name, a)]) <$> p.reading.read p.name v
      | _, _ => .ok acc
    | _ => .ok acc) []

/-- The kind a document's type names. -/
def Catalogue.kindOf {κ σ : Type} (c : Catalogue κ σ) (doc : Value) : Except Fault κ :=
  match doc.get? "type" with
  | none => .error (.invalid "Missing required config key: type")
  | some (.list _) => .error (.wrongType "unhashable type: 'list'")
  | some (.map _) => .error (.wrongType "unhashable type: 'dict'")
  | some (.set _) => .error (.wrongType "unhashable type: 'set'")
  | some t =>
    let found := match t with
      | .str s => c.kinds.find? (fun k => c.name k == s)
      | _ => none
    match found with
    | some k => .ok k
    | none => do .error (.invalid ("Unknown " ++ c.what ++ " type: " ++ (← t.toText)))

/-- Builds a spec from a document: the type must name a kind; no key but `type` and the kind's
parameters may appear (the strays are sorted from the order of a key table of them); the parameters
present are read in the order of the key table of their names (`KeyTable.inter`); the required ones
must all be there; and the values must meet the kind's constraints. -/
def Catalogue.build {κ σ : Type} (c : Catalogue κ σ) (doc : Value) : Except Fault σ := do
  let k ← c.kindOf doc
  let params := c.params k
  let keys : List Value := match doc with
    | .map entries => entries.map Prod.fst
    | _ => []
  let names := KeyTable.ofList (params.map fun p => Value.str p.name)
  let present := KeyTable.empty.addKeys keys
  let strays := ((present.diff names).diff (KeyTable.ofList [.str "type"])).keys
  if !strays.isEmpty then throw (strayKeysFault c.what (c.name k) strays)
  headed ("Invalid " ++ c.what ++ " " ++ c.name k ++ ": ") do
    let args ← readParams params (names.inter present).keys doc
    let missing := (params.filter fun p => p.required && (args.lookup p.name).isNone).map (·.name)
    if !missing.isEmpty then throw (missingFault (c.className k) missing)
    c.assemble k args

/-- Builds a condition from a document. -/
def buildCondition (doc : Value) : Except Fault Condition :=
  conditions.build doc

/-- Builds an action from a document. -/
def buildAction (doc : Value) : Except Fault Action :=
  actions.build doc

/-- Builds an action from a document and checks that a sizing formula is valid. -/
def parseAction (doc : Value) : Except Fault Action := do
  let a ← buildAction doc
  match a.formula? with
  | some text =>
    let check := Formula.validate text
    if check.valid then pure a
    else throw (.invalid ("Invalid formula " ++ Text.quote text ++ ": " ++ check.reason))
  | none => pure a

end Backtest.Rules
