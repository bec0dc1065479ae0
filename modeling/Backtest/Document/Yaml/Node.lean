import Backtest.Document.Yaml.Event.Parse
import Backtest.Document.Yaml.Scalar

/-!
# YAML node graphs

The third stage composes events into a graph of nodes held in an array, since an alias inside the
collection it names makes the graph cyclic. A node without a tag, or tagged `!`, gets one here: a
collection by its kind, a plain scalar by its form (`scalarTag`), any other scalar as text. The
stream holds at most one document, and each level of nesting takes the chain of reading two steps
deeper.
-/

namespace Backtest.Document.Yaml

/-- What a node holds. -/
inductive NodeBody where
  | scalar (value : String)
  | sequence (items : List Nat)
  | mapping (pairs : List (Nat × Nat))
deriving Inhabited

/-- A node: its tag, what it holds and where it starts. -/
structure Node where
  tag : String
  body : NodeBody
  startMark : Mark
deriving Inhabited

/-- How messages name the kind of a node. -/
def Node.kindName (n : Node) : String :=
  match n.body with
  | .scalar _ => "scalar"
  | .sequence _ => "sequence"
  | .mapping _ => "mapping"

/-- The composer's state: the parser, the nodes so far and the anchors of the document. -/
structure Composer where
  parser : Parser
  nodes : Array Node
  anchors : List (String × Nat)

/-- Composing steps: they change the composer's state and may fail. -/
abbrev ComposeM := StateT Composer (Except Fault)

/-- The tag a node gets when it has none or has `!`. -/
def resolvedTag (tag : Option String) (fallback : String) : String :=
  match tag with
  | some t => if t == "!" then fallback else t
  | none => fallback

namespace Compose

/-- Runs a parsing step on the composer's parser. -/
def parse {α : Type} (m : ParseM α) : ComposeM α := do
  let c ← get
  match m.run c.parser with
  | .ok (a, p) =>
    set { c with parser := p }
    return a
  | .error f => throw f

/-- Runs a step of the composer one level deeper. -/
def nested {α : Type} (m : ComposeM α) : ComposeM α := do
  parse (Parse.scan (Scan.enter .reader))
  let a ← m
  parse (Parse.scan Scan.leave)
  return a

/-- Makes a node, failing if that goes past the depth limit. -/
def made : ComposeM Unit :=
  parse (Parse.scan (Scan.reach Step.made))

/-- The next event, left in place. -/
def peek : ComposeM (Option Event) :=
  parse Parse.peekEvent

/-- The next event, taken. -/
def take : ComposeM (Option Event) :=
  parse Parse.nextEvent

/-- Whether the next event ends a sequence. -/
def atSequenceEnd : ComposeM Bool := do
  match ← peek with
  | some ⟨.sequenceEnd, _, _⟩ => return true
  | _ => return false

/-- Whether the next event ends a mapping. -/
def atMappingEnd : ComposeM Bool := do
  match ← peek with
  | some ⟨.mappingEnd, _, _⟩ => return true
  | _ => return false

/-- Whether the next event ends the stream (or there is none). -/
def atStreamEnd : ComposeM Bool := do
  match ← peek with
  | some ⟨.streamEnd, _, _⟩ | none => return true
  | _ => return false

/-- Fails with a composer problem found at `m`. -/
def fail {α : Type} (context : Option String) (contextMark : Option Mark) (problem : String)
    (m : Mark) : ComposeM α := do
  throw ((Problem.mk .composer context contextMark problem (some m)).fault
    (← get).parser.scanner.src.buffer)

/-- Adds a node; its index. -/
def add (n : Node) : ComposeM Nat := do
  let c ← get
  set { c with nodes := c.nodes.push n }
  return c.nodes.size

/-- Replaces what a node holds. -/
def fill (id : Nat) (body : NodeBody) : ComposeM Unit :=
  modify fun c => { c with nodes := c.nodes.modify id fun n => { n with body } }

/-- Names a node by an anchor. -/
def register (anchor : Option String) (id : Nat) : ComposeM Unit :=
  match anchor with
  | some a => modify fun c => { c with anchors := (a, id) :: c.anchors }
  | none => pure ()

/-- Fails when an anchor already names a node. -/
def checkAnchor (anchor : Option String) (m : Mark) : ComposeM Unit := do
  let c ← get
  match anchor with
  | some a =>
    match c.anchors.lookup a with
    | some first =>
      fail (some ("found duplicate anchor " ++ Text.quote a ++ "; first occurrence"))
        (some (c.nodes.getD first default).startMark) "second occurrence" m
    | none => pure ()
  | none => pure ()

mutual

/-- Composes the node whose events come next; its index. The fuel bounds the number of nested
steps. -/
def node : Nat → ComposeM Nat
  | 0 => throw Fault.nestedTooDeep
  | fuel + 1 => nested do
    let some e ← peek | throw Fault.nestedTooDeep
    match e.kind with
    | .alias name =>
      discard take
      match (← get).anchors.lookup name with
      | some id => return id
      | none => fail none none ("found undefined alias " ++ Text.quote name) e.startMark
    | .scalar anchor tag byForm _ value =>
      checkAnchor anchor e.startMark
      nested do
        discard take
        made
        let fallback := if byForm then scalarTag value else strTag
        let id ← add ⟨resolvedTag tag fallback, .scalar value, e.startMark⟩
        register anchor id
        return id
    | .sequenceStart anchor tag =>
      checkAnchor anchor e.startMark
      nested do
        discard take
        made
        let id ← add ⟨resolvedTag tag seqTag, .sequence [], e.startMark⟩
        register anchor id
        let children ← items fuel []
        discard take
        fill id (.sequence children)
        return id
    | .mappingStart anchor tag =>
      checkAnchor anchor e.startMark
      nested do
        discard take
        made
        let id ← add ⟨resolvedTag tag mapTag, .mapping [], e.startMark⟩
        register anchor id
        let children ← pairs fuel []
        discard take
        fill id (.mapping children)
        return id
    | _ => throw Fault.nestedTooDeep

/-- Composes the items of a sequence up to its end, after those already composed. -/
def items : Nat → List Nat → ComposeM (List Nat)
  | 0, _ => throw Fault.nestedTooDeep
  | fuel + 1, acc => do
    if ← atSequenceEnd then return acc.reverse
    let item ← node fuel
    items fuel (item :: acc)

/-- Composes the pairs of a mapping up to its end, after those already composed. -/
def pairs : Nat → List (Nat × Nat) → ComposeM (List (Nat × Nat))
  | 0, _ => throw Fault.nestedTooDeep
  | fuel + 1, acc => do
    if ← atMappingEnd then return acc.reverse
    let key ← node fuel
    let value ← node fuel
    pairs fuel ((key, value) :: acc)

end

/-- Composes a document: its start, its root node and its end; the root's index. Anchors do not
outlive the document. -/
def document (fuel : Nat) : ComposeM Nat := nested do
  discard take
  let root ← node fuel
  discard take
  modify fun c => { c with anchors := [] }
  return root

/-- Composes the only document of the stream, if there is one; fails on a second document. -/
def single (fuel : Nat) : ComposeM (Option Nat) := nested do
  discard take
  let root ← if ← atStreamEnd then pure none else some <$> document fuel
  if !(← atStreamEnd) then
    let e ← take
    let nodes := (← get).nodes
    let first := root.map fun id => (nodes.getD id default).startMark
    fail (some "expected a single document in the stream") first "but found another document"
      ((e.map (·.startMark)).getD default)
  discard take
  return root

end Compose

/-- The node graph of a text and the index of its root, or none for an empty stream, when reading
starts `depth` steps deep. -/
def composeText (text : String) (depth : Nat) : Except Fault (Array Node × Option Nat) := do
  let src := Source.ofText text
  let fuel := 8 * src.buffer.size + 64
  let (root, c) ← (Compose.single fuel).run ⟨Parser.start src depth, #[], []⟩
  return (c.nodes, root)

end Backtest.Document.Yaml
