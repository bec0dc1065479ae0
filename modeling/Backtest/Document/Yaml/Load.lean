import Backtest.Document.Yaml.Node
import Backtest.Document.KeyTable

/-!
# Building values from YAML nodes

The last stage builds a value from each node by its tag: scalars from their text, `seq` a list,
`map` a mapping, `set` a set of a mapping's keys, `omap` and `pairs` lists of pairs, any other tag a
fault. A node is built once and shared by its aliases; collections are built as empty shells first
and filled breadth first, so a fault nearer the root is found first. Merge keys `<<` are expanded
before a mapping is filled, its own pairs winning.
-/

namespace Backtest.Document.Yaml

/-- What a node is built as: a scalar's value, or a kind of collection. -/
inductive Shape where
  | scalar (v : Value)
  | list
  | dict
  | set
  | pairs
deriving Inhabited

/-- The contents of a collection once filled: items, or pairs of keys and values. -/
inductive Contents where
  | items (ids : List Nat)
  | entries (pairs : List (Nat × Nat))
deriving Inhabited

/-- The builder's state: the nodes (merge keys are expanded in place), the text for messages, what
each node was built as, the contents of the filled collections, and the collections waiting to be
filled. -/
structure Builder where
  nodes : Array Node
  buffer : Array Char
  shapes : Array (Option Shape)
  contents : Array (Option Contents)
  queue : List Nat

/-- Building steps: they change the builder's state and may fail. -/
abbrev BuildM := StateT Builder (Except Fault)

namespace Build

/-- A node by its index. -/
def node (id : Nat) : BuildM Node :=
  return (← get).nodes.getD id default

/-- The pairs of a mapping node (none for other nodes). -/
def pairsOf (id : Nat) : BuildM (List (Nat × Nat)) := do
  match (← node id).body with
  | .mapping ps => return ps
  | _ => return []

/-- Replaces the pairs of a mapping node. -/
def setPairs (id : Nat) (ps : List (Nat × Nat)) : BuildM Unit :=
  modify fun b => { b with nodes := b.nodes.modify id fun n => { n with body := .mapping ps } }

/-- Replaces the tag of a node. -/
def retag (id : Nat) (tag : String) : BuildM Unit :=
  modify fun b => { b with nodes := b.nodes.modify id fun n => { n with tag } }

/-- Fails with a constructor problem found at `m`. -/
def fail {α : Type} (context : Option String) (contextMark : Option Mark) (problem : String)
    (m : Mark) : BuildM α := do
  throw ((Problem.mk .constructor context contextMark problem (some m)).fault (← get).buffer)

/-- The text of a scalar node, or of the value key's value of a mapping node. -/
def scalarText : Nat → Nat → BuildM String
  | 0, _ => throw Fault.nestedTooDeep
  | fuel + 1, id => do
    let n ← node id
    let nodes := (← get).nodes
    match n.body with
    | .scalar v => return v
    | .mapping ps =>
      match ps.find? (fun (k, _) => (nodes.getD k default).tag == valueTag) with
      | some (_, v) => scalarText fuel v
      | none => fail none none "expected a scalar node, but found mapping" n.startMark
    | .sequence _ => fail none none "expected a scalar node, but found sequence" n.startMark

/-- The value of a node with a scalar tag. -/
def scalarValue (fuel id : Nat) (tag : String) : BuildM Value := do
  let n ← node id
  let text ← scalarText fuel id
  if tag == nullTag then return .null
  else if tag == boolTag then return .bool (← boolOf text)
  else if tag == intTag then return .int (← intOf text)
  else if tag == floatTag then return .float (← floatOf text)
  else if tag == timestampTag then
    match n.body with
    | .scalar _ => timestampOf text
    | _ => throw (.wrongType "expected string or bytes-like object")
  else if tag == binaryTag then
    match asciiProblem text.toList with
    | some problem =>
      fail none none ("failed to convert base64 data into ascii: " ++ problem) n.startMark
    | none =>
      match decodeBase64 text.toList with
      | .ok data => return .bytes data
      | .error problem => fail none none ("failed to decode base64 data: " ++ problem) n.startMark
  else return .str text

/-- The tags built as scalars. -/
def scalarTags : List String :=
  [nullTag, boolTag, intTag, floatTag, binaryTag, timestampTag, strTag]

/-- Builds a node unless it is built: a scalar now, a collection as a shell whose contents wait
in the queue. -/
def construct (fuel id : Nat) : BuildM Unit := do
  let b ← get
  if (b.shapes.getD id none).isSome then return
  let n ← node id
  let shell := fun (s : Shape) => modify fun b =>
    { b with shapes := b.shapes.set! id (some s), queue := b.queue ++ [id] }
  if scalarTags.contains n.tag then
    let v ← scalarValue fuel id n.tag
    modify fun b => { b with shapes := b.shapes.set! id (some (.scalar v)) }
  else if n.tag == seqTag then shell .list
  else if n.tag == mapTag then shell .dict
  else if n.tag == setTag then shell .set
  else if n.tag == omapTag || n.tag == pairsTag then shell .pairs
  else
    fail none none ("could not determine a constructor for the tag " ++ Text.quote n.tag)
      n.startMark

/-- Whether a built node can be a key: only scalars can. -/
def isHashable (id : Nat) : BuildM Bool := do
  match (← get).shapes.getD id none with
  | some (.scalar _) => return true
  | _ => return false

/-- Expands the merge keys of a mapping node from the pair at `index` on, with the pairs merged
so far; value keys become text keys. -/
def flatten : Nat → Nat → Nat → List (Nat × Nat) → BuildM Unit
  | 0, _, _, _ => throw Fault.nestedTooDeep
  | fuel + 1, id, index, merge => do
    let n ← node id
    let ps ← pairsOf id
    match ps[index]? with
    | none => if !merge.isEmpty then setPairs id (merge ++ ps)
    | some (k, v) =>
      let key ← node k
      if key.tag == mergeTag then
        setPairs id (ps.eraseIdx index)
        let source ← node v
        match source.body with
        | .mapping _ =>
          flatten fuel v 0 []
          let merged ← pairsOf v
          flatten fuel id index (merge ++ merged)
        | .sequence subs =>
          let mut submerge : List (List (Nat × Nat)) := []
          for sub in subs do
            let s ← node sub
            match s.body with
            | .mapping _ => pure ()
            | _ =>
              fail (some "while constructing a mapping") (some n.startMark)
                ("expected a mapping for merging, but found " ++ s.kindName) s.startMark
            flatten fuel sub 0 []
            submerge := (← pairsOf sub) :: submerge
          flatten fuel id index (merge ++ submerge.flatten)
        | .scalar _ =>
          fail (some "while constructing a mapping") (some n.startMark)
            "expected a mapping or list of mappings for merging, but found scalar"
            source.startMark
      else
        if key.tag == valueTag then retag k strTag
        flatten fuel id (index + 1) merge

/-- Builds the keys and values of a mapping node, refusing keys that are collections. -/
def mappingContents (fuel id : Nat) : BuildM (List (Nat × Nat)) := do
  let n ← node id
  match n.body with
  | .mapping ps =>
    for (k, v) in ps do
      construct fuel k
      if !(← isHashable k) then
        fail (some "while constructing a mapping") (some n.startMark) "found unhashable key"
          (← node k).startMark
      construct fuel v
    return ps
  | _ => fail none none ("expected a mapping node, but found " ++ n.kindName) n.startMark

/-- Builds the pairs of a sequence of one-pair mappings, as an ordered map or a pair list. -/
def pairContents (fuel id : Nat) : BuildM (List (Nat × Nat)) := do
  let n ← node id
  let context := if n.tag == omapTag then "while constructing an ordered map"
    else "while constructing pairs"
  match n.body with
  | .sequence subs =>
    let mut acc : List (Nat × Nat) := []
    for sub in subs do
      let s ← node sub
      match s.body with
      | .mapping [(k, v)] =>
        construct fuel k
        construct fuel v
        acc := (k, v) :: acc
      | .mapping ps =>
        fail (some context) (some n.startMark)
          ("expected a single mapping item, but found " ++ toString ps.length ++ " items")
          s.startMark
      | .scalar _ | .sequence _ =>
        fail (some context) (some n.startMark)
          ("expected a mapping of length 1, but found " ++ s.kindName) s.startMark
    return acc.reverse
  | _ =>
    fail (some context) (some n.startMark) ("expected a sequence, but found " ++ n.kindName)
      n.startMark

/-- Fills the contents of a collection shell. -/
def fill (fuel id : Nat) : BuildM Unit := do
  let n ← node id
  let contents ← match (← get).shapes.getD id none with
    | some .list =>
      match n.body with
      | .sequence ids =>
        for child in ids do construct fuel child
        pure (Contents.items ids)
      | _ => fail none none ("expected a sequence node, but found " ++ n.kindName) n.startMark
    | some .dict | some .set =>
      if let .mapping _ := n.body then
        let b ← get
        let total := b.nodes.foldl (fun acc m => match m.body with
          | .mapping ps => acc + ps.length
          | _ => acc) 0
        flatten ((total + b.nodes.size + 2) * (b.nodes.size + 2)) id 0 []
      pure (Contents.entries (← mappingContents fuel id))
    | some .pairs => pure (Contents.entries (← pairContents fuel id))
    | _ => pure (Contents.items [])
  modify fun b => { b with contents := b.contents.set! id (some contents) }

/-- Fills the waiting collections in order, and those they add, until none waits. -/
def drain (fuel : Nat) : Nat → BuildM Unit
  | 0 => pure ()
  | rounds + 1 => do
    match (← get).queue with
    | [] => pure ()
    | id :: rest =>
      modify fun b => { b with queue := rest }
      fill fuel id
      drain fuel rounds

/-- Whether a node is built as a mapping. -/
def shapeIsMap (b : Builder) (id : Nat) : Bool :=
  match b.shapes.getD id none with
  | some .dict | some .set => true
  | _ => false

/-- Which NaN a key node built as `v` is, when `v` is a NaN: `some 0` for the NaN shared by all
`.nan` scalars, `some (id + 1)` for a NaN of the node's own (which its aliases share). -/
def nanIdentity (b : Builder) (id : Nat) (v : Value) : Option Nat :=
  match v with
  | .float x =>
    if x.isNaN then
      let n := b.nodes.getD id default
      match n.body with
      | .scalar text => if n.tag == floatTag && isSharedNan text then some 0 else some (id + 1)
      | _ => some (id + 1)
    else none
  | _ => none

/-- Whether two keys, each with its NaN identity, are one key: equal values, or one NaN. -/
def sameKey (a b : Value × Option Nat) : Bool :=
  Value.keyEq a.1 b.1 || (a.2.isSome && a.2 == b.2)

/-- The entries of a mapping from pairs in order: a key that is one with an earlier key keeps the
earlier key's place and gives it its value. -/
def mergeKeys (pairs : List ((Value × Option Nat) × Value)) : List (Value × Value) :=
  let merged := pairs.foldl (fun acc e =>
    if acc.any (fun x => sameKey x.1 e.1) then
      acc.map fun x => if sameKey x.1 e.1 then (x.1, e.2) else x
    else acc ++ [e]) []
  merged.map fun ((k, _), v) => (k, v)

/-- The lower of two optional depths. -/
def lowest : Option Nat → Option Nat → Option Nat
  | some a, some b => some (min a b)
  | some a, none => some a
  | none, b => b

/-- The lowest of the optional depths that come with results. -/
def lowestOf {α : Type} (rs : List (α × Option Nat)) : Option Nat :=
  rs.foldl (fun acc r => lowest acc r.2) none

/-- The value of a built node reached through the nodes of `path` (innermost first), and the
lowest depth of those nodes that it meets again: a node met again is an enclosing collection.
A value that meets no node above its own is the same wherever it is reached, and is kept in the
memo, so that nodes shared through aliases are built once. -/
def valueOf (b : Builder) : Nat → List Nat → Nat → StateM (Array (Option Value)) (Value × Option Nat)
  | 0, _, _ => return (.null, none)
  | fuel + 1, path, id => do
    if let some v := (← get).getD id none then return (v, none)
    match path.idxOf? id with
    | some i => return (.enclosing (shapeIsMap b id), some (path.length - 1 - i))
    | none =>
      let depth := path.length
      let inner := id :: path
      let pairValues := fun (ps : List (Nat × Nat)) => ps.mapM fun (k, v) => do
        let (kv, kl) ← valueOf b fuel inner k
        let (vv, vl) ← valueOf b fuel inner v
        return ((kv, vv), lowest kl vl)
      let (v, reach) ← match b.shapes.getD id none, b.contents.getD id none with
        | some (.scalar v), _ => pure (v, none)
        | some .list, some (.items ids) => do
          let rs ← ids.mapM (valueOf b fuel inner)
          pure (.list (rs.map (·.1)), lowestOf rs)
        | some .dict, some (.entries ps) => do
          let rs ← pairValues ps
          let keyed := (ps.zip rs).map fun ((k, _), r) => ((r.1.1, nanIdentity b k r.1.1), r.1.2)
          pure (.map (mergeKeys keyed), lowestOf rs)
        | some .set, some (.entries ps) => do
          let rs ← pairValues ps
          let keyed := (ps.zip rs).map fun ((k, _), r) => ((r.1.1, nanIdentity b k r.1.1), Value.null)
          let table := KeyTable.empty.addKeys ((mergeKeys keyed).map (·.1))
          pure (.set table.keys, lowestOf rs)
        | some .pairs, some (.entries ps) => do
          let rs ← pairValues ps
          pure (.list (rs.map fun r => .tuple [r.1.1, r.1.2]), lowestOf rs)
        | _, _ => pure (.null, none)
      if reach.all (· ≥ depth) then modify fun memo => memo.set! id (some v)
      return (v, reach)

end Build

/-- How many steps deep reading a configuration text starts. With the steps each level of
nesting takes, it lets flow sequences nest 490 deep and flow mappings 488 deep when their
innermost collection is empty. -/
def readDepth : Nat := 9

/-- Reads the only YAML document of a text as a value (null for an empty stream): the text's
characters are checked, the events composed into nodes, and the nodes built by tag. -/
def loadYaml (text : String) : Except Fault Value := do
  checkAllowed (Text.codes text)
  let (nodes, root) ← composeText text readDepth
  match root with
  | none => return .null
  | some r =>
    let start : Builder :=
      { nodes, buffer := (Source.ofText text).buffer, shapes := Array.replicate nodes.size none,
        contents := Array.replicate nodes.size none, queue := [] }
    let fuel := nodes.size + 1
    let ((), b) ← (do Build.construct fuel r; Build.drain fuel fuel).run start
    let ((v, _), _) := (Build.valueOf b fuel [] r).run (Array.replicate nodes.size none)
    return v

end Backtest.Document.Yaml
