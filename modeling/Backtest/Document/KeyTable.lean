import Backtest.Document.Hash

/-!
# Key tables

A key table holds distinct keys in a power-of-two array of slots: a key takes the first free slot of
its probe, which looks at ten slots in a row and then jumps to `5 i + 1 + p`, `p` the hash shifted
five more bits each time; a removed key leaves a vacated slot. The table grows when three fifths of
its slots are taken. The order of its keys is the order of its slots (`keys`), so it follows from
the hashes and the history of insertions alone.
-/

namespace Backtest.Document

/-- A slot of a key table. -/
inductive Slot where
  | free
  | vacated
  | held (hash : UInt64) (key : Value)
deriving Inhabited

/-- A key table: its slots, how many are in use or vacated (`fill`), and how many hold a key
(`used`). -/
structure KeyTable where
  slots : Array Slot
  fill : Nat
  used : Nat
deriving Inhabited

/-- Where a probe ends: at the held slot of an equal key, or at the slot a new key takes (the
first vacated slot passed, if any, else the free slot that ended the probe). -/
inductive Probe where
  | present (index : Nat)
  | absent (index : Nat) (reuses : Bool)

namespace KeyTable

/-- The empty table of eight slots. -/
def empty : KeyTable :=
  ⟨Array.replicate 8 .free, 0, 0⟩

/-- The largest slot index. -/
def mask (t : KeyTable) : Nat :=
  t.slots.size - 1

/-- The slots a probe looks at from `i` before it jumps: ten in a row when they fit below
`mask`, else one. -/
def stretch (mask i : Nat) : List Nat :=
  if i + 9 ≤ mask then List.range' i 10 else [i]

/-- The slot a probe jumps to from `i`. -/
def jump (mask i : Nat) (perturb : UInt64) : Nat :=
  (i * 5 + 1 + perturb.toNat) % (mask + 1)

/-- The number of stretches a probe may take: enough for the shifted hash to reach zero and for
the jumps to visit every slot after that. -/
def probeFuel (t : KeyTable) : Nat :=
  t.slots.size + 16

/-- Looks at the slots of a stretch for a key with its hash, remembering the first vacated slot;
a finished probe, or the vacated slot to carry on with. -/
def look (t : KeyTable) (hash : UInt64) (key : Value) : List Nat → Option Nat → Sum Probe (Option Nat)
  | [], spare => .inr spare
  | j :: rest, spare =>
    match t.slots[j]? with
    | some .free =>
      match spare with
      | some s => .inl (.absent s true)
      | none => .inl (.absent j false)
    | some (.held h k) =>
      if h == hash && Value.keyEq k key then .inl (.present j) else look t hash key rest spare
    | some .vacated => look t hash key rest (spare <|> some j)
    | none => .inr spare

/-- Probes for a key with its hash from slot `i`. -/
def probeFrom (t : KeyTable) (hash : UInt64) (key : Value) :
    Nat → Nat → UInt64 → Option Nat → Probe
  | 0, _, _, spare => .absent (spare.getD 0) spare.isSome
  | fuel + 1, i, perturb, spare =>
    match t.look hash key (stretch t.mask i) spare with
    | .inl found => found
    | .inr spare =>
      let perturb := perturb >>> 5
      t.probeFrom hash key fuel (jump t.mask i perturb) perturb spare

/-- Probes for a key with its hash. -/
def probe (t : KeyTable) (hash : UInt64) (key : Value) : Probe :=
  t.probeFrom hash key t.probeFuel (hash.toNat % t.slots.size) hash none

/-- The first free slot of a probe in slots without vacated ones. -/
def freeFrom (slots : Array Slot) (mask : Nat) : Nat → Nat → UInt64 → Nat
  | 0, i, _ => i
  | fuel + 1, i, perturb =>
    match (stretch mask i).find? fun j => match slots[j]? with
      | some .free => true
      | _ => false with
    | some j => j
    | none =>
      let perturb := perturb >>> 5
      freeFrom slots mask fuel (jump mask i perturb) perturb

/-- Places a key known to be new in slots without vacated ones. -/
def place (slots : Array Slot) (hash : UInt64) (key : Value) : Array Slot :=
  let j := freeFrom slots (slots.size - 1) (slots.size + 16) (hash.toNat % slots.size) hash
  slots.set! j (.held hash key)

/-- The held slots in slot order: hashes and keys. -/
def entries (t : KeyTable) : List (UInt64 × Value) :=
  t.slots.toList.filterMap fun s => match s with
    | .held h k => some (h, k)
    | _ => none

/-- The keys in slot order. -/
def keys (t : KeyTable) : List Value :=
  t.entries.map Prod.snd

/-- The least power of two, at least eight, above `n`. -/
def sizeAbove (n : Nat) : Nat :=
  if n < 8 then 8 else Nat.pow 2 (Nat.log2 n + 1)

/-- The keys placed again, in slot order, in a table of the least size above `n`. -/
def resize (t : KeyTable) (n : Nat) : KeyTable :=
  let slots := t.entries.foldl (fun acc (h, k) => place acc h k)
    (Array.replicate (sizeAbove n) .free)
  ⟨slots, t.used, t.used⟩

/-- The size a table grows to from its number of keys. -/
def grownSize (used : Nat) : Nat :=
  if used > 50000 then used * 2 else used * 4

/-- Adds a key with its hash, unless an equal key is there. -/
def insert (t : KeyTable) (hash : UInt64) (key : Value) : KeyTable :=
  match t.probe hash key with
  | .present _ => t
  | .absent j true => { t with slots := t.slots.set! j (.held hash key), used := t.used + 1 }
  | .absent j false =>
    let slots := t.slots.set! j (.held hash key)
    let t : KeyTable := ⟨slots, t.fill + 1, t.used + 1⟩
    if t.fill * 5 < t.mask * 3 then t else t.resize (grownSize t.used)

/-- Adds a key. -/
def add (t : KeyTable) (key : Value) : KeyTable :=
  t.insert key.hash key

/-- Whether an equal key is in the table. -/
def contains (t : KeyTable) (hash : UInt64) (key : Value) : Bool :=
  match t.probe hash key with
  | .present _ => true
  | .absent _ _ => false

/-- Removes an equal key, leaving its slot vacated. -/
def erase (t : KeyTable) (hash : UInt64) (key : Value) : KeyTable :=
  match t.probe hash key with
  | .present j => { t with slots := t.slots.set! j .vacated, used := t.used - 1 }
  | .absent _ _ => t

/-- A table of keys added one by one. -/
def ofList (keys : List Value) : KeyTable :=
  keys.foldl add empty

/-- Adds the keys of a mapping, in order, after making room for all of them. -/
def addKeys (t : KeyTable) (keys : List Value) : KeyTable :=
  let n := keys.length
  let t := if (t.fill + n) * 5 ≥ t.mask * 3 then t.resize ((t.used + n) * 2) else t
  keys.foldl add t

/-- Adds the keys of another table: after making room for all of them, an empty table of the
same size without vacated slots takes the other's slots as they are, any other empty table takes
its keys placed in slot order, and a table with keys adds them one by one. -/
def merge (t other : KeyTable) : KeyTable :=
  if other.used = 0 then t
  else
    let t := if (t.fill + other.used) * 5 ≥ t.mask * 3 then t.resize ((t.used + other.used) * 2)
      else t
    if t.fill = 0 && t.slots.size = other.slots.size && other.fill = other.used then other
    else if t.fill = 0 then
      ⟨other.entries.foldl (fun acc (h, k) => place acc h k) t.slots, other.used, other.used⟩
    else other.entries.foldl (fun acc (h, k) => acc.insert h k) t

/-- A copy of a table, made as an empty table takes another's keys. -/
def copy (t : KeyTable) : KeyTable :=
  empty.merge t

/-- The keys of both tables: the keys of the smaller (of the second when equal in number) that the
larger holds, added in slot order to an empty table. -/
def inter (t other : KeyTable) : KeyTable :=
  let (large, small) := if other.used > t.used then (other, t) else (t, other)
  small.entries.foldl (fun acc (h, k) => if large.contains h k then acc.insert h k else acc) empty

/-- Removes the keys of another table, in its slot order (through the keys both hold when the
other is more than eight times larger); a table left with more than a quarter of its slots
vacated is placed again. -/
def eraseAll (t other : KeyTable) : KeyTable :=
  let other := if other.used / 8 > t.used then t.inter other else other
  let t := other.entries.foldl (fun acc (h, k) => acc.erase h k) t
  if t.fill - t.used ≤ t.mask / 4 then t else t.resize (grownSize t.used)

/-- The keys of a table that another lacks: a copy with the other's keys removed when the table
has more than four times as many keys, else those keys added in slot order to an empty table. -/
def diff (t other : KeyTable) : KeyTable :=
  if t.used / 4 > other.used then t.copy.eraseAll other
  else t.entries.foldl (fun acc (h, k) => if other.contains h k then acc else acc.insert h k) empty

end KeyTable

end Backtest.Document
