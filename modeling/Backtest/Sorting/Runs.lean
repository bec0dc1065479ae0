/-!
# Sorting by merging runs

`sortBy` sorts an array with a strict comparison that may fail, comparison for comparison as an
adaptive merge sort over natural runs does, so a failure is the one such a sort meets first. The
array is cut into natural runs, short ones lengthened by binary insertion up to `minRun`; pending
runs merge by the powers of their boundaries (`boundaryPower`), and a merge gallops once one side
wins `minGallop` times in a row. A comparison only asks whether a later item is below an earlier
one, so the sort is stable.
-/

namespace Backtest.Sorting

/-- A pending run: where it starts, how long it is, and the power of its boundary with the run
pushed after it. -/
structure Run where
  start : Nat
  length : Nat
  power : Nat
deriving Inhabited

/-- How many items a galloping search must take for galloping to go on, and how many wins in a
row start galloping at first. -/
def galloping : Nat := 7

/-- The state of a sort: the items, the pending runs (the bottom one first), and how many wins
in a row start galloping in the next merge. -/
structure Sorter (α : Type) where
  items : Array α
  pending : Array Run
  minGallop : Nat

/-- Sorting steps: they change the sorter and fail when a comparison fails. -/
abbrev SortM (α ε : Type) := StateT (Sorter α) (Except ε)

/-- The length to which short runs are lengthened: the size halved until it is below 64, plus
one if any halving dropped a remainder. -/
def minRun (n : Nat) : Nat :=
  go n n 0
where
  go : Nat → Nat → Nat → Nat
    | 0, n, r => n + r
    | fuel + 1, n, r => if 64 ≤ n then go fuel (n / 2) (if n % 2 = 1 then 1 else r) else n + r

/-- The power of the boundary between a run of `n1` items at `s1` and the run of `n2` items
after it, in an array of `n` items: the first bit in which the binary fractions of the two runs'
midpoints differ. -/
def boundaryPower (s1 n1 n2 n : Nat) : Nat :=
  go (64 + n) (2 * s1 + n1) (2 * s1 + n1 + n1 + n2) 0
where
  go : Nat → Nat → Nat → Nat → Nat
    | 0, _, _, result => result
    | fuel + 1, a, b, result =>
      if n ≤ a then go fuel (2 * (a - n)) (2 * (b - n)) (result + 1)
      else if n ≤ b then result + 1
      else go fuel (2 * a) (2 * b) (result + 1)

variable {α ε : Type} [Inhabited α]

/-- Steps an offset through `1, 3, 7, 15, ...` while it is below `limit` and `cond` holds
there: the last offset where it held (0 if none), and the first where it failed or that reached
the limit. -/
def gallopSteps (cond : Nat → Except ε Bool) (limit : Nat) :
    Nat → Nat → Nat → Except ε (Nat × Nat)
  | 0, last, ofs => pure (last, ofs)
  | fuel + 1, last, ofs =>
    if ofs < limit then do
      if ← cond ofs then gallopSteps cond limit fuel ofs (2 * ofs + 1) else pure (last, ofs)
    else pure (last, ofs)

/-- The first position of `[lo, hi)` where `right` is false, when it is true before some
position and false from there on; found by halving. -/
def narrow (right : Nat → Except ε Bool) (lo hi : Nat) : Except ε Nat :=
  if lo < hi then do
    let m := lo + (hi - lo) / 2
    if ← right m then narrow right (m + 1) hi else narrow right lo m
  else pure lo
termination_by hi - lo
decreasing_by all_goals omega

/-- Where `key` goes in the sorted array `a`: before every item that is not below it. The search
gallops from `hint`, then halves. -/
def gallopLeft (lt : α → α → Except ε Bool) (key : α) (a : Array α) (hint : Nat) :
    Except ε Nat := do
  let item := fun i => a.getD i default
  let (lo, hi) ← do
    if ← lt (item hint) key then
      let limit := a.size - hint
      let (last, ofs) ← gallopSteps (fun k => lt (item (hint + k)) key) limit (limit + 1) 0 1
      pure (hint + last + 1, hint + min ofs limit)
    else
      let limit := hint + 1
      let (last, ofs) ← gallopSteps (fun k => do return !(← lt (item (hint - k)) key)) limit
        (limit + 1) 0 1
      pure (hint + 1 - min ofs limit, hint - last)
  narrow (fun m => lt (item m) key) lo hi

/-- Where `key` goes in the sorted array `a`: after every item that it is not below. The search
gallops from `hint`, then halves. -/
def gallopRight (lt : α → α → Except ε Bool) (key : α) (a : Array α) (hint : Nat) :
    Except ε Nat := do
  let item := fun i => a.getD i default
  let (lo, hi) ← do
    if ← lt key (item hint) then
      let limit := hint + 1
      let (last, ofs) ← gallopSteps (fun k => lt key (item (hint - k))) limit (limit + 1) 0 1
      pure (hint + 1 - min ofs limit, hint - last)
    else
      let limit := a.size - hint
      let (last, ofs) ← gallopSteps (fun k => do return !(← lt key (item (hint + k)))) limit
        (limit + 1) 0 1
      pure (hint + last + 1, hint + min ofs limit)
  narrow (fun m => do return !(← lt key (item m))) lo hi

/-- How many positions from `i` on, before `hi`, satisfy `cond` one after another. -/
def stretch (cond : Nat → Except ε Bool) (i hi : Nat) : Except ε Nat :=
  if i < hi then do
    if ← cond i then return 1 + (← stretch cond (i + 1) hi) else return 0
  else return 0
termination_by hi - i

/-- The natural run of `a` at `lo`, among the items before `hi`: its length, and whether it
strictly descends. -/
def countRun (lt : α → α → Except ε Bool) (a : Array α) (lo hi : Nat) :
    Except ε (Nat × Bool) := do
  if hi ≤ lo + 1 then return (1, false)
  let item := fun i => a.getD i default
  if ← lt (item (lo + 1)) (item lo) then
    return (2 + (← stretch (fun i => lt (item i) (item (i - 1))) (lo + 2) hi), true)
  else
    return (2 + (← stretch (fun i => do return !(← lt (item i) (item (i - 1)))) (lo + 2) hi),
      false)

/-- The array with the item at `s` moved to position `l ≤ s`, the items between moving up. -/
def moveDown (a : Array α) (l s : Nat) : Array α :=
  a.extract 0 l ++ #[a.getD s default] ++ a.extract l s ++ a.extract (s + 1) a.size

/-- The array with the items of `[lo, hi)` in reverse order. -/
def reverseRange (a : Array α) (lo hi : Nat) : Array α :=
  a.extract 0 lo ++ (a.extract lo hi).reverse ++ a.extract hi a.size

/-- Inserts the items of `[s, hi)` one by one into the sorted `[lo, s)`, each after every item
it is not below. -/
def insertFrom (lt : α → α → Except ε Bool) (lo hi : Nat) (a : Array α) (s : Nat) :
    Except ε (Array α) :=
  if s < hi then do
    let pivot := a.getD s default
    let l ← narrow (fun p => do return !(← lt pivot (a.getD p default))) lo s
    insertFrom lt lo hi (moveDown a l s) (s + 1)
  else pure a
termination_by hi - s

/-- Sorts `[lo, hi)` of `a` by binary insertion, given that `[lo, start)` is sorted. -/
def binarySort (lt : α → α → Except ε Bool) (a : Array α) (lo hi start : Nat) :
    Except ε (Array α) :=
  insertFrom lt lo hi a (if start = lo then start + 1 else start)

/-- A merge in progress: the items left of the first run (`[i, i + na)` of `a`) and of the
second (`[j, j + nb)` of `b`), the items placed so far, the number of wins in a row that starts
galloping now, and the one that the merges after this one start with. -/
structure Merge (α : Type) where
  a : Array α
  i : Nat
  na : Nat
  b : Array α
  j : Nat
  nb : Nat
  out : Array α
  threshold : Nat
  kept : Nat

/-- Where a merge stands: taking one item at a time, with the wins in a row of each side, or
galloping. -/
inductive Phase where
  | single (aWins bWins : Nat)
  | gallop

/-- A merge from the front that ends with one run used up: what is placed, then what is left. -/
def Merge.frontDone (m : Merge α) : Array α × Nat :=
  (m.out ++ m.a.extract m.i (m.i + m.na) ++ m.b.extract m.j (m.j + m.nb), m.kept)

/-- A merge from the front that ends with one item of the first run left: it goes last. -/
def Merge.frontLast (m : Merge α) : Array α × Nat :=
  (m.out ++ m.b.extract m.j (m.j + m.nb) ++ #[m.a.getD m.i default], m.kept)

/-- The steps of a merge from the front, the first run being the shorter. -/
def frontLoop (lt : α → α → Except ε Bool) : Nat → Phase → Merge α → Except ε (Array α × Nat)
  | 0, _, m => pure m.frontDone
  | fuel + 1, .single aWins bWins, m => do
    let x := m.b.getD m.j default
    let y := m.a.getD m.i default
    if ← lt x y then
      let m := { m with out := m.out.push x, j := m.j + 1, nb := m.nb - 1 }
      if m.nb = 0 then pure m.frontDone
      else if m.threshold ≤ bWins + 1 then
        frontLoop lt fuel .gallop { m with threshold := m.threshold + 1 }
      else frontLoop lt fuel (.single 0 (bWins + 1)) m
    else
      let m := { m with out := m.out.push y, i := m.i + 1, na := m.na - 1 }
      if m.na = 1 then pure m.frontLast
      else if m.threshold ≤ aWins + 1 then
        frontLoop lt fuel .gallop { m with threshold := m.threshold + 1 }
      else frontLoop lt fuel (.single (aWins + 1) 0) m
  | fuel + 1, .gallop, m => do
    let t := if 1 < m.threshold then m.threshold - 1 else m.threshold
    let m := { m with threshold := t, kept := t }
    let k ← gallopRight lt (m.b.getD m.j default) (m.a.extract m.i (m.i + m.na)) 0
    let m := { m with out := m.out ++ m.a.extract m.i (m.i + k), i := m.i + k, na := m.na - k }
    if 0 < k ∧ m.na = 1 then return m.frontLast
    if 0 < k ∧ m.na = 0 then return m.frontDone
    let m := { m with out := m.out.push (m.b.getD m.j default), j := m.j + 1, nb := m.nb - 1 }
    if m.nb = 0 then return m.frontDone
    let k2 ← gallopLeft lt (m.a.getD m.i default) (m.b.extract m.j (m.j + m.nb)) 0
    let m := { m with out := m.out ++ m.b.extract m.j (m.j + k2), j := m.j + k2, nb := m.nb - k2 }
    if 0 < k2 ∧ m.nb = 0 then return m.frontDone
    let m := { m with out := m.out.push (m.a.getD m.i default), i := m.i + 1, na := m.na - 1 }
    if m.na = 1 then return m.frontLast
    let calm := { m with threshold := m.threshold + 1, kept := m.threshold + 1 }
    if galloping ≤ k ∨ galloping ≤ k2 then frontLoop lt fuel .gallop m
    else frontLoop lt fuel (.single 0 0) calm

/-- Merges two non-empty sorted runs from the front, the first being the shorter; the merged
items and the gallop threshold for later merges. -/
def mergeFront (lt : α → α → Except ε Bool) (a b : Array α) (threshold : Nat) :
    Except ε (Array α × Nat) :=
  let m : Merge α :=
    { a, i := 0, na := a.size, b, j := 1, nb := b.size - 1, out := #[b.getD 0 default],
      threshold, kept := threshold }
  if m.nb = 0 then pure m.frontDone
  else if m.na = 1 then pure m.frontLast
  else frontLoop lt (a.size + b.size + 1) (.single 0 0) m

/-- A merge from the back that ends with one run used up: what is left, then what is placed
(kept in `out` last item first). -/
def Merge.backDone (m : Merge α) : Array α × Nat :=
  (m.a.extract 0 m.na ++ m.b.extract 0 m.nb ++ m.out.reverse, m.kept)

/-- A merge from the back that ends with one item of the second run left: it goes first. -/
def Merge.backFirst (m : Merge α) : Array α × Nat :=
  (#[m.b.getD 0 default] ++ m.a.extract 0 m.na ++ m.out.reverse, m.kept)

/-- The steps of a merge from the back, the second run being the shorter; the items left are
`[0, na)` of `a` and `[0, nb)` of `b`. -/
def backLoop (lt : α → α → Except ε Bool) : Nat → Phase → Merge α → Except ε (Array α × Nat)
  | 0, _, m => pure m.backDone
  | fuel + 1, .single aWins bWins, m => do
    let x := m.b.getD (m.nb - 1) default
    let y := m.a.getD (m.na - 1) default
    if ← lt x y then
      let m := { m with out := m.out.push y, na := m.na - 1 }
      if m.na = 0 then pure m.backDone
      else if m.threshold ≤ aWins + 1 then
        backLoop lt fuel .gallop { m with threshold := m.threshold + 1 }
      else backLoop lt fuel (.single (aWins + 1) 0) m
    else
      let m := { m with out := m.out.push x, nb := m.nb - 1 }
      if m.nb = 1 then pure m.backFirst
      else if m.threshold ≤ bWins + 1 then
        backLoop lt fuel .gallop { m with threshold := m.threshold + 1 }
      else backLoop lt fuel (.single 0 (bWins + 1)) m
  | fuel + 1, .gallop, m => do
    let t := if 1 < m.threshold then m.threshold - 1 else m.threshold
    let m := { m with threshold := t, kept := t }
    let g ← gallopRight lt (m.b.getD (m.nb - 1) default) (m.a.extract 0 m.na) (m.na - 1)
    let k := m.na - g
    let m := { m with out := m.out ++ (m.a.extract (m.na - k) m.na).reverse, na := m.na - k }
    if 0 < k ∧ m.na = 0 then return m.backDone
    let m := { m with out := m.out.push (m.b.getD (m.nb - 1) default), nb := m.nb - 1 }
    if m.nb = 1 then return m.backFirst
    let g2 ← gallopLeft lt (m.a.getD (m.na - 1) default) (m.b.extract 0 m.nb) (m.nb - 1)
    let k2 := m.nb - g2
    let m := { m with out := m.out ++ (m.b.extract (m.nb - k2) m.nb).reverse, nb := m.nb - k2 }
    if 0 < k2 ∧ m.nb = 1 then return m.backFirst
    if 0 < k2 ∧ m.nb = 0 then return m.backDone
    let m := { m with out := m.out.push (m.a.getD (m.na - 1) default), na := m.na - 1 }
    if m.na = 0 then return m.backDone
    let calm := { m with threshold := m.threshold + 1, kept := m.threshold + 1 }
    if galloping ≤ k ∨ galloping ≤ k2 then backLoop lt fuel .gallop m
    else backLoop lt fuel (.single 0 0) calm

/-- Merges two non-empty sorted runs from the back, the second being the shorter; the merged
items and the gallop threshold for later merges. -/
def mergeBack (lt : α → α → Except ε Bool) (a b : Array α) (threshold : Nat) :
    Except ε (Array α × Nat) :=
  let m : Merge α :=
    { a, i := 0, na := a.size - 1, b, j := 0, nb := b.size,
      out := #[a.getD (a.size - 1) default], threshold, kept := threshold }
  if m.na = 0 then pure m.backDone
  else if m.nb = 1 then pure m.backFirst
  else backLoop lt (a.size + b.size + 1) (.single 0 0) m

/-- Merges the pending runs at `idx` and `idx + 1` into one. -/
def mergeAt (lt : α → α → Except ε Bool) (idx : Nat) : SortM α ε Unit := do
  let s ← get
  let first := s.pending.getD idx default
  let second := s.pending.getD (idx + 1) default
  let joined := s.pending.modify idx fun r => { r with length := first.length + second.length }
  let pending := joined.extract 0 (idx + 1) ++ joined.extract (idx + 2) joined.size
  set { s with pending }
  let a := s.items.extract first.start (first.start + first.length)
  let b := s.items.extract second.start (second.start + second.length)
  let k ← gallopRight lt (b.getD 0 default) a 0
  let a := a.extract k a.size
  if a.size = 0 then return
  let nb ← gallopLeft lt (a.getD (a.size - 1) default) b (b.size - 1)
  if nb = 0 then return
  let b := b.extract 0 nb
  let (merged, kept) ←
    if a.size ≤ b.size then mergeFront lt a b s.minGallop else mergeBack lt a b s.minGallop
  let start := first.start + k
  modify fun s => { s with
    items := s.items.extract 0 start ++ merged ++ s.items.extract (start + merged.size) s.items.size,
    minGallop := kept }

/-- Merges the two top pending runs while the boundary between them has a power above `power`. -/
def mergeAbove (lt : α → α → Except ε Bool) (power : Nat) : Nat → SortM α ε Unit
  | 0 => pure ()
  | fuel + 1 => do
    let p := (← get).pending
    if 1 < p.size ∧ power < (p.getD (p.size - 2) default).power then
      mergeAt lt (p.size - 2)
      mergeAbove lt power fuel

/-- Settles the pending runs before a new run of `length` items: the boundary with the new run
gets its power, and the runs below it whose boundaries have a higher power merge first. -/
def settle (lt : α → α → Except ε Bool) (length : Nat) : SortM α ε Unit := do
  let s ← get
  if s.pending.size = 0 then return
  let top := s.pending.getD (s.pending.size - 1) default
  let power := boundaryPower top.start top.length length s.items.size
  mergeAbove lt power (s.pending.size + 1)
  modify fun s => { s with
    pending := s.pending.modify (s.pending.size - 1) fun r => { r with power } }

/-- Finds the runs from `lo` on, each lengthened to `minrun` items where it is shorter, and
settles each before pushing it. -/
def pushRuns (lt : α → α → Except ε Bool) (minrun : Nat) : Nat → Nat → SortM α ε Unit
  | 0, _ => pure ()
  | fuel + 1, lo => do
    let n := (← get).items.size
    if n ≤ lo then return
    let (len, descending) ← countRun lt (← get).items lo n
    if descending then modify fun s => { s with items := reverseRange s.items lo (lo + len) }
    let len ← if len < minrun then do
        let force := min (n - lo) minrun
        let items ← binarySort lt (← get).items lo (lo + force) (lo + len)
        modify fun s => { s with items }
        pure force
      else pure len
    settle lt len
    modify fun s => { s with pending := s.pending.push ⟨lo, len, 0⟩ }
    pushRuns lt minrun fuel (lo + len)

/-- Merges the pending runs from the top until one is left: the top two, or the two below them
when the run under those is shorter than the top one. -/
def collapse (lt : α → α → Except ε Bool) : Nat → SortM α ε Unit
  | 0 => pure ()
  | fuel + 1 => do
    let p := (← get).pending
    if 1 < p.size then
      let i := p.size - 2
      let i :=
        if 0 < i ∧ (p.getD (i - 1) default).length < (p.getD (i + 1) default).length then i - 1
        else i
      mergeAt lt i
      collapse lt fuel

/-- Sorts an array with a strict comparison, failing with the first comparison that fails. -/
def sortBy (lt : α → α → Except ε Bool) (xs : Array α) : Except ε (Array α) := do
  if xs.size < 2 then return xs
  let ((), s) ← (do
      pushRuns lt (minRun xs.size) (xs.size + 1) 0
      collapse lt (xs.size + 1)).run ⟨xs, #[], galloping⟩
  return s.items

end Backtest.Sorting
