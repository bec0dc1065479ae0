import Backtest.Formula.Chain
import Backtest.Text.Blank

/-!
# Evaluating a formula

A formula's value for `N = n` is found on text: blanks are removed and each `N` replaced by the
plain text of `n`, the characters and the nesting of parentheses are checked, and then the first
`abs(` call, or once none is left the last group, is replaced by the text of its value until a flat
chain remains (`evalFlat`). Each splice removes a `(` and adds none, which measures the recursion.
Nested calls are evaluated at any depth: the recursion limit that stops the source's evaluator after
about 500 nested `abs(` calls, a count that depends on the caller's stack, is left out of the model.
-/

namespace Backtest.Formula

open Backtest.Decimal

/-- Where a call or group was found in a text. -/
inductive Found where
  /-- No call or group. -/
  | none
  /-- One is opened but not closed. -/
  | unclosed
  /-- `before`, then the opening, then `inner`, then the closing `)`, then `after`. -/
  | at (before inner after : List Char)

/-- The text before the `)` that closes depth zero (counting from `depth`), and the text after
it. -/
def closing : Nat → List Char → Option (List Char × List Char)
  | _, [] => none
  | depth, c :: cs =>
    if c = ')' then
      if depth = 0 then some ([], cs)
      else (closing (depth - 1) cs).map fun (a, b) => (c :: a, b)
    else if c = '(' then (closing (depth + 1) cs).map fun (a, b) => (c :: a, b)
    else (closing depth cs).map fun (a, b) => (c :: a, b)

/-- The call name that precedes a group whose value is made absolute. -/
def callName : List Char := ['a', 'b', 's', '(']

/-- The first `abs(` call and its argument up to the matching `)`. -/
def firstCall : List Char → Found
  | [] => .none
  | c :: rest =>
    if callName.isPrefixOf (c :: rest) then
      match closing 0 ((c :: rest).drop 4) with
      | some (inner, after) => .at [] inner after
      | none => .unclosed
    else
      match firstCall rest with
      | .at before inner after => .at (c :: before) inner after
      | other => other

/-- The text before the last `(` and the text after it. -/
def lastOpen : List Char → Option (List Char × List Char)
  | [] => none
  | c :: cs =>
    match lastOpen cs with
    | some (a, b) => some (c :: a, b)
    | none => if c = '(' then some ([], cs) else none

/-- The text before the first `)` and the text after it. -/
def firstClose : List Char → Option (List Char × List Char)
  | [] => none
  | c :: cs => if c = ')' then some ([], cs) else (firstClose cs).map fun (a, b) => (c :: a, b)

/-- The group that opens at the last `(`, closed by the first `)` after it. -/
def innermostGroup (s : List Char) : Found :=
  match lastOpen s with
  | none => .none
  | some (before, rest) =>
    match firstClose rest with
    | none => .unclosed
    | some (inner, after) => .at before inner after

theorem closing_eq {depth : Nat} {s a b : List Char} (h : closing depth s = some (a, b)) :
    s = a ++ ')' :: b := by
  induction s generalizing depth a b with
  | nil => simp [closing] at h
  | cons c cs ih =>
    unfold closing at h
    split at h
    · split at h
      · simp only [Option.some.injEq, Prod.mk.injEq] at h
        obtain ⟨rfl, rfl⟩ := h
        simp_all
      · obtain ⟨⟨a', b'⟩, h', h''⟩ := Option.map_eq_some_iff.1 h
        simp only [Prod.mk.injEq] at h''
        obtain ⟨rfl, rfl⟩ := h''
        simp [ih h']
    · split at h
      · obtain ⟨⟨a', b'⟩, h', h''⟩ := Option.map_eq_some_iff.1 h
        simp only [Prod.mk.injEq] at h''
        obtain ⟨rfl, rfl⟩ := h''
        simp [ih h']
      · obtain ⟨⟨a', b'⟩, h', h''⟩ := Option.map_eq_some_iff.1 h
        simp only [Prod.mk.injEq] at h''
        obtain ⟨rfl, rfl⟩ := h''
        simp [ih h']

theorem firstCall_eq {s before inner after : List Char}
    (h : firstCall s = .at before inner after) :
    s = before ++ callName ++ inner ++ ')' :: after := by
  induction s generalizing before inner after with
  | nil => simp [firstCall] at h
  | cons c rest ih =>
    unfold firstCall at h
    split at h
    · rename_i hpre
      split at h
      · rename_i inner' after' hc
        simp only [Found.at.injEq] at h
        obtain ⟨rfl, rfl, rfl⟩ := h
        have hsplit := List.prefix_iff_eq_append.1 (List.isPrefixOf_iff_prefix.1 hpre)
        have hlen : callName.length = 4 := rfl
        rw [hlen, closing_eq hc] at hsplit
        simpa [callName] using hsplit.symm
      · simp at h
    · split at h
      · rename_i b i a hr
        simp only [Found.at.injEq] at h
        obtain ⟨rfl, rfl, rfl⟩ := h
        simp [ih hr]
      · simp_all

theorem lastOpen_eq {s a b : List Char} (h : lastOpen s = some (a, b)) : s = a ++ '(' :: b := by
  induction s generalizing a b with
  | nil => simp [lastOpen] at h
  | cons c cs ih =>
    unfold lastOpen at h
    split at h
    · rename_i a' b' h'
      simp only [Option.some.injEq, Prod.mk.injEq] at h
      obtain ⟨rfl, rfl⟩ := h
      simp [ih h']
    · split at h
      · simp only [Option.some.injEq, Prod.mk.injEq] at h
        obtain ⟨rfl, rfl⟩ := h
        simp_all
      · simp at h

theorem firstClose_eq {s a b : List Char} (h : firstClose s = some (a, b)) :
    s = a ++ ')' :: b := by
  induction s generalizing a b with
  | nil => simp [firstClose] at h
  | cons c cs ih =>
    unfold firstClose at h
    split at h
    · simp only [Option.some.injEq, Prod.mk.injEq] at h
      obtain ⟨rfl, rfl⟩ := h
      simp_all
    · obtain ⟨⟨a', b'⟩, h', h''⟩ := Option.map_eq_some_iff.1 h
      simp only [Prod.mk.injEq] at h''
      obtain ⟨rfl, rfl⟩ := h''
      simp [ih h']

theorem innermostGroup_eq {s before inner after : List Char}
    (h : innermostGroup s = .at before inner after) :
    s = before ++ '(' :: inner ++ ')' :: after := by
  unfold innermostGroup at h
  split at h
  · simp at h
  · rename_i b r hopen
    split at h
    · simp at h
    · rename_i i a hclose
      simp only [Found.at.injEq] at h
      obtain ⟨rfl, rfl, rfl⟩ := h
      simp [lastOpen_eq hopen, firstClose_eq hclose]

/-- The number of opening parentheses in a text. -/
def opens (s : List Char) : Nat :=
  s.count '('

theorem opens_valueText (x : Float) : opens (valueText x) = 0 :=
  List.count_eq_zero.2 (not_open_mem_render Layout.plain x)

theorem opens_append (a b : List Char) : opens (a ++ b) = opens a + opens b :=
  List.count_append

theorem opens_close (a : List Char) : opens (')' :: a) = opens a :=
  List.count_cons_of_ne (by decide)

theorem opens_open (a : List Char) : opens ('(' :: a) = opens a + 1 :=
  List.count_cons_self

theorem opens_splice (before after : List Char) (x : Float) :
    opens (before ++ valueText x ++ after) = opens before + opens after := by
  rw [opens_append, opens_append, opens_valueText, Nat.add_zero]

theorem opens_of_firstCall {s before inner after : List Char}
    (h : firstCall s = .at before inner after) :
    opens s = opens before + 1 + opens inner + opens after := by
  have hname : opens callName = 1 := by decide
  rw [firstCall_eq h, opens_append, opens_append, opens_append, hname, opens_close]

theorem opens_of_innermostGroup {s before inner after : List Char}
    (h : innermostGroup s = .at before inner after) :
    opens s = opens before + 1 + opens inner + opens after := by
  rw [innermostGroup_eq h, opens_append, opens_append, opens_open, opens_close]
  omega

set_option linter.unusedVariables false in
/-- Resolves groups, innermost last one first, then evaluates the flat chain. -/
def resolveGroups (s : List Char) : Except Error Float :=
  match h : innermostGroup s with
  | .at before inner after => do
    let v ← evalFlat inner
    resolveGroups (before ++ valueText v ++ after)
  | .unclosed => .error .unclosed
  | .none => if ')' ∈ s then .error .strayClose else evalFlat s
termination_by opens s
decreasing_by
  rw [opens_splice, opens_of_innermostGroup h]
  omega

set_option linter.unusedVariables false in
/-- Resolves calls, first call first, then groups. -/
def resolve (s : List Char) : Except Error Float :=
  match h : firstCall s with
  | .at before inner after => do
    let v ← resolve inner
    resolve (before ++ valueText (Float.abs v) ++ after)
  | .unclosed => .error .callUnclosed
  | .none => resolveGroups s
termination_by opens s
decreasing_by
  · rw [opens_of_firstCall h]
    omega
  · rw [opens_splice, opens_of_firstCall h]
    omega

/-- Reads each `abs(` as `(`. -/
def callsAsGroups : List Char → List Char
  | [] => []
  | 'a' :: 'b' :: 's' :: '(' :: rest => '(' :: callsAsGroups rest
  | c :: rest => c :: callsAsGroups rest

/-- The code points a resolved formula may hold: ASCII digits, `+ - * / . ( )` and the space. -/
def isFormulaCode (u : Nat) : Bool :=
  (0x30 ≤ u && u ≤ 0x39) || "+-*/.() ".toList.any (·.toNat == u)

/-- Inserts a code point into a sorted list without duplicates. -/
def insertSorted (u : Nat) : List Nat → List Nat
  | [] => [u]
  | d :: ds => if u = d then d :: ds else if u < d then u :: d :: ds else d :: insertSorted u ds

/-- The code points of a text's characters outside the formula alphabet, distinct and sorted. -/
def invalidChars (s : List Char) : List Nat :=
  ((Text.decode s).filter (fun u => !isFormulaCode u)).foldr insertSorted []

/-- The first fault in the nesting of parentheses, scanning from `depth`. -/
def nestingFault : Nat → List Char → Option Error
  | depth, [] => if depth = 0 then none else some .unclosed
  | depth, c :: cs =>
    if c = '(' then nestingFault (depth + 1) cs
    else if c = ')' then (if depth = 0 then some .strayClose else nestingFault (depth - 1) cs)
    else nestingFault depth cs

/-- The formula text with blanks removed and `N` replaced by the text of `n`. -/
def substitute (formula : List Char) (n : Float) : List Char :=
  (Text.dropBlanks formula).flatMap fun c => if c = 'N' then valueText n else [c]

/-- The value of a formula for `N = n`. -/
def evaluate (formula : String) (n : Float) : Except Error Float :=
  if (Text.trimBlanks formula.toList).isEmpty then .error .empty
  else
    let s := substitute formula.toList n
    let bad := invalidChars (callsAsGroups s)
    if !bad.isEmpty then .error (.invalidCharacters bad)
    else
      match nestingFault 0 s with
      | some e => .error e
      | none => resolve s

/-- The verdict on a formula meant to size orders. -/
structure Check where
  valid : Bool
  reason : String
  code : Option String

/-- A formula is valid when it is not empty, mentions `N`, and has a value for `N = 1`. -/
def validate (formula : String) : Check :=
  if (Text.trimBlanks formula.toList).isEmpty then
    { valid := false, reason := Error.empty.message, code := some Error.empty.code }
  else if 'N' ∉ formula.toList then
    { valid := false, reason := Error.missingVariable.message,
      code := some Error.missingVariable.code }
  else
    match evaluate formula 1.0 with
    | .error e => { valid := false, reason := e.message, code := some e.code }
    | .ok _ => { valid := true, reason := "Valid", code := none }

end Backtest.Formula
