import Backtest.Fault

/-!
# How deep reading goes

Reading YAML is a chain of nested steps, composing asking the parser for events and the parser the
scanner for tokens, and it fails once a step would go past `depthLimit`. A step is of the reader
itself or the creation of a value (`Step`), and the kind of the step past the limit decides the
message; a nested collection deepens the chain by two steps, so how deep collections may nest
follows from where reading starts (`Step.firstPast`).
-/

namespace Backtest.Document.Yaml

/-- A nested step of reading: a step of the reader itself, or the creation of a value. -/
inductive Step where
  | reader
  | create
deriving DecidableEq, Inhabited

/-- How deep the chain of nested steps may go. -/
def depthLimit : Nat := 1000

/-- The fault of a step that goes past the limit. -/
def Step.fault : Step → Fault
  | .reader => .tooDeep "maximum recursion depth exceeded"
  | .create => .tooDeep "maximum recursion depth exceeded while calling a Python object"

/-- The fault of a walk over nodes whose bound runs out; no text within the depth limit reaches
it. -/
def Fault.nestedTooDeep : Fault :=
  Step.create.fault

/-- The first step that goes past the limit in a chain whose first step is one deeper than
`depth` and whose every step is one deeper than the step before. -/
def Step.firstPast (depth : Nat) : List Step → Option Step
  | [] => none
  | k :: ks => if depthLimit < depth + 1 then some k else firstPast (depth + 1) ks

/-- Making a value: its creation, then the reader's step that fills it in. -/
def Step.made : List Step := [.create, .reader]

/-- Making a value `n` steps under a step: `n` steps of the reader, then the making. -/
def Step.under (n : Nat) : List Step :=
  List.replicate n .reader ++ Step.made

/-- Two chains that start at the same depth, the first one taken first: the first decides the
kind of the steps at the depths it reaches, the second adds the deeper ones. -/
def Step.overlay (first second : List Step) : List Step :=
  first ++ second.drop first.length

/-- A chain that ends at or above the limit goes past it nowhere. -/
theorem Step.firstPast_eq_none (depth : Nat) (ks : List Step)
    (h : depth + ks.length ≤ depthLimit) : Step.firstPast depth ks = none := by
  induction ks generalizing depth with
  | nil => rfl
  | cons k ks ih =>
    simp only [List.length_cons] at h
    rw [Step.firstPast, if_neg (by omega), ih (depth + 1) (by omega)]

theorem Step.firstPast_at_limit (k : Step) (ks : List Step) :
    Step.firstPast depthLimit (k :: ks) = some k := by
  rw [Step.firstPast, if_pos (by omega)]

end Backtest.Document.Yaml
