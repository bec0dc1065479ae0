import Backtest.Proofs.Formula.Nesting

/-!
# The checks a formula passes before it is evaluated

Evaluating a formula decides its outcome by checks taken in order: blank, then characters outside
the formula alphabet (each once, in increasing order), then a stray `)`, then an unclosed `(`, and
only then a value or a division by zero. `Verdict` states each outcome with its own condition and
`evaluate_verdict` shows evaluation ends in one of them; resolution can then no longer fail on
nesting (`resolve_settled`).
-/

namespace Backtest.Formula

/-! ## Invalid characters -/

theorem mem_insertSorted {u v : Nat} {ds : List Nat} :
    v ∈ insertSorted u ds ↔ v = u ∨ v ∈ ds := by
  induction ds with
  | nil => simp [insertSorted]
  | cons d ds ih =>
    unfold insertSorted
    by_cases hud : u = d
    · subst hud
      simp
    · by_cases hlt : u < d
      · simp [hud, hlt]
      · rw [if_neg hud, if_neg hlt, List.mem_cons, List.mem_cons, ih]
        constructor
        · rintro (h | h | h) <;> simp [h]
        · rintro (h | h | h) <;> simp [h]

theorem insertSorted_pairwise {u : Nat} {ds : List Nat} (h : ds.Pairwise (· < ·)) :
    (insertSorted u ds).Pairwise (· < ·) := by
  induction ds with
  | nil => simp [insertSorted]
  | cons d ds ih =>
    rw [List.pairwise_cons] at h
    unfold insertSorted
    by_cases hud : u = d
    · rw [if_pos hud]
      exact List.pairwise_cons.2 h
    · rw [if_neg hud]
      by_cases hlt : u < d
      · rw [if_pos hlt]
        refine List.pairwise_cons.2 ⟨fun v hv => ?_, List.pairwise_cons.2 h⟩
        rcases List.mem_cons.1 hv with rfl | hv
        · exact hlt
        · exact Nat.lt_trans hlt (h.1 v hv)
      · rw [if_neg hlt]
        refine List.pairwise_cons.2 ⟨fun v hv => ?_, ih h.2⟩
        rcases mem_insertSorted.1 hv with rfl | hv
        · omega
        · exact h.1 v hv

theorem invalidChars_pairwise (s : List Char) : (invalidChars s).Pairwise (· < ·) := by
  unfold invalidChars
  induction (Text.decode s).filter (fun u => !isFormulaCode u) with
  | nil => simp
  | cons u us ih => exact insertSorted_pairwise ih

theorem mem_invalidChars {s : List Char} {u : Nat} :
    u ∈ invalidChars s ↔ u ∈ Text.decode s ∧ isFormulaCode u = false := by
  have hfold : ∀ us : List Nat, u ∈ us.foldr insertSorted [] ↔ u ∈ us := by
    intro us
    induction us with
    | nil => simp
    | cons v vs ih => simp [mem_insertSorted, ih]
  simp [invalidChars, hfold]

theorem invalidChars_eq_nil_iff {s : List Char} :
    invalidChars s = [] ↔ ∀ u ∈ Text.decode s, isFormulaCode u = true := by
  constructor
  · intro h u hu
    cases hcode : isFormulaCode u with
    | true => rfl
    | false =>
      have := mem_invalidChars.2 ⟨hu, hcode⟩
      simp [h] at this
  · intro h
    apply List.eq_nil_iff_forall_not_mem.2
    intro u hu
    have := mem_invalidChars.1 hu
    simp [h u this.1] at this

/-! ## The outcome of evaluation -/

/-- How evaluating the formula `f` for `N = n` may end, by the first check that decides it. The
text checked is `substitute f.toList n`: blanks removed and `N` replaced by the text of `n`. -/
inductive Verdict (f : String) (n : Float) : Except Error Float → Prop
  /-- Blanks only. -/
  | empty : Text.trimBlanks f.toList = [] → Verdict f n (.error .empty)
  /-- Code points outside the alphabet, with `abs(` read as `(`: each once, in increasing
  order. -/
  | invalid {codes : List Nat} : Text.trimBlanks f.toList ≠ [] → codes ≠ [] →
      codes.Pairwise (· < ·) →
      (∀ u, u ∈ codes ↔ u ∈ Text.decode (callsAsGroups (substitute f.toList n)) ∧
        isFormulaCode u = false) →
      Verdict f n (.error (.invalidCharacters codes))
  /-- A prefix closes more parentheses than it opens. -/
  | strayClose : Text.trimBlanks f.toList ≠ [] →
      (∀ u ∈ Text.decode (callsAsGroups (substitute f.toList n)), isFormulaCode u = true) →
      (∃ p, p <+: substitute f.toList n ∧ depth p < 0) →
      Verdict f n (.error .strayClose)
  /-- No prefix closes more than it opens, but parentheses are left open. -/
  | unclosed : Text.trimBlanks f.toList ≠ [] →
      (∀ u ∈ Text.decode (callsAsGroups (substitute f.toList n)), isFormulaCode u = true) →
      (∀ p, p <+: substitute f.toList n → 0 ≤ depth p) → depth (substitute f.toList n) ≠ 0 →
      Verdict f n (.error .unclosed)
  /-- Every check passes: a value, or a division by zero. -/
  | settled {r : Except Error Float} : Text.trimBlanks f.toList ≠ [] →
      (∀ u ∈ Text.decode (callsAsGroups (substitute f.toList n)), isFormulaCode u = true) →
      Balanced (substitute f.toList n) → Settled r → Verdict f n r

/-- Evaluation ends as the checks, taken in order, decide: empty, invalid characters, a stray
`)`, an unclosed `(`, and only then a value or a division by zero. -/
theorem evaluate_verdict (f : String) (n : Float) : Verdict f n (evaluate f n) := by
  unfold evaluate
  by_cases hempty : (Text.trimBlanks f.toList).isEmpty
  · rw [if_pos hempty]
    exact .empty (List.isEmpty_iff.1 hempty)
  · rw [if_neg hempty]
    have hne : Text.trimBlanks f.toList ≠ [] := fun h => hempty (List.isEmpty_iff.2 h)
    by_cases hbad : invalidChars (callsAsGroups (substitute f.toList n)) = []
    · have hgood := invalidChars_eq_nil_iff.1 hbad
      simp only [hbad, List.isEmpty_nil, Bool.not_true, Bool.false_eq_true, if_false]
      rcases nestingFault_cases 0 (substitute f.toList n) with hfault | hfault | hfault
      · rw [hfault]
        have hbal := (nestingFault_eq_none_iff _).1 hfault
        exact .settled hne hgood hbal (resolve_settled hbal)
      · rw [hfault]
        obtain ⟨p, hp, hlt⟩ := (nestingFault_eq_strayClose_iff 0 _).1 hfault
        exact .strayClose hne hgood ⟨p, hp, by simpa using hlt⟩
      · rw [hfault]
        obtain ⟨hnonneg, hdepth⟩ := (nestingFault_eq_unclosed_iff _).1 hfault
        exact .unclosed hne hgood hnonneg hdepth
    · have hbad' : (invalidChars (callsAsGroups (substitute f.toList n))).isEmpty = false := by
        simpa [List.isEmpty_iff] using hbad
      simp only [hbad', Bool.not_false, if_true]
      exact .invalid hne hbad (invalidChars_pairwise _) (fun u => mem_invalidChars)

end Backtest.Formula
