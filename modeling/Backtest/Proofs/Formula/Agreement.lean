import Backtest.Proofs.Formula.Checks
import Backtest.Proofs.Formula.Resolve

/-!
# Evaluation agrees with the grammar

A formula of the grammar, with blanks anywhere, evaluates for a finite `n` to the value of its tree
(`evaluate_eq_eval`), under the sign rule `Expr.SignSafe`: no unary minus stands right before
another minus sign. Evaluation reads numbers from text, where two minus signs meet in one token
that no longer reads as a number and is skipped, so `--3` is `0.0`, not `3.0`.
-/

namespace Backtest.Formula

open Backtest.Decimal

/-- A sentence of the formula grammar: a tree the grammar derives, with no spliced value. -/
structure Sentence where
  expr : Expr
  wellFormed : expr.WellFormed
  written : expr.Written

/-- The text of a sentence, without blanks. -/
def Sentence.text (φ : Sentence) : List Char :=
  φ.expr.print ['N']

variable {n : Float}

/-! ## Substituting `N` -/

theorem flatMap_of_not_mem {s : List Char} (h : 'N' ∉ s) (x : List Char) :
    s.flatMap (fun c => if c = 'N' then x else [c]) = s := by
  induction s with
  | nil => rfl
  | cons c cs ih =>
    simp only [List.mem_cons, not_or] at h
    rw [List.flatMap_cons, if_neg (Ne.symm h.1), ih h.2]
    rfl

theorem not_mem_N_of_isNumeral {c : Char} (h : IsNumeral c) : c ≠ 'N' := by
  rintro rfl
  rcases h with h | h
  · exact absurd h (by decide)
  · simp at h

theorem flatMap_print (e : Expr) :
    (e.print ['N']).flatMap (fun c => if c = 'N' then valueText n else [c]) =
      e.print (valueText n) := by
  induction e with
  | lit l =>
    exact flatMap_of_not_mem
      (fun h => not_mem_N_of_isNumeral (l.isMagnitudeChar_of_mem_text h).numeral rfl) _
  | var => simp [Expr.print]
  | val x =>
    exact flatMap_of_not_mem
      (fun h => not_mem_N_of_isNumeral (isNumeral_of_mem_render Layout.plain x 'N' h) rfl) _
  | neg f ih => simp [Expr.print, ih]
  | bin op a b iha ihb =>
    have hop : op.symbol ≠ 'N' := by cases op <;> decide
    simp [Expr.print, iha, ihb, hop]
  | group e ih => simp [Expr.print, ih]
  | abs e ih => simp [Expr.print, callName, ih]

theorem substitute_eq_print {f : String} {e : Expr}
    (h : Text.dropBlanks f.toList = e.print ['N']) : substitute f.toList n = e.print (valueText n) := by
  rw [substitute, h, flatMap_print]

/-! ## The checks pass -/

theorem trimBlanks_ne_nil {s : List Char} (h : Text.dropBlanks s ≠ []) :
    Text.trimBlanks s ≠ [] := by
  obtain ⟨c, hc⟩ := List.exists_mem_of_ne_nil _ h
  simp only [Text.dropBlanks, List.mem_filter, Bool.not_eq_eq_eq_not, Bool.not_true] at hc
  -- the first non-blank character survives both trims
  have hdrop : c ∈ s.dropWhile Text.isBlank := by
    have hsplit := @List.takeWhile_append_dropWhile _ Text.isBlank s
    rw [← hsplit] at hc
    rcases List.mem_append.1 hc.1 with ht | hd
    · exact absurd (List.mem_takeWhile_imp ht) (by simp [hc.2])
    · exact hd
  unfold Text.trimBlanks
  rw [ne_eq, List.reverse_eq_nil_iff, List.dropWhile_eq_nil_iff]
  intro hall
  have := hall c (List.mem_reverse.2 hdrop)
  simp [hc.2] at this

/-- The characters of a formula once `abs(` is read as `(`. -/
def IsFormulaChar (c : Char) : Prop :=
  c.isDigit = true ∨ c ∈ ['+', '-', '*', '/', '.', '(', ')']

theorem IsFormulaChar.code {c : Char} (h : IsFormulaChar c) :
    isFormulaCode c.toNat = true ∧ c ≠ Text.marker ∧ c ≠ 'a' := by
  rcases h with h | h
  · have hc := toNat_of_isDigit h
    refine ⟨by simp [isFormulaCode]; omega, fun he => ?_, fun he => ?_⟩ <;>
      rw [he] at hc <;> simp [Text.marker] at hc
  · simp only [List.mem_cons, List.not_mem_nil, or_false] at h
    rcases h with rfl | rfl | rfl | rfl | rfl | rfl | rfl <;> decide

theorem callsAsGroups_append_of_formulaChars {s : List Char} (h : ∀ c ∈ s, IsFormulaChar c)
    (t : List Char) : callsAsGroups (s ++ t) = s ++ callsAsGroups t := by
  induction s with
  | nil => rfl
  | cons c cs ih =>
    have hc := (h c List.mem_cons_self).code.2.2
    rw [List.cons_append, callsAsGroups.eq_3 c _ (fun _ ha => absurd ha hc),
      ih (fun x hx => h x (List.mem_cons_of_mem c hx))]
    rfl

theorem IsFormulaChar.of_decimal {c : Char} (h : c.isDigit = true ∨ c = '.') : IsFormulaChar c := by
  rcases h with h | rfl
  · exact Or.inl h
  · exact Or.inr (by simp)

theorem IsFormulaChar.enclose {u : List Char} (h : ∀ c ∈ u, IsFormulaChar c) :
    ∀ c ∈ '(' :: u ++ [')'], IsFormulaChar c := by
  intro c hc
  simp only [List.cons_append, List.mem_cons, List.mem_append, List.not_mem_nil, or_false] at hc
  rcases hc with rfl | hc | rfl
  · exact Or.inr (by simp)
  · exact h c hc
  · exact Or.inr (by simp)

theorem isFormulaChar_of_mem_valueText (hn : n.isFinite = true) {c : Char}
    (h : c ∈ valueText n) : IsFormulaChar c := by
  obtain ⟨body, -, _, htext, hfin⟩ := plainText_sign n
  have hbody : ∀ c ∈ body, IsFormulaChar c := fun c hc => .of_decimal (hfin hn c hc)
  rw [valueText] at h
  rcases htext with htext | htext
  · rw [htext] at h
    exact hbody c h
  · rw [htext] at h
    rcases List.mem_cons.1 h with rfl | h
    · exact Or.inr (by simp)
    · exact hbody c h

/-- Read with `abs(` as `(`, the text of a formula for a finite `n` is in the formula alphabet. -/
theorem callsAsGroups_print (hn : n.isFinite = true) :
    ∀ e : Expr, e.Written → ∀ t, ∃ u, callsAsGroups (e.print (valueText n) ++ t) =
      u ++ callsAsGroups t ∧ ∀ c ∈ u, IsFormulaChar c
  | .lit l, _, t => by
    have hw : WritesDecimal l.text l.rational :=
      ⟨l.whole, l.frac, rfl, l.whole_ne_nil, l.whole_digits, l.frac_digits, rfl⟩
    have hl : ∀ c ∈ l.text, IsFormulaChar c := fun c hc => .of_decimal (hw.mem hc)
    exact ⟨l.text, callsAsGroups_append_of_formulaChars hl t, hl⟩
  | .var, _, t => ⟨valueText n, callsAsGroups_append_of_formulaChars
      (fun c hc => isFormulaChar_of_mem_valueText hn hc) t,
      fun c hc => isFormulaChar_of_mem_valueText hn hc⟩
  | .val _, hw, _ => absurd hw id
  | .neg f, hw, t => by
    obtain ⟨u, hu, hchars⟩ := callsAsGroups_print hn f hw t
    refine ⟨'-' :: u, ?_, ?_⟩
    · rw [Expr.print, List.cons_append, callsAsGroups.eq_3 '-' _ (fun _ h => by cases h), hu]
      rfl
    · intro c hc
      rcases List.mem_cons.1 hc with rfl | hc
      · exact Or.inr (by simp)
      · exact hchars c hc
  | .bin op a b, hw, t => by
    obtain ⟨ub, hub, hbchars⟩ := callsAsGroups_print hn b hw.2 t
    obtain ⟨ua, hua, hachars⟩ :=
      callsAsGroups_print hn a hw.1 (op.symbol :: (b.print (valueText n) ++ t))
    have hop : IsFormulaChar op.symbol := by cases op <;> exact Or.inr (by simp [BinOp.symbol])
    refine ⟨ua ++ op.symbol :: ub, ?_, ?_⟩
    · rw [Expr.print, List.append_assoc, List.cons_append, hua,
        callsAsGroups.eq_3 _ _ (fun _ h => absurd h hop.code.2.2), hub]
      simp
    · intro c hc
      simp only [List.mem_append, List.mem_cons] at hc
      rcases hc with hc | rfl | hc
      · exact hachars c hc
      · exact hop
      · exact hbchars c hc
  | .group e, hw, t => by
    obtain ⟨u, hu, hchars⟩ := callsAsGroups_print hn e hw (')' :: t)
    refine ⟨'(' :: u ++ [')'], ?_, ?_⟩
    · simp only [Expr.print, List.cons_append, List.append_assoc, List.nil_append]
      rw [callsAsGroups.eq_3 '(' _ (fun _ h => by cases h), hu,
        callsAsGroups.eq_3 ')' _ (fun _ h => by cases h)]
    · exact IsFormulaChar.enclose hchars
  | .abs e, hw, t => by
    obtain ⟨u, hu, hchars⟩ := callsAsGroups_print hn e hw (')' :: t)
    refine ⟨'(' :: u ++ [')'], ?_, ?_⟩
    · simp only [Expr.print, callName, List.cons_append, List.nil_append, List.append_assoc]
      rw [callsAsGroups.eq_2, hu, callsAsGroups.eq_3 ')' _ (fun _ h => by cases h)]
    · exact IsFormulaChar.enclose hchars

theorem decode_of_formulaChars {s : List Char} (h : ∀ c ∈ s, IsFormulaChar c) :
    Text.decode s = s.map Char.toNat := by
  induction s with
  | nil => rfl
  | cons c cs ih =>
    have hc := (h c List.mem_cons_self).code.2.1
    rw [Text.decode, Text.decodePending, if_neg hc]
    exact congrArg (c.toNat :: ·) (ih (fun x hx => h x (List.mem_cons_of_mem c hx)))

theorem invalidChars_print (hn : n.isFinite = true) {e : Expr} (hw : e.Written) :
    invalidChars (callsAsGroups (e.print (valueText n))) = [] := by
  obtain ⟨u, hu, hchars⟩ := callsAsGroups_print hn e hw []
  rw [List.append_nil, callsAsGroups.eq_1, List.append_nil] at hu
  rw [hu, invalidChars_eq_nil_iff, decode_of_formulaChars hchars]
  intro v hv
  obtain ⟨c, hc, rfl⟩ := List.mem_map.1 hv
  exact (hchars c hc).code.1

/-! ## Evaluation -/

theorem print_ne_nil : ∀ e : Expr, e.print ['N'] ≠ []
  | .lit l => l.text_ne_nil
  | .var => by simp [Expr.print]
  | .val x => by
    obtain ⟨body, hne, -, htext | htext, -⟩ := plainText_sign x <;>
      simp [Expr.print, valueText, htext, hne]
  | .neg _ => by simp [Expr.print]
  | .bin _ _ _ => by simp [Expr.print]
  | .group _ => by simp [Expr.print]
  | .abs _ => by simp [Expr.print, callName]

/-- A formula of the grammar, written with blanks anywhere, evaluates for a finite `n` to the
value of its tree, provided no unary minus stands right before another minus sign: the value of
binary64 arithmetic on correctly rounded literals, or a division by zero exactly when the tree
divides by a zero of either sign. -/
theorem evaluate_eq_eval (φ : Sentence) (f : String) (n : Float) (hn : n.isFinite = true)
    (hsafe : φ.expr.SignSafe n) (hf : Text.dropBlanks f.toList = φ.text) :
    evaluate f n = φ.expr.eval n := by
  have hne : Text.trimBlanks f.toList ≠ [] := by
    apply trimBlanks_ne_nil
    rw [hf]
    exact print_ne_nil φ.expr
  have hnest : nestingFault 0 (φ.expr.print (valueText n)) = none := by
    rw [← List.append_nil (φ.expr.print _), nestingFault_print]
    rfl
  unfold evaluate
  rw [if_neg (by simpa using hne), substitute_eq_print hf]
  dsimp only
  rw [invalidChars_print hn φ.written]
  simp only [List.isEmpty_nil, Bool.not_true, Bool.false_eq_true, if_false]
  rw [hnest]
  exact resolve_print _ φ.expr rfl φ.wellFormed hsafe

/-- The sentence `2 * -N + abs(1 - 3) / (N - 0.5)`. -/
def Sentence.sample : Sentence where
  expr :=
    let digit (c : Char) (h : c.isDigit = true) : Literal := ⟨[c], [], by simp, by simpa, by simp⟩
    .bin .add (.bin .mul (.lit (digit '2' rfl)) (.neg .var))
      (.bin .div (.abs (.bin .sub (.lit (digit '1' rfl)) (.lit (digit '3' rfl))))
        (.group (.bin .sub .var (.lit ⟨['0'], ['5'], by simp, by simp, by simp⟩))))
  wellFormed := by decide
  written := by decide

theorem evaluate_sample :
    (1.0 : Float).isFinite = true ∧ Sentence.sample.expr.SignSafe 1.0 ∧
      Text.dropBlanks "2 * -N + abs(1 - 3) / (N - 0.5)".toList = Sentence.sample.text ∧
      evaluate "2 * -N + abs(1 - 3) / (N - 0.5)" 1.0 = Sentence.sample.expr.eval 1.0 :=
  have hn : (1.0 : Float).isFinite = true := by rfl
  have hs : Sentence.sample.expr.SignSafe 1.0 := by decide
  have ht : Text.dropBlanks "2 * -N + abs(1 - 3) / (N - 0.5)".toList = Sentence.sample.text := by
    decide
  ⟨hn, hs, ht, evaluate_eq_eval _ _ _ hn hs ht⟩

end Backtest.Formula
