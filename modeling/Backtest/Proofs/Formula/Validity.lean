import Backtest.Proofs.Formula.Agreement
import Backtest.Rules.Build
import Backtest.Proofs.Ledger.Fills
import Mathlib.Data.List.Sort

/-!
# Valid formulas

A formula is valid when it is not blank, mentions `N`, and has a value for `N = 1`
(`Formula.validate`), and an action is only built with a valid formula (`parseAction_valid`). The
text of a finite number holds no parenthesis, no letter of `abs(` and nothing outside the formula
alphabet, so the checks before resolution give the same verdict for every finite `n`, and a valid
formula has a value or divides by zero for each of them (`evaluate_of_valid`).
-/

namespace Backtest.Formula

open Backtest.Decimal Backtest.Text

/-! ## Replacing `N` -/

/-- The text with each `N` replaced by `t`. -/
def replaceN (t s : List Char) : List Char :=
  s.flatMap fun c => if c = 'N' then t else [c]

theorem substitute_eq_replaceN (f : String) (n : Float) :
    substitute f.toList n = replaceN (valueText n) (dropBlanks f.toList) := rfl

@[simp] theorem replaceN_nil (t : List Char) : replaceN t [] = [] := rfl

theorem replaceN_N (t s : List Char) : replaceN t ('N' :: s) = t ++ replaceN t s := by
  simp [replaceN]

theorem replaceN_cons {c : Char} (h : c ≠ 'N') (t s : List Char) :
    replaceN t (c :: s) = c :: replaceN t s := by
  simp [replaceN, h]

/-- The characters of the text of a finite number: digits, the point and the minus sign. -/
def NumericChar (c : Char) : Prop :=
  c.isDigit = true ∨ c = '.' ∨ c = '-'

/-- A text that can stand for `N`: not empty, and of numeric characters only. -/
structure Numeric (t : List Char) : Prop where
  ne_nil : t ≠ []
  chars : ∀ c ∈ t, NumericChar c

theorem NumericChar.toNat_mem {c : Char} (h : NumericChar c) : 45 ≤ c.toNat ∧ c.toNat ≤ 57 := by
  rcases h with h | rfl | rfl
  · have := toNat_of_isDigit h
    omega
  · decide
  · decide

theorem NumericChar.ne {c : Char} (h : NumericChar c) {d : Char} (hd : d.toNat < 45 ∨ 57 < d.toNat) :
    c ≠ d := by
  rintro rfl
  have := h.toNat_mem
  omega

theorem NumericChar.formula {c : Char} (h : NumericChar c) : IsFormulaChar c := by
  rcases h with h | rfl | rfl
  · exact Or.inl h
  · exact Or.inr (by simp)
  · exact Or.inr (by simp)

theorem NumericChar.not_marker {c : Char} (h : NumericChar c) : c ≠ marker :=
  h.ne (Or.inr (by decide))

theorem NumericChar.surrogateOf? {c : Char} (h : NumericChar c) : surrogateOf? c = none := by
  have := h.toNat_mem
  rw [Text.surrogateOf?, if_neg (by unfold surrogateBase; omega)]

theorem numeric_valueText {n : Float} (hn : n.isFinite = true) : Numeric (valueText n) := by
  obtain ⟨body, hne, -, htext, hfin⟩ := plainText_sign n
  have hbody : ∀ c ∈ body, NumericChar c := fun c hc => by
    rcases hfin hn c hc with h | h
    · exact Or.inl h
    · exact Or.inr (Or.inl h)
  rw [valueText]
  rcases htext with htext | htext <;> rw [htext]
  · exact ⟨hne, hbody⟩
  · refine ⟨List.cons_ne_nil _ _, fun c hc => ?_⟩
    rcases List.mem_cons.1 hc with rfl | hc
    · exact Or.inr (Or.inr rfl)
    · exact hbody c hc

/-! ## The checks do not see a numeric `N` -/

theorem eq_cons_of_replaceN_eq_cons {t s x : List Char} {c : Char} (ht : Numeric t)
    (hc : c.toNat < 45 ∨ 57 < c.toNat) (h : replaceN t s = c :: x) :
    ∃ y, s = c :: y ∧ replaceN t y = x := by
  match s with
  | [] => cases h
  | d :: y =>
    by_cases hd : d = 'N'
    · subst hd
      obtain ⟨e, t', rfl⟩ := List.exists_cons_of_ne_nil ht.ne_nil
      rw [replaceN_N, List.cons_append, List.cons.injEq] at h
      exact absurd h.1 ((ht.chars e List.mem_cons_self).ne hc)
    · rw [replaceN_cons hd, List.cons.injEq] at h
      exact ⟨y, by rw [h.1], h.2⟩

theorem callsAsGroups_replaceN {t : List Char} (ht : Numeric t) (s : List Char) :
    callsAsGroups (replaceN t s) = replaceN t (callsAsGroups s) := by
  obtain ⟨d, t', rfl⟩ := List.exists_cons_of_ne_nil ht.ne_nil
  have hd : NumericChar d := ht.chars d List.mem_cons_self
  -- after `a`, a replaced `N` starts with a numeric character, which continues no call name
  have hname : ∀ rest x, replaceN (d :: t') rest = 'b' :: 's' :: '(' :: x →
      ∃ y, rest = 'b' :: 's' :: '(' :: y := by
    intro rest x h
    obtain ⟨y₁, rfl, h₁⟩ := eq_cons_of_replaceN_eq_cons ht (by decide) h
    obtain ⟨y₂, rfl, h₂⟩ := eq_cons_of_replaceN_eq_cons ht (by decide) h₁
    obtain ⟨y₃, rfl, -⟩ := eq_cons_of_replaceN_eq_cons ht (by decide) h₂
    exact ⟨y₃, rfl⟩
  induction s using callsAsGroups.induct with
  | case1 => rfl
  | case2 rest ih =>
    simp only [replaceN_cons (show 'a' ≠ 'N' by decide), replaceN_cons (show 'b' ≠ 'N' by decide),
      replaceN_cons (show 's' ≠ 'N' by decide), replaceN_cons (show '(' ≠ 'N' by decide),
      callsAsGroups.eq_2, ih]
  | case3 c rest hnot ih =>
    rw [callsAsGroups.eq_3 c rest hnot]
    by_cases hc : c = 'N'
    · subst hc
      rw [replaceN_N, replaceN_N, callsAsGroups_append_of_formulaChars
        (fun c hc => (ht.chars c hc).formula), ih]
    · rw [replaceN_cons hc, replaceN_cons hc, callsAsGroups.eq_3 c _ ?_, ih]
      intro x ha hx
      obtain ⟨y, hy⟩ := hname rest x hx
      exact hnot y ha hy

/-- The code points a replaced `N` stands for. -/
def restoreN (t : List Char) (u : Nat) : List Nat :=
  if u = 'N'.toNat then t.map Char.toNat else [u]

theorem restoreN_of_ne {t : List Char} {u : Nat} (h : u ≠ 'N'.toNat) : restoreN t u = [u] :=
  if_neg h

theorem decodePending_numeric {t : List Char} (ht : ∀ c ∈ t, NumericChar c) (x : List Char) :
    decodePending false (t ++ x) = t.map Char.toNat ++ decodePending false x := by
  induction t with
  | nil => rfl
  | cons c cs ih =>
    rw [List.cons_append, decodePending, if_neg (ht c List.mem_cons_self).not_marker,
      ih (fun d hd => ht d (List.mem_cons_of_mem c hd))]
    rfl

theorem decodePending_replaceN {t : List Char} (ht : Numeric t) (b : Bool) (s : List Char) :
    decodePending b (replaceN t s) = (decodePending b s).flatMap (restoreN t) := by
  obtain ⟨d, t', rfl⟩ := List.exists_cons_of_ne_nil ht.ne_nil
  have hd : NumericChar d := ht.chars d List.mem_cons_self
  have hmarker : markerCode ≠ 'N'.toNat := by decide
  have hN : 'N' ≠ marker := by decide
  induction b, s using decodePending.induct with
  | case1 => rfl
  | case2 => simp [decodePending, restoreN_of_ne hmarker]
  | case3 rest ih =>
    rw [replaceN_cons (Ne.symm hN), decodePending, if_pos rfl, ih, decodePending, if_pos rfl]
  | case4 c rest hc ih =>
    by_cases hcN : c = 'N'
    · subst hcN
      rw [replaceN_N, decodePending_numeric ht.chars, ih, decodePending, if_neg hc,
        List.flatMap_cons, restoreN, if_pos rfl]
    · rw [replaceN_cons hcN, decodePending, if_neg hc, ih, decodePending, if_neg hc,
        List.flatMap_cons, restoreN_of_ne (fun h => hcN (Char.toNat_inj.1 h))]
      rfl
  | case5 rest ih =>
    rw [replaceN_cons (Ne.symm hN), decodePending, if_pos rfl, ih, decodePending, if_pos rfl,
      List.flatMap_cons, restoreN_of_ne hmarker]
    rfl
  | case6 c rest hc u hu ih =>
    have hcN : c ≠ 'N' := by
      rintro rfl
      simp [Text.surrogateOf?, surrogateBase] at hu
    have huN : u ≠ 'N'.toNat := by
      rw [Text.surrogateOf?] at hu
      split at hu
      · rw [← Option.some.inj hu, show 'N'.toNat = 78 from rfl]
        omega
      · cases hu
    rw [replaceN_cons hcN, decodePending, if_neg hc, hu, ih, decodePending, if_neg hc, hu,
      List.flatMap_cons, restoreN_of_ne huN]
    rfl
  | case7 c rest hc hu ih =>
    by_cases hcN : c = 'N'
    · subst hcN
      rw [replaceN_N, List.cons_append, decodePending, if_neg hd.not_marker, hd.surrogateOf?,
        decodePending_numeric (fun e he => ht.chars e (List.mem_cons_of_mem d he)), ih,
        decodePending, if_neg hc, hu, List.flatMap_cons, List.flatMap_cons,
        restoreN_of_ne hmarker, restoreN, if_pos rfl]
      rfl
    · rw [replaceN_cons hcN, decodePending, if_neg hc, hu, ih, decodePending, if_neg hc, hu,
        List.flatMap_cons, List.flatMap_cons, restoreN_of_ne hmarker,
        restoreN_of_ne (fun h => hcN (Char.toNat_inj.1 h))]
      rfl

theorem mem_decode_replaceN {t : List Char} (ht : Numeric t) (s : List Char) {u : Nat}
    (hu : isFormulaCode u = false) :
    u ∈ decode (replaceN t s) ↔ u ∈ decode s ∧ u ≠ 'N'.toNat := by
  rw [decode, decodePending_replaceN ht, List.mem_flatMap, decode]
  constructor
  · rintro ⟨v, hv, huv⟩
    by_cases hvN : v = 'N'.toNat
    · rw [restoreN, if_pos hvN] at huv
      obtain ⟨c, hc, rfl⟩ := List.mem_map.1 huv
      rw [((ht.chars c hc).formula.code).1] at hu
      cases hu
    · rw [restoreN_of_ne hvN, List.mem_singleton] at huv
      subst huv
      exact ⟨hv, hvN⟩
  · rintro ⟨hs, hN⟩
    exact ⟨u, hs, by rw [restoreN_of_ne hN]; exact List.mem_singleton_self u⟩

theorem invalidChars_replaceN {t t' : List Char} (ht : Numeric t) (ht' : Numeric t')
    (s : List Char) :
    invalidChars (callsAsGroups (replaceN t s)) = invalidChars (callsAsGroups (replaceN t' s)) := by
  rw [callsAsGroups_replaceN ht, callsAsGroups_replaceN ht']
  refine (invalidChars_pairwise _).eq_of_mem_iff (invalidChars_pairwise _) fun u => ?_
  rw [mem_invalidChars, mem_invalidChars]
  constructor
  · rintro ⟨hu, hcode⟩
    exact ⟨(mem_decode_replaceN ht' _ hcode).2 ((mem_decode_replaceN ht _ hcode).1 hu), hcode⟩
  · rintro ⟨hu, hcode⟩
    exact ⟨(mem_decode_replaceN ht _ hcode).2 ((mem_decode_replaceN ht' _ hcode).1 hu), hcode⟩

/-- The characters a formula is refused for do not depend on the finite value of `N`. -/
theorem invalidChars_substitute (f : String) {n m : Float} (hn : n.isFinite = true)
    (hm : m.isFinite = true) :
    invalidChars (callsAsGroups (substitute f.toList n)) =
      invalidChars (callsAsGroups (substitute f.toList m)) := by
  rw [substitute_eq_replaceN, substitute_eq_replaceN]
  exact invalidChars_replaceN (numeric_valueText hn) (numeric_valueText hm) _

theorem nestingFault_replaceN {t : List Char} (ht : NoParens t) (d : Nat) (s : List Char) :
    nestingFault d (replaceN t s) = nestingFault d (replaceN [] s) := by
  induction s generalizing d with
  | nil => rfl
  | cons c rest ih =>
    by_cases hcN : c = 'N'
    · subst hcN
      rw [replaceN_N, replaceN_N, nestingFault_append_of_noParens ht, List.nil_append, ih]
    · rw [replaceN_cons hcN, replaceN_cons hcN]
      unfold nestingFault
      split
      · exact ih _
      · split
        · split
          · rfl
          · exact ih _
        · exact ih _

/-- The nesting of a formula's parentheses does not depend on the value of `N`. -/
theorem nestingFault_substitute (f : String) (n m : Float) :
    nestingFault 0 (substitute f.toList n) = nestingFault 0 (substitute f.toList m) := by
  rw [substitute_eq_replaceN, substitute_eq_replaceN, nestingFault_replaceN (noParens_valueText n),
    nestingFault_replaceN (noParens_valueText m)]

/-! ## Evaluating a valid formula -/

theorem evaluate_of_checks {f : String} {n : Float} (hne : trimBlanks f.toList ≠ [])
    (hbad : invalidChars (callsAsGroups (substitute f.toList n)) = [])
    (hnest : nestingFault 0 (substitute f.toList n) = none) :
    evaluate f n = resolve (substitute f.toList n) := by
  unfold evaluate
  rw [if_neg (by simpa using hne)]
  dsimp only
  rw [hbad, hnest]
  rfl

theorem checks_of_evaluate_ok {f : String} {n v : Float} (h : evaluate f n = .ok v) :
    trimBlanks f.toList ≠ [] ∧ invalidChars (callsAsGroups (substitute f.toList n)) = [] ∧
      nestingFault 0 (substitute f.toList n) = none := by
  unfold evaluate at h
  split at h
  · cases h
  · rename_i hne
    dsimp only at h
    split at h
    · cases h
    · rename_i hbad
      split at h
      · cases h
      · rename_i hnest
        refine ⟨fun h' => hne (by simp [h']), by simpa using hbad, hnest⟩

theorem validate_valid {f : String} (h : (validate f).valid = true) :
    trimBlanks f.toList ≠ [] ∧ 'N' ∈ f.toList ∧ ∃ v, evaluate f 1.0 = .ok v := by
  unfold validate at h
  split at h
  · cases h
  · rename_i hne
    split at h
    · cases h
    · rename_i hN
      split at h
      · cases h
      · rename_i v hv
        exact ⟨fun h' => hne (by simp [h']), by simpa using hN, v, hv⟩

/-- A valid formula has, for every finite `n`, a value or a division by zero. -/
theorem evaluate_of_valid {f : String} (hf : (validate f).valid = true) {n : Float}
    (hn : n.isFinite = true) :
    (∃ v, evaluate f n = .ok v) ∨ evaluate f n = .error .divisionByZero := by
  obtain ⟨hne, -, v, hv⟩ := validate_valid hf
  obtain ⟨-, hbad, hnest⟩ := checks_of_evaluate_ok hv
  have hone : (1.0 : Float).isFinite = true := by decide
  rw [invalidChars_substitute f hone hn] at hbad
  rw [nestingFault_substitute f 1.0 n] at hnest
  rw [evaluate_of_checks hne hbad hnest]
  have hsettled := resolve_settled ((nestingFault_eq_none_iff _).1 hnest)
  revert hsettled
  cases resolve (substitute f.toList n) with
  | ok w => exact fun _ => Or.inl ⟨w, rfl⟩
  | error e => exact fun he => Or.inr (congrArg _ he)

/-! ## Evaluating at an infinite or NaN `N` -/

theorem mem_callsAsGroups {c : Char} (hc : c ∉ ['a', 'b', 's']) {s : List Char} (h : c ∈ s) :
    c ∈ callsAsGroups s := by
  induction s using callsAsGroups.induct with
  | case1 => exact h
  | case2 rest ih =>
    rw [callsAsGroups.eq_2]
    simp only [List.mem_cons] at h hc ⊢
    rcases h with h | h | h | h | h
    · exact absurd (Or.inl h) hc
    · exact absurd (Or.inr (Or.inl h)) hc
    · exact absurd (Or.inr (Or.inr (Or.inl h))) hc
    · exact Or.inl h
    · exact Or.inr (ih h)
  | case3 d rest hnot ih =>
    rw [callsAsGroups.eq_3 d rest hnot]
    rcases List.mem_cons.1 h with rfl | h
    · exact List.mem_cons_self
    · exact List.mem_cons_of_mem d (ih h)

theorem mem_decodePending {c : Char} (hm : c ≠ marker) (hs : surrogateOf? c = none) (b : Bool)
    (s : List Char) (h : c ∈ s) : c.toNat ∈ decodePending b s := by
  induction b, s using decodePending.induct with
  | case1 => cases h
  | case2 => cases h
  | case3 rest ih =>
    rw [decodePending, if_pos rfl]
    exact ih (List.mem_of_ne_of_mem hm h)
  | case4 d rest hd ih =>
    rw [decodePending, if_neg hd]
    rcases List.mem_cons.1 h with rfl | h
    · exact List.mem_cons_self
    · exact List.mem_cons_of_mem _ (ih h)
  | case5 rest ih =>
    rw [decodePending, if_pos rfl]
    exact List.mem_cons_of_mem _ (ih (List.mem_of_ne_of_mem hm h))
  | case6 d rest hd u hu ih =>
    rw [decodePending, if_neg hd, hu]
    rcases List.mem_cons.1 h with rfl | h
    · rw [hs] at hu
      cases hu
    · exact List.mem_cons_of_mem _ (ih h)
  | case7 d rest hd hu ih =>
    rw [decodePending, if_neg hd, hu]
    rcases List.mem_cons.1 h with rfl | h
    · exact List.mem_cons_of_mem _ List.mem_cons_self
    · exact List.mem_cons_of_mem _ (List.mem_cons_of_mem _ (ih h))

theorem n_mem_valueText {x : Float} (hx : x.isFinite = false) : 'n' ∈ valueText x := by
  unfold valueText plainText Layout.render
  rw [Float.Model.UnpackedFloat.ofFloat_eq_toBinary64]
  change x.unpacked.isFinite = false at hx
  cases hu : x.unpacked with
  | notANumber => simp [Float.Model.UnpackedFloat.toBinary64]
  | infinity s => cases s <;> simp [Float.Model.UnpackedFloat.toBinary64, Float.Model.UnpackedFloat.Sign.isNegative]
  | zero s => simp [hu, Float.Model.UnpackedFloat.isFinite] at hx
  | finite s m e hm => simp [hu, Float.Model.UnpackedFloat.isFinite] at hx

/-- A formula that mentions `N` is refused for its characters at an infinite or NaN `N`. -/
theorem evaluate_of_not_isFinite {f : String} (hN : 'N' ∈ f.toList) {n : Float}
    (hn : n.isFinite = false) : ∃ codes, evaluate f n = .error (.invalidCharacters codes) := by
  have hNkept : 'N' ∈ dropBlanks f.toList := by
    simp only [dropBlanks, List.mem_filter]
    exact ⟨hN, by decide⟩
  have hne : trimBlanks f.toList ≠ [] := trimBlanks_ne_nil (List.ne_nil_of_mem hNkept)
  -- the `n` of the value's text survives reading `abs(` as `(` and decoding
  have hn_mem : 'n' ∈ callsAsGroups (substitute f.toList n) := by
    refine mem_callsAsGroups (by decide) ?_
    rw [substitute, List.mem_flatMap]
    exact ⟨'N', hNkept, by simpa using n_mem_valueText hn⟩
  have hbad : 'n'.toNat ∈ invalidChars (callsAsGroups (substitute f.toList n)) :=
    mem_invalidChars.2 ⟨mem_decodePending (by decide) (by decide) false _ hn_mem, by decide⟩
  refine ⟨invalidChars (callsAsGroups (substitute f.toList n)), ?_⟩
  unfold evaluate
  rw [if_neg (by simpa using hne)]
  dsimp only
  rw [if_pos (by simpa using List.ne_nil_of_mem hbad)]

/-- An action is only built with a valid sizing formula. -/
theorem parseAction_valid {doc : Document.Value} {a : Rules.Action} {text : String}
    (h : Rules.parseAction doc = .ok a) (ha : a.formula? = some text) :
    (validate text).valid = true := by
  unfold Rules.parseAction at h
  obtain ⟨a', -, h⟩ := ok_of_bind_eq_ok h
  split at h
  · rename_i text' htext
    dsimp only at h
    split at h
    · rename_i hvalid
      cases h
      rw [htext] at ha
      cases ha
      exact hvalid
    · cases h
  · rename_i hnone
    cases h
    rw [hnone] at ha
    cases ha

end Backtest.Formula
