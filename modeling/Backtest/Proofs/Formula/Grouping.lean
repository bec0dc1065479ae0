import Backtest.Proofs.Formula.Validity

/-!
# Grouping is transparent

A formula that passes the checks before resolution keeps its outcome inside parentheses, and
inside `abs(` and `)` takes its absolute value, or fails with it (`evaluate_grouping`). The
evaluator resolves the formula inside the larger text: while it has a call or a group the searches
find the same one there (`firstCall_wrap`, `innermostGroup_wrap`), and once it is a flat chain the
wrapper splices back its value as one token that reads exactly (`evalFlat_valueText`).
-/

namespace Backtest.Formula

open Backtest.Decimal

/-! ## Reading a value's text back -/

/-- The text of a value evaluates to the value: it is one token, which reads back exactly. -/
theorem evalFlat_valueText (x : Float) : evalFlat (valueText x) = .ok x := by
  have htok : tokenize (valueText x) = [valueText x] := by
    simpa [tokenize] using ((oneToken_valueText x) none rfl []).1
  rw [evalFlat, htok, reduceProducts]
  simp [sumChain, sumTerms, tokenValue?, valueText, readChars_plainText]

theorem resolveGroups_of_at {s before inner after : List Char}
    (h : innermostGroup s = .at before inner after) :
    resolveGroups s = evalFlat inner >>= fun v => resolveGroups (before ++ valueText v ++ after) := by
  rw [resolveGroups]
  split <;> simp_all

theorem resolveGroups_of_none {s : List Char} (h : innermostGroup s = .none) (hc : ')' ∉ s) :
    resolveGroups s = evalFlat s := by
  rw [resolveGroups]
  split <;> simp_all

theorem resolve_of_at {s before inner after : List Char}
    (h : firstCall s = .at before inner after) :
    resolve s = resolve inner >>= fun v => resolve (before ++ valueText v.abs ++ after) := by
  rw [resolve]
  split <;> simp_all

theorem resolve_of_none {s : List Char} (h : firstCall s = .none) :
    resolve s = resolveGroups s := by
  rw [resolve]
  split <;> simp_all

theorem resolveGroups_valueText (x : Float) : resolveGroups (valueText x) = .ok x := by
  have hflat : innermostGroup (valueText x) = .none := by
    rw [innermostGroup, lastOpen_of_not_mem (noParens_valueText x).1]
  rw [resolveGroups_of_none hflat (noParens_valueText x).2, evalFlat_valueText]

theorem resolve_valueText (x : Float) : resolve (valueText x) = .ok x := by
  have hb : 'b' ∉ valueText x := by
    intro h
    rcases isNumeral_of_mem_render Layout.plain x 'b' h with h | h
    · exact absurd h (by decide)
    · exact absurd h (by decide)
  rw [resolve_of_none (firstCall_of_not_mem hb), resolveGroups_valueText]

/-! ## Balanced texts inside a wrapper -/

theorem closing_of_balanced {a : List Char} : ∀ {d : Nat},
    (∀ p, p <+: a → 0 ≤ (d : Int) + depth p) → (d : Int) + depth a = 0 →
      ∀ b, closing d (a ++ ')' :: b) = some (a, b) := by
  induction a with
  | nil =>
    intro d _ hzero b
    obtain rfl : d = 0 := by simpa using hzero
    rw [List.nil_append, closing, if_pos rfl, if_pos rfl]
  | cons c cs ih =>
    intro d hpre hzero b
    have hcons := (forall_prefix_cons.1 hpre).2
    by_cases ho : c = '('
    · subst ho
      have hpre' : ∀ p, p <+: cs → 0 ≤ ((d + 1 : Nat) : Int) + depth p := by
        intro p hp
        have := hcons p hp
        rw [depth_cons_open] at this
        push_cast
        omega
      rw [depth_cons_open] at hzero
      rw [List.cons_append, closing_open, ih hpre' (by push_cast; omega)]
      rfl
    · by_cases hc : c = ')'
      · subst hc
        -- the stretch `)` keeps the depth at least zero, so a parenthesis is open
        have hd : 0 ≤ (d : Int) - 1 := by simpa using hcons [] List.nil_prefix
        obtain ⟨d', rfl⟩ : ∃ d', d = d' + 1 := ⟨d - 1, by omega⟩
        have hpre' : ∀ p, p <+: cs → 0 ≤ (d' : Int) + depth p := by
          intro p hp
          have := hcons p hp
          rw [depth_cons_close] at this
          push_cast at this
          omega
        rw [depth_cons_close] at hzero
        push_cast at hzero
        rw [List.cons_append, closing_close, ih hpre' (by omega)]
        rfl
      · have hpre' : ∀ p, p <+: cs → 0 ≤ (d : Int) + depth p := by
          intro p hp
          have := hcons p hp
          rwa [depth_cons_of_ne ho hc] at this
        rw [depth_cons_of_ne ho hc] at hzero
        rw [List.cons_append, closing_cons_of_ne ho hc, ih hpre' hzero]
        rfl

theorem closing_append {d : Nat} {s a b : List Char} (h : closing d s = some (a, b))
    (t : List Char) : closing d (s ++ t) = some (a, b ++ t) := by
  obtain ⟨hpre, hzero⟩ := closing_balanced h
  rw [closing_eq h, List.append_assoc, List.cons_append, closing_of_balanced hpre hzero]

theorem Balanced.enclose {x s : List Char} (hx : NoParens x) (h : Balanced s) :
    Balanced (x ++ '(' :: (s ++ [')'])) where
  prefix_nonneg := by
    intro p hp
    rcases prefix_append_cases hp with hp | ⟨t, ht, rfl⟩
    · rw [(hx.of_prefix hp).depth_eq_zero]
    · rw [depth_append, hx.depth_eq_zero, Int.zero_add]
      rcases List.prefix_cons_iff.1 ht with rfl | ⟨t', rfl, ht'⟩
      · simp
      · rw [depth_cons_open]
        rcases prefix_append_cases ht' with ht' | ⟨u, hu, rfl⟩
        · have := h.prefix_nonneg t' ht'
          omega
        · rw [depth_append, h.depth_eq_zero]
          rcases List.prefix_cons_iff.1 hu with rfl | ⟨u', rfl, hu'⟩
          · simp
          · rw [List.prefix_nil.1 hu']
            simp
  depth_eq_zero := by
    simp [depth_append, hx.depth_eq_zero, h.depth_eq_zero]

/-! ## The searches inside a wrapper -/

theorem isPrefixOf_callName_append_close (c : Char) (s t : List Char) :
    callName.isPrefixOf (c :: (s ++ ')' :: t)) = callName.isPrefixOf (c :: s) := by
  rcases s with _ | ⟨x, _ | ⟨y, _ | ⟨z, r⟩⟩⟩ <;> simp [callName, List.isPrefixOf]

theorem firstCall_append_close {s before inner after : List Char}
    (h : firstCall s = .at before inner after) (t : List Char) :
    firstCall (s ++ ')' :: t) = .at before inner (after ++ ')' :: t) := by
  induction s generalizing before inner after with
  | nil => simp [firstCall] at h
  | cons c rest ih =>
    unfold firstCall at h
    rw [List.cons_append, firstCall, isPrefixOf_callName_append_close]
    split at h
    · rename_i hpre
      rw [if_pos hpre]
      split at h
      · rename_i inner' after' hc
        cases h
        -- the call starts here: its argument is found before the appended text
        have hlen : 4 ≤ (c :: rest).length := (List.isPrefixOf_iff_prefix.1 hpre).length_le
        have hdrop : (c :: (rest ++ ')' :: t)).drop 4 = (c :: rest).drop 4 ++ ')' :: t := by
          rw [← List.cons_append, List.drop_append_of_le_length hlen]
        rw [hdrop, closing_append hc]
      · cases h
    · rename_i hpre
      rw [if_neg hpre]
      -- the call lies further on
      cases hr : firstCall rest
      · rw [hr] at h
        cases h
      · rw [hr] at h
        cases h
      · rename_i b i a
        rw [hr] at h
        cases h
        rw [ih hr]

theorem firstCall_append_close_none {s : List Char} (h : firstCall s = .none) :
    firstCall (s ++ [')']) = .none := by
  induction s with
  | nil => rfl
  | cons c rest ih =>
    unfold firstCall at h
    rw [List.cons_append, firstCall, isPrefixOf_callName_append_close]
    split at h
    · split at h <;> cases h
    · rename_i hpre
      rw [if_neg hpre]
      cases hr : firstCall rest
      · rw [ih hr]
      · rw [hr] at h
        cases h
      · rw [hr] at h
        cases h

/-- Inside parentheses the first call of a text is found where it is in the text. -/
theorem firstCall_wrap {s before inner after : List Char}
    (h : firstCall s = .at before inner after) :
    firstCall ('(' :: (s ++ [')'])) = .at ('(' :: before) inner (after ++ [')']) := by
  rw [firstCall, if_neg (by simp [callName, List.isPrefixOf]), firstCall_append_close h]

theorem firstCall_wrap_none {s : List Char} (h : firstCall s = .none) :
    firstCall ('(' :: (s ++ [')'])) = .none := by
  rw [firstCall, if_neg (by simp [callName, List.isPrefixOf]), firstCall_append_close_none h]

/-- Inside parentheses the last group of a text is found where it is in the text. -/
theorem innermostGroup_wrap {s before inner after : List Char}
    (h : innermostGroup s = .at before inner after) :
    innermostGroup ('(' :: (s ++ [')'])) = .at ('(' :: before) inner (after ++ [')']) := by
  unfold innermostGroup at h
  split at h
  · cases h
  · rename_i b r hopen
    split at h
    · cases h
    · rename_i i a hclose
      cases h
      -- the last `(` and the first `)` after it both lie inside the text
      have hr : '(' ∉ r ++ [')'] := by simpa using lastOpen_spec hopen
      have hs : '(' :: (s ++ [')']) = ('(' :: before) ++ '(' :: (r ++ [')']) := by
        rw [lastOpen_eq hopen]
        simp
      have hi : ')' ∉ inner := firstClose_spec hclose
      rw [hs, innermostGroup, lastOpen_append hr]
      dsimp only
      rw [firstClose_eq hclose, List.append_assoc, List.cons_append, firstClose_append hi]

theorem innermostGroup_wrap_flat {s : List Char} (h : NoParens s) :
    innermostGroup ('(' :: (s ++ [')'])) = .at [] s [] := by
  have hs : '(' ∉ s ++ [')'] := by simpa using h.1
  rw [innermostGroup, ← List.nil_append ('(' :: (s ++ [')'])), lastOpen_append hs]
  dsimp only
  rw [firstClose_append h.2]

/-! ## Resolution inside a wrapper -/

theorem resolveGroups_wrap {s : List Char} (h : Balanced s) :
    resolveGroups ('(' :: (s ++ [')'])) = resolveGroups s := by
  fun_induction resolveGroups s with
  | case1 s before inner after hfound ih =>
    obtain ⟨rfl, hinner⟩ := innermostGroup_spec hfound
    rw [resolveGroups_of_at (innermostGroup_wrap hfound)]
    refine congrArg (evalFlat inner >>= ·) (funext fun v => ?_)
    have hsplice : Balanced (before ++ valueText v ++ after) :=
      @Balanced.splice before ['('] inner after _ (by simpa using h) (by simp)
        hinner.depth_eq_zero (noParens_valueText v)
    rw [← ih v hsplice]
    simp
  | case2 s hfound => exact absurd hfound h.innermostGroup_ne_unclosed
  | case3 s hfound hclose => exact absurd hclose (h.noParens (innermostGroup_none hfound)).2
  | case4 s hfound hclose =>
    -- a flat text: the parentheses are its only group, whose value is read back
    rw [resolveGroups_of_at
      (innermostGroup_wrap_flat ⟨innermostGroup_none hfound, hclose⟩)]
    cases evalFlat s with
    | error e => rfl
    | ok v =>
      show resolveGroups ([] ++ valueText v ++ []) = .ok v
      rw [List.nil_append, List.append_nil, resolveGroups_valueText]

/-- Parentheses around a balanced text leave its value as it is. Induction along the resolution
of the text: each call found in it is found inside the parentheses too. -/
theorem resolve_wrap {s : List Char} (h : Balanced s) :
    resolve ('(' :: (s ++ [')'])) = resolve s := by
  fun_induction resolve s with
  | case1 s before inner after hfound ihInner ih =>
    obtain ⟨rfl, hinner⟩ := firstCall_spec hfound
    rw [resolve_of_at (firstCall_wrap hfound)]
    refine congrArg (resolve inner >>= ·) (funext fun v => ?_)
    have hsplice : Balanced (before ++ valueText v.abs ++ after) :=
      Balanced.splice (by simpa [List.append_assoc] using h) (by decide)
        hinner.depth_eq_zero (noParens_valueText v.abs)
    rw [← ih v hsplice]
    simp
  | case2 s hfound => exact absurd hfound h.firstCall_ne_unclosed
  | case3 s hfound =>
    rw [resolve_of_none (firstCall_wrap_none hfound), resolveGroups_wrap h]

theorem resolve_call {s : List Char} (h : Balanced s) :
    resolve (callName ++ (s ++ [')'])) = (resolve s).map Float.abs := by
  have hclose : closing 0 (s ++ [')']) = some (s, []) :=
    closing_of_balanced (by simpa using h.prefix_nonneg) (by simpa using h.depth_eq_zero) []
  have hcall : firstCall (callName ++ (s ++ [')'])) = .at [] s [] := by
    simp only [callName, List.cons_append, List.nil_append, firstCall, List.isPrefixOf,
      BEq.rfl, Bool.and_true, if_true, List.drop_succ_cons, List.drop_zero]
    rw [hclose]
  rw [resolve_of_at hcall]
  cases resolve s with
  | error e => rfl
  | ok v =>
    show resolve ([] ++ valueText v.abs ++ []) = .ok v.abs
    rw [List.nil_append, List.append_nil, resolve_valueText]

/-! ## Formulas inside a wrapper -/

/-- The checks evaluation makes before it resolves the formula `f` for `N = n`, all passed: the
formula is not blank, its characters are those of the formula alphabet once `abs(` is read as
`(`, and its parentheses balance. -/
structure Checked (f : String) (n : Float) : Prop where
  not_blank : Text.trimBlanks f.toList ≠ []
  alphabet : ∀ u ∈ Text.decode (callsAsGroups (substitute f.toList n)), isFormulaCode u = true
  balanced : Balanced (substitute f.toList n)

theorem Checked.evaluate_eq {f : String} {n : Float} (h : Checked f n) :
    evaluate f n = resolve (substitute f.toList n) :=
  evaluate_of_checks h.not_blank (invalidChars_eq_nil_iff.2 h.alphabet)
    ((nestingFault_eq_none_iff _).2 h.balanced)

theorem substitute_append (a b : List Char) (n : Float) :
    substitute (a ++ b) n = substitute a n ++ substitute b n := by
  simp [substitute, Text.dropBlanks, List.filter_append, List.flatMap_append]

theorem substitute_group (f : String) (n : Float) :
    substitute ("(" ++ f ++ ")").toList n = '(' :: (substitute f.toList n ++ [')']) := by
  rw [String.toList_append, String.toList_append, substitute_append, substitute_append]
  rfl

theorem substitute_call (f : String) (n : Float) :
    substitute ("abs(" ++ f ++ ")").toList n = callName ++ (substitute f.toList n ++ [')']) := by
  rw [String.toList_append, String.toList_append, substitute_append, substitute_append]
  rfl

theorem callsAsGroups_append_close (s : List Char) :
    callsAsGroups (s ++ [')']) = callsAsGroups s ++ [')'] := by
  induction s using callsAsGroups.induct with
  | case1 => rfl
  | case2 rest ih => simp only [List.cons_append, callsAsGroups.eq_2, ih]
  | case3 c rest hn ih =>
    -- a `)` at the end starts no call name
    have hn' : ∀ rest', c = 'a' → rest ++ [')'] = 'b' :: 's' :: '(' :: rest' → False := by
      intro rest' hc hr
      rcases rest with _ | ⟨x, _ | ⟨y, _ | ⟨z, r⟩⟩⟩ <;> simp_all
    rw [List.cons_append, callsAsGroups.eq_3 c rest hn, callsAsGroups.eq_3 c _ hn', ih]
    rfl

theorem decodePending_append_close (b : Bool) (s : List Char) :
    Text.decodePending b (s ++ [')']) = Text.decodePending b s ++ [')'.toNat] := by
  induction b, s using Text.decodePending.induct <;>
    simp_all [Text.decodePending, Text.marker, Text.surrogateOf?, Text.surrogateBase]

theorem alphabet_wrap {s : List Char} (h : ∀ u ∈ Text.decode (callsAsGroups s), isFormulaCode u = true) :
    ∀ u ∈ Text.decode ('(' :: (callsAsGroups s ++ [')'])), isFormulaCode u = true := by
  have hdecode : Text.decode ('(' :: (callsAsGroups s ++ [')'])) =
      '('.toNat :: (Text.decode (callsAsGroups s) ++ [')'.toNat]) := by
    rw [Text.decode, Text.decodePending, if_neg (by decide), decodePending_append_close]
    rfl
  rw [hdecode]
  intro u hu
  simp only [List.mem_cons, List.mem_append, List.not_mem_nil, or_false] at hu
  rcases hu with rfl | hu | rfl
  · decide
  · exact h u hu
  · decide

theorem Checked.group {f : String} {n : Float} (h : Checked f n) : Checked ("(" ++ f ++ ")") n where
  not_blank := trimBlanks_ne_nil (by simp [Text.dropBlanks, show Text.isBlank '(' = false by decide])
  alphabet := by
    rw [substitute_group, callsAsGroups.eq_3 '(' _ (by simp), callsAsGroups_append_close]
    exact alphabet_wrap h.alphabet
  balanced := by
    rw [substitute_group]
    simpa using Balanced.enclose (x := []) ⟨by simp, by simp⟩ h.balanced

theorem Checked.call {f : String} {n : Float} (h : Checked f n) :
    Checked ("abs(" ++ f ++ ")") n where
  not_blank := trimBlanks_ne_nil (by simp [Text.dropBlanks, show Text.isBlank 'a' = false by decide])
  alphabet := by
    rw [substitute_call, callName, List.cons_append, List.cons_append, List.cons_append,
      List.singleton_append, callsAsGroups.eq_2, callsAsGroups_append_close]
    exact alphabet_wrap h.alphabet
  balanced := by
    rw [substitute_call]
    exact Balanced.enclose (x := ['a', 'b', 's']) ⟨by decide, by decide⟩ h.balanced

theorem evaluate_group {f : String} {n : Float} (h : Checked f n) :
    evaluate ("(" ++ f ++ ")") n = evaluate f n := by
  rw [h.group.evaluate_eq, h.evaluate_eq, substitute_group, resolve_wrap h.balanced]

theorem evaluate_call {f : String} {n : Float} (h : Checked f n) :
    evaluate ("abs(" ++ f ++ ")") n = (evaluate f n).map Float.abs := by
  rw [h.call.evaluate_eq, h.evaluate_eq, substitute_call, resolve_call h.balanced]

/-- Grouping is transparent: for a formula that passes the checks before resolution, parentheses
around it give its outcome, and `abs(` and `)` around it give the absolute value of its value;
each fails with a division by zero exactly when the formula does. -/
theorem evaluate_grouping {f : String} {n : Float} (h : Checked f n) :
    evaluate ("(" ++ f ++ ")") n = evaluate f n ∧
      evaluate ("abs(" ++ f ++ ")") n = (evaluate f n).map Float.abs :=
  ⟨evaluate_group h, evaluate_call h⟩

theorem evaluate_grouping_doubleMinus :
    Checked "--3" 0.0 ∧
      (evaluate ("(" ++ "--3" ++ ")") 0.0 = evaluate "--3" 0.0 ∧
        evaluate ("abs(" ++ "--3" ++ ")") 0.0 = (evaluate "--3" 0.0).map Float.abs) :=
  have hc : Checked "--3" 0.0 :=
    ⟨by decide, invalidChars_eq_nil_iff.1 (by decide), (nestingFault_eq_none_iff _).1 (by decide)⟩
  ⟨hc, evaluate_grouping hc⟩

end Backtest.Formula
