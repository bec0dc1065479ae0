import Backtest.Formula.Token

/-!
# Where the tokenizer cuts

A character of a flat formula is cut out as an operator when it is `+`, `*` or `/`, or a minus
sign that is neither first nor right after `(` or another operator (`cutsAt`). The tokens join to
the text, and each is one cut character, or a longest stretch in which nothing is cut
(`tokenize_cuts`); the proof peels off one cut at a time (`cutFlags_split`).
-/

namespace Backtest.Formula

/-- For each character of a text, whether it is cut out as an operator; `prev` is the character
before the text, if any. -/
def cutFlags (prev : Option Char) : List Char → List Bool
  | [] => []
  | c :: cs => cutsAt prev c :: cutFlags (some c) cs

theorem getLast?_cons_or (c : Char) (cs : List Char) (prev : Option Char) :
    (c :: cs).getLast?.or prev = cs.getLast?.or (some c) := by
  rw [List.getLast?_cons]
  cases cs.getLast? <;> rfl

theorem getLast?_append_cons_or (xs : List Char) (c : Char) (ys : List Char)
    (prev : Option Char) : (xs ++ c :: ys).getLast?.or prev = ys.getLast?.or (some c) := by
  rw [List.getLast?_append, getLast?_cons_or]
  cases ys.getLast? <;> rfl

theorem cutFlags_append (prev : Option Char) (xs ys : List Char) :
    cutFlags prev (xs ++ ys) = cutFlags prev xs ++ cutFlags (xs.getLast?.or prev) ys := by
  induction xs generalizing prev with
  | nil => rfl
  | cons c cs ih => simp [cutFlags, ih, getLast?_cons_or]

/-- A text is one stretch in which nothing is cut out, or such a stretch, then a character that
is cut out, then the rest. -/
theorem cutFlags_split (prev : Option Char) (s : List Char) :
    (∀ b ∈ cutFlags prev s, b = false) ∨
      ∃ xs c ys, s = xs ++ c :: ys ∧ (∀ b ∈ cutFlags prev xs, b = false) ∧
        cutsAt (xs.getLast?.or prev) c = true := by
  induction s generalizing prev with
  | nil => simp [cutFlags]
  | cons c cs ih =>
    cases hc : cutsAt prev c with
    | true => exact Or.inr ⟨[], c, cs, rfl, by simp [cutFlags], by simpa using hc⟩
    | false =>
      rcases ih (some c) with h | ⟨xs, d, ys, rfl, hxs, hd⟩
      · exact Or.inl (by simpa [cutFlags, hc] using h)
      · refine Or.inr ⟨c :: xs, d, ys, rfl, by simpa [cutFlags, hc] using hxs, ?_⟩
        rwa [getLast?_cons_or]

/-! ## The tokenizer between two cuts -/

theorem tokenizeFrom_stretch {prev : Option Char} {xs : List Char}
    (h : ∀ b ∈ cutFlags prev xs, b = false) (pending rest : List Char) :
    tokenizeFrom prev pending (xs ++ rest) =
      tokenizeFrom (xs.getLast?.or prev) (pending ++ xs) rest := by
  induction xs generalizing prev pending with
  | nil => simp
  | cons c cs ih =>
    have hc : cutsAt prev c = false := h _ (by simp [cutFlags])
    rw [List.cons_append, tokenizeFrom, if_neg (by simp [hc]),
      ih (fun b hb => h b (by simp [cutFlags, hb])), getLast?_cons_or]
    simp

theorem tokenizeFrom_cut {prev : Option Char} {c : Char} (h : cutsAt prev c = true)
    (pending rest : List Char) :
    tokenizeFrom prev pending (c :: rest) =
      (if pending.isEmpty then [] else [pending]) ++ [c] :: tokenizeFrom (some c) [] rest := by
  rw [tokenizeFrom, if_pos h]

/-! ## Each token -/

/-- The token `t` of a text that follows `prev`, with the text `before` it and the text `after`
it: one character that is cut out, or a non-empty stretch in which nothing is cut out, followed
by a cut character or the end and preceded by a cut character or the start. -/
def TokenFits (prev : Option Char) (before t after : List Char) : Prop :=
  (∃ c, t = [c] ∧ cutsAt (before.getLast?.or prev) c = true) ∨
    (t ≠ [] ∧ (∀ b ∈ cutFlags (before.getLast?.or prev) t, b = false) ∧
      (∀ c ∈ after.head?, cutsAt t.getLast? c = true) ∧
      ∀ b ∈ (cutFlags prev before).getLast?, b = true)

theorem TokenFits.after_cut {prev : Option Char} {xs : List Char} {c : Char}
    (hc : cutsAt (xs.getLast?.or prev) c = true) {before t after : List Char}
    (h : TokenFits (some c) before t after) : TokenFits prev (xs ++ c :: before) t after := by
  -- the character before the token is the last of `before`, or `c`, which is cut out
  have hflags : (cutFlags prev (xs ++ c :: before)).getLast? =
      some ((cutFlags (some c) before).getLast?.getD true) := by
    rw [cutFlags_append, List.getLast?_append, cutFlags, hc, List.getLast?_cons]
    simp
  unfold TokenFits at h ⊢
  rw [getLast?_append_cons_or, hflags]
  rcases h with h | ⟨hne, hnone, hend, hstart⟩
  · exact Or.inl h
  · refine Or.inr ⟨hne, hnone, hend, ?_⟩
    cases hb : (cutFlags (some c) before).getLast? with
    | none => simp
    | some b => simpa [hb] using hstart

theorem TokenFits.cut {prev : Option Char} {before : List Char} {c : Char}
    (hc : cutsAt (before.getLast?.or prev) c = true) (after : List Char) :
    TokenFits prev before [c] after :=
  Or.inl ⟨c, rfl, hc⟩

theorem TokenFits.stretch {prev : Option Char} {xs after : List Char} (hne : xs ≠ [])
    (hxs : ∀ b ∈ cutFlags prev xs, b = false)
    (hend : ∀ c ∈ after.head?, cutsAt (xs.getLast?.or prev) c = true) :
    TokenFits prev [] xs after := by
  have hlast : xs.getLast?.or prev = xs.getLast? := by
    cases xs with
    | nil => exact absurd rfl hne
    | cons x xs => simp [List.getLast?_cons]
  rw [hlast] at hend
  exact Or.inr ⟨hne, by simpa using hxs, hend, by simp [cutFlags]⟩

/-- Every token collected from a point where nothing is pending fits. Induction on the length of
the text, one cut at a time. -/
theorem tokenizeFrom_fits (prev : Option Char) (s : List Char) :
    ∀ before t after, tokenizeFrom prev [] s = before ++ t :: after →
      TokenFits prev before.flatten t after.flatten := by
  rcases cutFlags_split prev s with hs | ⟨xs, c, ys, rfl, hxs, hc⟩
  · -- nothing is cut out: the whole text is the one token
    intro before t after h
    rw [← List.append_nil s, tokenizeFrom_stretch hs, List.nil_append, tokenizeFrom] at h
    cases s with
    | nil => cases before <;> simp at h
    | cons x xs =>
      obtain ⟨rfl, rfl, rfl⟩ : before = [] ∧ t = x :: xs ∧ after = [] := by
        cases before <;> simp_all [eq_comm]
      exact TokenFits.stretch (by simp) hs (by simp)
  · -- the stretch `xs`, if any, then the token `[c]`, then the tokens of `ys`
    intro before t after h
    rw [tokenizeFrom_stretch hxs, List.nil_append, tokenizeFrom_cut hc] at h
    have ih := fun before t after h' =>
      (tokenizeFrom_fits (some c) ys before t after h').after_cut hc
    cases xs with
    | nil =>
      cases before with
      | nil =>
        simp only [List.isEmpty_nil, if_true, List.nil_append, List.cons.injEq] at h
        obtain ⟨rfl, rfl⟩ := h
        exact TokenFits.cut hc _
      | cons b before =>
        simp only [List.isEmpty_nil, if_true, List.nil_append, List.cons_append,
          List.cons.injEq] at h
        obtain ⟨rfl, h⟩ := h
        simpa using ih before t after h
    | cons x xs =>
      cases before with
      | nil =>
        simp at h
        obtain ⟨rfl, rfl⟩ := h
        exact TokenFits.stretch (by simp) hxs (by simpa using hc)
      | cons b before =>
        cases before with
        | nil =>
          simp at h
          obtain ⟨rfl, rfl, rfl⟩ := h
          simpa using TokenFits.cut hc _
        | cons b' before =>
          simp at h
          obtain ⟨rfl, rfl, h⟩ := h
          simpa using ih before t after h
termination_by s.length

/-- The tokens of a flat formula join to it, and each is one character that is cut out, or a
non-empty stretch in which nothing is cut out, with a cut character or an end of the text on
either side. -/
theorem tokenize_cuts (s : List Char) :
    (tokenize s).flatten = s ∧
      ∀ before t after, tokenize s = before ++ t :: after →
        (∃ c, t = [c] ∧ cutsAt before.flatten.getLast? c = true) ∨
          (t ≠ [] ∧ (∀ b ∈ cutFlags before.flatten.getLast? t, b = false) ∧
            (∀ c ∈ after.flatten.head?, cutsAt t.getLast? c = true) ∧
            ∀ b ∈ (cutFlags none before.flatten).getLast?, b = true) := by
  refine ⟨flatten_tokenize s, fun before t after h => ?_⟩
  simpa [TokenFits] using tokenizeFrom_fits none s before t after h

end Backtest.Formula
