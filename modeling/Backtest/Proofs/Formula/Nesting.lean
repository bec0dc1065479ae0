import Backtest.Formula.Eval

/-!
# Nesting of parentheses in a formula

A text is balanced when no prefix closes more parentheses than it opens and the whole text closes
all it opens; `nestingFault` checks exactly this (`nestingFault_eq_none_iff`), a stray `)` before
an unclosed `(`. On a balanced text resolution cannot fail on nesting again: each splice replaces a
balanced stretch by a number's text (`Balanced.splice`), so only a division by zero is left
(`resolve_settled`).
-/

namespace Backtest.Formula

open Backtest.Decimal

/-! ## Depth -/

/-- The depth a text leaves behind: the parentheses it opens less those it closes. -/
def depth (s : List Char) : Int :=
  (s.count '(' : Int) - s.count ')'

@[simp] theorem depth_nil : depth [] = 0 := rfl

@[simp] theorem depth_append (a b : List Char) : depth (a ++ b) = depth a + depth b := by
  simp only [depth, List.count_append]
  omega

@[simp] theorem depth_cons_open (s : List Char) : depth ('(' :: s) = depth s + 1 := by
  simp only [depth, List.count_cons_self, List.count_cons_of_ne (show '(' ≠ ')' by decide)]
  omega

@[simp] theorem depth_cons_close (s : List Char) : depth (')' :: s) = depth s - 1 := by
  simp only [depth, List.count_cons_self, List.count_cons_of_ne (show ')' ≠ '(' by decide)]
  omega

theorem depth_cons_of_ne {c : Char} (ho : c ≠ '(') (hc : c ≠ ')') (s : List Char) :
    depth (c :: s) = depth s := by
  simp only [depth, List.count_cons_of_ne ho, List.count_cons_of_ne hc]

/-- A text with no parenthesis at all. -/
def NoParens (s : List Char) : Prop :=
  '(' ∉ s ∧ ')' ∉ s

theorem NoParens.depth_eq_zero {s : List Char} (h : NoParens s) : depth s = 0 := by
  simp [depth, List.count_eq_zero.2 h.1, List.count_eq_zero.2 h.2]

theorem NoParens.of_prefix {s t : List Char} (h : NoParens s) (ht : t <+: s) : NoParens t :=
  ⟨fun hm => h.1 (ht.subset hm), fun hm => h.2 (ht.subset hm)⟩

theorem noParens_valueText (x : Float) : NoParens (valueText x) := by
  refine ⟨not_open_mem_render Layout.plain x, fun h => ?_⟩
  rcases isNumeral_of_mem_render Layout.plain x ')' h with h | h
  · exact absurd h (by decide)
  · exact absurd h (by decide)

/-! ## Prefixes -/

theorem forall_prefix_cons {α : Type} {P : List α → Prop} {c : α} {s : List α} :
    (∀ p, p <+: c :: s → P p) ↔ P [] ∧ ∀ t, t <+: s → P (c :: t) := by
  constructor
  · intro h
    exact ⟨h [] (List.nil_prefix), fun t ht => h (c :: t) ((List.prefix_cons_inj c).2 ht)⟩
  · rintro ⟨hnil, hcons⟩ p hp
    rcases List.prefix_cons_iff.1 hp with rfl | ⟨t, rfl, ht⟩
    · exact hnil
    · exact hcons t ht

theorem prefix_append_cases {α : Type} {a b p : List α} (h : p <+: a ++ b) :
    p <+: a ∨ ∃ t, t <+: b ∧ p = a ++ t := by
  rcases List.prefix_or_prefix_of_prefix h (List.prefix_append a b) with h' | ⟨t, rfl⟩
  · exact Or.inl h'
  · exact Or.inr ⟨t, (List.prefix_append_right_inj a).1 h, rfl⟩

/-! ## Balanced texts -/

/-- A balanced text never closes a parenthesis it has not opened and leaves none open. -/
structure Balanced (s : List Char) : Prop where
  prefix_nonneg : ∀ p, p <+: s → 0 ≤ depth p
  depth_eq_zero : depth s = 0

theorem Balanced.noParens {s : List Char} (h : Balanced s) (ho : '(' ∉ s) : NoParens s := by
  refine ⟨ho, fun hc => ?_⟩
  have hzero := h.depth_eq_zero
  have hpos : 0 < s.count ')' := List.count_pos_iff.2 hc
  simp only [depth, List.count_eq_zero.2 ho] at hzero
  omega

theorem Balanced.not_open_last {a b : List Char} (h : Balanced (a ++ '(' :: b))
    (hb : NoParens b) : False := by
  have ha := h.prefix_nonneg a (List.prefix_append a _)
  have hzero := h.depth_eq_zero
  rw [depth_append, depth_cons_open, hb.depth_eq_zero] at hzero
  omega

/-- Replacing a balanced stretch, together with an opening `o` of depth one and its closing `)`,
by a text without parentheses keeps a text balanced. -/
theorem Balanced.splice {a o i b x : List Char} (h : Balanced (a ++ o ++ i ++ ')' :: b))
    (ho : depth o = 1) (hi : depth i = 0) (hx : NoParens x) : Balanced (a ++ x ++ b) where
  prefix_nonneg := by
    have ha : 0 ≤ depth a := h.prefix_nonneg a (by simp [List.append_assoc])
    intro p hp
    rcases prefix_append_cases hp with hp | ⟨t, ht, rfl⟩
    · rcases prefix_append_cases hp with hp | ⟨t, ht, rfl⟩
      · exact h.prefix_nonneg p (hp.trans (by simp [List.append_assoc]))
      · rw [depth_append, (hx.of_prefix ht).depth_eq_zero]
        omega
    · have hpre := h.prefix_nonneg (a ++ o ++ i ++ ')' :: t)
        (by simpa [List.append_assoc] using ht)
      simp only [depth_append, depth_cons_close, ho, hi] at hpre
      rw [depth_append, depth_append, hx.depth_eq_zero]
      omega
  depth_eq_zero := by
    have hzero := h.depth_eq_zero
    simp only [depth_append, depth_cons_close, ho, hi] at hzero
    rw [depth_append, depth_append, hx.depth_eq_zero]
    omega

/-! ## The nesting check -/

theorem exists_prefix_cons {α : Type} {P : List α → Prop} {c : α} {s : List α} :
    (∃ p, p <+: c :: s ∧ P p) ↔ P [] ∨ ∃ t, t <+: s ∧ P (c :: t) := by
  constructor
  · rintro ⟨p, hp, hP⟩
    rcases List.prefix_cons_iff.1 hp with rfl | ⟨t, rfl, ht⟩
    · exact Or.inl hP
    · exact Or.inr ⟨t, ht, hP⟩
  · rintro (hP | ⟨t, ht, hP⟩)
    · exact ⟨[], List.nil_prefix, hP⟩
    · exact ⟨c :: t, (List.prefix_cons_inj c).2 ht, hP⟩

theorem nestingFault_eq_strayClose_iff (d : Nat) (s : List Char) :
    nestingFault d s = some .strayClose ↔ ∃ p, p <+: s ∧ (d : Int) + depth p < 0 := by
  induction s generalizing d with
  | nil => simp [nestingFault]
  | cons c cs ih =>
    rw [exists_prefix_cons]
    unfold nestingFault
    by_cases ho : c = '('
    · subst ho
      simp only [if_pos, ih, depth_cons_open]
      constructor
      · rintro ⟨t, ht, hlt⟩
        exact Or.inr ⟨t, ht, by push_cast at hlt; omega⟩
      · rintro (hd | ⟨t, ht, hlt⟩)
        · exact absurd hd (by simp only [depth_nil]; omega)
        · exact ⟨t, ht, by push_cast; omega⟩
    · by_cases hc : c = ')'
      · subst hc
        cases d with
        | zero =>
          simp only [if_neg ho, if_pos, true_iff]
          exact Or.inr ⟨[], List.nil_prefix, by simp⟩
        | succ d =>
          simp only [if_neg ho, if_pos, Nat.add_one_ne_zero, if_false, ih, depth_cons_close,
            Nat.add_sub_cancel]
          constructor
          · rintro ⟨t, ht, hlt⟩
            exact Or.inr ⟨t, ht, by push_cast; omega⟩
          · rintro (hd | ⟨t, ht, hlt⟩)
            · exact absurd hd (by simp only [depth_nil]; omega)
            · exact ⟨t, ht, by push_cast at hlt; omega⟩
      · simp only [if_neg ho, if_neg hc, ih, depth_cons_of_ne ho hc]
        constructor
        · rintro ⟨t, ht, hlt⟩
          exact Or.inr ⟨t, ht, hlt⟩
        · rintro (hd | ⟨t, ht, hlt⟩)
          · exact absurd hd (by simp only [depth_nil]; omega)
          · exact ⟨t, ht, hlt⟩

theorem nestingFault_of_prefix_nonneg {d : Nat} {s : List Char}
    (h : ∀ p, p <+: s → 0 ≤ (d : Int) + depth p) :
    nestingFault d s = if (d : Int) + depth s = 0 then none else some .unclosed := by
  induction s generalizing d with
  | nil =>
    by_cases hd : d = 0 <;> simp [nestingFault, hd]
  | cons c cs ih =>
    have htail := (forall_prefix_cons.1 h).2
    unfold nestingFault
    by_cases ho : c = '('
    · subst ho
      rw [if_pos rfl, ih (fun t ht => by have := htail t ht; rw [depth_cons_open] at this; omega)]
      simp only [depth_cons_open]
      push_cast
      congr 1
      exact propext ⟨fun h => by omega, fun h => by omega⟩
    · by_cases hc : c = ')'
      · subst hc
        cases d with
        | zero =>
          have := htail [] List.nil_prefix
          simp at this
        | succ d =>
          rw [if_neg ho, if_pos rfl, if_neg (Nat.add_one_ne_zero d), Nat.add_sub_cancel,
            ih (fun t ht => by have := htail t ht; rw [depth_cons_close] at this; omega)]
          simp only [depth_cons_close]
          push_cast
          congr 1
          exact propext ⟨fun h => by omega, fun h => by omega⟩
      · rw [if_neg ho, if_neg hc, ih (fun t ht => by simpa [depth_cons_of_ne ho hc] using htail t ht),
          depth_cons_of_ne ho hc]

theorem nestingFault_cases (d : Nat) (s : List Char) :
    nestingFault d s = none ∨ nestingFault d s = some .strayClose ∨
      nestingFault d s = some .unclosed := by
  induction s generalizing d with
  | nil => by_cases hd : d = 0 <;> simp [nestingFault, hd]
  | cons c cs ih =>
    unfold nestingFault
    by_cases ho : c = '('
    · rw [if_pos ho]
      exact ih (d + 1)
    · rw [if_neg ho]
      by_cases hc : c = ')'
      · rw [if_pos hc]
        by_cases hd : d = 0
        · simp [hd]
        · rw [if_neg hd]
          exact ih (d - 1)
      · rw [if_neg hc]
        exact ih d

theorem prefix_nonneg_of_ne_strayClose {s : List Char} (h : nestingFault 0 s ≠ some .strayClose) :
    ∀ p, p <+: s → 0 ≤ depth p := by
  intro p hp
  refine Int.not_lt.1 fun hlt => h ?_
  exact (nestingFault_eq_strayClose_iff 0 s).2 ⟨p, hp, by simpa using hlt⟩

/-- The check passes exactly on balanced texts. -/
theorem nestingFault_eq_none_iff (s : List Char) : nestingFault 0 s = none ↔ Balanced s := by
  constructor
  · intro h
    have hnonneg := prefix_nonneg_of_ne_strayClose (s := s) (by simp [h])
    have heq := @nestingFault_of_prefix_nonneg 0 s (by simpa using hnonneg)
    rw [h] at heq
    refine ⟨hnonneg, Decidable.byContradiction fun hne => ?_⟩
    rw [if_neg (by simpa using hne)] at heq
    simp at heq
  · intro h
    rw [nestingFault_of_prefix_nonneg (by simpa using h.prefix_nonneg)]
    simp [h.depth_eq_zero]

theorem nestingFault_eq_unclosed_iff (s : List Char) :
    nestingFault 0 s = some .unclosed ↔ (∀ p, p <+: s → 0 ≤ depth p) ∧ depth s ≠ 0 := by
  constructor
  · intro h
    have hnonneg := prefix_nonneg_of_ne_strayClose (s := s) (by simp [h])
    refine ⟨hnonneg, fun hzero => ?_⟩
    have heq := @nestingFault_of_prefix_nonneg 0 s (by simpa using hnonneg)
    rw [h, if_pos (by simpa using hzero)] at heq
    simp at heq
  · rintro ⟨hnonneg, hne⟩
    rw [nestingFault_of_prefix_nonneg (by simpa using hnonneg), if_neg (by simpa using hne)]

/-! ## Finding calls and groups -/

theorem prefix_nonneg_cons {c : Char} {a : List Char} {d d' : Int} (hd : 0 ≤ d)
    (hstep : ∀ t, d + depth (c :: t) = d' + depth t) (ha : ∀ p, p <+: a → 0 ≤ d' + depth p) :
    ∀ p, p <+: c :: a → 0 ≤ d + depth p :=
  forall_prefix_cons.2 ⟨by simpa using hd, fun t ht => (hstep t) ▸ ha t ht⟩

theorem map_cons_eq_some {c : Char} {o : Option (List Char × List Char)} {a b : List Char}
    (h : o.map (fun (x, y) => (c :: x, y)) = some (a, b)) :
    ∃ a', o = some (a', b) ∧ a = c :: a' := by
  obtain ⟨⟨a', b'⟩, h', h''⟩ := Option.map_eq_some_iff.1 h
  simp only [Prod.mk.injEq] at h''
  obtain ⟨rfl, rfl⟩ := h''
  exact ⟨a', h', rfl⟩

theorem closing_balanced {d : Nat} {s a b : List Char} (h : closing d s = some (a, b)) :
    (∀ p, p <+: a → 0 ≤ (d : Int) + depth p) ∧ (d : Int) + depth a = 0 := by
  induction s generalizing d a b with
  | nil => simp [closing] at h
  | cons c cs ih =>
    unfold closing at h
    split at h
    · rename_i hc
      split at h
      · rename_i hd
        simp only [Option.some.injEq, Prod.mk.injEq] at h
        obtain ⟨rfl, rfl⟩ := h
        refine ⟨fun p hp => ?_, by simp [hd]⟩
        rw [List.prefix_nil.1 hp]
        simp
      · rename_i hd
        obtain ⟨a', h', rfl⟩ := map_cons_eq_some h
        obtain ⟨hpre, hzero⟩ := ih h'
        have hcast : ((d - 1 : Nat) : Int) = d - 1 := by omega
        subst hc
        refine ⟨prefix_nonneg_cons (by omega) (fun t => ?_) hpre, ?_⟩
        · rw [depth_cons_close, hcast]
          omega
        · rw [depth_cons_close]
          omega
    · rename_i hc
      split at h
      · rename_i ho
        obtain ⟨a', h', rfl⟩ := map_cons_eq_some h
        obtain ⟨hpre, hzero⟩ := ih h'
        subst ho
        refine ⟨prefix_nonneg_cons (by omega) (fun t => ?_) hpre, ?_⟩
        · rw [depth_cons_open]
          push_cast
          omega
        · rw [depth_cons_open]
          push_cast at hzero
          omega
      · rename_i ho
        obtain ⟨a', h', rfl⟩ := map_cons_eq_some h
        obtain ⟨hpre, hzero⟩ := ih h'
        refine ⟨prefix_nonneg_cons (by omega) (fun t => ?_) hpre, ?_⟩
        · rw [depth_cons_of_ne ho hc]
        · rw [depth_cons_of_ne ho hc, hzero]

theorem closing_eq_none {d : Nat} {s : List Char} (h : closing d s = none) :
    0 ≤ (d : Int) + depth s := by
  induction s generalizing d with
  | nil => simp
  | cons c cs ih =>
    unfold closing at h
    split at h
    · rename_i hc
      subst hc
      split at h
      · simp at h
      · rename_i hd
        have := ih (Option.map_eq_none_iff.1 h)
        rw [depth_cons_close]
        omega
    · rename_i hc
      split at h
      · rename_i ho
        subst ho
        have := ih (Option.map_eq_none_iff.1 h)
        rw [depth_cons_open]
        push_cast at this
        omega
      · rename_i ho
        rw [depth_cons_of_ne ho hc]
        exact ih (Option.map_eq_none_iff.1 h)

theorem firstCall_closing {s before inner after : List Char}
    (h : firstCall s = .at before inner after) : ∃ t, closing 0 t = some (inner, after) := by
  induction s generalizing before inner after with
  | nil => simp [firstCall] at h
  | cons c rest ih =>
    unfold firstCall at h
    split at h
    · split at h
      · rename_i inner' after' hc
        simp only [Found.at.injEq] at h
        obtain ⟨rfl, rfl, rfl⟩ := h
        exact ⟨_, hc⟩
      · simp at h
    · split at h
      · rename_i b i a hr
        simp only [Found.at.injEq] at h
        obtain ⟨rfl, rfl, rfl⟩ := h
        exact ih hr
      · simp_all

theorem firstCall_spec {s before inner after : List Char}
    (h : firstCall s = .at before inner after) :
    s = before ++ callName ++ inner ++ ')' :: after ∧ Balanced inner := by
  obtain ⟨t, ht⟩ := firstCall_closing h
  obtain ⟨hpre, hzero⟩ := closing_balanced ht
  exact ⟨firstCall_eq h, ⟨by simpa using hpre, by simpa using hzero⟩⟩

theorem firstCall_unclosed {s : List Char} (h : firstCall s = .unclosed) :
    ∃ before rest, s = before ++ callName ++ rest ∧ closing 0 rest = none := by
  induction s with
  | nil => simp [firstCall] at h
  | cons c rest ih =>
    unfold firstCall at h
    split at h
    · rename_i hpre
      split at h
      · simp at h
      · rename_i hc
        refine ⟨[], (c :: rest).drop 4, ?_, hc⟩
        have hsplit := List.prefix_iff_eq_append.1 (List.isPrefixOf_iff_prefix.1 hpre)
        have hlen : callName.length = 4 := rfl
        rw [hlen] at hsplit
        rw [List.nil_append, hsplit]
    · split at h
      · simp at h
      · obtain ⟨before, more, hs, hc⟩ := ih h
        exact ⟨c :: before, more, by simp [hs], hc⟩

theorem lastOpen_eq_none {s : List Char} (h : lastOpen s = none) : '(' ∉ s := by
  induction s with
  | nil => simp
  | cons c cs ih =>
    unfold lastOpen at h
    split at h
    · simp at h
    · rename_i hnone
      split at h
      · simp at h
      · rename_i hc
        simp only [List.mem_cons, not_or]
        exact ⟨Ne.symm hc, ih hnone⟩

theorem lastOpen_spec {s a b : List Char} (h : lastOpen s = some (a, b)) : '(' ∉ b := by
  induction s generalizing a b with
  | nil => simp [lastOpen] at h
  | cons c cs ih =>
    unfold lastOpen at h
    split at h
    · rename_i a' b' h'
      simp only [Option.some.injEq, Prod.mk.injEq] at h
      obtain ⟨rfl, rfl⟩ := h
      exact ih h'
    · rename_i hnone
      split at h
      · simp only [Option.some.injEq, Prod.mk.injEq] at h
        obtain ⟨rfl, rfl⟩ := h
        exact lastOpen_eq_none hnone
      · simp at h

theorem firstClose_eq_none {s : List Char} (h : firstClose s = none) : ')' ∉ s := by
  induction s with
  | nil => simp
  | cons c cs ih =>
    unfold firstClose at h
    split at h
    · simp at h
    · rename_i hc
      simp only [List.mem_cons, not_or]
      exact ⟨Ne.symm hc, ih (Option.map_eq_none_iff.1 h)⟩

theorem firstClose_spec {s a b : List Char} (h : firstClose s = some (a, b)) : ')' ∉ a := by
  induction s generalizing a b with
  | nil => simp [firstClose] at h
  | cons c cs ih =>
    unfold firstClose at h
    split at h
    · simp only [Option.some.injEq, Prod.mk.injEq] at h
      obtain ⟨rfl, rfl⟩ := h
      simp
    · rename_i hc
      obtain ⟨a', h', rfl⟩ := map_cons_eq_some h
      simp only [List.mem_cons, not_or]
      exact ⟨Ne.symm hc, ih h'⟩

theorem innermostGroup_spec {s before inner after : List Char}
    (h : innermostGroup s = .at before inner after) :
    s = before ++ '(' :: inner ++ ')' :: after ∧ NoParens inner := by
  refine ⟨innermostGroup_eq h, ?_⟩
  unfold innermostGroup at h
  split at h
  · simp at h
  · rename_i b r hopen
    split at h
    · simp at h
    · rename_i i a hclose
      simp only [Found.at.injEq] at h
      obtain ⟨rfl, rfl, rfl⟩ := h
      have hr := firstClose_eq hclose
      refine ⟨fun hm => lastOpen_spec hopen ?_, firstClose_spec hclose⟩
      rw [hr]
      exact List.mem_append_left _ hm

theorem innermostGroup_unclosed {s : List Char} (h : innermostGroup s = .unclosed) :
    ∃ a b, s = a ++ '(' :: b ∧ NoParens b := by
  unfold innermostGroup at h
  split at h
  · simp at h
  · rename_i a b hopen
    split at h
    · rename_i hclose
      exact ⟨a, b, lastOpen_eq hopen, lastOpen_spec hopen, firstClose_eq_none hclose⟩
    · simp at h

theorem innermostGroup_none {s : List Char} (h : innermostGroup s = .none) : '(' ∉ s := by
  unfold innermostGroup at h
  split at h
  · rename_i hopen
    exact lastOpen_eq_none hopen
  · split at h <;> simp at h

theorem Balanced.firstCall_ne_unclosed {s : List Char} (h : Balanced s) :
    firstCall s ≠ .unclosed := by
  intro hfound
  -- the call's `(` is never closed, so the text would end deeper than it starts
  obtain ⟨before, rest, rfl, hc⟩ := firstCall_unclosed hfound
  have hrest := closing_eq_none hc
  have hbefore := h.prefix_nonneg before (by simp [List.append_assoc])
  have hzero := h.depth_eq_zero
  have hname : depth callName = 1 := by decide
  rw [depth_append, depth_append, hname] at hzero
  simp at hrest
  omega

theorem Balanced.innermostGroup_ne_unclosed {s : List Char} (h : Balanced s) :
    innermostGroup s ≠ .unclosed := by
  intro hfound
  obtain ⟨a, b, rfl, hb⟩ := innermostGroup_unclosed hfound
  exact h.not_open_last hb

/-! ## Resolution cannot fail on nesting -/

/-- A value, or a division by zero: all that can come of a formula whose characters and
parentheses have passed the checks. -/
def Settled : Except Error Float → Prop
  | .ok _ => True
  | .error e => e = .divisionByZero

theorem Settled.bind {x : Except Error Float} {f : Float → Except Error Float} (hx : Settled x)
    (hf : ∀ v, Settled (f v)) : Settled (x >>= f) := by
  cases x with
  | error e => exact hx
  | ok v => exact hf v

theorem reduceProducts_error {done ts : List (List Char)} {e : Error}
    (h : reduceProducts done ts = .error e) : e = .divisionByZero := by
  fun_induction reduceProducts done ts with
  | case1 => simp at h
  | case2 => simp at h
  | case3 _ _ _ _ _ _ _ _ _ ih => exact ih h
  | case4 => simpa using h.symm
  | case5 _ _ _ _ _ _ _ _ _ _ _ _ ih => exact ih h
  | case6 _ _ _ _ _ _ _ ih => exact ih h
  | case7 _ _ _ _ _ _ ih => exact ih h
  | case8 _ _ _ ih => exact ih h

theorem evalFlat_settled (s : List Char) : Settled (evalFlat s) := by
  unfold evalFlat
  cases h : reduceProducts [] (tokenize s) with
  | error e => exact reduceProducts_error h
  | ok r => trivial

theorem resolveGroups_settled {s : List Char} (h : Balanced s) : Settled (resolveGroups s) := by
  fun_induction resolveGroups s with
  | case1 s before inner after hfound ih =>
    obtain ⟨hs, hinner⟩ := innermostGroup_spec hfound
    refine Settled.bind (evalFlat_settled inner) fun v => ih v ?_
    subst hs
    exact @Balanced.splice before ['('] inner after _ (by simpa using h) (by simp)
      hinner.depth_eq_zero (noParens_valueText v)
  | case2 s hfound => exact absurd hfound h.innermostGroup_ne_unclosed
  | case3 s hfound hclose =>
    exact absurd hclose (h.noParens (innermostGroup_none hfound)).2
  | case4 s hfound hclose =>
    exact evalFlat_settled s

/-- Resolving the calls and groups of a balanced text fails only on a division by zero. -/
theorem resolve_settled {s : List Char} (h : Balanced s) : Settled (resolve s) := by
  fun_induction resolve s with
  | case1 s before inner after hfound ihInner ih =>
    -- the argument is balanced on its own, and splicing its value keeps the text balanced
    obtain ⟨hs, hinner⟩ := firstCall_spec hfound
    refine Settled.bind (ihInner hinner) fun v => ih v ?_
    subst hs
    exact Balanced.splice (by simpa [List.append_assoc] using h) (by decide)
      hinner.depth_eq_zero (noParens_valueText v.abs)
  | case2 s hfound => exact absurd hfound h.firstCall_ne_unclosed
  | case3 s hfound => exact resolveGroups_settled h

end Backtest.Formula
