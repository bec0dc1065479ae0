import Backtest.Proofs.Formula.Flat
import Backtest.Proofs.Formula.Nesting

/-!
# Resolving calls and groups

On the text of a tree each step of resolution is a step on the tree: the first `abs(` call in the
text is the tree's first `abs` (`firstCall_print`), and once no call is left the last `(` opens the
tree's last group, whose inside is flat (`innermostGroup_print`). Replacing it by the value it
denotes keeps grammar, sign rule and value, so a well-formed, sign-safe tree resolves to its value
(`resolve_print`).
-/

namespace Backtest.Formula

open Backtest.Decimal

variable {n : Float}

/-! ## The characters of a tree's text -/

theorem isNumeral_symbol (op : BinOp) : IsNumeral op.symbol ∨ op.symbol ∈ ['*', '/'] := by
  cases op with
  | add => exact Or.inl (Or.inr (by simp [BinOp.symbol]))
  | sub => exact Or.inl (Or.inr (by simp [BinOp.symbol]))
  | mul => exact Or.inr (by simp [BinOp.symbol])
  | div => exact Or.inr (by simp [BinOp.symbol])

theorem mem_print_of_hasCall {c : Char} :
    ∀ e : Expr, e.hasCall = false → c ∈ e.print (valueText n) →
      IsNumeral c ∨ c ∈ ['*', '/', '(', ')']
  | .lit l, _, h => Or.inl (l.isMagnitudeChar_of_mem_text h).numeral
  | .var, _, h => Or.inl (isNumeral_of_mem_render Layout.plain n c h)
  | .val x, _, h => Or.inl (isNumeral_of_mem_render Layout.plain x c h)
  | .neg f, hc, h => by
    rcases List.mem_cons.1 h with rfl | h
    · exact Or.inl (Or.inr (by simp))
    · exact mem_print_of_hasCall f hc h
  | .bin op a b, hc, h => by
    simp only [Expr.hasCall, Bool.or_eq_false_iff] at hc
    rcases List.mem_append.1 h with h | h
    · exact mem_print_of_hasCall a hc.1 h
    · rcases List.mem_cons.1 h with rfl | h
      · rcases isNumeral_symbol op with h | h
        · exact Or.inl h
        · simp only [List.mem_cons, List.not_mem_nil, or_false] at h
          rcases h with h | h <;> simp [h]
      · exact mem_print_of_hasCall b hc.2 h
  | .group e, hc, h => by
    simp only [Expr.print, List.mem_cons, List.mem_append, List.not_mem_nil, or_false] at h
    rcases h with (rfl | h) | rfl
    · exact Or.inr (by simp)
    · exact mem_print_of_hasCall e hc h
    · exact Or.inr (by simp)
  | .abs _, hc, _ => absurd hc (by simp [Expr.hasCall])

theorem not_mem_print_of_hasCall {e : Expr} (h : e.hasCall = false) :
    'b' ∉ e.print (valueText n) := by
  intro hm
  rcases mem_print_of_hasCall e h hm with hb | hb
  · rcases hb with hb | hb
    · exact absurd hb (by decide)
    · simp at hb
  · simp at hb

theorem not_paren_of_isMagnitudeChar {c : Char} (h : IsMagnitudeChar c) : c ≠ '(' ∧ c ≠ ')' := by
  rcases h with h | h
  · have hc := toNat_of_isDigit h
    exact ⟨fun he => by rw [he] at hc; simp at hc, fun he => by rw [he] at hc; simp at hc⟩
  · simp only [List.mem_cons, List.not_mem_nil, or_false] at h
    rcases h with rfl | rfl | rfl | rfl | rfl <;> decide

theorem noParens_literal (l : Literal) : NoParens l.text :=
  ⟨fun h => (not_paren_of_isMagnitudeChar (l.isMagnitudeChar_of_mem_text h)).1 rfl,
    fun h => (not_paren_of_isMagnitudeChar (l.isMagnitudeChar_of_mem_text h)).2 rfl⟩

theorem noParens_symbol (op : BinOp) : op.symbol ≠ '(' ∧ op.symbol ≠ ')' := by
  cases op <;> decide

theorem noParens_print : ∀ e : Expr, e.Flat → NoParens (e.print (valueText n))
  | .lit l, _ => noParens_literal l
  | .var, _ => noParens_valueText n
  | .val x, _ => noParens_valueText x
  | .neg f, hf => by
    obtain ⟨ho, hc⟩ := noParens_print f hf.neg
    exact ⟨by simp [Expr.print, ho], by simp [Expr.print, hc]⟩
  | .bin op a b, hf => by
    obtain ⟨hao, hac⟩ := noParens_print a hf.left
    obtain ⟨hbo, hbc⟩ := noParens_print b hf.right
    obtain ⟨hso, hsc⟩ := noParens_symbol op
    exact ⟨by simp [Expr.print, hao, hbo, Ne.symm hso], by simp [Expr.print, hac, hbc, Ne.symm hsc]⟩
  | .group _, hf => absurd hf.2 (by simp [Expr.hasGroup])
  | .abs _, hf => absurd hf.1 (by simp [Expr.hasCall])

/-! ## Balance -/

theorem closing_cons_of_ne {c : Char} (ho : c ≠ '(') (hc : c ≠ ')') (d : Nat) (s : List Char) :
    closing d (c :: s) = (closing d s).map fun p => (c :: p.1, p.2) := by
  rw [closing, if_neg hc, if_neg ho]

theorem closing_append_of_noParens {s : List Char} (h : NoParens s) (d : Nat) (t : List Char) :
    closing d (s ++ t) = (closing d t).map fun p => (s ++ p.1, p.2) := by
  induction s with
  | nil => simp
  | cons c cs ih =>
    simp only [NoParens, List.mem_cons, not_or] at h
    rw [List.cons_append, closing_cons_of_ne (Ne.symm h.1.1) (Ne.symm h.2.1),
      ih ⟨h.1.2, h.2.2⟩, Option.map_map]
    rfl

theorem closing_open (d : Nat) (s : List Char) :
    closing d ('(' :: s) = (closing (d + 1) s).map fun p => ('(' :: p.1, p.2) := by
  rw [closing, if_neg (by decide), if_pos rfl]

theorem closing_close (d : Nat) (s : List Char) :
    closing (d + 1) (')' :: s) = (closing d s).map fun p => (')' :: p.1, p.2) := by
  rw [closing, if_pos rfl, if_neg (by omega)]
  rfl

theorem closing_print (e : Expr) (d : Nat) (t : List Char) :
    closing d (e.print (valueText n) ++ t) =
      (closing d t).map fun p => (e.print (valueText n) ++ p.1, p.2) := by
  induction e generalizing d t with
  | lit l => exact closing_append_of_noParens (noParens_literal l) d t
  | var => exact closing_append_of_noParens (noParens_valueText n) d t
  | val x => exact closing_append_of_noParens (noParens_valueText x) d t
  | neg f ih =>
    rw [Expr.print, List.cons_append, closing_cons_of_ne (by decide) (by decide), ih,
      Option.map_map]
    rfl
  | bin op a b iha ihb =>
    obtain ⟨hso, hsc⟩ := noParens_symbol op
    rw [Expr.print, List.append_assoc, List.cons_append, iha, closing_cons_of_ne hso hsc, ihb,
      Option.map_map, Option.map_map]
    simp [Function.comp_def]
  | group e ih =>
    simp only [Expr.print, List.cons_append, List.append_assoc]
    rw [closing_open, ih, closing_close, Option.map_map, Option.map_map]
    simp [Function.comp_def]
  | abs e ih =>
    rw [Expr.print, List.append_assoc, List.append_assoc, List.singleton_append]
    simp only [callName, List.cons_append, List.nil_append]
    rw [closing_cons_of_ne (by decide) (by decide), closing_cons_of_ne (by decide) (by decide),
      closing_cons_of_ne (by decide) (by decide), closing_open, ih, closing_close]
    simp [Function.comp_def]

theorem nestingFault_cons_of_ne {c : Char} (ho : c ≠ '(') (hc : c ≠ ')') (d : Nat)
    (s : List Char) : nestingFault d (c :: s) = nestingFault d s := by
  rw [nestingFault, if_neg ho, if_neg hc]

theorem nestingFault_append_of_noParens {s : List Char} (h : NoParens s) (d : Nat)
    (t : List Char) : nestingFault d (s ++ t) = nestingFault d t := by
  induction s with
  | nil => rfl
  | cons c cs ih =>
    simp only [NoParens, List.mem_cons, not_or] at h
    rw [List.cons_append, nestingFault_cons_of_ne (Ne.symm h.1.1) (Ne.symm h.2.1),
      ih ⟨h.1.2, h.2.2⟩]

theorem nestingFault_print (e : Expr) (d : Nat) (t : List Char) :
    nestingFault d (e.print (valueText n) ++ t) = nestingFault d t := by
  induction e generalizing d t with
  | lit l => exact nestingFault_append_of_noParens (noParens_literal l) d t
  | var => exact nestingFault_append_of_noParens (noParens_valueText n) d t
  | val x => exact nestingFault_append_of_noParens (noParens_valueText x) d t
  | neg f ih => rw [Expr.print, List.cons_append, nestingFault_cons_of_ne (by decide) (by decide), ih]
  | bin op a b iha ihb =>
    obtain ⟨hso, hsc⟩ := noParens_symbol op
    rw [Expr.print, List.append_assoc, List.cons_append, iha, nestingFault_cons_of_ne hso hsc, ihb]
  | group e ih =>
    simp only [Expr.print, List.cons_append, List.append_assoc]
    rw [nestingFault, if_pos rfl, ih, nestingFault, if_neg (by decide), if_pos rfl,
      if_neg (by omega)]
    rfl
  | abs e ih =>
    rw [Expr.print, List.append_assoc, List.append_assoc, List.singleton_append]
    simp only [callName, List.cons_append, List.nil_append]
    rw [nestingFault_cons_of_ne (by decide) (by decide), nestingFault_cons_of_ne (by decide) (by decide),
      nestingFault_cons_of_ne (by decide) (by decide), nestingFault, if_pos rfl, ih, nestingFault,
      if_neg (by decide), if_pos rfl, if_neg (by omega)]
    rfl

/-! ## Where the first call and the last group are found -/

theorem isPrefixOf_callName {x : Char} {s : List Char} (h : s.head? ≠ some 'b') :
    callName.isPrefixOf (x :: s) = false := by
  cases s with
  | nil => simp [callName, List.isPrefixOf]
  | cons y s =>
    have hy : 'b' ≠ y := fun hb => h (by rw [hb]; rfl)
    simp [callName, List.isPrefixOf, hy]

theorem head?_ne_of_not_mem {c : Char} {s : List Char} (h : c ∉ s) : s.head? ≠ some c := by
  cases s with
  | nil => simp
  | cons x s =>
    simp only [List.head?_cons, ne_eq, Option.some.injEq]
    rintro rfl
    exact h List.mem_cons_self

theorem firstCall_of_not_mem {s : List Char} (h : 'b' ∉ s) : firstCall s = .none := by
  induction s with
  | nil => rfl
  | cons x s ih =>
    have hs : 'b' ∉ s := fun hm => h (List.mem_cons_of_mem x hm)
    rw [firstCall, isPrefixOf_callName (head?_ne_of_not_mem hs)]
    simp [ih hs]

theorem firstCall_append {p s before inner after : List Char} (hp : 'b' ∉ p)
    (hs : s.head? = some 'a') (h : firstCall s = .at before inner after) :
    firstCall (p ++ s) = .at (p ++ before) inner after := by
  induction p with
  | nil => exact h
  | cons x p ih =>
    have hp' : 'b' ∉ p := fun hm => hp (List.mem_cons_of_mem x hm)
    have hhead : (p ++ s).head? ≠ some 'b' := by
      cases p with
      | nil => simp [hs]
      | cons y p =>
        simp only [List.cons_append, List.head?_cons, ne_eq, Option.some.injEq]
        exact fun hy => hp' (hy ▸ List.mem_cons_self)
    rw [List.cons_append, firstCall, isPrefixOf_callName hhead]
    simp [ih hp']

theorem firstCall_call (a : Expr) (t : List Char) :
    firstCall (callName ++ a.print (valueText n) ++ ')' :: t) = .at [] (a.print (valueText n)) t := by
  have hclose : closing 0 (a.print (valueText n) ++ ')' :: t) = some (a.print (valueText n), t) := by
    rw [closing_print, closing, if_pos rfl, if_pos rfl]
    simp
  simp only [callName, List.cons_append, List.nil_append, firstCall, List.isPrefixOf,
    BEq.rfl, Bool.and_true, if_true, List.drop_succ_cons, List.drop_zero]
  rw [hclose]

theorem firstCall_fill {c : Ctx} {a : Expr} (hb : 'b' ∉ c.before (valueText n)) :
    firstCall ((c.fill (.abs a)).print (valueText n)) =
      .at (c.before (valueText n)) (a.print (valueText n)) (c.after (valueText n)) := by
  rw [Ctx.print_fill, List.append_assoc, Expr.print, List.append_assoc, List.append_assoc,
    List.singleton_append]
  have h := firstCall_call (n := n) a (c.after (valueText n))
  rw [List.append_assoc] at h
  rw [firstCall_append hb (by simp [callName]) h, List.append_nil]

theorem lastOpen_of_not_mem {s : List Char} (h : '(' ∉ s) : lastOpen s = none := by
  induction s with
  | nil => rfl
  | cons x s ih =>
    simp only [List.mem_cons, not_or] at h
    rw [lastOpen, ih h.2]
    simp [Ne.symm h.1]

theorem lastOpen_append {p t : List Char} (ht : '(' ∉ t) : lastOpen (p ++ '(' :: t) = some (p, t) := by
  induction p with
  | nil => rw [List.nil_append, lastOpen, lastOpen_of_not_mem ht, if_pos rfl]
  | cons x p ih => rw [List.cons_append, lastOpen, ih]

theorem firstClose_append {a b : List Char} (ha : ')' ∉ a) : firstClose (a ++ ')' :: b) = some (a, b) := by
  induction a with
  | nil => rw [List.nil_append, firstClose, if_pos rfl]
  | cons x a ih =>
    simp only [List.mem_cons, not_or] at ha
    rw [List.cons_append, firstClose, if_neg (Ne.symm ha.1), ih ha.2]
    rfl

theorem innermostGroup_fill {c : Ctx} {g : Expr} (hg : g.Flat) (hafter : '(' ∉ c.after (valueText n)) :
    innermostGroup ((c.fill (.group g)).print (valueText n)) =
      .at (c.before (valueText n)) (g.print (valueText n)) (c.after (valueText n)) := by
  obtain ⟨hgo, hgc⟩ := noParens_print (n := n) g hg
  have hrest : '(' ∉ g.print (valueText n) ++ ')' :: c.after (valueText n) := by
    simp [hgo, hafter]
  simp only [Ctx.print_fill, Expr.print, List.append_assoc, List.cons_append, List.nil_append]
  rw [innermostGroup, lastOpen_append hrest]
  simp only
  rw [firstClose_append hgc]

theorem innermostGroup_flat {e : Expr} (h : e.Flat) :
    innermostGroup (e.print (valueText n)) = .none := by
  rw [innermostGroup, lastOpen_of_not_mem (noParens_print e h).1]

/-! ## Calls and groups of a tree -/

theorem symbol_ne_b (op : BinOp) : op.symbol ≠ 'b' := by
  cases op <;> decide

theorem exists_firstCall : ∀ e : Expr, e.hasCall = true →
    ∃ (c : Ctx) (a : Expr), e = c.fill (.abs a) ∧ 'b' ∉ c.before (valueText n)
  | .neg f, h => by
    obtain ⟨c, a, rfl, hb⟩ := exists_firstCall f h
    exact ⟨.neg c, a, rfl, by simp [Ctx.before, hb]⟩
  | .bin op x y, h => by
    cases hx : x.hasCall with
    | true =>
      obtain ⟨c, a, rfl, hb⟩ := exists_firstCall x hx
      exact ⟨.binL op c y, a, rfl, hb⟩
    | false =>
      have hy : y.hasCall = true := by simpa [Expr.hasCall, hx] using h
      obtain ⟨c, a, rfl, hb⟩ := exists_firstCall y hy
      refine ⟨.binR op x c, a, rfl, ?_⟩
      simp [Ctx.before, not_mem_print_of_hasCall hx, hb, Ne.symm (symbol_ne_b op)]
  | .group e, h => by
    obtain ⟨c, a, rfl, hb⟩ := exists_firstCall e h
    exact ⟨.group c, a, rfl, by simp [Ctx.before, hb]⟩
  | .abs a, _ => ⟨.hole, a, rfl, by simp [Ctx.before]⟩
  | .lit _, h | .var, h | .val _, h => absurd h (by simp [Expr.hasCall])

/-- The first call in a tree's text, if any, is the tree's first `abs`. -/
theorem firstCall_print (e : Expr) :
    (e.hasCall = false ∧ firstCall (e.print (valueText n)) = .none) ∨
      ∃ (c : Ctx) (a : Expr), e = c.fill (.abs a) ∧
        firstCall (e.print (valueText n)) =
          .at (c.before (valueText n)) (a.print (valueText n)) (c.after (valueText n)) := by
  cases hc : e.hasCall with
  | false => exact Or.inl ⟨rfl, firstCall_of_not_mem (not_mem_print_of_hasCall hc)⟩
  | true =>
    obtain ⟨c, a, rfl, hb⟩ := exists_firstCall (n := n) _ hc
    exact Or.inr ⟨c, a, rfl, firstCall_fill hb⟩

theorem exists_lastGroup : ∀ e : Expr, e.hasCall = false → e.hasGroup = true →
    ∃ (c : Ctx) (g : Expr), e = c.fill (.group g) ∧ g.Flat ∧ '(' ∉ c.after (valueText n)
  | .neg f, hc, hg => by
    obtain ⟨c, g, rfl, hflat, hafter⟩ := exists_lastGroup f hc hg
    exact ⟨.neg c, g, rfl, hflat, hafter⟩
  | .bin op x y, hc, hg => by
    simp only [Expr.hasCall, Bool.or_eq_false_iff] at hc
    cases hy : y.hasGroup with
    | true =>
      obtain ⟨c, g, rfl, hflat, hafter⟩ := exists_lastGroup y hc.2 hy
      exact ⟨.binR op x c, g, rfl, hflat, hafter⟩
    | false =>
      have hx : x.hasGroup = true := by simpa [Expr.hasGroup, hy] using hg
      obtain ⟨c, g, rfl, hflat, hafter⟩ := exists_lastGroup x hc.1 hx
      refine ⟨.binL op c y, g, rfl, hflat, ?_⟩
      simp [Ctx.after, hafter, Ne.symm (noParens_symbol op).1, (noParens_print y ⟨hc.2, hy⟩).1]
  | .group e, hc, _ => by
    cases he : e.hasGroup with
    | true =>
      obtain ⟨c, g, rfl, hflat, hafter⟩ := exists_lastGroup e hc he
      exact ⟨.group c, g, rfl, hflat, by simp [Ctx.after, hafter]⟩
    | false => exact ⟨.hole, e, rfl, ⟨hc, he⟩, by simp [Ctx.after]⟩
  | .abs _, hc, _ => absurd hc (by simp [Expr.hasCall])
  | .lit _, _, hg | .var, _, hg | .val _, _, hg => absurd hg (by simp [Expr.hasGroup])

/-- The innermost group of the text of a tree without calls, if any, is the tree's last group. -/
theorem innermostGroup_print {e : Expr} (hc : e.hasCall = false) :
    (e.Flat ∧ innermostGroup (e.print (valueText n)) = .none) ∨
      ∃ (c : Ctx) (g : Expr), e = c.fill (.group g) ∧ g.Flat ∧
        innermostGroup (e.print (valueText n)) =
          .at (c.before (valueText n)) (g.print (valueText n)) (c.after (valueText n)) := by
  cases hg : e.hasGroup with
  | false => exact Or.inl ⟨⟨hc, hg⟩, innermostGroup_flat ⟨hc, hg⟩⟩
  | true =>
    obtain ⟨c, g, rfl, hflat, hafter⟩ := exists_lastGroup (n := n) _ hc hg
    exact Or.inr ⟨c, g, rfl, hflat, innermostGroup_fill hflat hafter⟩

/-! ## Resolution follows the tree -/

/-- Resolving the groups of a well-formed, sign-safe tree's text without calls gives the tree's
value. Induction along the resolution: each step replaces the last group by its value. -/
theorem resolveGroups_print (s : List Char) :
    ∀ e : Expr, e.print (valueText n) = s → e.hasCall = false → e.WellFormed → e.SignSafe n →
      resolveGroups s = e.eval n := by
  fun_induction resolveGroups s with
  | case1 s before inner after hfound ih =>
    intro e hs hc hw hss
    subst hs
    rcases innermostGroup_print hc with ⟨-, hnone⟩ | ⟨c, g, rfl, hflat, hgroup⟩
    · rw [hnone] at hfound
      cases hfound
    · rw [hgroup] at hfound
      obtain ⟨rfl, rfl, rfl⟩ := Found.at.inj hfound
      have hgw : (Expr.group g).WellFormed := c.wellFormed_of_fill hw
      have hgs : (Expr.group g).SignSafe n := c.signSafe_of_fill hss
      rw [evalFlat_print hflat hgw hgs]
      cases hv : g.eval n with
      | error err =>
        have hg : (Expr.group g).eval n = .error .divisionByZero := by
          rw [Expr.eval, hv, Expr.eval_error hv]
        rw [c.eval_fill_error hg, Expr.eval_error hv]
        rfl
      | ok v =>
        -- the group's value is spliced in: the same tree with the value in the group's place
        have he : (Expr.group g).eval n = (Expr.val v).eval n := hv
        have hl : (Expr.val v).leadsWithMinus n = true → (Expr.group g).leadsWithMinus n = true := by
          simp [Expr.leadsWithMinus, hv]
        show resolveGroups (c.before (valueText n) ++ valueText v ++ c.after (valueText n)) = _
        rw [ih v (c.fill (.val v)) (by rw [Ctx.print_fill]; rfl) (c.hasCall_fill rfl hc)
          (c.wellFormed_fill (show (Expr.group g).level = (Expr.val v).level from rfl) trivial hw)
          (c.signSafe_fill he hl trivial hss)]
        exact (c.eval_fill_congr he).symm
  | case2 s hfound =>
    intro e hs hc _ _
    subst hs
    rcases innermostGroup_print hc with ⟨-, hnone⟩ | ⟨c, g, rfl, -, hgroup⟩
    · rw [hnone] at hfound
      cases hfound
    · rw [hgroup] at hfound
      cases hfound
  | case3 s hfound hclose =>
    intro e hs hc _ _
    subst hs
    rcases innermostGroup_print hc with ⟨hflat, -⟩ | ⟨c, g, rfl, -, hgroup⟩
    · exact absurd hclose (noParens_print e hflat).2
    · rw [hgroup] at hfound
      cases hfound
  | case4 s hfound _ =>
    intro e hs hc hw hss
    subst hs
    rcases innermostGroup_print hc with ⟨hflat, -⟩ | ⟨c, g, rfl, -, hgroup⟩
    · exact evalFlat_print hflat hw hss
    · rw [hgroup] at hfound
      cases hfound

/-- Resolving the text of a well-formed, sign-safe tree gives the tree's value. Induction along
the resolution: each step replaces the first call by the absolute value of its argument, found
by resolving the argument's text on its own. -/
theorem resolve_print (s : List Char) :
    ∀ e : Expr, e.print (valueText n) = s → e.WellFormed → e.SignSafe n → resolve s = e.eval n := by
  fun_induction resolve s with
  | case1 s before inner after hfound ihInner ih =>
    intro e hs hw hss
    subst hs
    rcases firstCall_print e with ⟨-, hnone⟩ | ⟨c, a, rfl, hcall⟩
    · rw [hnone] at hfound
      cases hfound
    · rw [hcall] at hfound
      obtain ⟨rfl, rfl, rfl⟩ := Found.at.inj hfound
      have haw : (Expr.abs a).WellFormed := c.wellFormed_of_fill hw
      have has : (Expr.abs a).SignSafe n := c.signSafe_of_fill hss
      rw [ihInner a rfl haw has]
      cases hv : a.eval n with
      | error err =>
        have ha : (Expr.abs a).eval n = .error .divisionByZero := by
          rw [Expr.eval, hv, Expr.eval_error hv]
          rfl
        rw [c.eval_fill_error ha, Expr.eval_error hv]
        rfl
      | ok v =>
        -- the call's value is spliced in: the same tree with the absolute value in its place
        have he : (Expr.abs a).eval n = (Expr.val v.abs).eval n := by
          show (a.eval n).map Float.abs = _
          rw [hv]
          rfl
        have hl : (Expr.val v.abs).leadsWithMinus n = true → (Expr.abs a).leadsWithMinus n = true := by
          simp [Expr.leadsWithMinus, writesMinus_abs]
        show resolve (c.before (valueText n) ++ valueText v.abs ++ c.after (valueText n)) = _
        rw [ih v (c.fill (.val v.abs)) (by rw [Ctx.print_fill]; rfl)
          (c.wellFormed_fill (show (Expr.abs a).level = (Expr.val v.abs).level from rfl) trivial hw)
          (c.signSafe_fill he hl trivial hss)]
        exact (c.eval_fill_congr he).symm
  | case2 s hfound =>
    intro e hs _ _
    subst hs
    rcases firstCall_print e with ⟨-, hnone⟩ | ⟨c, a, rfl, hcall⟩
    · rw [hnone] at hfound
      cases hfound
    · rw [hcall] at hfound
      cases hfound
  | case3 s hfound =>
    intro e hs hw hss
    subst hs
    rcases firstCall_print e with ⟨hc, -⟩ | ⟨c, a, rfl, hcall⟩
    · exact resolveGroups_print _ e rfl hc hw hss
    · rw [hcall] at hfound
      cases hfound

end Backtest.Formula
