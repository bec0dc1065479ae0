import Backtest.Proofs.Formula.Grammar

/-!
# Flat chains

A tree with no group and no call prints as a flat chain, which `evalFlat` evaluates to the tree's
value under the sign rule (`evalFlat_print`). The tokens are the factors' texts with the operators
between them (`tokenize_print`), each factor's text reads as its value (`readChars_factor`), the
products pass leaves one token per term (`productsTo_tokens`), and the sums pass adds them left to
right (`sumsTo_tokens`).
-/

namespace Backtest.Formula

open Backtest.Decimal

/-! ## Flat trees -/

namespace Expr

/-- A tree with no group and no call: its text is a flat chain. -/
def Flat (e : Expr) : Prop :=
  e.hasCall = false ∧ e.hasGroup = false

theorem Flat.neg {f : Expr} (h : (Expr.neg f).Flat) : f.Flat := h

theorem Flat.left {op : BinOp} {a b : Expr} (h : (Expr.bin op a b).Flat) : a.Flat := by
  simp only [Flat, hasCall, hasGroup, Bool.or_eq_false_iff] at h
  exact ⟨h.1.1, h.2.1⟩

theorem Flat.right {op : BinOp} {a b : Expr} (h : (Expr.bin op a b).Flat) : b.Flat := by
  simp only [Flat, hasCall, hasGroup, Bool.or_eq_false_iff] at h
  exact ⟨h.1.2, h.2.2⟩

/-- The tokens of a flat tree: its factors' texts with the operators between them. -/
def tokens (N : List Char) : Expr → List (List Char)
  | .bin op a b => a.tokens N ++ [op.symbol] :: b.tokens N
  | e => [e.print N]

theorem level_le_two (e : Expr) : e.level ≤ 2 := by
  cases e with
  | bin op _ _ => cases op <;> simp [level, BinOp.level]
  | _ => simp [level]

theorem tokens_of_level {e : Expr} {N : List Char} (h : e.level = 2) :
    e.tokens N = [e.print N] := by
  cases e with
  | bin op _ _ => cases op <;> simp [level, BinOp.level] at h
  | _ => rfl

end Expr

/-! ## Cutting the text into tokens -/

theorem isOperator_symbol (op : BinOp) : isOperator op.symbol = true := by
  cases op <;> rfl

theorem opensOperand_symbol (op : BinOp) : opensOperand op.symbol = true := by
  cases op <;> rfl

theorem opensOperand_of_isMagnitudeChar {c : Char} (h : IsMagnitudeChar c) :
    opensOperand c = false := by
  rcases h with h | h
  · have hc := toNat_of_isDigit h
    simp only [opensOperand, isOperator, Bool.or_eq_false_iff, decide_eq_false_iff_not]
    repeat' constructor
    all_goals
      intro heq
      rw [heq] at hc
      simp at hc
  · simp only [List.mem_cons, List.not_mem_nil, or_false] at h
    rcases h with rfl | rfl | rfl | rfl | rfl <;> rfl

/-- The text `s` is one token wherever an operand opens: the tokenizer collects all of it and
cuts after it at the next operator. -/
def OneToken (s : List Char) : Prop :=
  ∀ prev, prev.all opensOperand = true → ∀ pending,
    tokenizeFrom prev pending s = [pending ++ s] ∧
      ∀ op rest, isOperator op = true →
        tokenizeFrom prev pending (s ++ op :: rest) =
          (pending ++ s) :: [op] :: tokenizeFrom (some op) [] rest

theorem oneToken_run {body : List Char} (hne : body ≠ [])
    (hb : ∀ c ∈ body, opensOperand c = false) : OneToken body := by
  rintro prev - pending
  induction body generalizing prev pending with
  | nil => exact absurd rfl hne
  | cons c cs ih =>
    have hc := hb c (by simp)
    have hcut : cutsAt prev c = false := by
      simp only [opensOperand, Bool.or_eq_false_iff] at hc
      simp [cutsAt, hc.2]
    cases cs with
    | nil =>
      refine ⟨by simp [tokenizeFrom, hcut], fun op rest hop => ?_⟩
      have hcut' : cutsAt (some c) op = true := by simp [cutsAt, hop, hc]
      simp [tokenizeFrom, hcut, hcut']
    | cons d ds =>
      obtain ⟨h₁, h₂⟩ := ih (by simp) (fun x hx => hb x (List.mem_cons_of_mem c hx)) (some c)
        (pending ++ [c])
      refine ⟨?_, fun op rest hop => ?_⟩
      · rw [tokenizeFrom, if_neg (by simp [hcut]), h₁]
        simp
      · rw [List.cons_append, tokenizeFrom, if_neg (by simp [hcut]), h₂ op rest hop]
        simp

theorem tokenizeFrom_minus {prev : Option Char} (h : prev.all opensOperand = true)
    (pending rest : List Char) :
    tokenizeFrom prev pending ('-' :: rest) = tokenizeFrom (some '-') (pending ++ ['-']) rest := by
  have hcut : cutsAt prev '-' = false := by simp [cutsAt, h]
  rw [tokenizeFrom, if_neg (by simp [hcut])]

theorem OneToken.minus {s : List Char} (h : OneToken s) : OneToken ('-' :: s) := by
  intro prev hprev pending
  obtain ⟨h₁, h₂⟩ := h (some '-') rfl (pending ++ ['-'])
  refine ⟨?_, fun op rest hop => ?_⟩
  · rw [tokenizeFrom_minus hprev, h₁]
    simp
  · rw [List.cons_append, tokenizeFrom_minus hprev, h₂ op rest hop]
    simp

theorem oneToken_valueText (x : Float) : OneToken (valueText x) := by
  obtain ⟨body, hne, hmag, htext | htext, -⟩ := plainText_sign x
  · rw [valueText, htext]
    exact oneToken_run hne (fun c hc => opensOperand_of_isMagnitudeChar (hmag c hc))
  · rw [valueText, htext]
    exact (oneToken_run hne (fun c hc => opensOperand_of_isMagnitudeChar (hmag c hc))).minus

theorem oneToken_factor (n : Float) :
    ∀ f : Expr, f.Flat → f.WellFormed → f.level = 2 → OneToken (f.print (valueText n))
  | .lit l, _, _, _ =>
    oneToken_run l.text_ne_nil
      (fun c hc => opensOperand_of_isMagnitudeChar (l.isMagnitudeChar_of_mem_text hc))
  | .var, _, _, _ => oneToken_valueText n
  | .val x, _, _, _ => oneToken_valueText x
  | .neg f, hf, ⟨hl, hw⟩, _ => (oneToken_factor n f hf.neg hw hl).minus
  | .group _, hf, _, _ => absurd hf.2 (by simp [Expr.hasGroup])
  | .abs _, hf, _, _ => absurd hf.1 (by simp [Expr.hasCall])
  | .bin op _ _, _, _, hl => absurd hl (by cases op <;> simp [Expr.level, BinOp.level])

theorem tokenizeFrom_print {n : Float} :
    ∀ e : Expr, e.Flat → e.WellFormed → ∀ prev, prev.all opensOperand = true →
      tokenizeFrom prev [] (e.print (valueText n)) = e.tokens (valueText n) ∧
        ∀ op rest, isOperator op = true →
          tokenizeFrom prev [] (e.print (valueText n) ++ op :: rest) =
            e.tokens (valueText n) ++ [op] :: tokenizeFrom (some op) [] rest
  | .bin op a b, hf, ⟨_, _, ha, hb⟩, prev, hprev => by
    -- the text of `a`, the operator, then the text of `b` seen from just after the operator
    obtain ⟨-, ha₂⟩ := tokenizeFrom_print a hf.left ha prev hprev
    obtain ⟨hb₁, hb₂⟩ := tokenizeFrom_print b hf.right hb (some op.symbol) (opensOperand_symbol op)
    refine ⟨?_, fun op' rest hop => ?_⟩
    · rw [Expr.print, ha₂ op.symbol _ (isOperator_symbol op), hb₁]
      rfl
    · rw [Expr.print, List.append_assoc, List.cons_append, ha₂ op.symbol _ (isOperator_symbol op),
        hb₂ op' rest hop]
      simp [Expr.tokens]
  | .lit l, hf, hw, prev, hprev => by
    simpa [Expr.tokens] using oneToken_factor n (.lit l) hf hw rfl prev hprev []
  | .var, hf, hw, prev, hprev => by
    simpa [Expr.tokens] using oneToken_factor n .var hf hw rfl prev hprev []
  | .val x, hf, hw, prev, hprev => by
    simpa [Expr.tokens] using oneToken_factor n (.val x) hf hw rfl prev hprev []
  | .neg f, hf, hw, prev, hprev => by
    simpa [Expr.tokens] using oneToken_factor n (.neg f) hf hw rfl prev hprev []
  | .group e, hf, _, _, _ => absurd hf.2 (by simp [Expr.hasGroup])
  | .abs e, hf, _, _, _ => absurd hf.1 (by simp [Expr.hasCall])

/-- The tokens of a flat tree's text. -/
theorem tokenize_print {n : Float} {e : Expr} (hf : e.Flat) (hw : e.WellFormed) :
    tokenize (e.print (valueText n)) = e.tokens (valueText n) :=
  (tokenizeFrom_print e hf hw none rfl).1

/-! ## Reading a factor -/

theorem eval_factor {n : Float} :
    ∀ f : Expr, f.Flat → f.WellFormed → f.level = 2 → ∃ v, f.eval n = .ok v
  | .lit l, _, _, _ => ⟨l.value, rfl⟩
  | .var, _, _, _ => ⟨n, rfl⟩
  | .val x, _, _, _ => ⟨x, rfl⟩
  | .neg f, hf, ⟨hl, hw⟩, _ => by
    obtain ⟨v, hv⟩ := eval_factor f hf.neg hw hl
    exact ⟨-v, by rw [Expr.eval, hv]; rfl⟩
  | .group _, hf, _, _ => absurd hf.2 (by simp [Expr.hasGroup])
  | .abs _, hf, _, _ => absurd hf.1 (by simp [Expr.hasCall])
  | .bin op _ _, _, _, hl => absurd hl (by cases op <;> simp [Expr.level, BinOp.level])

theorem head_ne_minus_of_writesMinus {x : Float} (h : writesMinus x = false) :
    (plainText x).toList.head? ≠ some '-' := by
  simpa [writesMinus, valueText] using h

/-- A factor of a flat tree reads as its value, a unary minus included: the sign rule leaves at
most one minus sign in front. -/
theorem readChars_factor {n : Float} :
    ∀ f : Expr, f.Flat → f.WellFormed → f.level = 2 → f.SignSafe n →
      ∀ v, f.eval n = .ok v → readChars? (f.print (valueText n)) = some v
  | .lit l, _, _, _, _, v, hv => by
    rw [← Except.ok.inj hv]
    exact l.readChars_text
  | .var, _, _, _, _, v, hv => by
    rw [← Except.ok.inj hv]
    exact readChars_plainText n
  | .val x, _, _, _, _, v, hv => by
    rw [← Except.ok.inj hv]
    exact readChars_plainText x
  | .neg f, hf, ⟨hl, _⟩, _, ⟨hm, _⟩, v, hv => by
    -- the operand carries no sign of its own, so the one minus sign reads as negation
    cases f with
    | lit l =>
      rw [← Except.ok.inj hv]
      exact l.readChars_neg_text
    | var =>
      rw [← Except.ok.inj hv]
      exact readChars_neg_plainText n (head_ne_minus_of_writesMinus hm)
    | val x =>
      rw [← Except.ok.inj hv]
      exact readChars_neg_plainText x (head_ne_minus_of_writesMinus hm)
    | neg _ => exact absurd hm (by simp [Expr.leadsWithMinus])
    | group _ => exact absurd hf.2 (by simp [Expr.hasGroup])
    | abs _ => exact absurd hf.1 (by simp [Expr.hasCall])
    | bin op _ _ => exact absurd hl (by cases op <;> simp [Expr.level, BinOp.level])
  | .group _, hf, _, _, _, _, _ => absurd hf.2 (by simp [Expr.hasGroup])
  | .abs _, hf, _, _, _, _, _ => absurd hf.1 (by simp [Expr.hasCall])
  | .bin op _ _, _, _, hl, _, _, _ => absurd hl (by cases op <;> simp [Expr.level, BinOp.level])

/-! ## The products pass -/

theorem reduceProducts_pass {t : List Char} (ht : ¬(t = ['*'] ∨ t = ['/']))
    (done rest : List (List Char)) :
    reduceProducts done (t :: rest) = reduceProducts (t :: done) rest := by
  cases rest with
  | nil => rw [reduceProducts, reduceProducts]
  | cons r after =>
    cases done with
    | nil => rw [reduceProducts]
    | cons l before => rw [reduceProducts, if_neg ht]

theorem not_product_of_readChars {t : List Char} {v : Float} (h : readChars? t = some v) :
    ¬(t = ['*'] ∨ t = ['/']) := by
  rintro (rfl | rfl) <;> cases h

theorem reduceProducts_apply {op : BinOp} (hop : op.level = 1) {l r : List Char} {a b : Float}
    (hl : tokenValue? l = some a) (hr : tokenValue? r = some b) (before after : List (List Char)) :
    reduceProducts (l :: before) ([op.symbol] :: r :: after) =
      op.apply a b >>= fun v => reduceProducts (valueText v :: before) after := by
  rw [reduceProducts]
  cases op with
  | mul => simp [BinOp.symbol, BinOp.apply, hl, hr]; rfl
  | div =>
    simp only [BinOp.symbol, BinOp.apply, hl, hr, List.cons.injEq, and_true, or_true, if_true]
    rw [if_neg (by decide : ¬('/' : Char) = '*')]
    split <;> rfl
  | _ => cases hop

/-- How the products pass treats the tokens of a product of value `r`: it fails as `r` fails, or
replaces them by one token that reads as `r`'s value, whatever surrounds them. -/
def ProductsTo (ts : List (List Char)) : Except Error Float → Prop
  | .error err => ∀ done rest, reduceProducts done (ts ++ rest) = .error err
  | .ok v => ∃ tok, tokenValue? tok = some v ∧
      ∀ done rest, reduceProducts done (ts ++ rest) = reduceProducts (tok :: done) rest

/-- The products pass reduces the tokens of a product to its value. Induction on the product,
whose left operand is a product again and whose right operand is a factor. -/
theorem productsTo_tokens {n : Float} :
    ∀ e : Expr, e.Flat → e.WellFormed → 1 ≤ e.level → e.SignSafe n →
      ProductsTo (e.tokens (valueText n)) (e.eval n)
  | .bin op a b, hf, ⟨hla, hlb, ha, hb⟩, hl, ⟨sa, sb⟩ => by
    have hop : op.level = 1 := by
      cases op <;> simp_all [Expr.level, BinOp.level]
    have hbl : b.level = 2 := by
      have := b.level_le_two
      omega
    obtain ⟨vb, hvb⟩ := eval_factor b hf.right hb hbl
    have hrb := readChars_factor b hf.right hb hbl sb vb hvb
    have hbtok : b.tokens (valueText n) = [b.print (valueText n)] := Expr.tokens_of_level hbl
    have iha := productsTo_tokens a hf.left ha (hop ▸ hla) sa
    cases hva : a.eval n with
    | error err =>
      rw [hva] at iha
      rw [Expr.eval_bin_error_left hva]
      intro done rest
      rw [Expr.tokens, List.append_assoc, iha]
    | ok va =>
      rw [hva] at iha
      obtain ⟨tok, htok, hred⟩ := iha
      have hstep : ∀ done rest, reduceProducts done (Expr.tokens (valueText n) (.bin op a b) ++ rest)
          = op.apply va vb >>= fun v => reduceProducts (valueText v :: done) rest := by
        intro done rest
        rw [Expr.tokens, hbtok, List.append_assoc, List.cons_append, List.singleton_append, hred,
          reduceProducts_apply hop htok hrb]
      simp only [Expr.eval, hva, hvb, bind, Except.bind]
      cases happ : op.apply va vb with
      | error err =>
        intro done rest
        rw [hstep, happ]
        rfl
      | ok v =>
        refine ⟨valueText v, readChars_plainText v, fun done rest => ?_⟩
        rw [hstep, happ]
        rfl
  | .lit l, hf, hw, _, hs => productsTo_factor (.lit l) hf hw rfl hs
  | .var, hf, hw, _, hs => productsTo_factor .var hf hw rfl hs
  | .val x, hf, hw, _, hs => productsTo_factor (.val x) hf hw rfl hs
  | .neg f, hf, hw, _, hs => productsTo_factor (.neg f) hf hw rfl hs
  | .group _, hf, _, _, _ => absurd hf.2 (by simp [Expr.hasGroup])
  | .abs _, hf, _, _, _ => absurd hf.1 (by simp [Expr.hasCall])
where
  /-- A factor is one token that reads as its value. -/
  productsTo_factor (f : Expr) (hf : f.Flat) (hw : f.WellFormed) (hl : f.level = 2)
      (hs : f.SignSafe n) : ProductsTo (f.tokens (valueText n)) (f.eval n) := by
    obtain ⟨v, hv⟩ := eval_factor f hf hw hl
    have hr := readChars_factor f hf hw hl hs v hv
    rw [hv, Expr.tokens_of_level hl]
    exact ⟨_, hr, fun done rest => reduceProducts_pass (not_product_of_readChars hr) done rest⟩

/-! ## The sums pass -/

theorem sumTerms_append : ∀ (total : Float) (xs ys : List (List Char)), xs.length % 2 = 0 →
    sumTerms total (xs ++ ys) = sumTerms (sumTerms total xs) ys
  | _, [], _, _ => rfl
  | _, [_], _, h => by simp at h
  | total, op :: operand :: rest, ys, h => by
    have ih : ∀ t, sumTerms t (rest ++ ys) = sumTerms (sumTerms t rest) ys :=
      fun t => sumTerms_append t rest ys (by simp at h; omega)
    simp only [List.cons_append, sumTerms]
    cases tokenValue? operand with
    | none => exact ih total
    | some v => split_ifs <;> exact ih _

theorem sumChain_append {out : List (List Char)} (h : out.length % 2 = 1) (op tok : List Char) :
    sumChain (out ++ [op, tok]) = sumTerms (sumChain out) [op, tok] := by
  cases out with
  | nil => simp at h
  | cons first steps =>
    simp only [List.cons_append, sumChain]
    exact sumTerms_append _ steps [op, tok] (by simp at h; omega)

theorem sumTerms_step {op : BinOp} (hop : op.level = 0) {tok : List Char} {v : Float}
    (h : tokenValue? tok = some v) (total : Float) :
    op.apply total v = .ok (sumTerms total [[op.symbol], tok]) := by
  cases op with
  | add => simp [BinOp.apply, BinOp.symbol, sumTerms, h]
  | sub => simp [BinOp.apply, BinOp.symbol, sumTerms, h]
  | _ => cases hop

/-- The tokens that may follow a sum: none, or an operator other than `*` and `/`. -/
def FollowsSum (rest : List (List Char)) : Prop :=
  ∀ t ∈ rest.head?, ¬(t = ['*'] ∨ t = ['/'])

theorem followsSum_symbol {op : BinOp} (hop : op.level = 0) (rest : List (List Char)) :
    FollowsSum ([op.symbol] :: rest) := by
  cases op with
  | add => simp [FollowsSum, BinOp.symbol]
  | sub => simp [FollowsSum, BinOp.symbol]
  | _ => cases hop

/-- How the products pass treats the tokens of a sum of value `r`: it fails as `r` fails, or
leaves terms alternating with `+` and `-` whose sum is `r`'s value. -/
def SumsTo (ts : List (List Char)) : Except Error Float → Prop
  | .error err => ∀ done rest, FollowsSum rest → reduceProducts done (ts ++ rest) = .error err
  | .ok v => ∃ out, out.length % 2 = 1 ∧ sumChain out = v ∧
      ∀ done rest, FollowsSum rest →
        reduceProducts done (ts ++ rest) = reduceProducts (out.reverse ++ done) rest

theorem ProductsTo.sumsTo {ts : List (List Char)} {r : Except Error Float} (h : ProductsTo ts r) :
    SumsTo ts r := by
  cases r with
  | error err => exact fun done rest _ => h done rest
  | ok v =>
    obtain ⟨tok, htok, hred⟩ := h
    refine ⟨[tok], rfl, ?_, fun done rest _ => hred done rest⟩
    rw [sumChain, htok]
    rfl

/-- The products pass leaves of a sum's tokens a chain whose sum is the sum's value. Induction on
the sum, whose left operand is a sum again and whose right operand is a product. -/
theorem sumsTo_tokens {n : Float} :
    ∀ e : Expr, e.Flat → e.WellFormed → e.SignSafe n → SumsTo (e.tokens (valueText n)) (e.eval n)
  | .bin op a b, hf, hw, hs => by
    obtain ⟨hla, hlb, ha, hb⟩ := hw
    by_cases hop : op.level = 0
    · have iha := sumsTo_tokens a hf.left ha hs.1
      have ihb := productsTo_tokens b hf.right hb (by omega) hs.2
      have htok : ∀ rest, Expr.tokens (valueText n) (.bin op a b) ++ rest =
          a.tokens (valueText n) ++ [op.symbol] :: (b.tokens (valueText n) ++ rest) := by
        intro rest
        rw [Expr.tokens, List.append_assoc, List.cons_append]
      cases hva : a.eval n with
      | error err =>
        rw [hva] at iha
        rw [Expr.eval_bin_error_left hva]
        intro done rest _
        rw [htok, iha done _ (followsSum_symbol hop _)]
      | ok va =>
        rw [hva] at iha
        obtain ⟨out, hodd, hsum, hred⟩ := iha
        -- after the left operand's chain, the operator is passed over and the term reduced
        have hpass : ∀ done rest, reduceProducts done (Expr.tokens (valueText n) (.bin op a b) ++ rest)
            = reduceProducts ([op.symbol] :: (out.reverse ++ done)) (b.tokens (valueText n) ++ rest) := by
          intro done rest
          rw [htok, hred done _ (followsSum_symbol hop _)]
          exact reduceProducts_pass (followsSum_symbol hop [] _ rfl) _ _
        cases hvb : b.eval n with
        | error err =>
          rw [hvb] at ihb
          rw [Expr.eval_bin_error_right hva hvb]
          intro done rest _
          rw [hpass, ihb]
        | ok vb =>
          rw [hvb] at ihb
          obtain ⟨tok, htokv, hredb⟩ := ihb
          have he : (Expr.bin op a b).eval n = .ok (sumTerms va [[op.symbol], tok]) := by
            rw [Expr.eval, hva, hvb]
            exact sumTerms_step hop htokv va
          rw [he]
          refine ⟨out ++ [[op.symbol], tok], by simp; omega, ?_, fun done rest _ => ?_⟩
          · rw [sumChain_append hodd, hsum]
          · rw [hpass, hredb]
            simp
    · exact (productsTo_tokens (.bin op a b) hf ⟨hla, hlb, ha, hb⟩
        (by cases op <;> simp_all [Expr.level, BinOp.level]) hs).sumsTo
  | .lit l, hf, hw, hs => (productsTo_tokens (.lit l) hf hw (by simp [Expr.level]) hs).sumsTo
  | .var, hf, hw, hs => (productsTo_tokens .var hf hw (by simp [Expr.level]) hs).sumsTo
  | .val x, hf, hw, hs => (productsTo_tokens (.val x) hf hw (by simp [Expr.level]) hs).sumsTo
  | .neg f, hf, hw, hs => (productsTo_tokens (.neg f) hf hw (by simp [Expr.level]) hs).sumsTo
  | .group _, hf, _, _ => absurd hf.2 (by simp [Expr.hasGroup])
  | .abs _, hf, _, _ => absurd hf.1 (by simp [Expr.hasCall])

/-- A flat chain evaluates to the value of its tree, or fails as the tree does. -/
theorem evalFlat_print {n : Float} {e : Expr} (hf : e.Flat) (hw : e.WellFormed)
    (hs : e.SignSafe n) : evalFlat (e.print (valueText n)) = e.eval n := by
  have h := sumsTo_tokens e hf hw hs
  have hend : FollowsSum [] := by simp [FollowsSum]
  unfold evalFlat
  rw [tokenize_print hf hw]
  cases he : e.eval n with
  | error err =>
    rw [he] at h
    have hred := h [] [] hend
    rw [List.append_nil] at hred
    rw [hred]
    rfl
  | ok v =>
    rw [he] at h
    obtain ⟨out, -, hsum, hred⟩ := h
    have hred' := hred [] [] hend
    rw [List.append_nil, List.append_nil, reduceProducts, List.reverse_reverse] at hred'
    rw [hred', ← hsum]
    rfl

end Backtest.Formula
