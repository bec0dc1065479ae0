import Backtest.Ledger.Execute

/-!
# How an order ends

Sizing an order ends in one of four ways (`SizingEnd`): skipped with the portfolio untouched, a buy
of at least one share whose total is not above the cash, a sell of at most the shares held, or a
size fault from rounding an infinite or NaN size or from a share count too large for a float
(`SizeFault`). `execute` adds a price that is not positive, which fails every action, and a formula
without a value, which skips it (`execute_sizingEnd`); so an order fails only on its price or a size
fault (`execute_eq_error`).
-/

namespace Backtest

theorem ok_of_bind_eq_ok {ε α β : Type} {x : Except ε α} {f : α → Except ε β} {b : β}
    (h : x >>= f = .ok b) : ∃ a, x = .ok a ∧ f a = .ok b := by
  cases x with
  | error e => cases h
  | ok a => exact ⟨a, rfl, h⟩

theorem eq_ok_of_mapError_eq_ok {ε ε' α : Type} {f : ε → ε'} {x : Except ε α} {a : α}
    (h : x.mapError f = .ok a) : x = .ok a := by
  cases x with
  | error e => cases h
  | ok b => cases h; rfl

theorem bind_eq_error {ε α β : Type} {x : Except ε α} {f : α → Except ε β} {e : ε}
    (h : x >>= f = .error e) : x = .error e ∨ ∃ a, x = .ok a ∧ f a = .error e := by
  cases x with
  | error e' =>
    cases h
    exact .inl rfl
  | ok a => exact .inr ⟨a, rfl, h⟩

theorem mapError_eq_error {ε ε' α : Type} {g : ε → ε'} {x : Except ε α} {e' : ε'}
    (h : x.mapError g = .error e') : ∃ e, x = .error e ∧ g e = e' := by
  cases x with
  | error e =>
    cases h
    exact ⟨e, rfl, rfl⟩
  | ok a => cases h

/-- The side an action trades on: the buy kinds buy, the sell kinds and selling everything sell,
and holding trades on neither. -/
def Rules.Action.side? : Rules.Action → Option Ledger.Side
  | .percent side _ | .amount side _ | .shares side _ | .formula side _ _ => some side
  | .sellAll => some .sell
  | .hold => none

namespace Ledger

open Backtest.Rules

/-- The faults of turning a size into a share count or a share count into a float: rounding an
infinite or NaN size down, or a count too large for a float. -/
inductive SizeFault : Fault → Prop
  | floor (e : Decimal.FloorError) : SizeFault (Document.Value.floorFault e)
  | tooLarge : SizeFault Fault.tooLargeForFloat

theorem SizeFault.ne_integrity {f : Fault} (h : SizeFault f) (kind : Integrity) (message : String) :
    f ≠ .integrity kind message := by
  cases h with
  | floor e => cases e <;> intro h <;> cases h
  | tooLarge => intro h; cases h

theorem floorOf_error {x : Float} {f : Fault} (h : floorOf x = .error f) : SizeFault f := by
  obtain ⟨e, -, rfl⟩ := mapError_eq_error h
  exact .floor e

theorem asFloat_error {n : Nat} {f : Fault} (h : asFloat n = .error f) : SizeFault f := by
  unfold asFloat at h
  split at h
  · cases h
  · cases h
    exact .tooLarge

/-- The fault of trading at a price that is not positive. -/
def tradeFault (price : Float) : Fault :=
  .integrity .nonPositivePrice ("Cannot trade at non-positive price " ++ Decimal.shortText price)

/-- The ways sizing an order at `price` against the portfolio `p` ends, for an action that trades
on `side` (none for holding). -/
inductive SizingEnd (rate price : Float) (p : Portfolio) : Option Side → Except Fault Outcome → Prop
  /-- Skipped for a reason other than a formula error, the portfolio untouched. -/
  | skipped {side : Option Side} {reason : Reason} : (∀ e, reason ≠ .formulaError e) →
      SizingEnd rate price p side (.ok (skip p reason))
  /-- A buy of `q` shares, `x` as a float, with its commission on `base`: a positive amount to
  spend, or the shares' notional. Its total is not above the cash. -/
  | bought {q : Nat} {x base : Float} : 0 < q → asFloat q = .ok x →
      (0.0 < base ∨ base = x * price) → ¬ p.cash < x * price + base * rate →
      SizingEnd rate price p (some .buy)
        (.ok (fillBuy q price (base * rate) (x * price + base * rate) p))
  /-- A sell of `q` of the shares held, `x` as a float, for their notional less its commission. -/
  | sold {q : Nat} {x : Float} : 0 < q → q ≤ p.shares → asFloat q = .ok x →
      SizingEnd rate price p (some .sell)
        (.ok (fillSell q price (x * price * rate) (x * price - x * price * rate) p))
  | failed {side : Option Side} {f : Fault} : SizeFault f → SizingEnd rate price p side (.error f)

/-- A step that fails only with a size fault, followed by sizing, sizes. -/
theorem SizingEnd.bind {rate price : Float} {p : Portfolio} {side : Option Side} {α : Type}
    {x : Except Fault α} {g : α → Except Fault Outcome} (hx : ∀ f, x = .error f → SizeFault f)
    (hg : ∀ a, x = .ok a → SizingEnd rate price p side (g a)) :
    SizingEnd rate price p side (x >>= g) := by
  cases x with
  | error f => exact .failed (hx f rfl)
  | ok a => exact hg a rfl

theorem buyNotional_sizingEnd (rate notional price : Float) (p : Portfolio) :
    SizingEnd rate price p (some .buy) (buyNotional rate notional price p) := by
  unfold buyNotional
  dsimp only
  split
  · rename_i hpos
    refine SizingEnd.bind (fun _ => floorOf_error) fun quantity _ => ?_
    split
    · exact .skipped nofun
    · rename_i hquantity
      refine SizingEnd.bind (fun _ => asFloat_error) fun x hx => ?_
      split
      · exact .skipped nofun
      · rename_i hcash
        exact .bought (by omega) hx (.inl hpos) hcash
  · -- no positive amount, no shares
    rw [pure_bind, if_pos (Int.le_refl 0)]
    exact .skipped nofun

theorem buyQuantity_sizingEnd (rate : Float) (quantity : Int) (price : Float) (p : Portfolio) :
    SizingEnd rate price p (some .buy) (buyQuantity rate quantity price p) := by
  unfold buyQuantity
  dsimp only
  split
  · exact .skipped nofun
  · rename_i hquantity
    refine SizingEnd.bind (fun _ => asFloat_error) fun x hx => ?_
    split
    · exact .skipped nofun
    · rename_i hcash
      exact .bought (by omega) hx (.inr rfl) hcash

theorem sellQuantity_sizingEnd (rate : Float) (quantity : Int) (price : Float) (p : Portfolio) :
    SizingEnd rate price p (some .sell) (sellQuantity rate quantity price p) := by
  unfold sellQuantity
  dsimp only
  split
  · exact .skipped nofun
  · rename_i hpos
    split
    · exact .skipped nofun
    · rename_i hheld
      refine SizingEnd.bind (fun _ => asFloat_error) fun x hx => ?_
      -- the count is positive and at most the shares held
      exact .sold (by omega) (by omega) hx

theorem floorSell_sizingEnd (rate size price : Float) (p : Portfolio) :
    SizingEnd rate price p (some .sell) (do sellQuantity rate (← floorOf size) price p) :=
  SizingEnd.bind (fun _ => floorOf_error) fun n _ => sellQuantity_sizingEnd rate n price p

theorem sized_sizingEnd (rate : Float) (side : Side) (measure : Measure) (v price : Float)
    (p : Portfolio) : SizingEnd rate price p (some side) (sized rate side measure v price p) := by
  unfold sized
  split
  · exact buyNotional_sizingEnd rate v price p
  · exact SizingEnd.bind (fun _ => floorOf_error) fun n _ => buyQuantity_sizingEnd rate n price p
  · exact buyNotional_sizingEnd rate _ price p
  · exact floorSell_sizingEnd rate _ price p
  · exact floorSell_sizingEnd rate v price p
  · exact SizingEnd.bind (fun _ => asFloat_error) fun _ _ => floorSell_sizingEnd rate _ price p

theorem execute_of_le {rate price derived : Float} {action : Action} {p : Portfolio}
    (hle : price ≤ 0.0) : execute rate action price p derived = .error (tradeFault price) := by
  unfold execute
  rw [if_pos hle]
  rfl

/-- At a positive price, an action is skipped with its formula's error when it is a formula
without a value at `N = derived`, and sizes otherwise. -/
theorem execute_sizingEnd (rate : Float) (action : Action) {price : Float} (p : Portfolio)
    (derived : Float) (hpos : ¬ price ≤ 0.0) :
    (∃ side measure text e, action = .formula side measure text ∧
        Formula.evaluate text derived = .error e ∧
        execute rate action price p derived = .ok (skip p (.formulaError e))) ∨
      SizingEnd rate price p action.side? (execute rate action price p derived) := by
  unfold execute
  rw [if_neg hpos]
  dsimp only
  split
  · exact .inr (.skipped nofun)
  · exact .inr (buyNotional_sizingEnd rate _ price p)
  · exact .inr (buyNotional_sizingEnd rate _ price p)
  · exact .inr (buyQuantity_sizingEnd rate _ price p)
  · exact .inr (sellQuantity_sizingEnd rate _ price p)
  · exact .inr (SizingEnd.bind (fun _ => asFloat_error) fun _ _ =>
      floorSell_sizingEnd rate _ price p)
  · exact .inr (floorSell_sizingEnd rate _ price p)
  · exact .inr (sellQuantity_sizingEnd rate _ price p)
  · rename_i side measure text
    split
    · rename_i e heval
      exact .inl ⟨side, measure, text, e, rfl, heval, rfl⟩
    · split
      · exact .inr (.skipped nofun)
      · exact .inr (sized_sizingEnd rate side measure _ price p)

theorem execute_price {rate price derived : Float} {action : Action} {p : Portfolio}
    {o : Outcome} (h : execute rate action price p derived = .ok o) : ¬ price ≤ 0.0 := by
  intro hle
  rw [execute_of_le hle] at h
  cases h

/-- An order fails on a price that is not positive, whatever its action, and otherwise only on
a size fault. -/
theorem execute_eq_error {rate price derived : Float} {action : Action} {p : Portfolio}
    {f : Fault} (h : execute rate action price p derived = .error f) :
    (price ≤ 0.0 ∧ f = tradeFault price) ∨ (¬ price ≤ 0.0 ∧ SizeFault f) := by
  by_cases hle : price ≤ 0.0
  · rw [execute_of_le hle] at h
    cases h
    exact .inl ⟨hle, rfl⟩
  · rcases execute_sizingEnd rate action p derived hle with ⟨_, _, _, _, -, -, hskip⟩ | hend
    · rw [hskip] at h
      cases h
    · rw [h] at hend
      generalize action.side? = side at hend
      cases hend with
      | failed hf => exact .inr ⟨hle, hf⟩

/-- An order is skipped for a formula error only when its action is a formula and the formula,
evaluated at the order's `N`, fails with that error. -/
theorem execute_formulaError {rate price derived : Float} {action : Action} {p : Portfolio}
    {o : Outcome} {e : Formula.Error} (h : execute rate action price p derived = .ok o)
    (he : o.reason = .formulaError e) :
    ∃ side measure text, action = .formula side measure text ∧
      Formula.evaluate text derived = .error e := by
  rcases execute_sizingEnd rate action p derived (execute_price h) with
    ⟨side, measure, text, e', haction, heval, hskip⟩ | hend
  · rw [hskip] at h
    cases h
    cases he
    exact ⟨side, measure, text, haction, heval⟩
  · rw [h] at hend
    generalize action.side? = side at hend
    cases hend with
    | skipped hreason => exact absurd he (hreason e)
    | bought _ _ _ _ | sold _ _ _ => cases he

end Ledger

end Backtest
