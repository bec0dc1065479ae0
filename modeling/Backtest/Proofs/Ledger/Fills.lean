import Backtest.Proofs.Ledger.Sizing

/-!
# What an order does to a portfolio

An order makes no trade and leaves the portfolio as it was, or makes one trade at its price and
moves the portfolio by exactly that trade, never selling more shares than were held
(`execute_accounts`). At a positive price the trade is of at least one share on the side the action
trades on, and only a formula that fails at the order's `N` gives the order an error code
(`execute_settles`).
-/

namespace Backtest.Ledger

/-- The cash after a trade: a buy pays its total, a sell receives it. -/
def Trade.settleCash (t : Trade) (cash : Float) : Float :=
  match t.side with
  | .buy => cash - t.total
  | .sell => cash + t.total

/-- The change a trade makes to the share count. -/
def Trade.shareChange (t : Trade) : Int :=
  match t.side with
  | .buy => t.quantity
  | .sell => -(t.quantity : Int)

/-- How an order may leave the portfolio `p` when it executes at `price`: untouched and with no
trade, or moved by exactly the one trade it made at that price. -/
inductive Accounts (p : Portfolio) (price : Float) : Outcome → Prop
  | unfilled {o : Outcome} : o.trade = none → o.portfolio = p → Accounts p price o
  | filled {o : Outcome} {t : Trade} : o.trade = some t → t.price = price → t.date = none →
      o.portfolio.cash = t.settleCash p.cash →
      (o.portfolio.shares : Int) = p.shares + t.shareChange → Accounts p price o

theorem accounts_skip (p : Portfolio) (price : Float) (reason : Reason) :
    Accounts p price (skip p reason) :=
  .unfilled rfl rfl

theorem accounts_fillBuy (q : Nat) (price commission gross : Float) (p : Portfolio) :
    Accounts p price (fillBuy q price commission gross p) := by
  refine .filled rfl rfl rfl rfl ?_
  simp [fillBuy, Trade.shareChange]

theorem accounts_fillSell {q : Nat} {p : Portfolio} (hq : q ≤ p.shares)
    (price commission proceeds : Float) :
    Accounts p price (fillSell q price commission proceeds p) := by
  refine .filled rfl rfl rfl rfl ?_
  simp only [fillSell, Trade.shareChange]
  omega

theorem SizingEnd.accounts {rate price : Float} {p : Portfolio} {side : Option Side} {o : Outcome}
    (h : SizingEnd rate price p side (.ok o)) : Accounts p price o := by
  cases h with
  | skipped _ => exact accounts_skip p price _
  | bought _ _ _ _ => exact accounts_fillBuy _ price _ _ p
  | sold _ hq _ => exact accounts_fillSell hq price _ _

/-- Every action, whatever it is and however it ends, leaves the portfolio untouched or moves it
by exactly the one trade it made at the given price. -/
theorem execute_accounts {rate price derived : Float} {action : Rules.Action} {p : Portfolio}
    {o : Outcome} (h : execute rate action price p derived = .ok o) : Accounts p price o := by
  rcases execute_sizingEnd rate action p derived (execute_price h) with
    ⟨_, _, _, _, -, -, hskip⟩ | hend
  · rw [hskip] at h
    cases h
    exact accounts_skip p price _
  · rw [h] at hend
    exact hend.accounts

/-! ## Orders at a positive price -/

/-- How an executed order leaves the portfolio `p`, for an action that trades on `side`: untouched
and with no trade, or moved by one trade of at least one share at `price` on that side. A buy pays
its total out of the cash; a sell of at most the shares held is paid the notional of its shares
less a commission of `rate` on that notional. -/
inductive Settles (rate price : Float) (p : Portfolio) : Option Side → Outcome → Prop
  | unfilled {side : Option Side} {o : Outcome} : o.trade = none → o.portfolio = p →
      Settles rate price p side o
  | bought {o : Outcome} {t : Trade} : o.trade = some t → t.side = .buy → t.price = price →
      0 < t.quantity → o.portfolio = ⟨p.cash - t.total, p.shares + t.quantity⟩ →
      Settles rate price p (some .buy) o
  | sold {o : Outcome} {t : Trade} : o.trade = some t → t.side = .sell → t.price = price →
      0 < t.quantity → t.quantity ≤ p.shares →
      t.commission = Float.ofNat t.quantity * price * rate →
      t.total = Float.ofNat t.quantity * price - t.commission →
      o.portfolio = ⟨p.cash + t.total, p.shares - t.quantity⟩ →
      Settles rate price p (some .sell) o

/-- The error of an action's formula at `N = derived`, when the action is sized by a formula that
has no value there. -/
def formulaFailure (action : Rules.Action) (derived : Float) : Option Formula.Error :=
  match action with
  | .formula _ _ text =>
    match Formula.evaluate text derived with
    | .error e => some e
    | .ok _ => none
  | _ => none

theorem asFloat_eq_ok {n : Nat} {x : Float} (h : asFloat n = .ok x) : x = Float.ofNat n := by
  unfold asFloat Decimal.ofInt? at h
  dsimp only at h
  split at h
  · rename_i y hy
    split at hy
    · cases hy
    · cases hy
      cases h
      rfl
  · cases h

theorem SizingEnd.settles {rate price : Float} {p : Portfolio} {side : Option Side} {o : Outcome}
    (h : SizingEnd rate price p side (.ok o)) : Settles rate price p side o := by
  cases h with
  | skipped _ => exact .unfilled rfl rfl
  | bought hq _ _ _ => exact .bought rfl rfl rfl hq rfl
  | sold hq hheld hx =>
    -- the commission is charged on the notional of the count written as a float
    obtain rfl := asFloat_eq_ok hx
    exact .sold rfl rfl rfl hq hheld rfl rfl rfl

theorem SizingEnd.code {rate price : Float} {p : Portfolio} {side : Option Side} {o : Outcome}
    (h : SizingEnd rate price p side (.ok o)) : o.reason.code = none := by
  cases h with
  | @skipped _ reason hreason =>
    cases reason with
    | formulaError e => exact absurd rfl (hreason e)
    | _ => rfl
  | bought _ _ _ _ | sold _ _ _ => rfl

theorem execute_of_formulaFailure {rate price derived : Float} {action : Rules.Action}
    {p : Portfolio} {e : Formula.Error} (hprice : ¬ price ≤ 0.0)
    (h : formulaFailure action derived = some e) :
    execute rate action price p derived = .ok (skip p (.formulaError e)) := by
  unfold formulaFailure at h
  split at h
  · rename_i side measure text
    split at h
    · rename_i heval
      cases h
      unfold execute
      rw [if_neg hprice]
      simp only [heval]
      rfl
    · cases h
  · cases h

/-- At a positive price an order fails only on a size fault, never on its formula. Otherwise it
leaves the portfolio untouched with no trade, or makes one trade of at least one share on the
side its action trades on, which moves the portfolio by exactly that trade; a sell is of shares
held and pays the shares' notional less a commission on it. The order carries an error code
exactly when its action is a formula that fails at `N = derived`: that failure's code, with the
reason `Formula error: ` and the failure's message. -/
theorem execute_settles (rate : Float) (action : Rules.Action) {price : Float} (p : Portfolio)
    (derived : Float) (hprice : ¬ price ≤ 0.0) :
    (∀ f, execute rate action price p derived = .error f → SizeFault f) ∧
    ∀ o, execute rate action price p derived = .ok o →
      Settles rate price p action.side? o ∧
      o.reason.code = (formulaFailure action derived).map Formula.Error.code ∧
      ∀ e, formulaFailure action derived = some e →
        o.reason.text = "Formula error: " ++ e.message := by
  refine ⟨fun f hf => ?_, fun o ho => ?_⟩
  · rcases execute_eq_error hf with ⟨hle, -⟩ | ⟨-, hsize⟩
    · exact absurd hle hprice
    · exact hsize
  · cases hfail : formulaFailure action derived with
    | some e =>
      rw [execute_of_formulaFailure hprice hfail] at ho
      cases ho
      refine ⟨.unfilled rfl rfl, rfl, fun e' he' => ?_⟩
      cases he'
      rfl
    | none =>
      -- no formula failed, so the order ended as its sizing did
      rcases execute_sizingEnd rate action p derived hprice with
        ⟨side, measure, text, e, rfl, heval, -⟩ | hend
      · simp [formulaFailure, heval] at hfail
      · rw [ho] at hend
        exact ⟨hend.settles, hend.code, fun e he => by cases he⟩

theorem execute_settles_sellTwo :
    ¬ (10.0 : Float) ≤ 0.0 ∧
      ((∀ f, execute 0.0025 (.shares .sell 2) 10.0 ⟨100.0, 5⟩ 0.0 = .error f → SizeFault f) ∧
      ∀ o, execute 0.0025 (.shares .sell 2) 10.0 ⟨100.0, 5⟩ 0.0 = .ok o →
        Settles 0.0025 10.0 ⟨100.0, 5⟩ (Rules.Action.shares .sell 2).side? o ∧
        o.reason.code = (formulaFailure (.shares .sell 2) 0.0).map Formula.Error.code ∧
        ∀ e, formulaFailure (.shares .sell 2) 0.0 = some e →
          o.reason.text = "Formula error: " ++ e.message) :=
  ⟨by decide, execute_settles 0.0025 (.shares .sell 2) ⟨100.0, 5⟩ 0.0 (by decide)⟩

end Backtest.Ledger
