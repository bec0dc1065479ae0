import Backtest.Proofs.Binary64.Decode
import Backtest.Proofs.Simulation.Accounting

/-!
# Cash is never overdrawn while totals are finite

Every filled order is covered by the cash it was made against (`execute_covered`), but the guards
are float comparisons, and a NaN total passes them all: a buy whose notional overflows, at a zero
rate, costs `∞ * 0`. Along a covered ledger from a non-negative number the cash is never negative,
and it is a non-negative number exactly while every total so far is finite
(`CoveredFrom.zero_le_cashAfter_iff`); a run keeps every trade covered, so this holds of its final
cash and of every valuation point (`Simulation.simulate_solvent`).
-/

namespace Backtest.Ledger

open Backtest.Rules

/-! ## Covered trades -/

/-- A trade made against `cash`: its total is not negative, a buy's total is not above the cash,
and a sell's total is not infinite. A NaN total passes all three. -/
structure Trade.Covered (t : Trade) (cash : Float) : Prop where
  total_not_neg : ¬ t.total < 0.0
  buy_not_above : t.side = .buy → ¬ cash < t.total
  sell_not_inf : t.side = .sell → t.total.isInf = false

theorem Trade.Covered.setDate {t : Trade} {cash : Float} (h : t.Covered cash)
    (d : Option Calendar.Date) : ({ t with date := d }).Covered cash :=
  ⟨h.total_not_neg, h.buy_not_above, h.sell_not_inf⟩

theorem covered_skip (p : Portfolio) (reason : Reason) :
    ∀ t ∈ (skip p reason).trade, t.Covered p.cash := by
  intro t ht
  cases ht

theorem covered_fillBuy (q : Nat) (price commission : Float) {gross : Float} {p : Portfolio}
    (hg : ¬ gross < 0.0) (hc : ¬ p.cash < gross) :
    ∀ t ∈ (fillBuy q price commission gross p).trade, t.Covered p.cash := by
  intro t ht
  cases ht
  exact ⟨hg, fun _ => hc, fun hs => (by cases hs)⟩

theorem covered_fillSell (q : Nat) (price commission : Float) {proceeds : Float} {p : Portfolio}
    (hg : ¬ proceeds < 0.0) (hi : proceeds.isInf = false) :
    ∀ t ∈ (fillSell q price commission proceeds p).trade, t.Covered p.cash := by
  intro t ht
  cases ht
  exact ⟨hg, fun hs => (by cases hs), fun _ => hi⟩

theorem asFloat_not_neg {q : Nat} {x : Float} (h : asFloat q = .ok x) : ¬ x < 0.0 := by
  rw [asFloat_eq_ok h]
  exact Float.not_lt_zero_of_zero_le (Float.zero_le_ofNat q)

/-- A notional that is not negative, less its commission at a rate in `[0, 1)`, is not negative
and not infinite. An infinite notional leaves NaN: `∞ - ∞`, or `∞ - NaN` at a zero rate. -/
theorem proceeds_covered {n rate : Float} (hn : ¬ n < 0.0) (hr : 0.0 ≤ rate) (hr1 : rate < 1.0) :
    ¬ n - n * rate < 0.0 ∧ (n - n * rate).isInf = false := by
  cases hf : n.isFinite with
  | true =>
    have hn' : 0.0 ≤ n := Float.zero_le_of_not_lt_zero hn (Float.isNaN_eq_false_of_isFinite hf)
    obtain ⟨hc, hle, hcf⟩ := Float.mul_le_of_lt_one hn' hf hr hr1
    exact ⟨Float.not_lt_zero_of_zero_le (Float.zero_le_sub_of_le hle hcf),
      Float.isInf_eq_false_of_isFinite (Float.sub_isFinite_of_le hf hc hcf hle)⟩
  | false =>
    have hnan : (n - n * rate).isNaN = true := by
      rcases Float.isNaN_or_inf_of_not_isFinite hn hf with hnan | hinf
      · exact Float.isNaN_sub_left _ hnan
      · rcases Float.inf_mul_of_not_lt_zero hinf (Float.not_lt_zero_of_zero_le hr) with hc | hc
        · exact Float.isNaN_sub_right _ hc
        · exact Float.isNaN_sub_of_inf hinf hc
    exact ⟨Float.not_lt_zero_of_isNaN hnan, Float.isInf_eq_false_of_isNaN hnan⟩

/-! ## Every order is covered -/

theorem SizingEnd.covered {rate price : Float} {p : Portfolio} {side : Option Side} {o : Outcome}
    (hr : 0.0 ≤ rate) (hr1 : rate < 1.0) (hprice : ¬ price < 0.0)
    (h : SizingEnd rate price p side (.ok o)) :
    ∀ t ∈ o.trade, t.Covered p.cash := by
  cases h with
  | skipped _ => exact covered_skip p _
  | @bought q x base _ hx hbase hcash =>
    have hn : ¬ x * price < 0.0 := Float.not_lt_zero_mul (asFloat_not_neg hx) hprice
    -- the commission is charged on a positive amount or on the notional
    have hb : ¬ base < 0.0 := by
      rcases hbase with hpos | rfl
      · exact Float.not_lt_of_lt hpos
      · exact hn
    have hcomm : ¬ base * rate < 0.0 := Float.not_lt_zero_mul hb (Float.not_lt_zero_of_zero_le hr)
    exact covered_fillBuy q price _ (Float.not_lt_zero_add hn hcomm) hcash
  | @sold q x _ _ hx =>
    obtain ⟨hneg, hinf⟩ :=
      proceeds_covered (Float.not_lt_zero_mul (asFloat_not_neg hx) hprice) hr hr1
    exact covered_fillSell q price _ hneg hinf

/-- Every trade an order makes, at a commission rate in `[0, 1)`, is covered by the cash it was
made against, whatever the action, the price and the formula variable. -/
theorem execute_covered {rate price derived : Float} {action : Action} {p : Portfolio}
    {o : Outcome} (hr : 0.0 ≤ rate) (hr1 : rate < 1.0)
    (h : execute rate action price p derived = .ok o) : ∀ t ∈ o.trade, t.Covered p.cash := by
  have hpos := execute_price h
  -- a price that passes the guard is positive or NaN
  have hprice : ¬ price < 0.0 := fun hlt => hpos (Float.le_of_lt hlt)
  rcases execute_sizingEnd rate action p derived hpos with ⟨_, _, _, _, -, -, hskip⟩ | hend
  · rw [hskip] at h
    cases h
    exact covered_skip p _
  · rw [h] at hend
    exact hend.covered hr hr1 hprice

/-! ## Cash after one covered trade -/

section Settle

variable {t : Trade} {cash : Float}

theorem Trade.Covered.zero_le_settleCash (h : t.Covered cash) (hc : 0.0 ≤ cash)
    (ht : t.total.isFinite = true) : 0.0 ≤ t.settleCash cash := by
  have htotal : 0.0 ≤ t.total :=
    Float.zero_le_of_not_lt_zero h.total_not_neg (Float.isNaN_eq_false_of_isFinite ht)
  unfold Trade.settleCash
  cases hs : t.side with
  | buy =>
    have hle : t.total ≤ cash := Float.le_of_not_lt (h.buy_not_above hs)
      (Float.isNaN_eq_false_of_zero_le hc) (Float.isNaN_eq_false_of_isFinite ht)
    exact Float.zero_le_sub_of_le hle ht
  | sell => exact Float.zero_le_add hc htotal

theorem Trade.Covered.settleCash_isNaN (h : t.Covered cash) (hc : 0.0 ≤ cash)
    (ht : t.total.isFinite = false) : (t.settleCash cash).isNaN = true := by
  unfold Trade.settleCash
  rcases Float.isNaN_or_inf_of_not_isFinite h.total_not_neg ht with hnan | hinf
  · cases t.side
    · exact Float.isNaN_sub_right _ hnan
    · exact Float.isNaN_add_right _ hnan
  · cases hs : t.side with
    | buy =>
      -- the guard let an infinite total through, so the cash was infinite too
      have hnum : t.total.isNaN = false := by
        rw [Bool.eq_false_iff, ne_eq, Float.isNaN_iff, hinf]
        simp
      have hle := Float.le_of_not_lt (h.buy_not_above hs) (Float.isNaN_eq_false_of_zero_le hc) hnum
      exact Float.isNaN_sub_of_inf (Float.eq_inf_of_inf_le hinf hle) hinf
    | sell =>
      have hfin := h.sell_not_inf hs
      rw [Bool.eq_false_iff, ne_eq, Float.isInf_iff] at hfin
      exact absurd ⟨_, hinf⟩ hfin

theorem settleCash_isNaN_of_isNaN (t : Trade) (h : cash.isNaN = true) :
    (t.settleCash cash).isNaN = true := by
  unfold Trade.settleCash
  cases t.side
  · exact Float.isNaN_sub_left _ h
  · exact Float.isNaN_add_left _ h

end Settle

/-! ## Cash along a covered ledger -/

/-- Every trade of a ledger covered by the cash before it, from `cash` on. -/
def CoveredFrom : Float → List Trade → Prop
  | _, [] => True
  | cash, t :: ts => t.Covered cash ∧ CoveredFrom (t.settleCash cash) ts

@[simp] theorem coveredFrom_nil (cash : Float) : CoveredFrom cash [] := trivial

@[simp] theorem coveredFrom_cons (cash : Float) (t : Trade) (ts : List Trade) :
    CoveredFrom cash (t :: ts) ↔ t.Covered cash ∧ CoveredFrom (t.settleCash cash) ts :=
  Iff.rfl

@[simp] theorem cashAfter_cons (cash : Float) (t : Trade) (ts : List Trade) :
    cashAfter cash (t :: ts) = cashAfter (t.settleCash cash) ts := rfl

theorem coveredFrom_append {cash : Float} {a b : List Trade} :
    CoveredFrom cash (a ++ b) ↔ CoveredFrom cash a ∧ CoveredFrom (cashAfter cash a) b := by
  induction a generalizing cash with
  | nil => simp
  | cons t ts ih => simp [ih, and_assoc]

theorem CoveredFrom.of_prefix {cash : Float} {pre trades : List Trade}
    (h : CoveredFrom cash trades) (hpre : pre <+: trades) : CoveredFrom cash pre := by
  obtain ⟨post, rfl⟩ := hpre
  exact (coveredFrom_append.1 h).1

theorem cashAfter_isNaN_of_isNaN {cash : Float} (h : cash.isNaN = true) (ts : List Trade) :
    (cashAfter cash ts).isNaN = true := by
  induction ts generalizing cash with
  | nil => exact h
  | cons t ts ih => exact ih (settleCash_isNaN_of_isNaN t h)

theorem CoveredFrom.zero_le_cashAfter :
    ∀ {cash : Float} {ts : List Trade}, CoveredFrom cash ts → 0.0 ≤ cash →
      (∀ t ∈ ts, t.total.isFinite = true) → 0.0 ≤ cashAfter cash ts
  | _, [], _, hc, _ => hc
  | _, t :: _, ⟨ht, hts⟩, hc, hfin =>
    hts.zero_le_cashAfter (ht.zero_le_settleCash hc (hfin t List.mem_cons_self))
      fun u hu => hfin u (List.mem_cons_of_mem t hu)

theorem CoveredFrom.cashAfter_isNaN :
    ∀ {cash : Float} {ts : List Trade}, CoveredFrom cash ts → 0.0 ≤ cash →
      (∃ t ∈ ts, t.total.isFinite = false) → (cashAfter cash ts).isNaN = true
  | _, [], _, _, ⟨_, hu, _⟩ => absurd hu List.not_mem_nil
  | _, t :: ts, ⟨ht, hts⟩, hc, ⟨u, hu, hfin⟩ => by
    cases hft : t.total.isFinite with
    | false => exact cashAfter_isNaN_of_isNaN (ht.settleCash_isNaN hc hft) ts
    | true =>
      -- the first trade keeps the cash a number; the trade that is not finite comes later
      rcases List.mem_cons.1 hu with hut | hu
      · rw [hut, hft] at hfin
        cases hfin
      · exact hts.cashAfter_isNaN (ht.zero_le_settleCash hc hft) ⟨u, hu, hfin⟩

section Ledger

variable {cash : Float} {ts : List Trade}

/-- Along a covered ledger from a non-negative number, the cash is a non-negative number exactly
while every total is finite. -/
theorem CoveredFrom.zero_le_cashAfter_iff (h : CoveredFrom cash ts) (hc : 0.0 ≤ cash) :
    0.0 ≤ cashAfter cash ts ↔ ∀ t ∈ ts, t.total.isFinite = true := by
  refine ⟨fun hle t ht => ?_, h.zero_le_cashAfter hc⟩
  cases hf : t.total.isFinite with
  | true => rfl
  | false =>
    have hnan := h.cashAfter_isNaN hc ⟨t, ht, hf⟩
    rw [Float.isNaN_eq_false_of_zero_le hle] at hnan
    cases hnan

theorem CoveredFrom.not_cashAfter_lt_zero (h : CoveredFrom cash ts) (hc : 0.0 ≤ cash) :
    ¬ cashAfter cash ts < 0.0 := by
  by_cases hall : ∀ t ∈ ts, t.total.isFinite = true
  · exact Float.not_lt_zero_of_zero_le (h.zero_le_cashAfter hc hall)
  · simp only [not_forall, Bool.not_eq_true] at hall
    obtain ⟨t, ht, hf⟩ := hall
    exact Float.not_lt_zero_of_isNaN (h.cashAfter_isNaN hc ⟨t, ht, hf⟩)

/-- A buy in a covered ledger from a non-negative number cost at most the cash before it exactly
when its total is not NaN and every total before it was finite. -/
theorem CoveredFrom.buy_le_iff {pre post : List Trade} {t : Trade}
    (h : CoveredFrom cash (pre ++ t :: post)) (hc : 0.0 ≤ cash) (hs : t.side = .buy) :
    t.total ≤ cashAfter cash pre ↔ t.total.isNaN = false ∧ ∀ u ∈ pre, u.total.isFinite = true := by
  obtain ⟨hpre, ht, -⟩ := coveredFrom_append.1 h
  constructor
  · intro hle
    obtain ⟨htn, hcn⟩ := Float.isNaN_eq_false_of_le hle
    -- the cash before is a number, so it is at least zero
    have hnum : 0.0 ≤ cashAfter cash pre :=
      Float.zero_le_of_not_lt_zero (hpre.not_cashAfter_lt_zero hc) hcn
    exact ⟨htn, (hpre.zero_le_cashAfter_iff hc).1 hnum⟩
  · rintro ⟨htn, hfin⟩
    have hnum := hpre.zero_le_cashAfter hc hfin
    exact Float.le_of_not_lt (ht.buy_not_above hs) (Float.isNaN_eq_false_of_zero_le hnum) htn

end Ledger

/-- One order on a portfolio whose cash is a non-negative number, at a rate in `[0, 1)`: the cash
after it is never negative, and it is a non-negative number exactly when the order made no trade
or one with a finite total. -/
theorem execute_cash {rate price derived : Float} {action : Action} {p : Portfolio} {o : Outcome}
    (hr : 0.0 ≤ rate) (hr1 : rate < 1.0) (hc : 0.0 ≤ p.cash)
    (h : execute rate action price p derived = .ok o) :
    ¬ o.portfolio.cash < 0.0 ∧ (0.0 ≤ o.portfolio.cash ↔ ∀ t ∈ o.trade, t.total.isFinite = true) := by
  have hcov := execute_covered hr hr1 h
  cases execute_accounts h with
  | unfilled htrade hport =>
    rw [hport, htrade]
    exact ⟨Float.not_lt_zero_of_zero_le hc, by simp [hc]⟩
  | @filled t htrade _ _ hcash _ =>
    -- the one trade is a covered ledger of its own
    have hl : CoveredFrom p.cash [t] := (coveredFrom_cons _ _ _).2 ⟨hcov t htrade, trivial⟩
    rw [hcash, ← cashAfter_singleton, htrade]
    refine ⟨hl.not_cashAfter_lt_zero hc, (hl.zero_le_cashAfter_iff hc).trans ?_⟩
    simp

/-- Two shares at `1e308` from 100 in cash with no commission: the notional overflows, the
commission is `∞ * 0`, and the order is filled with a NaN total, leaving NaN cash. -/
example :
    (execute 0.0 (.shares .buy 2) 1e308 ⟨100.0, 0⟩ 0.0).toOption.map
        (fun o => (o.executed, o.portfolio.cash.isNaN, o.trade.map (·.total.isNaN))) =
      some (true, true, some true) := by
  decide +kernel

end Backtest.Ledger

namespace Backtest.Simulation

open Backtest.Ledger Backtest.Market Backtest.Rules

/-! ## Runs -/

theorem checkRate_ok {rate rate' : Float} (h : checkRate rate = .ok rate') :
    rate' = rate ∧ 0.0 ≤ rate ∧ rate < 1.0 := by
  unfold checkRate at h
  split at h
  · rename_i hin
    cases h
    simp only [Bool.and_eq_true, decide_eq_true_eq] at hin
    exact ⟨rfl, hin⟩
  · cases h

theorem applyRules_invariant {rate : Float} {current previous : Observation} (P : State → Prop)
    (hrule : ∀ position rule st st',
      applyRule rate current previous position rule st = .ok st' → P st → P st') :
    ∀ (rules : List Rule) (position : Nat) (st st' : State),
      applyRules rate current previous position rules st = .ok st' → P st → P st'
  | [], _, st, st', h, hp => by
    cases h
    exact hp
  | rule :: rest, position, st, st', h, hp => by
    obtain ⟨st₁, h₁, h⟩ := ok_of_bind_eq_ok h
    exact applyRules_invariant P hrule rest (position + 1) st₁ st' h (hrule position rule st st₁ h₁ hp)

/-- A property of states that every rule application and every close of a step keep holds after
a run. -/
theorem runSteps_invariant {rate : Float} {rules : List Rule} {total : Nat} (P : State → Prop)
    (hrule : ∀ current previous position rule st st',
      applyRule rate current previous position rule st = .ok st' → P st → P st')
    (hclose : ∀ st point step, P st → P (st.close point step total)) :
    ∀ (obs : List Observation) (step : Nat) (previous : Observation) (st st' : State),
      runSteps rate rules total step previous obs st = .ok st' → P st → P st'
  | [], _, _, st, st', h, hp => by
    cases h
    exact hp
  | o :: rest, step, previous, st, st', h, hp => by
    obtain ⟨st₁, h₁, h⟩ := ok_of_bind_eq_ok h
    obtain ⟨value, -, h⟩ := ok_of_bind_eq_ok h
    have hp₁ := applyRules_invariant P (hrule o previous) rules 0 st st₁ h₁ hp
    exact runSteps_invariant P hrule hclose rest (step + 1) o _ st' h (hclose st₁ _ step hp₁)

/-- A run's state is solvent from `initial`: its ledger accounts for its portfolio, and every
trade was covered by the cash before it. -/
structure Solvent (initial : Portfolio) (st : State) : Prop where
  ledger : Ledger initial st
  covered : CoveredFrom initial.cash st.trades

theorem Solvent.close {initial : Portfolio} {st : State} (h : Solvent initial st)
    (point : Valuation) (step total : Nat) : Solvent initial (st.close point step total) :=
  ⟨ledger_close h.ledger point step total, h.covered⟩

theorem applyRule_solvent {rate : Float} (hr : 0.0 ≤ rate) (hr1 : rate < 1.0)
    {current previous : Observation} {position : Nat} {rule : Rule} {st st' : State}
    {initial : Portfolio} (h : applyRule rate current previous position rule st = .ok st')
    (hs : Solvent initial st) : Solvent initial st' := by
  refine ⟨(applyRule_step initial h).ledger hs.ledger, ?_⟩
  rcases applyRule_eq_ok h with rfl | ⟨derived, o, ho, rfl⟩
  · exact hs.covered
  · have hcov := execute_covered hr hr1 ho
    rw [State.record_trades]
    cases htrade : o.trade with
    | none => simpa using hs.covered
    | some t =>
      -- the trade, dated by the step, was covered by the cash the ledger leaves
      rw [Option.map_some, Option.toList_some, coveredFrom_append, ← hs.ledger.cash_eq]
      exact ⟨hs.covered, (coveredFrom_cons _ _ _).2 ⟨(hcov t htrade).setDate _, trivial⟩⟩

theorem filter_datedBy_eq_takeWhile (d : Calendar.Date) :
    ∀ {trades : List Trade}, trades.Pairwise DatedInOrder →
      trades.filter (·.datedBy d) = trades.takeWhile (·.datedBy d)
  | [], _ => rfl
  | t :: ts, h => by
    rw [List.pairwise_cons] at h
    by_cases ht : t.datedBy d = true
    · rw [@List.filter_cons_of_pos _ (·.datedBy d) t ts ht,
        @List.takeWhile_cons_of_pos _ (·.datedBy d) t ts ht, filter_datedBy_eq_takeWhile d h.2]
    · -- `t` is dated after `d`, and so is every later trade
      rw [@List.filter_cons_of_neg _ (·.datedBy d) t ts ht,
        @List.takeWhile_cons_of_neg _ (·.datedBy d) t ts ht, List.filter_eq_nil_iff]
      intro b hb hbd
      obtain ⟨da, db, hda, hdb, hle⟩ := h.1 b hb
      simp only [Trade.datedBy, hda, hdb, decide_eq_true_eq] at ht hbd
      exact ht (Calendar.Date.le_trans hle hbd)

theorem pointMatches_of_mem {initial : Portfolio} {trades : List Trade} {points : List Valuation}
    {obs : List Observation} (h : List.Forall₂ (PointMatches initial trades) points obs) :
    ∀ v ∈ points, ∃ o, PointMatches initial trades v o := by
  induction h with
  | nil => simp
  | cons hv _ ih =>
    intro v' hv'
    rcases List.mem_cons.1 hv' with rfl | hv'
    · exact ⟨_, hv⟩
    · exact ih v' hv'

theorem PointMatches.solvent {initial : Portfolio} {trades : List Trade} {v : Valuation}
    {o : Observation} (hv : PointMatches initial trades v o) (hpair : trades.Pairwise DatedInOrder)
    (hcov : CoveredFrom initial.cash trades) (hcash : 0.0 ≤ initial.cash) :
    ¬ v.cash < 0.0 ∧
      (0.0 ≤ v.cash ↔ ∀ t ∈ trades, t.datedBy v.date = true → t.total.isFinite = true) := by
  -- the trades dated by the point are a prefix of the ledger
  have hpre : CoveredFrom initial.cash (trades.filter (·.datedBy o.date)) := by
    rw [filter_datedBy_eq_takeWhile o.date hpair]
    exact hcov.of_prefix (List.takeWhile_prefix _)
  rw [hv.cash_eq, hv.date_eq]
  refine ⟨hpre.not_cashAfter_lt_zero hcash, (hpre.zero_le_cashAfter_iff hcash).trans ?_⟩
  simp [List.mem_filter]

/-- A completed run from a portfolio whose cash is a non-negative number never has negative cash:
not at the end, not at any valuation point. Its cash is a non-negative number exactly while every
trade total so far is finite, and NaN otherwise; and a buy cost at most the cash before it exactly
when its total is not NaN and every total before it was finite. -/
theorem simulate_solvent {rate : Float} {series : List Observation} {rules : List Rule}
    {initial : Portfolio} {r : Result} (h : (simulate rate series rules initial).outcome = .ok r)
    (hcash : 0.0 ≤ initial.cash) :
    (¬ r.finalPortfolio.cash < 0.0 ∧
      (0.0 ≤ r.finalPortfolio.cash ↔ ∀ t ∈ r.trades, t.total.isFinite = true)) ∧
    (∀ v ∈ r.valuation, ¬ v.cash < 0.0 ∧
      (0.0 ≤ v.cash ↔ ∀ t ∈ r.trades, t.datedBy v.date = true → t.total.isFinite = true)) ∧
    (∀ pre t post, r.trades = pre ++ t :: post → t.side = .buy →
      (t.total ≤ cashAfter initial.cash pre ↔
        t.total.isNaN = false ∧ ∀ u ∈ pre, u.total.isFinite = true)) := by
  obtain ⟨rate', j, hrate, hreplay⟩ := simulate_ok h
  obtain ⟨rfl, hr, hr1⟩ := checkRate_ok hrate
  obtain ⟨first, rest, journal, st, rfl, hinc, hrun, hport, htrades, hval⟩ := replay_ok hreplay
  have hstart : Solvent initial ⟨initial, [], [], journal⟩ := ⟨⟨rfl, by simp⟩, trivial⟩
  have hs : Solvent initial st :=
    runSteps_invariant (Solvent initial) (fun _ _ _ _ _ _ h hs => applyRule_solvent hr hr1 h hs)
      (fun _ point step hs => hs.close point step _) rest 1 first _ st hrun hstart
  obtain ⟨-, ⟨new, hnew, -, hpair⟩, ⟨points, hpoints, hmatch⟩⟩ :=
    runSteps_ledger rest 1 first _ st hrun hinc hstart.ledger (by simp)
  simp only [List.nil_append] at hnew hpoints
  have hcov : CoveredFrom initial.cash r.trades := by
    rw [htrades]
    exact hs.covered
  refine ⟨?_, ?_, ?_⟩
  · rw [hport, hs.ledger.cash_eq, ← htrades]
    exact ⟨hcov.not_cashAfter_lt_zero hcash, hcov.zero_le_cashAfter_iff hcash⟩
  · intro v hv
    rw [hval, hpoints] at hv
    obtain ⟨o, ho⟩ := pointMatches_of_mem hmatch v hv
    rw [← htrades] at ho
    rw [← hnew, ← htrades] at hpair
    exact ho.solvent hpair hcov hcash
  · intro pre t post htr hside
    rw [htr] at hcov
    exact hcov.buy_le_iff hcash hside

theorem simulate_solvent_two_days :
    (simulate 0.0 [⟨⟨2024, 1, 1⟩, 10.0, 10.0, 10.0, 10.0, 0.0⟩, ⟨⟨2024, 1, 2⟩, 11.0, 11.0, 11.0, 11.0, 0.0⟩]
        [{ condition := .always, action := .shares .buy 2 }] ⟨100.0, 0⟩).outcome =
      .ok ⟨⟨100.0, 0⟩, 100.0, ⟨78.0, 2⟩, [⟨.buy, 2, 11.0, 0.0, 22.0, some ⟨2024, 1, 2⟩⟩],
        [⟨⟨2024, 1, 2⟩, 78.0, 2, 11.0, 100.0⟩]⟩ ∧
    (0.0 : Float) ≤ 100.0 ∧
    ((¬ (78.0 : Float) < 0.0 ∧ ((0.0 : Float) ≤ 78.0 ↔
        ∀ t ∈ [(⟨.buy, 2, 11.0, 0.0, 22.0, some ⟨2024, 1, 2⟩⟩ : Trade)], t.total.isFinite = true)) ∧
      (∀ v ∈ [(⟨⟨2024, 1, 2⟩, 78.0, 2, 11.0, 100.0⟩ : Valuation)], ¬ v.cash < 0.0 ∧
        (0.0 ≤ v.cash ↔ ∀ t ∈ [(⟨.buy, 2, 11.0, 0.0, 22.0, some ⟨2024, 1, 2⟩⟩ : Trade)],
          t.datedBy v.date = true → t.total.isFinite = true)) ∧
      (∀ pre t post, [(⟨.buy, 2, 11.0, 0.0, 22.0, some ⟨2024, 1, 2⟩⟩ : Trade)] = pre ++ t :: post →
        t.side = .buy → (t.total ≤ cashAfter 100.0 pre ↔
          t.total.isNaN = false ∧ ∀ u ∈ pre, u.total.isFinite = true))) :=
  ⟨rfl, by decide, @simulate_solvent 0.0
    [⟨⟨2024, 1, 1⟩, 10.0, 10.0, 10.0, 10.0, 0.0⟩, ⟨⟨2024, 1, 2⟩, 11.0, 11.0, 11.0, 11.0, 0.0⟩]
    [{ condition := .always, action := .shares .buy 2 }] ⟨100.0, 0⟩
    ⟨⟨100.0, 0⟩, 100.0, ⟨78.0, 2⟩, [⟨.buy, 2, 11.0, 0.0, 22.0, some ⟨2024, 1, 2⟩⟩],
      [⟨⟨2024, 1, 2⟩, 78.0, 2, 11.0, 100.0⟩]⟩ rfl (by decide)⟩

end Backtest.Simulation
