import Backtest.Proofs.Simulation.Outcome

/-!
# Rules that change nothing

A disabled rule is passed by, and a holding rule trades nothing. Taking them all out of a strategy
changes nothing a returning run gives back (`simulate_dropIdle`); only the journal tells the runs
apart, since the rules that remain are counted and labelled anew. On a step that does not stop the
remaining rules place the same trading orders (`StepOrders.dropIdle`); a run that stops is not
compared, since a holding rule can stop it.
-/

namespace Backtest.Rules

/-- A rule that can change nothing: a disabled rule, or one whose action trades on no side, which
is holding. -/
def Rule.idle (rule : Rule) : Bool :=
  !rule.enabled || rule.action.side?.isNone

end Backtest.Rules

namespace Backtest.Simulation

open Backtest.Ledger Backtest.Market Backtest.Rules

theorem execute_hold {rate price derived : Float} {p : Portfolio} {o : Outcome}
    (h : execute rate .hold price p derived = .ok o) : o.portfolio = p ∧ o.trade = none := by
  have hpos := execute_price h
  unfold execute at h
  rw [if_neg hpos] at h
  cases h
  exact ⟨rfl, rfl⟩

/-- Without its idle rules, a step that does not stop ends on the same portfolio and makes the same
trades, whatever position the rules start from. -/
theorem StepOrders.dropIdle {rate : Float} {current previous : Observation} {position : Nat}
    {rules : List Rule} {p p' : Portfolio} {orders : List Order}
    (h : StepOrders rate current previous position rules p orders (.ok p')) (position' : Nat) :
    ∃ orders', StepOrders rate current previous position' (rules.filter (!·.idle)) p orders'
        (.ok p') ∧ orders'.filterMap Order.trade? = orders.filterMap Order.trade? := by
  generalize hr : (Except.ok p' : Except Fault Portfolio) = r at h
  induction h generalizing position' with
  | done =>
    cases hr
    exact ⟨[], .done, rfl⟩
  | @disabled _ rule rest _ _ _ hen _ ih =>
    have hidle : rule.idle = true := by simp [Rule.idle, hen]
    rw [List.filter_cons_of_neg (by simp [hidle])]
    exact ih position' hr
  | @unmatched _ rule rest _ _ _ _ hen hev hm _ ih =>
    by_cases hidle : rule.idle = true
    · rw [List.filter_cons_of_neg (by simp [hidle])]
      exact ih position' hr
    · -- the rule stays, and is passed by again
      rw [List.filter_cons_of_pos (by simpa using hidle)]
      obtain ⟨orders', hstep, htrades⟩ := ih (position' + 1) hr
      exact ⟨orders', .unmatched hen hev hm hstep, htrades⟩
  | unreadable => cases hr
  | failed => cases hr
  | @placed _ rule rest q _ _ v o hen hev hm hex _ ih =>
    by_cases hidle : rule.idle = true
    · -- an enabled idle rule holds: its order trades nothing and keeps the portfolio
      have hhold : rule.action = .hold := by
        cases haction : rule.action <;> simp_all [Rule.idle, Rules.Action.side?]
      rw [hhold] at hex
      obtain ⟨hport, htrade⟩ := execute_hold hex
      rw [List.filter_cons_of_neg (by simp [hidle])]
      obtain ⟨orders', hstep, htrades⟩ := ih position' hr
      rw [hport] at hstep
      refine ⟨orders', hstep, ?_⟩
      simp [htrades, Order.trade?, htrade]
    · -- the rule stays and places the same order under its new label
      rw [List.filter_cons_of_pos (by simpa using hidle)]
      obtain ⟨orders', hstep, htrades⟩ := ih (position' + 1) hr
      exact ⟨_, .placed hen hev hm hex hstep, by simp [List.filterMap_cons, Order.trade?, htrades]⟩

theorem RunOrders.dropIdle {rate : Float} {rules : List Rule} {previous : Observation}
    {obs : List Observation} {p p' : Portfolio} {orders : List Order} {points : List Valuation}
    (h : RunOrders rate rules previous obs p orders points (.ok p')) :
    ∃ orders', RunOrders rate (rules.filter (!·.idle)) previous obs p orders' points (.ok p') ∧
      orders'.filterMap Order.trade? = orders.filterMap Order.trade? := by
  generalize hr : (Except.ok p' : Except Fault Portfolio) = r at h
  induction h with
  | done =>
    cases hr
    exact ⟨[], .done, rfl⟩
  | stopped => cases hr
  | unvalued => cases hr
  | step hstep hvalue _ ih =>
    obtain ⟨orders₁, hstep', htrades₁⟩ := hstep.dropIdle 0
    obtain ⟨more, hrun, htrades₂⟩ := ih hr
    exact ⟨orders₁ ++ more, .step hstep' hvalue hrun, by simp [htrades₁, htrades₂]⟩

theorem rate_bounds_of_ok {rate : Float} {series : List Observation} {rules : List Rule}
    {initial : Portfolio} {R : Result} (h : (simulate rate series rules initial).outcome = .ok R) :
    0.0 ≤ rate ∧ rate < 1.0 := by
  rcases simulate_cases rate series rules initial with ⟨f, -, hs⟩ | ⟨hrate, -⟩
  · rw [hs] at h
    cases h
  · exact (checkRate_ok hrate).2

/-- Taking the disabled and the holding rules out of a strategy changes nothing a run returns: if
the run returns a result, the run without them returns the same result. -/
theorem simulate_dropIdle {rate : Float} {series : List Observation} {rules : List Rule}
    {initial : Portfolio} {R : Result} (h : (simulate rate series rules initial).outcome = .ok R) :
    (simulate rate series (rules.filter (!·.idle)) initial).outcome = .ok R := by
  obtain ⟨first, rest, orders, points, rfl, hinc, hrun, hinit, hvalue, htrades, hpoints, -, -⟩ :=
    replay_eq_ok (simulate_eq_ok h)
  obtain ⟨orders', hrun', htrades'⟩ := hrun.dropIdle
  rw [simulate_outcome (rate_bounds_of_ok h) hinc hrun']
  cases R
  simp only at hinit htrades hpoints
  subst hinit htrades hpoints
  simp [runOutcome, hvalue, Except.map, htrades']

/-- A two-day run with a disabled rule and a holding rule before a rule that buys two shares a
day returns what the buying rule alone returns. -/
theorem simulate_dropIdle_holdAndDisabled :
    (simulate 0.0
        [⟨⟨2024, 1, 1⟩, 10.0, 10.0, 10.0, 10.0, 0.0⟩, ⟨⟨2024, 1, 2⟩, 11.0, 11.0, 11.0, 11.0, 0.0⟩]
        [{ condition := .always, action := .shares .buy 5, enabled := false },
          { condition := .always, action := .hold },
          { condition := .always, action := .shares .buy 2 }] ⟨100.0, 0⟩).outcome =
      .ok ⟨⟨100.0, 0⟩, 100.0, ⟨78.0, 2⟩, [⟨.buy, 2, 11.0, 0.0, 22.0, some ⟨2024, 1, 2⟩⟩],
        [⟨⟨2024, 1, 2⟩, 78.0, 2, 11.0, 100.0⟩]⟩ ∧
    (simulate 0.0
        [⟨⟨2024, 1, 1⟩, 10.0, 10.0, 10.0, 10.0, 0.0⟩, ⟨⟨2024, 1, 2⟩, 11.0, 11.0, 11.0, 11.0, 0.0⟩]
        ([{ condition := .always, action := .shares .buy 5, enabled := false },
          { condition := .always, action := .hold },
          { condition := .always, action := .shares .buy 2 }].filter (!·.idle)) ⟨100.0, 0⟩).outcome =
      .ok ⟨⟨100.0, 0⟩, 100.0, ⟨78.0, 2⟩, [⟨.buy, 2, 11.0, 0.0, 22.0, some ⟨2024, 1, 2⟩⟩],
        [⟨⟨2024, 1, 2⟩, 78.0, 2, 11.0, 100.0⟩]⟩ :=
  ⟨rfl, simulate_dropIdle rfl⟩

end Backtest.Simulation
