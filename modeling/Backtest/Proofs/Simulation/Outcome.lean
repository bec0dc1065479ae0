import Backtest.Proofs.Simulation.Audit

/-!
# What a run returns, and the runs of its prefixes

The run relations are functions of where they start (`StepOrders.unique`, `RunOrders.unique`), and
a run over two lists of observations is the run over the first followed by the run over the second
(`RunOrders.append`). A strategy returns what its run relation says (`simulate_outcome`), and since
a step reads only its own observation and the one before, the run over a prefix of a checked series
is the first steps of the run over all of it (`simulate_prefix`).
-/

namespace Backtest.Simulation

open Backtest.Ledger Backtest.Market Backtest.Rules

/-! ## The relations are functions -/

/-- What the rule at the head of a step does to the portfolio `p`: nothing (`none`), stop the step
with a fault, or place an order with the percentage change its condition reported and the outcome
of its action. -/
def ruleMove (rate : Float) (current previous : Observation) (rule : Rule) (p : Portfolio) :
    Except Fault (Option (Float × Outcome)) :=
  if rule.enabled then
    match rule.condition.evaluate current previous with
    | .error f => .error f
    | .ok v =>
      if v.matched then
        (execute rate rule.action current.close p v.derived).map fun o => some (v.derived, o)
      else .ok none
  else .ok none

/-- The rules of a step from their head: the head rule makes its move, and unless that stopped
the step, the rules after it go on from the portfolio the move left. -/
theorem StepOrders.cons_inv {rate : Float} {current previous : Observation} {position : Nat}
    {rule : Rule} {rest : List Rule} {p : Portfolio} {orders : List Order}
    {r : Except Fault Portfolio}
    (h : StepOrders rate current previous position (rule :: rest) p orders r) :
    (ruleMove rate current previous rule p = .ok none ∧
        StepOrders rate current previous (position + 1) rest p orders r) ∨
      (∃ f, ruleMove rate current previous rule p = .error f ∧ orders = [] ∧ r = .error f) ∨
      ∃ derived o more, ruleMove rate current previous rule p = .ok (some (derived, o)) ∧
        StepOrders rate current previous (position + 1) rest o.portfolio more r ∧
        orders = ⟨current.date, label rule position, rule.action, derived, o⟩ :: more := by
  cases h with
  | disabled hen hrest => exact .inl ⟨by simp [ruleMove, hen], hrest⟩
  | unmatched hen hev hm hrest => exact .inl ⟨by simp [ruleMove, hen, hev, hm], hrest⟩
  | unreadable hen hev => exact .inr (.inl ⟨_, by simp [ruleMove, hen, hev], rfl, rfl⟩)
  | failed hen hev hm hex =>
    exact .inr (.inl ⟨_, by simp [ruleMove, hen, hev, hm, hex, Except.map], rfl, rfl⟩)
  | placed hen hev hm hex hrest =>
    exact .inr (.inr ⟨_, _, _, by simp [ruleMove, hen, hev, hm, hex, Except.map], hrest, rfl⟩)

theorem StepOrders.unique {rate : Float} {current previous : Observation} {position : Nat}
    {rules : List Rule} {p : Portfolio} {orders₁ orders₂ : List Order}
    {r₁ r₂ : Except Fault Portfolio}
    (h₁ : StepOrders rate current previous position rules p orders₁ r₁)
    (h₂ : StepOrders rate current previous position rules p orders₂ r₂) :
    orders₁ = orders₂ ∧ r₁ = r₂ := by
  induction rules generalizing position p orders₁ orders₂ r₁ r₂ with
  | nil =>
    cases h₁
    cases h₂
    exact ⟨rfl, rfl⟩
  | cons rule rest ih =>
    -- the head rule makes one move, so both derivations take the same branch
    rcases h₁.cons_inv with ⟨hm₁, g₁⟩ | ⟨f₁, hm₁, rfl, rfl⟩ | ⟨d₁, o₁, more₁, hm₁, g₁, rfl⟩ <;>
      rcases h₂.cons_inv with ⟨hm₂, g₂⟩ | ⟨f₂, hm₂, rfl, rfl⟩ | ⟨d₂, o₂, more₂, hm₂, g₂, rfl⟩ <;>
      rw [hm₁] at hm₂ <;> cases hm₂
    · -- passed by: the rules after it decide
      exact ih g₁ g₂
    · -- stopped with the same fault
      exact ⟨rfl, rfl⟩
    · -- the same order, then the rules after it decide
      obtain ⟨rfl, rfl⟩ := ih g₁ g₂
      exact ⟨rfl, rfl⟩

theorem RunOrders.unique {rate : Float} {rules : List Rule} {previous : Observation}
    {obs : List Observation} {p : Portfolio} {orders₁ orders₂ : List Order}
    {points₁ points₂ : List Valuation} {r₁ r₂ : Except Fault Portfolio}
    (h₁ : RunOrders rate rules previous obs p orders₁ points₁ r₁)
    (h₂ : RunOrders rate rules previous obs p orders₂ points₂ r₂) :
    orders₁ = orders₂ ∧ points₁ = points₂ ∧ r₁ = r₂ := by
  induction h₁ generalizing orders₂ points₂ r₂ with
  | done =>
    cases h₂
    exact ⟨rfl, rfl, rfl⟩
  | stopped hs =>
    cases h₂ with
    | stopped hs' =>
      obtain ⟨rfl, hf⟩ := hs.unique hs'
      cases hf
      exact ⟨rfl, rfl, rfl⟩
    | unvalued hs' | step hs' => cases (hs.unique hs').2
  | unvalued hs hv =>
    cases h₂ with
    | stopped hs' => cases (hs.unique hs').2
    | unvalued hs' hv' =>
      obtain ⟨rfl, hp⟩ := hs.unique hs'
      cases hp
      rw [hv] at hv'
      cases hv'
      exact ⟨rfl, rfl, rfl⟩
    | step hs' hv' =>
      obtain ⟨rfl, hp⟩ := hs.unique hs'
      cases hp
      rw [hv] at hv'
      cases hv'
  | step hs hv _ ih =>
    cases h₂ with
    | stopped hs' => cases (hs.unique hs').2
    | unvalued hs' hv' =>
      obtain ⟨rfl, hp⟩ := hs.unique hs'
      cases hp
      rw [hv] at hv'
      cases hv'
    | step hs' hv' g =>
      obtain ⟨rfl, hp⟩ := hs.unique hs'
      cases hp
      rw [hv] at hv'
      cases hv'
      obtain ⟨rfl, rfl, rfl⟩ := ih g
      exact ⟨rfl, rfl, rfl⟩

theorem RunOrders.exists (rate : Float) (rules : List Rule) (previous : Observation)
    (obs : List Observation) (p : Portfolio) :
    ∃ orders points r, RunOrders rate rules previous obs p orders points r := by
  obtain ⟨orders, points, hrun, -⟩ := runSteps_orders rate rules 0 obs 1 previous ⟨p, [], [], {}⟩
  exact ⟨orders, points, _, hrun⟩

/-! ## Runs over appended observations -/

/-- The last of some observations after `previous`, or `previous` when there are none. -/
def lastObservation (previous : Observation) (obs : List Observation) : Observation :=
  obs.getLast?.getD previous

@[simp] theorem lastObservation_cons (previous current : Observation) (obs : List Observation) :
    lastObservation previous (current :: obs) = lastObservation current obs := by
  simp [lastObservation, List.getLast?_cons]

/-- A run over `obs₁ ++ obs₂` is the run over `obs₁`, then, unless that stopped, the run over
`obs₂` from where it left off. -/
theorem RunOrders.append {rate : Float} {rules : List Rule} {previous : Observation}
    {obs₁ obs₂ : List Observation} {p : Portfolio} {orders : List Order}
    {points : List Valuation} {r : Except Fault Portfolio}
    (h : RunOrders rate rules previous (obs₁ ++ obs₂) p orders points r) :
    ∃ orders₁ points₁ ending, RunOrders rate rules previous obs₁ p orders₁ points₁ ending ∧
      ((∃ f, ending = .error f ∧ r = .error f ∧ orders = orders₁ ∧ points = points₁) ∨
        ∃ p₁ orders₂ points₂, ending = .ok p₁ ∧
          RunOrders rate rules (lastObservation previous obs₁) obs₂ p₁ orders₂ points₂ r ∧
          orders = orders₁ ++ orders₂ ∧ points = points₁ ++ points₂) := by
  induction obs₁ generalizing previous p orders points with
  | nil => exact ⟨[], [], .ok p, .done, .inr ⟨p, orders, points, rfl, h, rfl, rfl⟩⟩
  | cons current obs₁ ih =>
    cases h with
    | stopped hs => exact ⟨_, [], _, .stopped hs, .inl ⟨_, rfl, rfl, rfl, rfl⟩⟩
    | unvalued hs hv => exact ⟨_, [], _, .unvalued hs hv, .inl ⟨_, rfl, rfl, rfl, rfl⟩⟩
    | step hs hv hrest =>
      obtain ⟨orders₁, points₁, ending, hrun₁, hends⟩ := ih hrest
      refine ⟨_, _, ending, .step hs hv hrun₁, ?_⟩
      rcases hends with ⟨f, rfl, rfl, rfl, rfl⟩ | ⟨p₁, orders₂, points₂, rfl, hrun₂, rfl, rfl⟩
      · exact .inl ⟨f, rfl, rfl, rfl, rfl⟩
      · refine .inr ⟨p₁, orders₂, points₂, rfl, ?_, (List.append_assoc _ _ _).symm, rfl⟩
        rwa [lastObservation_cons]

/-! ## What a run returns -/

/-- What a run from `first` returns, given the orders it placed, its valuation points and how it
ended: the fault that stopped it, or its result with the initial portfolio valued at the first
close. -/
def runOutcome (initial : Portfolio) (first : Observation) (orders : List Order)
    (points : List Valuation) : Except Fault Portfolio → Except Fault Result
  | .error f => .error f
  | .ok p => (valueAt initial first.close).map fun value =>
      ⟨initial, value, p, orders.filterMap Order.trade?, points⟩

theorem checkRate_of_bounds {rate : Float} (hrate : 0.0 ≤ rate ∧ rate < 1.0) :
    checkRate rate = .ok rate := by
  simp [checkRate, hrate.1, hrate.2]

/-- A run over a checked series returns what its run relation says. -/
theorem simulate_outcome {rate : Float} {first : Observation} {obs : List Observation}
    {rules : List Rule} {initial : Portfolio} {orders : List Order} {points : List Valuation}
    {ending : Except Fault Portfolio} (hrate : 0.0 ≤ rate ∧ rate < 1.0)
    (hinc : checkIncreasing first obs = .ok ())
    (hrun : RunOrders rate rules first obs initial orders points ending) :
    (simulate rate (first :: obs) rules initial).outcome =
      runOutcome initial first orders points ending := by
  cases hout : (simulate rate (first :: obs) rules initial).outcome with
  | ok R =>
    obtain ⟨_, _, orders', points', hs, -, hrun', hinit, hvalue, htrades, hpoints, -, -⟩ :=
      replay_eq_ok (simulate_eq_ok hout)
    cases hs
    obtain ⟨rfl, rfl, rfl⟩ := hrun.unique hrun'
    cases R
    simp only at hinit htrades hpoints
    subst hinit htrades hpoints
    simp [runOutcome, hvalue, Except.map]
  | error f =>
    rcases simulate_eq_error hout with hcheck | ⟨j, hrep⟩
    · rw [checkRate_of_bounds hrate] at hcheck
      cases hcheck
    rcases replay_eq_error hrep with ⟨hcheck, -⟩ | ⟨_, _, orders', points', ending', hs, -, hrun',
      hend, -, -⟩
    · rw [checkSeries, hinc] at hcheck
      cases hcheck
    cases hs
    obtain ⟨rfl, rfl, rfl⟩ := hrun.unique hrun'
    rcases hend with rfl | ⟨⟨p, rfl⟩, hvalue⟩
    · rfl
    · simp [runOutcome, hvalue, Except.map]

/-! ## Prefixes of a series -/

theorem checkIncreasing_take {first : Observation} {rest : List Observation}
    (hinc : checkIncreasing first rest = .ok ()) (j : Nat) :
    checkIncreasing first (rest.take j) = .ok () := by
  induction rest generalizing first j with
  | nil => simp [checkIncreasing]
  | cons current rest ih =>
    cases j with
    | zero => rfl
    | succ j =>
      rw [List.take_succ_cons]
      simp only [checkIncreasing] at hinc ⊢
      split at hinc
      · cases hinc
      · rw [if_neg ‹_›]
        exact ih hinc j

/-- No look-ahead: for a checked series `first :: rest`, the run over `first` and the first `j`
observations after it is the first `j` steps of the run over the whole series. It places the
orders and records the valuation points those steps do and returns what they end with: the
fault that stopped them, or their portfolio, trades and points, with the initial portfolio valued
at the first close. The whole run stops on that same fault, or goes on from that portfolio over
the observations after them. -/
theorem simulate_prefix {rate : Float} {first : Observation} {rest : List Observation}
    {rules : List Rule} {initial : Portfolio} (hrate : 0.0 ≤ rate ∧ rate < 1.0)
    (hinc : checkIncreasing first rest = .ok ()) (j : Nat) :
    ∃ orders points ending, RunOrders rate rules first (rest.take j) initial orders points ending ∧
      (simulate rate (first :: rest.take j) rules initial).outcome =
        runOutcome initial first orders points ending ∧
      ∀ fullOrders fullPoints r, RunOrders rate rules first rest initial fullOrders fullPoints r →
        (∃ f, ending = .error f ∧ r = .error f ∧ fullOrders = orders ∧ fullPoints = points) ∨
        ∃ p more morePoints, ending = .ok p ∧
          RunOrders rate rules (lastObservation first (rest.take j)) (rest.drop j) p more
            morePoints r ∧
          fullOrders = orders ++ more ∧ fullPoints = points ++ morePoints := by
  obtain ⟨fullOrders, fullPoints, r, hfull⟩ := RunOrders.exists rate rules first rest initial
  have hsplit : RunOrders rate rules first (rest.take j ++ rest.drop j) initial fullOrders
      fullPoints r := by
    rwa [List.take_append_drop]
  obtain ⟨orders, points, ending, hpre, hends⟩ := hsplit.append
  refine ⟨orders, points, ending, hpre, simulate_outcome hrate (checkIncreasing_take hinc j) hpre,
    ?_⟩
  intro fullOrders' fullPoints' r' hfull'
  obtain ⟨rfl, rfl, rfl⟩ := hfull.unique hfull'
  exact hends

/-- The first two days of a three-day run that buys two shares a day. -/
theorem simulate_prefix_firstDay :
    ((0.0 : Float) ≤ 0.0 ∧ (0.0 : Float) < 1.0) ∧
    checkIncreasing ⟨⟨2024, 1, 1⟩, 10.0, 10.0, 10.0, 10.0, 0.0⟩
      [⟨⟨2024, 1, 2⟩, 11.0, 11.0, 11.0, 11.0, 0.0⟩, ⟨⟨2024, 1, 3⟩, 12.0, 12.0, 12.0, 12.0, 0.0⟩] =
      .ok () ∧
    ∃ orders points ending,
      RunOrders 0.0 [{ condition := .always, action := .shares .buy 2 }]
        ⟨⟨2024, 1, 1⟩, 10.0, 10.0, 10.0, 10.0, 0.0⟩ [⟨⟨2024, 1, 2⟩, 11.0, 11.0, 11.0, 11.0, 0.0⟩]
        ⟨100.0, 0⟩ orders points ending ∧
      (simulate 0.0 [⟨⟨2024, 1, 1⟩, 10.0, 10.0, 10.0, 10.0, 0.0⟩,
          ⟨⟨2024, 1, 2⟩, 11.0, 11.0, 11.0, 11.0, 0.0⟩]
        [{ condition := .always, action := .shares .buy 2 }] ⟨100.0, 0⟩).outcome =
        runOutcome ⟨100.0, 0⟩ ⟨⟨2024, 1, 1⟩, 10.0, 10.0, 10.0, 10.0, 0.0⟩ orders points ending ∧
      ∀ fullOrders fullPoints r,
        RunOrders 0.0 [{ condition := .always, action := .shares .buy 2 }]
          ⟨⟨2024, 1, 1⟩, 10.0, 10.0, 10.0, 10.0, 0.0⟩
          [⟨⟨2024, 1, 2⟩, 11.0, 11.0, 11.0, 11.0, 0.0⟩, ⟨⟨2024, 1, 3⟩, 12.0, 12.0, 12.0, 12.0, 0.0⟩]
          ⟨100.0, 0⟩ fullOrders fullPoints r →
        (∃ f, ending = .error f ∧ r = .error f ∧ fullOrders = orders ∧ fullPoints = points) ∨
        ∃ p more morePoints, ending = .ok p ∧
          RunOrders 0.0 [{ condition := .always, action := .shares .buy 2 }]
            ⟨⟨2024, 1, 2⟩, 11.0, 11.0, 11.0, 11.0, 0.0⟩
            [⟨⟨2024, 1, 3⟩, 12.0, 12.0, 12.0, 12.0, 0.0⟩] p more morePoints r ∧
          fullOrders = orders ++ more ∧ fullPoints = points ++ morePoints :=
  have hrate : (0.0 : Float) ≤ 0.0 ∧ (0.0 : Float) < 1.0 := ⟨by decide, by decide⟩
  have hinc : checkIncreasing ⟨⟨2024, 1, 1⟩, 10.0, 10.0, 10.0, 10.0, 0.0⟩
      [⟨⟨2024, 1, 2⟩, 11.0, 11.0, 11.0, 11.0, 0.0⟩, ⟨⟨2024, 1, 3⟩, 12.0, 12.0, 12.0, 12.0, 0.0⟩] =
      .ok () := by
    rfl
  ⟨hrate, hinc, simulate_prefix hrate hinc 1⟩

end Backtest.Simulation
