import Backtest.Proofs.Simulation.Accounting

/-!
# The orders of a run

A run visits every rule of every step in declared order; an enabled rule whose condition holds
places an order, executed at the step's close with the condition's change as `N`, and a condition
that cannot be evaluated, a failed order or a close that cannot value the portfolio stops the run.
`StepOrders` and `RunOrders` say this as relations, and a run places exactly the orders they
describe while its ledger, audit trail and notices grow by exactly their records
(`runSteps_orders`).
-/

namespace Backtest.Simulation

open Backtest.Ledger Backtest.Market Backtest.Rules

/-- An order a rule placed on a step: the step's date, the rule's label and action, the
percentage change its condition reported, and the outcome of executing the action. -/
structure Order where
  date : Calendar.Date
  label : String
  action : Action
  derived : Float
  outcome : Outcome

/-- The trade an order made, dated by its step. -/
def Order.trade? (o : Order) : Option Trade :=
  o.outcome.trade.map fun t => { t with date := some o.date }

/-- The audit records an order leaves: its trade; or, when its formula had no value, the skipped
action with the formula error's code and the reason; or none. -/
def Order.events (o : Order) : List Event :=
  match o.outcome.trade with
  | some t => [.trade o.label { t with date := some o.date }]
  | none =>
    match o.outcome.reason with
    | .formulaError e => [.skipped o.label o.date e.code o.outcome.reason.text]
    | _ => []

/-- The notices an order sends: a formula-error notice when its formula had no value. -/
def Order.notices (o : Order) : List Notice :=
  match o.outcome.trade with
  | some _ => []
  | none =>
    match o.outcome.reason with
    | .formulaError _ => [⟨.formulaError, o.label ++ ": " ++ o.outcome.reason.text⟩]
    | _ => []

/-! ## The relations -/

/-- What the rules from `position` on do on the step from `previous` to `current`, started on the
portfolio `p`: the orders they place, in order, and the portfolio they leave or the fault that
stops them. -/
inductive StepOrders (rate : Float) (current previous : Observation) :
    Nat → List Rule → Portfolio → List Order → Except Fault Portfolio → Prop
  /-- No rule is left. -/
  | done {position : Nat} {p : Portfolio} : StepOrders rate current previous position [] p [] (.ok p)
  /-- A disabled rule is passed by. -/
  | disabled {position : Nat} {rule : Rule} {rest : List Rule} {p : Portfolio}
      {orders : List Order} {r : Except Fault Portfolio} :
      rule.enabled = false → StepOrders rate current previous (position + 1) rest p orders r →
      StepOrders rate current previous position (rule :: rest) p orders r
  /-- A rule whose condition does not hold is passed by. -/
  | unmatched {position : Nat} {rule : Rule} {rest : List Rule} {p : Portfolio}
      {orders : List Order} {r : Except Fault Portfolio} {v : Verdict} :
      rule.enabled = true → rule.condition.evaluate current previous = .ok v → v.matched = false →
      StepOrders rate current previous (position + 1) rest p orders r →
      StepOrders rate current previous position (rule :: rest) p orders r
  /-- A condition that cannot be evaluated stops the step. -/
  | unreadable {position : Nat} {rule : Rule} {rest : List Rule} {p : Portfolio} {f : Fault} :
      rule.enabled = true → rule.condition.evaluate current previous = .error f →
      StepOrders rate current previous position (rule :: rest) p [] (.error f)
  /-- An order that fails stops the step. -/
  | failed {position : Nat} {rule : Rule} {rest : List Rule} {p : Portfolio} {v : Verdict}
      {f : Fault} :
      rule.enabled = true → rule.condition.evaluate current previous = .ok v → v.matched = true →
      execute rate rule.action current.close p v.derived = .error f →
      StepOrders rate current previous position (rule :: rest) p [] (.error f)
  /-- A rule whose condition holds places an order; the rules after it start from the portfolio
  the order leaves. -/
  | placed {position : Nat} {rule : Rule} {rest : List Rule} {p : Portfolio}
      {orders : List Order} {r : Except Fault Portfolio} {v : Verdict} {o : Outcome} :
      rule.enabled = true → rule.condition.evaluate current previous = .ok v → v.matched = true →
      execute rate rule.action current.close p v.derived = .ok o →
      StepOrders rate current previous (position + 1) rest o.portfolio orders r →
      StepOrders rate current previous position (rule :: rest) p
        (⟨current.date, label rule position, rule.action, v.derived, o⟩ :: orders) r

/-- What a run does from `previous` through the observations `obs`, started on the portfolio `p`:
the orders it places, the valuation points it records, and the portfolio it ends with or the
fault that stops it. -/
inductive RunOrders (rate : Float) (rules : List Rule) :
    Observation → List Observation → Portfolio → List Order → List Valuation →
      Except Fault Portfolio → Prop
  /-- No observation is left. -/
  | done {previous : Observation} {p : Portfolio} : RunOrders rate rules previous [] p [] [] (.ok p)
  /-- The rules of a step stop the run. -/
  | stopped {previous current : Observation} {rest : List Observation} {p : Portfolio}
      {orders : List Order} {f : Fault} :
      StepOrders rate current previous 0 rules p orders (.error f) →
      RunOrders rate rules previous (current :: rest) p orders [] (.error f)
  /-- The portfolio the rules of a step leave cannot be valued at the close. -/
  | unvalued {previous current : Observation} {rest : List Observation} {p p' : Portfolio}
      {orders : List Order} {f : Fault} :
      StepOrders rate current previous 0 rules p orders (.ok p') →
      valueAt p' current.close = .error f →
      RunOrders rate rules previous (current :: rest) p orders [] (.error f)
  /-- A step records the value at its close, and the run goes on from it. -/
  | step {previous current : Observation} {rest : List Observation} {p p' : Portfolio}
      {orders more : List Order} {value : Float} {points : List Valuation}
      {r : Except Fault Portfolio} :
      StepOrders rate current previous 0 rules p orders (.ok p') →
      valueAt p' current.close = .ok value →
      RunOrders rate rules current rest p' more points r →
      RunOrders rate rules previous (current :: rest) p (orders ++ more)
        (⟨current.date, p'.cash, p'.shares, current.close, value⟩ :: points) r

/-! ## Every order executes its rule's action -/

theorem StepOrders.executes {rate : Float} {current previous : Observation} {position : Nat}
    {rules : List Rule} {p : Portfolio} {orders : List Order} {r : Except Fault Portfolio}
    (h : StepOrders rate current previous position rules p orders r) :
    ∀ o ∈ orders, ∃ rule ∈ rules, o.action = rule.action ∧
      ∃ q, execute rate rule.action current.close q o.derived = .ok o.outcome := by
  induction h with
  | done => simp
  | disabled _ _ ih | unmatched _ _ _ _ ih =>
    intro o ho
    obtain ⟨rule, hrule, hrest⟩ := ih o ho
    exact ⟨rule, List.mem_cons_of_mem _ hrule, hrest⟩
  | unreadable | failed => simp
  | @placed _ rule _ q _ _ _ _ _ _ _ hexec _ ih =>
    intro o ho
    rcases List.mem_cons.1 ho with rfl | ho
    · exact ⟨rule, List.mem_cons_self, rfl, q, hexec⟩
    · obtain ⟨rule', hrule, hrest⟩ := ih o ho
      exact ⟨rule', List.mem_cons_of_mem _ hrule, hrest⟩

theorem RunOrders.executes {rate : Float} {rules : List Rule} {previous : Observation}
    {obs : List Observation} {p : Portfolio} {orders : List Order} {points : List Valuation}
    {r : Except Fault Portfolio} (h : RunOrders rate rules previous obs p orders points r) :
    ∀ o ∈ orders, ∃ rule ∈ rules, o.action = rule.action ∧
      ∃ price q, execute rate rule.action price q o.derived = .ok o.outcome := by
  induction h with
  | done => simp
  | stopped hstep | unvalued hstep _ =>
    intro o ho
    obtain ⟨rule, hrule, haction, q, hexec⟩ := hstep.executes o ho
    exact ⟨rule, hrule, haction, _, q, hexec⟩
  | step hstep _ _ ih =>
    intro o ho
    rcases List.mem_append.1 ho with ho | ho
    · obtain ⟨rule, hrule, haction, q, hexec⟩ := hstep.executes o ho
      exact ⟨rule, hrule, haction, _, q, hexec⟩
    · exact ih o ho

/-! ## The run places these orders -/

/-- The state a run ends in: its last state, or the state at the fault that stopped it. -/
def endState : Except Stopped State → State
  | .ok st => st
  | .error (_, st) => st

/-- The portfolio a run ends with, or the fault that stopped it. -/
def endPortfolio : Except Stopped State → Except Fault Portfolio
  | .ok st => .ok st.portfolio
  | .error (f, _) => .error f

/-- The state `st'` is `st` with the records of `orders` appended (their trades to the ledger,
their events to the audit trail, their notices to the notices) and the valuation `points`. -/
structure Logs (st : State) (orders : List Order) (points : List Valuation) (st' : State) : Prop where
  trades : st'.trades = st.trades ++ orders.filterMap Order.trade?
  audit : st'.journal.audit = st.journal.audit ++ orders.flatMap Order.events
  notices : st'.journal.notices = st.journal.notices ++ orders.flatMap Order.notices
  valuation : st'.valuation = st.valuation ++ points

theorem Logs.refl (st : State) : Logs st [] [] st :=
  ⟨by simp, by simp, by simp, by simp⟩

theorem Logs.trans {st₁ st₂ st₃ : State} {orders₁ orders₂ : List Order}
    {points₁ points₂ : List Valuation} (h₁ : Logs st₁ orders₁ points₁ st₂)
    (h₂ : Logs st₂ orders₂ points₂ st₃) : Logs st₁ (orders₁ ++ orders₂) (points₁ ++ points₂) st₃ where
  trades := by rw [h₂.trades, h₁.trades, List.filterMap_append, List.append_assoc]
  audit := by rw [h₂.audit, h₁.audit, List.flatMap_append, List.append_assoc]
  notices := by rw [h₂.notices, h₁.notices, List.flatMap_append, List.append_assoc]
  valuation := by rw [h₂.valuation, h₁.valuation, List.append_assoc]

theorem Logs.close (st : State) (point : Valuation) (step total : Nat) :
    Logs st [] [point] (st.close point step total) :=
  ⟨by simp, by simp [State.close, Journal.report], by simp [State.close, Journal.report], rfl⟩

theorem Logs.record (st : State) (label : String) (date : Calendar.Date) (action : Action)
    (derived : Float) (o : Outcome) :
    Logs st [⟨date, label, action, derived, o⟩] [] (st.record label date o) := by
  refine ⟨?_, ?_, ?_, by simp⟩
  · rw [State.record_trades]
    rfl
  all_goals
    unfold State.record
    cases htrade : o.trade with
    | some t => simp [Order.events, Order.notices, htrade, Journal.log]
    | none =>
      cases hreason : o.reason <;>
        simp [Order.events, Order.notices, htrade, hreason, Reason.code, Journal.log, Journal.notify]

theorem applyRules_cons (rate : Float) (current previous : Observation) (position : Nat)
    (rule : Rule) (rest : List Rule) (st : State) :
    applyRules rate current previous position (rule :: rest) st =
      applyRule rate current previous position rule st >>=
        applyRules rate current previous (position + 1) rest := rfl

/-- The rules of a step place the orders `StepOrders` describes, and the state grows by their
records. -/
theorem applyRules_orders (rate : Float) (current previous : Observation) :
    ∀ (rules : List Rule) (position : Nat) (st : State),
      ∃ orders, StepOrders rate current previous position rules st.portfolio orders
          (endPortfolio (applyRules rate current previous position rules st)) ∧
        Logs st orders [] (endState (applyRules rate current previous position rules st))
  | [], _, st => ⟨[], .done, Logs.refl st⟩
  | rule :: rest, position, st => by
    rw [applyRules_cons]
    cases hen : rule.enabled with
    | false =>
      -- passed by: the rules after it start from the same state
      have happly : applyRule rate current previous position rule st = .ok st := by
        simp [applyRule, hen, pure, Except.pure]
      obtain ⟨orders, hstep, hlogs⟩ :=
        applyRules_orders rate current previous rest (position + 1) st
      rw [happly]
      exact ⟨orders, .disabled hen hstep, hlogs⟩
    | true =>
      cases hev : rule.condition.evaluate current previous with
      | error f =>
        have happly : applyRule rate current previous position rule st = .error (f, st) := by
          simp [applyRule, hen, hev, within, Except.mapError, bind, Except.bind]
        rw [happly]
        exact ⟨[], .unreadable hen hev, Logs.refl st⟩
      | ok v =>
        cases hm : v.matched with
        | false =>
          have happly : applyRule rate current previous position rule st = .ok st := by
            simp [applyRule, hen, hev, hm, within, Except.mapError, bind, Except.bind, pure,
              Except.pure]
          obtain ⟨orders, hstep, hlogs⟩ :=
            applyRules_orders rate current previous rest (position + 1) st
          rw [happly]
          exact ⟨orders, .unmatched hen hev hm hstep, hlogs⟩
        | true =>
          cases hex : execute rate rule.action current.close st.portfolio v.derived with
          | error f =>
            have happly : applyRule rate current previous position rule st = .error (f, st) := by
              simp [applyRule, hen, hev, hm, hex, within, Except.mapError, bind, Except.bind]
            rw [happly]
            exact ⟨[], .failed hen hev hm hex, Logs.refl st⟩
          | ok o =>
            -- the order is recorded, and the rules after it start from the recorded state
            have happly : applyRule rate current previous position rule st =
                .ok (st.record (label rule position) current.date o) := by
              simp [applyRule, hen, hev, hm, hex, within, Except.mapError, bind, Except.bind, pure,
                Except.pure]
            obtain ⟨orders, hstep, hlogs⟩ := applyRules_orders rate current previous rest
              (position + 1) (st.record (label rule position) current.date o)
            rw [State.record_portfolio] at hstep
            rw [happly]
            exact ⟨_ :: orders, .placed hen hev hm hex hstep,
              (Logs.record st _ _ rule.action v.derived o).trans hlogs⟩

theorem runSteps_cons (rate : Float) (rules : List Rule) (total step : Nat)
    (previous current : Observation) (rest : List Observation) (st : State) :
    runSteps rate rules total step previous (current :: rest) st =
      (applyRules rate current previous 0 rules st >>= fun st =>
        within st (valueAt st.portfolio current.close) >>= fun value =>
          runSteps rate rules total (step + 1) current rest
            (st.close ⟨current.date, st.portfolio.cash, st.portfolio.shares, current.close, value⟩
              step total)) := rfl

/-- A run places the orders and records the points `RunOrders` describes, and its state grows by
their records, up to the fault that stops it. -/
theorem runSteps_orders (rate : Float) (rules : List Rule) (total : Nat) :
    ∀ (obs : List Observation) (step : Nat) (previous : Observation) (st : State),
      ∃ orders points, RunOrders rate rules previous obs st.portfolio orders points
          (endPortfolio (runSteps rate rules total step previous obs st)) ∧
        Logs st orders points (endState (runSteps rate rules total step previous obs st))
  | [], _, _, st => ⟨[], [], .done, Logs.refl st⟩
  | current :: rest, step, previous, st => by
    obtain ⟨orders, hstep, hlogs⟩ := applyRules_orders rate current previous rules 0 st
    rw [runSteps_cons]
    cases happly : applyRules rate current previous 0 rules st with
    | error stop =>
      obtain ⟨f, st₁⟩ := stop
      rw [happly] at hstep hlogs
      exact ⟨orders, [], .stopped hstep, hlogs⟩
    | ok st₁ =>
      rw [happly] at hstep hlogs
      cases hvalue : valueAt st₁.portfolio current.close with
      | error f =>
        have hstop : (Except.ok st₁ >>= fun st =>
            within st (valueAt st.portfolio current.close) >>= fun value =>
              runSteps rate rules total (step + 1) current rest
                (st.close ⟨current.date, st.portfolio.cash, st.portfolio.shares, current.close,
                  value⟩ step total)) = (.error (f, st₁) : Except Stopped State) := by
          simp [hvalue, within, Except.mapError, bind, Except.bind]
        rw [hstop]
        exact ⟨orders, [], .unvalued hstep hvalue, hlogs⟩
      | ok value =>
        -- the step's point is recorded, and the run goes on from the closed state
        have hgo : (Except.ok st₁ >>= fun st =>
            within st (valueAt st.portfolio current.close) >>= fun value =>
              runSteps rate rules total (step + 1) current rest
                (st.close ⟨current.date, st.portfolio.cash, st.portfolio.shares, current.close,
                  value⟩ step total)) =
            runSteps rate rules total (step + 1) current rest
              (st₁.close ⟨current.date, st₁.portfolio.cash, st₁.portfolio.shares, current.close,
                value⟩ step total) := by
          simp [hvalue, within, Except.mapError, bind, Except.bind]
        rw [hgo]
        obtain ⟨more, points, hrun, hlogs'⟩ := runSteps_orders rate rules total rest (step + 1)
          current (st₁.close ⟨current.date, st₁.portfolio.cash, st₁.portfolio.shares,
            current.close, value⟩ step total)
        have hlogs'' := (hlogs.trans (Logs.close st₁ _ step total)).trans hlogs'
        rw [List.append_nil, List.nil_append, List.singleton_append] at hlogs''
        exact ⟨orders ++ more, _ :: points, .step hstep hvalue hrun, hlogs''⟩

/-! ## The orders of a replay -/

/-- A replay that completes placed the orders of its run: its result is their ledger and its
valuation points, and its journal holds the start event, their records and the completion. -/
theorem replay_eq_ok {rate : Float} {series : List Observation} {rules : List Rule}
    {initial : Portfolio} {R : Result} {journal : Journal}
    (h : replay rate series rules initial = .ok (R, journal)) :
    ∃ first rest orders points, series = first :: rest ∧ checkIncreasing first rest = .ok () ∧
      RunOrders rate rules first rest initial orders points (.ok R.finalPortfolio) ∧
      R.initialPortfolio = initial ∧ valueAt initial first.close = .ok R.initialValue ∧
      R.trades = orders.filterMap Order.trade? ∧ R.valuation = points ∧
      journal.audit = .start series.length rules.length initial.cash initial.shares rate ::
        (orders.flatMap Order.events ++ [.complete R.trades.length R.finalValue R.totalReturnPct]) ∧
      journal.notices = orders.flatMap Order.notices ++
        [⟨.runCompleted, toString R.trades.length ++ " trades, final value " ++
          Decimal.fixedText 2 R.finalValue⟩] := by
  cases series with
  | nil =>
    unfold replay at h
    obtain ⟨u, hcheck, h⟩ := ok_of_bind_eq_ok h
    cases h
  | cons first rest =>
    unfold replay at h
    obtain ⟨u, hcheck, h⟩ := ok_of_bind_eq_ok h
    obtain ⟨st, hrun, h⟩ := ok_of_bind_eq_ok h
    obtain ⟨value, hvalue, h⟩ := ok_of_bind_eq_ok h
    cases h
    obtain ⟨orders, points, hrel, hlogs⟩ := runSteps_orders rate rules rest.length rest 1 first
      ⟨initial, [], [], (({} : Journal).report .preparing 0 rest.length first.date).log
        (.start (first :: rest).length rules.length initial.cash initial.shares rate)⟩
    rw [eq_ok_of_mapError_eq_ok hrun] at hrel hlogs
    simp only [endState, endPortfolio] at hrel hlogs
    refine ⟨first, rest, orders, points, rfl, eq_ok_of_mapError_eq_ok hcheck, hrel, rfl,
      eq_ok_of_mapError_eq_ok hvalue, ?_, ?_, ?_, ?_⟩
    · simpa using hlogs.trades
    · simpa using hlogs.valuation
    · simp [Journal.notify, Journal.log, Journal.report, hlogs.audit]
    · simp [Journal.notify, Journal.log, Journal.report, hlogs.notices]

/-- A replay that fails either has a series that fails its check, with an empty journal, or
placed the orders of its run up to a fault: the run stopped on it, or the initial portfolio
cannot be valued. Its journal then holds the start event and the orders' records. -/
theorem replay_eq_error {rate : Float} {series : List Observation} {rules : List Rule}
    {initial : Portfolio} {f : Fault} {journal : Journal}
    (h : replay rate series rules initial = .error (f, journal)) :
    (checkSeries series = .error f ∧ journal = {}) ∨
    ∃ first rest orders points ending, series = first :: rest ∧
      checkIncreasing first rest = .ok () ∧
      RunOrders rate rules first rest initial orders points ending ∧
      (ending = .error f ∨ (∃ p, ending = .ok p) ∧ valueAt initial first.close = .error f) ∧
      journal.audit = .start series.length rules.length initial.cash initial.shares rate ::
        orders.flatMap Order.events ∧
      journal.notices = orders.flatMap Order.notices := by
  cases series with
  | nil =>
    unfold replay at h
    cases h
    exact .inl ⟨rfl, rfl⟩
  | cons first rest =>
    unfold replay at h
    rcases bind_eq_error h with hcheck | ⟨u, hcheck, h⟩
    · obtain ⟨f', hf', heq⟩ := mapError_eq_error hcheck
      cases heq
      exact .inl ⟨hf', rfl⟩
    have hinc := eq_ok_of_mapError_eq_ok hcheck
    obtain ⟨orders, points, hrel, hlogs⟩ := runSteps_orders rate rules rest.length rest 1 first
      ⟨initial, [], [], (({} : Journal).report .preparing 0 rest.length first.date).log
        (.start (first :: rest).length rules.length initial.cash initial.shares rate)⟩
    rcases bind_eq_error h with hrun | ⟨st, hrun, h⟩
    · -- the run stopped
      obtain ⟨⟨f', st⟩, hf', heq⟩ := mapError_eq_error hrun
      cases heq
      rw [hf'] at hrel hlogs
      simp only [endState, endPortfolio] at hrel hlogs
      exact .inr ⟨first, rest, orders, points, _, rfl, hinc, hrel, .inl rfl,
        by simp [hlogs.audit, Journal.log, Journal.report],
        by simp [hlogs.notices, Journal.log, Journal.report]⟩
    · -- the run completed, and the initial portfolio cannot be valued
      rw [eq_ok_of_mapError_eq_ok hrun] at hrel hlogs
      simp only [endState, endPortfolio] at hrel hlogs
      rcases bind_eq_error h with hvalue | ⟨v, -, h⟩
      · obtain ⟨f', hf', heq⟩ := mapError_eq_error hvalue
        cases heq
        exact .inr ⟨first, rest, orders, points, _, rfl, hinc, hrel, .inr ⟨⟨_, rfl⟩, hf'⟩,
          by simp [hlogs.audit, Journal.log, Journal.report],
          by simp [hlogs.notices, Journal.log, Journal.report]⟩
      · cases h

end Backtest.Simulation
