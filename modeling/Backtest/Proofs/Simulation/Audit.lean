import Backtest.Proofs.Simulation.Orders
import Backtest.Proofs.Ledger.Solvency
import Backtest.Proofs.Ledger.Sizing
import Backtest.Proofs.Formula.Validity

/-!
# The audit trail and the notices of a run

A series that fails its check leaves one record, the failure; otherwise the trail is the start of
the run, the records of the orders in the order they were placed, and exactly one closing record,
and its trade records are the result's trades, one for one (`simulate_audit`). A formula that
passed validation can only divide by zero at a finite `N` and is refused for the letters of `inf` or
`nan` otherwise, so a skipped action carries one of those two codes (`formula_skips`).
-/

namespace Backtest.Formula

/-- The errors a formula that passed validation can give at `N = n`: a division by zero for a
finite `n`, and the characters of the text of `n` when it is infinite or NaN. -/
def ValidFormulaError (n : Float) (e : Error) : Prop :=
  (n.isFinite = true → e = .divisionByZero) ∧
    (n.isFinite = false → ∃ codes, e = .invalidCharacters codes)

theorem evaluate_valid {f : String} (hf : (validate f).valid = true) (n : Float) :
    (∃ v, evaluate f n = .ok v) ∨ ∃ e, evaluate f n = .error e ∧ ValidFormulaError n e := by
  cases hn : n.isFinite
  · obtain ⟨codes, hcodes⟩ := evaluate_of_not_isFinite (validate_valid hf).2.1 hn
    exact .inr ⟨_, hcodes, And.intro (fun h => nomatch hn.symm.trans h) fun _ => ⟨codes, rfl⟩⟩
  · rcases evaluate_of_valid hf hn with hv | hzero
    · exact .inl hv
    · exact .inr ⟨_, hzero, And.intro (fun _ => rfl) fun h => nomatch hn.symm.trans h⟩

theorem ValidFormulaError.code {n : Float} {e : Error} (he : ValidFormulaError n e) :
    (n.isFinite = true → e.code = "DIVISION_BY_ZERO") ∧
      (n.isFinite = false → e.code = "INVALID_CHARACTER") := by
  constructor
  · intro hn
    rw [he.1 hn]
    rfl
  · intro hn
    obtain ⟨codes, rfl⟩ := he.2 hn
    rfl

end Backtest.Formula

namespace Backtest.Simulation

open Backtest.Ledger Backtest.Market Backtest.Rules

/-! ## Order records -/

/-- The trade an audit record records, if it is a trade record. -/
def Event.traded? : Event → Option Trade
  | .trade _ t => some t
  | _ => none

/-- The formula error code of an audit record, if it is a skipped action. -/
def Event.skippedCode? : Event → Option String
  | .skipped _ _ code _ => some code
  | _ => none

/-- Whether an audit record is the record of an order: a trade or a skipped action. -/
def Event.ofOrder : Event → Bool
  | .trade .. | .skipped .. => true
  | _ => false

/-- Whether a notice is the notice of an order: a formula error. -/
def Notice.ofOrder (n : Notice) : Bool :=
  decide (n.alert = .formulaError)

theorem ofOrder_of_mem_events {o : Order} {ev : Event} (h : ev ∈ o.events) : ev.ofOrder = true := by
  unfold Order.events at h
  split at h
  · simp at h
    simp [h, Event.ofOrder]
  · split at h
    · simp at h
      simp [h, Event.ofOrder]
    · cases h

theorem ofOrder_of_mem_notices {o : Order} {n : Notice} (h : n ∈ o.notices) :
    n.ofOrder = true := by
  unfold Order.notices at h
  split at h
  · cases h
  · split at h
    · simp at h
      simp [h, Notice.ofOrder]
    · cases h

theorem filter_events (orders : List Order) :
    (orders.flatMap Order.events).filter Event.ofOrder = orders.flatMap Order.events := by
  rw [List.filter_eq_self]
  intro ev hev
  obtain ⟨o, -, hev⟩ := List.mem_flatMap.mp hev
  exact ofOrder_of_mem_events hev

theorem filter_notices (orders : List Order) :
    (orders.flatMap Order.notices).filter Notice.ofOrder = orders.flatMap Order.notices := by
  rw [List.filter_eq_self]
  intro n hn
  obtain ⟨o, -, hn⟩ := List.mem_flatMap.mp hn
  exact ofOrder_of_mem_notices hn

theorem filterMap_traded_events (orders : List Order) :
    (orders.flatMap Order.events).filterMap Event.traded? = orders.filterMap Order.trade? := by
  induction orders with
  | nil => rfl
  | cons o rest ih =>
    rw [List.flatMap_cons, List.filterMap_append, ih, List.filterMap_cons]
    unfold Order.events Order.trade?
    cases o.outcome.trade with
    | some t => simp [Event.traded?]
    | none =>
      cases o.outcome.reason <;> simp [Event.traded?]

theorem mem_events_skipped {orders : List Order} {label code reason : String}
    {date : Calendar.Date} (h : Event.skipped label date code reason ∈ orders.flatMap Order.events) :
    ∃ o ∈ orders, ∃ e, o.outcome.reason = .formulaError e ∧ label = o.label ∧ date = o.date ∧
      code = e.code ∧ reason = (Reason.formulaError e).text := by
  obtain ⟨o, ho, hev⟩ := List.mem_flatMap.mp h
  unfold Order.events at hev
  split at hev
  · simp at hev
  · split at hev
    · rename_i e hreason
      simp only [List.mem_singleton, Event.skipped.injEq] at hev
      obtain ⟨rfl, rfl, rfl, rfl⟩ := hev
      exact ⟨o, ho, e, hreason, rfl, rfl, rfl, by rw [hreason]⟩
    · cases hev

theorem mem_notices {orders : List Order} {n : Notice}
    (h : n ∈ orders.flatMap Order.notices) :
    ∃ o ∈ orders, ∃ e, o.outcome.reason = .formulaError e ∧
      n = ⟨.formulaError, o.label ++ ": " ++ (Reason.formulaError e).text⟩ := by
  obtain ⟨o, ho, hn⟩ := List.mem_flatMap.mp h
  unfold Order.notices at hn
  split at hn
  · cases hn
  · split at hn
    · rename_i e hreason
      rw [List.mem_singleton] at hn
      exact ⟨o, ho, e, hreason, by rw [hn, hreason]⟩
    · cases hn

/-! ## How a run ends -/

theorem checkRate_error {rate : Float} {f : Fault} (h : checkRate rate = .error f) :
    ∃ message, f = .invalid message := by
  unfold checkRate at h
  split at h
  · cases h
  · cases h
    exact ⟨_, rfl⟩

theorem valueAt_error {p : Portfolio} {price : Float} {f : Fault} (h : valueAt p price = .error f) :
    f = Fault.tooLargeForFloat := by
  unfold valueAt asFloat at h
  split at h
  · cases h
  · cases h
    rfl

theorem simulate_cases (rate : Float) (series : List Observation) (rules : List Rule)
    (initial : Portfolio) :
    (∃ f, checkRate rate = .error f ∧ simulate rate series rules initial = ⟨{}, .error f⟩) ∨
    checkRate rate = .ok rate ∧
      ((∃ R j, replay rate series rules initial = .ok (R, j) ∧
          simulate rate series rules initial = ⟨j, .ok R⟩) ∨
        ∃ f j, replay rate series rules initial = .error (f, j) ∧
          ((∃ kind message, f = .integrity kind message ∧
              simulate rate series rules initial = ⟨j.fail kind message, .error f⟩) ∨
            (∀ kind message, f ≠ .integrity kind message) ∧
              simulate rate series rules initial = ⟨j, .error f⟩)) := by
  unfold simulate
  cases hrate : checkRate rate with
  | error f => exact .inl ⟨f, rfl, rfl⟩
  | ok rate' =>
    obtain ⟨rfl, -⟩ := checkRate_ok hrate
    refine .inr ⟨rfl, ?_⟩
    dsimp only
    cases hrep : replay rate' series rules initial with
    | ok res =>
      obtain ⟨R, j⟩ := res
      exact .inl ⟨R, j, rfl, rfl⟩
    | error stop =>
      obtain ⟨f, j⟩ := stop
      refine .inr ⟨f, j, rfl, ?_⟩
      dsimp only
      split
      · exact .inl ⟨_, _, rfl, rfl⟩
      · rename_i hother
        exact .inr ⟨hother, rfl⟩

theorem simulate_eq_ok {rate : Float} {series : List Observation} {rules : List Rule}
    {initial : Portfolio} {R : Result} (h : (simulate rate series rules initial).outcome = .ok R) :
    replay rate series rules initial = .ok (R, (simulate rate series rules initial).journal) := by
  rcases simulate_cases rate series rules initial with ⟨f, -, hs⟩ | ⟨-, ⟨R', j, hrep, hs⟩ |
    ⟨f, j, -, ⟨_, _, -, hs⟩ | ⟨-, hs⟩⟩⟩ <;> rw [hs] at h ⊢ <;> cases h
  exact hrep

theorem simulate_eq_integrity {rate : Float} {series : List Observation} {rules : List Rule}
    {initial : Portfolio} {kind : Integrity} {message : String}
    (h : (simulate rate series rules initial).outcome = .error (.integrity kind message)) :
    ∃ j, replay rate series rules initial = .error (.integrity kind message, j) ∧
      (simulate rate series rules initial).journal = j.fail kind message := by
  rcases simulate_cases rate series rules initial with ⟨f, hrate, hs⟩ | ⟨-, ⟨R, j, -, hs⟩ |
    ⟨f, j, hrep, ⟨kind', message', rfl, hs⟩ | ⟨hother, hs⟩⟩⟩ <;> rw [hs] at h ⊢ <;> cases h
  · -- a refused rate is an invalid value, not bad market data
    obtain ⟨_, hf⟩ := checkRate_error hrate
    cases hf
  · exact ⟨j, hrep, rfl⟩
  · exact absurd rfl (hother kind message)

theorem simulate_eq_error {rate : Float} {series : List Observation} {rules : List Rule}
    {initial : Portfolio} {f : Fault} (h : (simulate rate series rules initial).outcome = .error f) :
    checkRate rate = .error f ∨ ∃ j, replay rate series rules initial = .error (f, j) := by
  rcases simulate_cases rate series rules initial with ⟨f', hrate, hs⟩ | ⟨-, ⟨R, j, -, hs⟩ |
    ⟨f', j, hrep, ⟨_, _, -, hs⟩ | ⟨-, hs⟩⟩⟩ <;> rw [hs] at h <;> cases h
  · exact .inl hrate
  · exact .inr ⟨j, hrep⟩
  · exact .inr ⟨j, hrep⟩

theorem filter_fail (j : Journal) (kind : Integrity) (message : String) :
    (j.fail kind message).audit.filter Event.ofOrder = j.audit.filter Event.ofOrder ∧
      (j.fail kind message).notices.filter Notice.ofOrder = j.notices.filter Notice.ofOrder := by
  simp [Journal.fail, Journal.log, Journal.notify, Event.ofOrder, Notice.ofOrder]

theorem replay_orderRecords {rate : Float} {series : List Observation} {rules : List Rule}
    {initial : Portfolio} {j : Journal}
    (h : (∃ R, replay rate series rules initial = .ok (R, j)) ∨
      ∃ f, replay rate series rules initial = .error (f, j)) :
    ∃ orders, (orders = [] ∨ ∃ first rest points ending, series = first :: rest ∧
        RunOrders rate rules first rest initial orders points ending) ∧
      j.audit.filter Event.ofOrder = orders.flatMap Order.events ∧
      j.notices.filter Notice.ofOrder = orders.flatMap Order.notices := by
  rcases h with ⟨R, h⟩ | ⟨f, h⟩
  · obtain ⟨first, rest, orders, points, rfl, -, hrun, -, -, -, -, haudit, hnotices⟩ :=
      replay_eq_ok h
    refine ⟨orders, .inr ⟨first, rest, points, _, rfl, hrun⟩, ?_, ?_⟩
    · rw [haudit]
      simp [List.filter_append, filter_events, Event.ofOrder]
    · rw [hnotices]
      simp [List.filter_append, filter_notices, Notice.ofOrder]
  · rcases replay_eq_error h with ⟨-, rfl⟩ | ⟨first, rest, orders, points, ending, rfl, -, hrun, -,
      haudit, hnotices⟩
    · exact ⟨[], .inl rfl, rfl, rfl⟩
    · refine ⟨orders, .inr ⟨first, rest, points, ending, rfl, hrun⟩, ?_, ?_⟩
      · rw [haudit]
        simp [filter_events, Event.ofOrder]
      · rw [hnotices, filter_notices]

/-- Whatever a run's end, the order records of its audit trail and its formula-error notices are
exactly those of the orders it placed, in order. -/
theorem simulate_orderRecords (rate : Float) (series : List Observation) (rules : List Rule)
    (initial : Portfolio) :
    ∃ orders, (orders = [] ∨ ∃ first rest points ending, series = first :: rest ∧
        RunOrders rate rules first rest initial orders points ending) ∧
      (simulate rate series rules initial).journal.audit.filter Event.ofOrder =
        orders.flatMap Order.events ∧
      (simulate rate series rules initial).journal.notices.filter Notice.ofOrder =
        orders.flatMap Order.notices := by
  rcases simulate_cases rate series rules initial with ⟨f, -, hs⟩ | ⟨-, ⟨R, j, hrep, hs⟩ |
    ⟨f, j, hrep, ⟨kind, message, -, hs⟩ | ⟨-, hs⟩⟩⟩ <;> rw [hs]
  · exact ⟨[], .inl rfl, rfl, rfl⟩
  · exact replay_orderRecords (.inl ⟨R, hrep⟩)
  · -- the failure record and notice are no order's
    obtain ⟨orders, hrun, haudit, hnotices⟩ := replay_orderRecords (.inr ⟨f, hrep⟩)
    refine ⟨orders, hrun, ?_⟩
    rw [(filter_fail j kind message).1, (filter_fail j kind message).2]
    exact ⟨haudit, hnotices⟩
  · exact replay_orderRecords (.inr ⟨f, hrep⟩)

/-! ## The audit trail -/

/-- The audit trail of a run that returns, or stops on bad market data: the failure alone for a
series that fails its check; otherwise the start, the records of the orders the run placed, in
order, and one closing record, the completion or the failure. The trade records are the result's
trades, one for one and in order. -/
theorem simulate_audit (rate : Float) (series : List Observation) (rules : List Rule)
    (initial : Portfolio) :
    (∀ R, (simulate rate series rules initial).outcome = .ok R →
      ∃ first rest orders points, series = first :: rest ∧
        RunOrders rate rules first rest initial orders points (.ok R.finalPortfolio) ∧
        R.trades = orders.filterMap Order.trade? ∧
        (simulate rate series rules initial).journal.audit =
          .start series.length rules.length initial.cash initial.shares rate ::
            (orders.flatMap Order.events ++
              [.complete R.trades.length R.finalValue R.totalReturnPct]) ∧
        (simulate rate series rules initial).journal.audit.filterMap Event.traded? = R.trades) ∧
    (∀ kind message,
      (simulate rate series rules initial).outcome = .error (.integrity kind message) →
      (checkSeries series = .error (.integrity kind message) ∧
          (simulate rate series rules initial).journal.audit = [.failed kind.code message]) ∨
        ∃ first rest orders points, series = first :: rest ∧ checkIncreasing first rest = .ok () ∧
          RunOrders rate rules first rest initial orders points (.error (.integrity kind message)) ∧
          (simulate rate series rules initial).journal.audit =
            .start series.length rules.length initial.cash initial.shares rate ::
              (orders.flatMap Order.events ++ [.failed kind.code message])) := by
  refine ⟨fun R h => ?_, fun kind message h => ?_⟩
  · obtain ⟨first, rest, orders, points, hs, -, hrun, -, -, htrades, -, haudit, -⟩ :=
      replay_eq_ok (simulate_eq_ok h)
    refine ⟨first, rest, orders, points, hs, hrun, htrades, haudit, ?_⟩
    rw [haudit, List.filterMap_cons, List.filterMap_append, filterMap_traded_events, htrades]
    simp [Event.traded?]
  · obtain ⟨j, hrep, hj⟩ := simulate_eq_integrity h
    rw [hj]
    rcases replay_eq_error hrep with ⟨hcheck, rfl⟩ | ⟨first, rest, orders, points, ending, hs, hinc,
      hrun, hend, haudit, -⟩
    · exact .inl ⟨hcheck, rfl⟩
    · -- the initial portfolio fails to be valued only on too many shares, not on bad data
      have hending : ending = .error (.integrity kind message) := by
        rcases hend with hend | ⟨-, hvalue⟩
        · exact hend
        · cases valueAt_error hvalue
      rw [hending] at hrun
      refine .inr ⟨first, rest, orders, points, hs, hinc, hrun, ?_⟩
      simp [Journal.fail, Journal.notify, Journal.log, haudit]

/-- Two days buying two shares on the second: the run's one trade is the one trade record of its
audit trail. -/
theorem simulate_audit_two_days :
    (simulate 0.0 [⟨⟨2024, 1, 1⟩, 10.0, 10.0, 10.0, 10.0, 0.0⟩, ⟨⟨2024, 1, 2⟩, 11.0, 11.0, 11.0, 11.0, 0.0⟩]
        [{ condition := .always, action := .shares .buy 2 }] ⟨100.0, 0⟩).outcome =
      .ok ⟨⟨100.0, 0⟩, 100.0, ⟨78.0, 2⟩, [⟨.buy, 2, 11.0, 0.0, 22.0, some ⟨2024, 1, 2⟩⟩],
        [⟨⟨2024, 1, 2⟩, 78.0, 2, 11.0, 100.0⟩]⟩ ∧
    (simulate 0.0 [⟨⟨2024, 1, 1⟩, 10.0, 10.0, 10.0, 10.0, 0.0⟩, ⟨⟨2024, 1, 2⟩, 11.0, 11.0, 11.0, 11.0, 0.0⟩]
        [{ condition := .always, action := .shares .buy 2 }] ⟨100.0, 0⟩).journal.audit.filterMap
        Event.traded? = [⟨.buy, 2, 11.0, 0.0, 22.0, some ⟨2024, 1, 2⟩⟩] := by
  have hrun : (simulate 0.0
      [⟨⟨2024, 1, 1⟩, 10.0, 10.0, 10.0, 10.0, 0.0⟩, ⟨⟨2024, 1, 2⟩, 11.0, 11.0, 11.0, 11.0, 0.0⟩]
      [{ condition := .always, action := .shares .buy 2 }] ⟨100.0, 0⟩).outcome =
      .ok ⟨⟨100.0, 0⟩, 100.0, ⟨78.0, 2⟩, [⟨.buy, 2, 11.0, 0.0, 22.0, some ⟨2024, 1, 2⟩⟩],
        [⟨⟨2024, 1, 2⟩, 78.0, 2, 11.0, 100.0⟩]⟩ := rfl
  obtain ⟨-, -, -, -, -, -, -, -, htraded⟩ := (simulate_audit _ _ _ _).1 _ hrun
  exact ⟨hrun, htraded⟩

/-! ## Skipped formula actions -/

theorem RunOrders.formulaError {rate : Float} {rules : List Rule} {previous : Observation}
    {obs : List Observation} {p : Portfolio} {orders : List Order} {points : List Valuation}
    {r : Except Fault Portfolio} (hrules : ∀ rule ∈ rules, ∃ doc, parseAction doc = .ok rule.action)
    (hrun : RunOrders rate rules previous obs p orders points r) {o : Order} (ho : o ∈ orders)
    {e : Formula.Error} (he : o.outcome.reason = .formulaError e) :
    Formula.ValidFormulaError o.derived e := by
  obtain ⟨rule, hrule, -, price, q, hexec⟩ := hrun.executes o ho
  obtain ⟨side, measure, text, haction, heval⟩ := execute_formulaError hexec he
  obtain ⟨doc, hdoc⟩ := hrules rule hrule
  have hvalid : (Formula.validate text).valid = true :=
    Formula.parseAction_valid hdoc (by rw [haction]; rfl)
  rcases Formula.evaluate_valid hvalid o.derived with ⟨v, hv⟩ | ⟨e', he', hvalidError⟩
  · rw [hv] at heval
    cases heval
  · rw [he'] at heval
    cases heval
    exact hvalidError

/-- A formula that passed validation has a value or divides by zero at every finite `N`, and is
refused for the characters of `inf` or `nan` at an infinite or NaN `N`. So in a run whose actions
were built by `parseAction`, every skipped action in the audit trail and every formula-error notice
comes from an order the run placed whose formula divided by zero, when the percentage change it
was given was finite, or was refused for its characters, when it was not. -/
theorem formula_skips {rules : List Rule}
    (hrules : ∀ rule ∈ rules, ∃ doc, parseAction doc = .ok rule.action) :
    (∀ f n, (Formula.validate f).valid = true →
      (∃ v, Formula.evaluate f n = .ok v) ∨
        ∃ e, Formula.evaluate f n = .error e ∧ Formula.ValidFormulaError n e) ∧
    ∀ rate series initial,
      (∀ label date code reason,
        Event.skipped label date code reason ∈ (simulate rate series rules initial).journal.audit →
        ∃ first rest orders points ending, series = first :: rest ∧
          RunOrders rate rules first rest initial orders points ending ∧
          ∃ o ∈ orders, ∃ e, Formula.ValidFormulaError o.derived e ∧ label = o.label ∧
            date = o.date ∧ code = e.code ∧ reason = (Reason.formulaError e).text) ∧
      (∀ n ∈ (simulate rate series rules initial).journal.notices, n.alert = .formulaError →
        ∃ first rest orders points ending, series = first :: rest ∧
          RunOrders rate rules first rest initial orders points ending ∧
          ∃ o ∈ orders, ∃ e, Formula.ValidFormulaError o.derived e ∧
            n.message = o.label ++ ": " ++ (Reason.formulaError e).text) := by
  refine ⟨fun f n hf => Formula.evaluate_valid hf n, fun rate series initial => ?_⟩
  obtain ⟨orders, hrun, haudit, hnotices⟩ := simulate_orderRecords rate series rules initial
  constructor
  · intro label date code reason hmem
    have hrecord : Event.skipped label date code reason ∈ orders.flatMap Order.events := by
      rw [← haudit]
      exact List.mem_filter.mpr ⟨hmem, rfl⟩
    obtain ⟨o, ho, e, he, hlabel, hdate, hcode, hreason⟩ := mem_events_skipped hrecord
    rcases hrun with rfl | ⟨first, rest, points, ending, hs, hrun⟩
    · cases ho
    · exact ⟨first, rest, orders, points, ending, hs, hrun, o, ho, e,
        hrun.formulaError hrules ho he, hlabel, hdate, hcode, hreason⟩
  · intro n hmem halert
    have hnotice : n ∈ orders.flatMap Order.notices := by
      rw [← hnotices]
      exact List.mem_filter.mpr ⟨hmem, by simp [Notice.ofOrder, halert]⟩
    obtain ⟨o, ho, e, he, rfl⟩ := mem_notices hnotice
    rcases hrun with rfl | ⟨first, rest, points, ending, hs, hrun⟩
    · cases ho
    · exact ⟨first, rest, orders, points, ending, hs, hrun, o, ho, e,
        hrun.formulaError hrules ho he, rfl⟩

theorem parseAction_buyFormulaN :
    parseAction (.map [(.str "type", .str "buy_formula_amount"), (.str "formula", .str "N")]) =
      .ok (.formula .buy .amount "N") := by
  have hvalid : (Formula.validate "N").valid = true := by decide +kernel
  have hbuild : buildAction
      (.map [(.str "type", .str "buy_formula_amount"), (.str "formula", .str "N")]) =
      .ok (.formula .buy .amount "N") := rfl
  simp [parseAction, hbuild, bind, Except.bind, Action.formula?, hvalid, pure, Except.pure]

/-- A run that buys for its close's percentage change, from a close of `1e-300` to `1e300`: the
skipped action it records comes from an order whose formula error is one a valid formula gives. -/
theorem formula_skips_changeRule :
    (∀ rule ∈ [({ condition := .change .close 0.0 .up, action := .formula .buy .amount "N" } : Rule)],
        ∃ doc, parseAction doc = .ok rule.action) ∧
      ∀ label date code reason, Event.skipped label date code reason ∈
        (simulate 0.0 [⟨⟨2024, 1, 1⟩, 1e-300, 1e-300, 1e-300, 1e-300, 0.0⟩,
            ⟨⟨2024, 1, 2⟩, 1e300, 1e300, 1e300, 1e300, 0.0⟩]
          [{ condition := .change .close 0.0 .up, action := .formula .buy .amount "N" }]
          ⟨1000.0, 0⟩).journal.audit →
        ∃ first rest orders points ending,
          [(⟨⟨2024, 1, 1⟩, 1e-300, 1e-300, 1e-300, 1e-300, 0.0⟩ : Observation),
            ⟨⟨2024, 1, 2⟩, 1e300, 1e300, 1e300, 1e300, 0.0⟩] = first :: rest ∧
          RunOrders 0.0 [{ condition := .change .close 0.0 .up, action := .formula .buy .amount "N" }]
            first rest ⟨1000.0, 0⟩ orders points ending ∧
          ∃ o ∈ orders, ∃ e, Formula.ValidFormulaError o.derived e ∧ label = o.label ∧
            date = o.date ∧ code = e.code ∧ reason = (Reason.formulaError e).text := by
  have hrules : ∀ rule ∈
      [({ condition := .change .close 0.0 .up, action := .formula .buy .amount "N" } : Rule)],
      ∃ doc, parseAction doc = .ok rule.action := by
    intro rule hrule
    rw [List.mem_singleton] at hrule
    subst hrule
    exact ⟨_, parseAction_buyFormulaN⟩
  exact ⟨hrules, ((formula_skips hrules).2 0.0 _ ⟨1000.0, 0⟩).1⟩

/-- The same run skips its action with `INVALID_CHARACTER`, not `DIVISION_BY_ZERO`: the change
from `1e-300` to `1e300` overflows to infinity, written `inf` into the formula. -/
theorem formula_skip_infiniteChange :
    (∀ rule ∈ [({ condition := .change .close 0.0 .up, action := .formula .buy .amount "N" } : Rule)],
        ∃ doc, parseAction doc = .ok rule.action) ∧
      (simulate 0.0 [⟨⟨2024, 1, 1⟩, 1e-300, 1e-300, 1e-300, 1e-300, 0.0⟩,
            ⟨⟨2024, 1, 2⟩, 1e300, 1e300, 1e300, 1e300, 0.0⟩]
          [{ condition := .change .close 0.0 .up, action := .formula .buy .amount "N" }]
          ⟨1000.0, 0⟩).journal.audit.filterMap Event.skippedCode? = ["INVALID_CHARACTER"] := by
  refine ⟨?_, by decide +kernel⟩
  intro rule hrule
  rw [List.mem_singleton] at hrule
  subst hrule
  exact ⟨_, parseAction_buyFormulaN⟩

end Backtest.Simulation
