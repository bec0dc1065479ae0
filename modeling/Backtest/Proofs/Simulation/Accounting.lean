import Backtest.Simulation.Run
import Backtest.Proofs.Ledger.Fills
import Mathlib

/-!
# The ledger of a run accounts for its portfolio

A completed run's portfolio is the initial one moved by the trades of its ledger and nothing else,
with the same float operations the run performed; its trades are dated and priced by the steps that
made them, so they come in date order, and each step records one valuation point of the trades up
to its date (`simulate_ledger`). One rule application passes or records one outcome
(`applyRule_eq_ok`); the rules of a step and the steps of a run compose (`runSteps_ledger`).
-/

namespace Backtest.Calendar

/-! Dates are ordered by their keys, so they take the order laws of the natural numbers. -/

theorem Date.le_refl (a : Date) : a ≤ a := Nat.le_refl a.key

theorem Date.le_of_lt {a b : Date} (h : a < b) : a ≤ b := Nat.le_of_lt h

theorem Date.lt_of_not_le {a b : Date} (h : ¬ a ≤ b) : b < a := Nat.lt_of_not_le h

theorem Date.not_le_of_lt {a b : Date} (h : a < b) : ¬ b ≤ a := Nat.not_le_of_lt h

theorem Date.le_trans {a b c : Date} (h₁ : a ≤ b) (h₂ : b ≤ c) : a ≤ c := Nat.le_trans h₁ h₂

theorem Date.lt_trans {a b c : Date} (h₁ : a < b) (h₂ : b < c) : a < c := Nat.lt_trans h₁ h₂

theorem Date.lt_of_le_of_lt {a b c : Date} (h₁ : a ≤ b) (h₂ : b < c) : a < c :=
  Nat.lt_of_le_of_lt h₁ h₂

end Backtest.Calendar

namespace Backtest.Ledger

/-! ## The ledger view of a list of trades -/

/-- The cash after a list of trades, in ledger order, from `cash`. -/
def cashAfter (cash : Float) (trades : List Trade) : Float :=
  trades.foldl (fun c t => t.settleCash c) cash

/-- The shares bought by a list of trades. -/
def boughtQuantity (trades : List Trade) : Nat :=
  ((trades.filter (·.side = .buy)).map (·.quantity)).sum

/-- The shares sold by a list of trades. -/
def soldQuantity (trades : List Trade) : Nat :=
  ((trades.filter (·.side = .sell)).map (·.quantity)).sum

/-- Whether a trade is dated on or before a day. -/
def Trade.datedBy (t : Trade) (d : Calendar.Date) : Bool :=
  match t.date with
  | some e => decide (e ≤ d)
  | none => false

/-- Two trades dated in order. -/
def DatedInOrder (a b : Trade) : Prop :=
  ∃ da db, a.date = some da ∧ b.date = some db ∧ da ≤ db

@[simp] theorem cashAfter_nil (cash : Float) : cashAfter cash [] = cash := rfl

@[simp] theorem cashAfter_append (cash : Float) (a b : List Trade) :
    cashAfter cash (a ++ b) = cashAfter (cashAfter cash a) b := by
  simp [cashAfter, List.foldl_append]

@[simp] theorem cashAfter_singleton (cash : Float) (t : Trade) :
    cashAfter cash [t] = t.settleCash cash := rfl

theorem boughtQuantity_append (a b : List Trade) :
    boughtQuantity (a ++ b) = boughtQuantity a + boughtQuantity b := by
  simp [boughtQuantity, List.filter_append]

theorem soldQuantity_append (a b : List Trade) :
    soldQuantity (a ++ b) = soldQuantity a + soldQuantity b := by
  simp [soldQuantity, List.filter_append]

theorem shareChange_sum (trades : List Trade) :
    (trades.map Trade.shareChange).sum =
      (boughtQuantity trades : Int) - soldQuantity trades := by
  induction trades with
  | nil => simp [boughtQuantity, soldQuantity]
  | cons t ts ih =>
    have hsplit : t :: ts = [t] ++ ts := rfl
    rw [hsplit, boughtQuantity_append, soldQuantity_append, List.map_append, List.sum_append, ih]
    cases hside : t.side <;> simp [boughtQuantity, soldQuantity, Trade.shareChange, hside] <;> omega

end Backtest.Ledger

namespace Backtest.Simulation

open Backtest.Ledger Backtest.Market Backtest.Rules

/-! ## Dates -/

theorem checkIncreasing_lt {previous : Observation} {obs : List Observation}
    (h : checkIncreasing previous obs = .ok ()) : ∀ o ∈ obs, previous.date < o.date := by
  induction obs generalizing previous with
  | nil => simp
  | cons o rest ih =>
    unfold checkIncreasing at h
    split at h
    · cases h
    · rename_i hlt
      have hfirst : previous.date < o.date := Calendar.Date.lt_of_not_le hlt
      intro o' ho'
      rcases List.mem_cons.1 ho' with rfl | ho'
      · exact hfirst
      · exact Calendar.Date.lt_trans hfirst (ih h o' ho')

/-! ## One step -/

/-- The ledger of a run so far: the portfolio is the initial one moved by the trades made. -/
structure Ledger (initial : Portfolio) (st : State) : Prop where
  cash_eq : st.portfolio.cash = cashAfter initial.cash st.trades
  shares_eq : (st.portfolio.shares : Int) = initial.shares + (st.trades.map Trade.shareChange).sum

@[simp] theorem State.record_trades (st : State) (rule : String) (date : Calendar.Date)
    (o : Outcome) :
    (st.record rule date o).trades =
      st.trades ++ (o.trade.map fun t => { t with date := some date }).toList := by
  unfold State.record
  cases o.trade with
  | some t => simp
  | none =>
    simp only [Option.map_none, Option.toList_none, List.append_nil]
    split <;> rfl

@[simp] theorem State.record_portfolio (st : State) (rule : String) (date : Calendar.Date)
    (o : Outcome) : (st.record rule date o).portfolio = o.portfolio := by
  unfold State.record
  dsimp only
  split
  · rfl
  · split <;> rfl

@[simp] theorem State.record_valuation (st : State) (rule : String) (date : Calendar.Date)
    (o : Outcome) : (st.record rule date o).valuation = st.valuation := by
  unfold State.record
  dsimp only
  split
  · rfl
  · split <;> rfl

/-- What a step does to the state: keeps the valuation, appends trades dated by the step and
priced at its close, and moves the portfolio by exactly those trades. -/
structure StepAppends (initial : Portfolio) (current : Observation) (st st' : State) : Prop where
  valuation_eq : st'.valuation = st.valuation
  trades_eq : ∃ new, st'.trades = st.trades ++ new ∧
    ∀ t ∈ new, t.date = some current.date ∧ t.price = current.close
  ledger : Ledger initial st → Ledger initial st'

theorem StepAppends.refl (initial : Portfolio) (current : Observation) (st : State) :
    StepAppends initial current st st :=
  ⟨rfl, ⟨[], by simp, by simp⟩, id⟩

theorem StepAppends.trans {initial : Portfolio} {current : Observation} {st₁ st₂ st₃ : State}
    (h₁ : StepAppends initial current st₁ st₂) (h₂ : StepAppends initial current st₂ st₃) :
    StepAppends initial current st₁ st₃ where
  valuation_eq := h₂.valuation_eq.trans h₁.valuation_eq
  trades_eq := by
    obtain ⟨new₁, h₁t, h₁n⟩ := h₁.trades_eq
    obtain ⟨new₂, h₂t, h₂n⟩ := h₂.trades_eq
    refine ⟨new₁ ++ new₂, by rw [h₂t, h₁t, List.append_assoc], fun t ht => ?_⟩
    rcases List.mem_append.1 ht with ht | ht
    · exact h₁n t ht
    · exact h₂n t ht
  ledger := h₂.ledger ∘ h₁.ledger

theorem within_eq_ok {α : Type} {st : State} {x : Except Fault α} {a : α}
    (h : within st x = .ok a) : x = .ok a := by
  exact eq_ok_of_mapError_eq_ok h

/-- A rule application that succeeds passes the rule by, or records the outcome of executing the
rule's action at the step's close on the state's portfolio. -/
theorem applyRule_eq_ok {rate : Float} {current previous : Observation} {position : Nat}
    {rule : Rule} {st st' : State}
    (h : applyRule rate current previous position rule st = .ok st') :
    st' = st ∨ ∃ derived o, execute rate rule.action current.close st.portfolio derived = .ok o ∧
      st' = st.record (label rule position) current.date o := by
  unfold applyRule at h
  split at h
  · cases h
    exact .inl rfl
  · obtain ⟨v, -, h⟩ := ok_of_bind_eq_ok h
    split at h
    · cases h
      exact .inl rfl
    · obtain ⟨o, ho, h⟩ := ok_of_bind_eq_ok h
      cases h
      exact .inr ⟨v.derived, o, within_eq_ok ho, rfl⟩

theorem record_step {initial : Portfolio} {current : Observation} {st : State} {rule : String}
    {o : Outcome} (ho : Accounts st.portfolio current.close o) :
    StepAppends initial current st (st.record rule current.date o) := by
  cases ho with
  | unfilled htrade hport =>
    refine ⟨by simp, ⟨[], by simp [htrade], by simp⟩, fun hl => ⟨?_, ?_⟩⟩
    · simp [htrade, hport, hl.cash_eq]
    · simp [htrade, hport, hl.shares_eq]
  | @filled t htrade hprice _ hcash hshares =>
    refine ⟨by simp, ⟨[{ t with date := some current.date }], by simp [htrade], ?_⟩,
      fun hl => ⟨?_, ?_⟩⟩
    · intro t' ht'
      rw [List.mem_singleton.1 ht']
      exact ⟨rfl, hprice⟩
    · simp only [State.record_portfolio, State.record_trades, htrade, Option.map_some,
        Option.toList_some, cashAfter_append, cashAfter_singleton, hcash, hl.cash_eq]
      rfl
    · simp only [State.record_portfolio, State.record_trades, htrade, Option.map_some,
        Option.toList_some, List.map_append, List.map_cons, List.map_nil, List.sum_append,
        List.sum_cons, List.sum_nil, hshares, hl.shares_eq]
      simp only [Trade.shareChange]
      omega

theorem applyRule_step {rate : Float} {current previous : Observation} {position : Nat}
    {rule : Rule} {st st' : State} (initial : Portfolio)
    (h : applyRule rate current previous position rule st = .ok st') :
    StepAppends initial current st st' := by
  rcases applyRule_eq_ok h with rfl | ⟨derived, o, ho, rfl⟩
  · exact StepAppends.refl initial current st'
  · exact record_step (execute_accounts ho)

theorem applyRules_step {rate : Float} {current previous : Observation} (initial : Portfolio) :
    ∀ (rules : List Rule) (position : Nat) (st st' : State),
      applyRules rate current previous position rules st = .ok st' →
      StepAppends initial current st st'
  | [], _, st, st', h => by
    cases h
    exact StepAppends.refl initial current st
  | rule :: rest, position, st, st', h => by
    obtain ⟨st₁, h₁, h⟩ := ok_of_bind_eq_ok h
    exact (applyRule_step initial h₁).trans (applyRules_step initial rest (position + 1) st₁ st' h)

/-! ## The run -/

/-- The valuation point recorded at the close of `o`, as the ledger `trades` dictates. -/
structure PointMatches (initial : Portfolio) (trades : List Trade) (v : Valuation)
    (o : Observation) : Prop where
  date_eq : v.date = o.date
  close_eq : v.close = o.close
  cash_eq : v.cash = cashAfter initial.cash (trades.filter (·.datedBy o.date))
  shares_eq : (v.shares : Int) = initial.shares + boughtQuantity (trades.filter (·.datedBy o.date)) -
    soldQuantity (trades.filter (·.datedBy o.date))
  value_eq : v.totalValue = v.cash + Float.ofInt v.shares * v.close

theorem valueAt_eq {p : Portfolio} {price value : Float} (h : valueAt p price = .ok value) :
    value = p.cash + Float.ofInt p.shares * price := by
  obtain ⟨s, hs, h⟩ := ok_of_bind_eq_ok h
  cases h
  rw [asFloat_eq_ok hs]
  rfl

@[simp] theorem State.close_trades (st : State) (point : Valuation) (step total : Nat) :
    (st.close point step total).trades = st.trades := rfl

@[simp] theorem State.close_portfolio (st : State) (point : Valuation) (step total : Nat) :
    (st.close point step total).portfolio = st.portfolio := rfl

@[simp] theorem State.close_valuation (st : State) (point : Valuation) (step total : Nat) :
    (st.close point step total).valuation = st.valuation ++ [point] := rfl

theorem filter_datedBy_of_le {trades : List Trade} {d : Calendar.Date}
    (h : ∀ t ∈ trades, ∃ e, t.date = some e ∧ e ≤ d) : trades.filter (·.datedBy d) = trades := by
  apply List.filter_eq_self.2
  intro t ht
  obtain ⟨e, he, hle⟩ := h t ht
  simp [Trade.datedBy, he, hle]

theorem filter_datedBy_of_lt {trades : List Trade} {d : Calendar.Date}
    (h : ∀ t ∈ trades, ∃ e, t.date = some e ∧ d < e) : trades.filter (·.datedBy d) = [] := by
  apply List.filter_eq_nil_iff.2
  intro t ht
  obtain ⟨e, he, hlt⟩ := h t ht
  simp [Trade.datedBy, he, Calendar.Date.not_le_of_lt hlt]

theorem ledger_close {initial : Portfolio} {st : State} (h : Ledger initial st) (point : Valuation)
    (step total : Nat) : Ledger initial (st.close point step total) :=
  ⟨h.cash_eq, h.shares_eq⟩

/-- The run from `previous` through `obs`: the ledger keeps accounting for the portfolio, the
trades it adds are dated and priced by the observations and come in date order, and it records
one valuation point per observation, matching the final ledger. -/
theorem runSteps_ledger {rate : Float} {rules : List Rule} {total : Nat} {initial : Portfolio} :
    ∀ (obs : List Observation) (step : Nat) (previous : Observation) (st st' : State),
      runSteps rate rules total step previous obs st = .ok st' →
      checkIncreasing previous obs = .ok () →
      Ledger initial st →
      (∀ t ∈ st.trades, ∃ e, t.date = some e ∧ e ≤ previous.date) →
      Ledger initial st' ∧
      (∃ new, st'.trades = st.trades ++ new ∧
        (∀ t ∈ new, ∃ o ∈ obs, t.date = some o.date ∧ t.price = o.close) ∧
        new.Pairwise DatedInOrder) ∧
      (∃ points, st'.valuation = st.valuation ++ points ∧
        List.Forall₂ (PointMatches initial st'.trades) points obs)
  | [], _, _, st, st', h, _, hl, _ => by
    cases h
    exact ⟨hl, ⟨[], by simp, by simp, .nil⟩, ⟨[], by simp, .nil⟩⟩
  | o :: rest, step, previous, st, st', h, hinc, hl, hdated => by
    obtain ⟨st₁, h₁, h⟩ := ok_of_bind_eq_ok h
    obtain ⟨value, hvalue, h⟩ := ok_of_bind_eq_ok h
    have hvalue := valueAt_eq (within_eq_ok hvalue)
    -- the checks on this observation and on the rest
    unfold checkIncreasing at hinc
    split at hinc
    · cases hinc
    rename_i hnotle
    have hafter : previous.date < o.date := Calendar.Date.lt_of_not_le hnotle
    have hrest := checkIncreasing_lt hinc
    -- the step on `o`
    have hstep := applyRules_step initial rules 0 st st₁ h₁
    obtain ⟨new₁, htrades₁, hnew₁⟩ := hstep.trades_eq
    have hl₁ := hstep.ledger hl
    have hdated₁ : ∀ t ∈ st₁.trades, ∃ e, t.date = some e ∧ e ≤ o.date := by
      intro t ht
      rw [htrades₁] at ht
      rcases List.mem_append.1 ht with ht | ht
      · obtain ⟨e, he, hle⟩ := hdated t ht
        exact ⟨e, he, Calendar.Date.le_of_lt (Calendar.Date.lt_of_le_of_lt hle hafter)⟩
      · exact ⟨o.date, (hnew₁ t ht).1, Calendar.Date.le_refl _⟩
    -- the rest of the run
    obtain ⟨hl', ⟨newᵣ, htradesᵣ, hnewᵣ, hpairᵣ⟩, ⟨pointsᵣ, hvalᵣ, hpointsᵣ⟩⟩ :=
      runSteps_ledger rest (step + 1) o _ st' h hinc (ledger_close hl₁ _ _ _) hdated₁
    simp only [State.close_trades, State.close_valuation] at htradesᵣ hvalᵣ
    have hlaterᵣ : ∀ t ∈ newᵣ, ∃ e, t.date = some e ∧ o.date < e := by
      intro t ht
      obtain ⟨o', ho', hdate, -⟩ := hnewᵣ t ht
      exact ⟨o'.date, hdate, hrest o' ho'⟩
    refine ⟨hl', ⟨new₁ ++ newᵣ, ?_, ?_, ?_⟩,
      ⟨⟨o.date, st₁.portfolio.cash, st₁.portfolio.shares, o.close, value⟩ :: pointsᵣ, ?_,
        .cons ?_ hpointsᵣ⟩⟩
    · rw [htradesᵣ, htrades₁, List.append_assoc]
    · intro t ht
      rcases List.mem_append.1 ht with ht | ht
      · exact ⟨o, List.mem_cons_self .., hnew₁ t ht⟩
      · obtain ⟨o', ho', hdate, hprice⟩ := hnewᵣ t ht
        exact ⟨o', List.mem_cons_of_mem _ ho', hdate, hprice⟩
    · refine List.pairwise_append.2 ⟨?_, hpairᵣ, ?_⟩
      · refine List.pairwise_of_forall_mem_list fun a ha b hb => ?_
        exact ⟨o.date, o.date, (hnew₁ a ha).1, (hnew₁ b hb).1, Calendar.Date.le_refl _⟩
      · intro a ha b hb
        obtain ⟨e, he, hlt⟩ := hlaterᵣ b hb
        exact ⟨o.date, e, (hnew₁ a ha).1, he, Calendar.Date.le_of_lt hlt⟩
    · rw [hvalᵣ, hstep.valuation_eq, List.append_assoc, List.singleton_append]
    · -- the point of this step sees exactly the trades made up to it
      have hfilter : st'.trades.filter (·.datedBy o.date) = st₁.trades := by
        rw [htradesᵣ, List.filter_append, filter_datedBy_of_le hdated₁,
          filter_datedBy_of_lt hlaterᵣ, List.append_nil]
      refine ⟨rfl, rfl, ?_, ?_, hvalue⟩
      · rw [hfilter]
        exact hl₁.cash_eq
      · rw [hfilter, Int.sub_eq_add_neg, Int.add_assoc, ← Int.sub_eq_add_neg, ← shareChange_sum]
        exact hl₁.shares_eq

theorem replay_ok {rate : Float} {series : List Observation} {rules : List Rule}
    {initial : Portfolio} {r : Result} {j : Journal} (h : replay rate series rules initial = .ok (r, j)) :
    ∃ first rest journal st, series = first :: rest ∧ checkIncreasing first rest = .ok () ∧
      runSteps rate rules rest.length 1 first rest ⟨initial, [], [], journal⟩ = .ok st ∧
      r.finalPortfolio = st.portfolio ∧ r.trades = st.trades ∧ r.valuation = st.valuation := by
  cases series with
  | nil =>
    unfold replay at h
    obtain ⟨u, hcheck, h⟩ := ok_of_bind_eq_ok h
    cases h
  | cons first rest =>
    unfold replay at h
    obtain ⟨u, hcheck, h⟩ := ok_of_bind_eq_ok h
    obtain ⟨st, hrun, h⟩ := ok_of_bind_eq_ok h
    obtain ⟨value, -, h⟩ := ok_of_bind_eq_ok h
    cases h
    exact ⟨first, rest, _, st, rfl, eq_ok_of_mapError_eq_ok hcheck, eq_ok_of_mapError_eq_ok hrun,
      rfl, rfl, rfl⟩

theorem simulate_ok {rate : Float} {series : List Observation} {rules : List Rule}
    {initial : Portfolio} {r : Result} (h : (simulate rate series rules initial).outcome = .ok r) :
    ∃ rate' j, checkRate rate = .ok rate' ∧ replay rate' series rules initial = .ok (r, j) := by
  unfold simulate at h
  split at h
  · cases h
  · rename_i rate' hrate
    split at h
    · rename_i result journal hreplay
      cases h
      exact ⟨rate', journal, hrate, hreplay⟩
    · split at h <;> cases h

/-- A completed run accounts for its portfolio by its ledger: the final shares are the initial
shares plus those bought less those sold; the final cash is the initial cash moved by each
trade's total in ledger order; there is one valuation point per observation after the first,
carrying its date and close and the cash and shares of the trades dated up to it, valued at the
close; every trade is dated and priced by an observation after the first, and trades come in
date order. -/
theorem simulate_ledger {rate : Float} {series : List Observation} {rules : List Rule}
    {initial : Portfolio} {r : Result} (h : (simulate rate series rules initial).outcome = .ok r) :
    (r.finalPortfolio.shares : Int) =
        initial.shares + boughtQuantity r.trades - soldQuantity r.trades ∧
      r.finalPortfolio.cash = cashAfter initial.cash r.trades ∧
      List.Forall₂ (PointMatches initial r.trades) r.valuation series.tail ∧
      (∀ t ∈ r.trades, ∃ o ∈ series.tail, t.date = some o.date ∧ t.price = o.close) ∧
      r.trades.Pairwise DatedInOrder := by
  obtain ⟨rate', j, -, hreplay⟩ := simulate_ok h
  obtain ⟨first, rest, journal, st, rfl, hinc, hrun, hport, htrades, hval⟩ := replay_ok hreplay
  have hstart : Ledger initial ⟨initial, [], [], journal⟩ := ⟨rfl, by simp⟩
  obtain ⟨hl, ⟨new, hnew, hdated, hpair⟩, ⟨points, hpoints, hmatch⟩⟩ :=
    runSteps_ledger rest 1 first _ st hrun hinc hstart (by simp)
  simp only [List.nil_append] at hnew hpoints
  rw [hport, htrades, hval]
  refine ⟨?_, hl.cash_eq, ?_, ?_, ?_⟩
  · rw [hl.shares_eq, shareChange_sum]
    omega
  · rw [hpoints]
    exact hmatch
  · rw [hnew]
    exact hdated
  · rw [hnew]
    exact hpair

theorem simulate_ledger_two_days :
    (simulate 0.0 [⟨⟨2024, 1, 1⟩, 10.0, 10.0, 10.0, 10.0, 0.0⟩, ⟨⟨2024, 1, 2⟩, 11.0, 11.0, 11.0, 11.0, 0.0⟩]
        [{ condition := .always, action := .shares .buy 2 }] ⟨100.0, 0⟩).outcome =
      .ok ⟨⟨100.0, 0⟩, 100.0, ⟨78.0, 2⟩, [⟨.buy, 2, 11.0, 0.0, 22.0, some ⟨2024, 1, 2⟩⟩],
        [⟨⟨2024, 1, 2⟩, 78.0, 2, 11.0, 100.0⟩]⟩ ∧
    (((2 : Nat) : Int) = (0 : Nat) + boughtQuantity [⟨.buy, 2, 11.0, 0.0, 22.0, some ⟨2024, 1, 2⟩⟩] -
        soldQuantity [⟨.buy, 2, 11.0, 0.0, 22.0, some ⟨2024, 1, 2⟩⟩] ∧
      (78.0 : Float) = cashAfter 100.0 [⟨.buy, 2, 11.0, 0.0, 22.0, some ⟨2024, 1, 2⟩⟩] ∧
      List.Forall₂ (PointMatches ⟨100.0, 0⟩ [⟨.buy, 2, 11.0, 0.0, 22.0, some ⟨2024, 1, 2⟩⟩])
        [⟨⟨2024, 1, 2⟩, 78.0, 2, 11.0, 100.0⟩] [⟨⟨2024, 1, 2⟩, 11.0, 11.0, 11.0, 11.0, 0.0⟩] ∧
      (∀ t ∈ [(⟨.buy, 2, 11.0, 0.0, 22.0, some ⟨2024, 1, 2⟩⟩ : Trade)],
        ∃ o ∈ [(⟨⟨2024, 1, 2⟩, 11.0, 11.0, 11.0, 11.0, 0.0⟩ : Observation)],
          t.date = some o.date ∧ t.price = o.close) ∧
      [(⟨.buy, 2, 11.0, 0.0, 22.0, some ⟨2024, 1, 2⟩⟩ : Trade)].Pairwise DatedInOrder) :=
  ⟨rfl, @simulate_ledger 0.0
    [⟨⟨2024, 1, 1⟩, 10.0, 10.0, 10.0, 10.0, 0.0⟩, ⟨⟨2024, 1, 2⟩, 11.0, 11.0, 11.0, 11.0, 0.0⟩]
    [{ condition := .always, action := .shares .buy 2 }] ⟨100.0, 0⟩
    ⟨⟨100.0, 0⟩, 100.0, ⟨78.0, 2⟩, [⟨.buy, 2, 11.0, 0.0, 22.0, some ⟨2024, 1, 2⟩⟩],
      [⟨⟨2024, 1, 2⟩, 78.0, 2, 11.0, 100.0⟩]⟩ rfl⟩

end Backtest.Simulation
