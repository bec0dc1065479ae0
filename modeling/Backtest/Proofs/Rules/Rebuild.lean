import Backtest.Rules.Build
import Backtest.Proofs.Binary64.Nearest
import Backtest.Proofs.Ledger.Sizing

/-!
# Building a spec back from its document

`Condition.toValue` and `Action.toValue` write a spec with its kind's name under `type` and every
parameter under its name. Building that document gives back every spec that building gives at all
(`rebuild_toValue`), and those are exactly the specs that meet their kind's constraints
(`buildCondition_image`, `buildAction_image`). The delicate case is a share count, read through a
float and truncated: it comes back because it is the integer part of a whole float
(`ofInt_truncate`).
-/

namespace Backtest.Decimal

open Float.Model Float.Model.UnpackedFloat

/-! ## Whole floats and their integers -/

theorem floorScaled_eq_of_whole {m : Nat} {e : Int} (hw : 0 ≤ e ∨ m % 2 ^ (-e).toNat = 0) :
    ((floorScaled false m e : Int) : ℚ) = m * 2 ^ e := by
  unfold floorScaled
  by_cases he : 0 ≤ e
  · rw [if_pos he]
    push_cast
    rw [Nat.pow_eq, Nat.cast_pow, ← zpow_natCast, Int.toNat_of_nonneg he]
    simp
  · rw [if_neg he]
    have hdvd : 2 ^ (-e).toNat ∣ m := Nat.dvd_of_mod_eq_zero (hw.resolve_left he)
    have hpow : (2 : ℚ) ^ e = 1 / 2 ^ (-e).toNat := by
      rw [one_div, ← zpow_natCast, Int.toNat_of_nonneg (by omega), zpow_neg, inv_inv]
    simp only [Bool.false_eq_true, if_false, Nat.pow_eq, Int.cast_natCast]
    rw [Nat.cast_div hdvd (by positivity), hpow]
    push_cast
    ring

/-- A positive whole float is the float nearest to its integer part. -/
theorem ofInt_truncate {x : Float} {n : Int} (hw : isWhole x = true) (ht : truncate? x = .ok n)
    (hn : 0 < n) : Float.ofInt n = x := by
  unfold isWhole at hw
  unfold truncate? at ht
  cases hb : Binary64.ofFloat x with
  | nan => rw [hb] at ht; cases ht
  | infinite s => rw [hb] at ht; cases ht
  | finite neg m e =>
    rw [hb] at hw ht
    have hmag : 0 ≤ floorScaled false m e := by
      unfold floorScaled
      split <;> simp only [Bool.false_eq_true, if_false] <;> positivity
    cases neg
    case true =>
      -- a negative float's integer part is not positive
      simp only [if_true, Except.ok.injEq] at ht
      omega
    case false =>
      have hn' : floorScaled false m e = n := by simpa using ht
      have hm : 0 < m := by
        rcases Nat.eq_zero_or_pos m with rfl | hm
        · unfold floorScaled at hn'
          split at hn' <;> simp at hn' <;> omega
        · exact hm
      have hu := Float.unpacked_eq_finite_of_ofFloat hm hb
      have hc : Normalized m e ∧ e ≤ 971 := by
        have := Float.canonical_unpacked x
        rwa [hu] at this
      have hvalue : ((n.toNat : ℚ)) = m * 2 ^ e := by
        rw [← floorScaled_eq_of_whole (by simpa using hw), hn']
        exact_mod_cast Int.toNat_of_nonneg hn.le
      -- `x` is exact, so it is the float nearest to its own value
      have hnear : Float.IsNearest (n.toNat * 10 ^ (0 : Int)) x := by
        refine ⟨.finite .positive m e hm, ?_, by rw [hu]; simp [fit, hc.2]⟩
        rw [zpow_zero, mul_one, hvalue]
        exact roundedValue_of_pos (by positivity) (roundsTo_exact hm hc.1.lt_two_pow hc.1.min_le)
          ⟨rfl, hc.1, rfl⟩
      obtain ⟨k, rfl⟩ := Int.eq_ofNat_of_zero_le hn.le
      exact (Float.ofScientific_isNearest k false 0).unique hnear

theorem isInf_eq_false_of_isWhole {x : Float} (hw : isWhole x = true) : x.isInf = false := by
  unfold isWhole at hw
  rw [ofFloat_eq_toBinary64] at hw
  cases hi : x.isInf
  · rfl
  · obtain ⟨s, hs⟩ := (Float.isInf_iff x).1 hi
    rw [hs, toBinary64] at hw
    cases hw

theorem toCount_int {x : Float} {n : Int} (hw : isWhole x = true) (ht : truncate? x = .ok n)
    (hn : 0 < n) (key : String) : Document.Value.toCount key (.int n) = .ok n := by
  have hfloat : Document.Value.toFloat (.int n) = .ok x := by
    simp only [Document.Value.toFloat, ofInt?, ofInt_truncate hw ht hn, isInf_eq_false_of_isWhole hw]
    rfl
  simp only [Document.Value.toCount, hfloat, hw, if_true, ht]
  rfl

end Backtest.Decimal

namespace Backtest.Rules

open Backtest.Document Backtest.Decimal

/-! ## Documents of specs -/

theorem find?_keyEq_str (name : String) (ps : List (String × Value)) :
    ((ps.map fun e => (Value.str e.1, e.2)).find? (fun e => Value.keyEq e.1 (.str name))).map
      (·.2) = ps.lookup name := by
  induction ps with
  | nil => rfl
  | cons e ps ih =>
    obtain ⟨k, v⟩ := e
    by_cases hk : k = name
    · subst hk
      simp [Value.keyEq]
    · have hne : (name == k) = false := by simpa using Ne.symm hk
      simpa [Value.keyEq, List.lookup_cons, hne, hk] using ih

theorem get?_specDocument (kind name : String) (ps : List (String × Value)) :
    (specDocument kind ps).get? name = if name = "type" then some (.str kind) else ps.lookup name := by
  unfold specDocument Value.get?
  by_cases hn : name = "type"
  · subst hn
    simp [Value.keyEq]
  · rw [if_neg hn, ← find?_keyEq_str]
    simp [Value.keyEq, Ne.symm hn]

/-- What `build` reads off the keys of a document that writes a type and the parameters `ns`:
no stray key, and the parameters themselves as texts, in some order. -/
def WritesParams (ns : List String) : Prop :=
  let present := KeyTable.empty.addKeys (.str "type" :: ns.map .str)
  let names := KeyTable.ofList (ns.map .str)
  ((present.diff names).diff (KeyTable.ofList [.str "type"])).keys.isEmpty = true ∧
    (names.inter present).keys.all Value.isStr = true ∧
    ((names.inter present).keys.map Value.display).Perm ns ∧ "type" ∉ ns

instance (ns : List String) : Decidable (WritesParams ns) := by
  unfold WritesParams
  infer_instance

/-- A catalogue whose kinds read back from documents that write all their parameters: a kind's
name finds that kind, and its parameter names pass `WritesParams`. -/
structure Catalogue.Rereads {κ σ : Type} (c : Catalogue κ σ) : Prop where
  find_name : ∀ k ∈ c.kinds, c.kinds.find? (fun k' => c.name k' == c.name k) = some k
  writes : ∀ k ∈ c.kinds, WritesParams ((c.params k).map Param.name)

set_option maxRecDepth 100000 in
theorem conditions_rereads : conditions.Rereads :=
  ⟨by decide +kernel, by decide +kernel⟩

set_option maxRecDepth 100000 in
theorem actions_rereads : actions.Rereads :=
  ⟨by decide +kernel, by decide +kernel⟩

theorem map_display_of_isStr : ∀ {keys : List Value}, keys.all Value.isStr = true →
    (keys.map Value.display).map Value.str = keys
  | [], _ => rfl
  | .str _ :: keys, h => by
    simp only [List.all_cons, Bool.and_eq_true] at h
    simp [Value.display, map_display_of_isStr h.2]
  | .null :: _, h | .bool _ :: _, h | .int _ :: _, h | .float _ :: _, h | .date _ :: _, h
  | .moment _ :: _, h | .list _ :: _, h | .map _ :: _, h | .bytes _ :: _, h | .tuple _ :: _, h
  | .set _ :: _, h | .enclosing _ :: _, h => by simp [Value.isStr] at h

/-! ## Reading the parameters -/

/-- One step of `readParams`: the parameter a key names is read when the document holds it. -/
def readStep (params : List Param) (doc : Value) (acc : Args) (key : Value) : Except Fault Args :=
  match key with
  | .str name =>
    match params.find? (·.name == name), doc.get? name with
    | some p, some v => (fun a => acc ++ [(p.name, a)]) <$> p.reading.read p.name v
    | _, _ => .ok acc
  | _ => .ok acc

theorem readParams_eq_foldlM (params : List Param) (order : List Value) (doc : Value) :
    readParams params order doc = order.foldlM (readStep params doc) [] := rfl

section Reads

variable {params : List Param} {doc : Value} {args₀ : Args}

theorem readStep_str
    (hread : ∀ p ∈ params, ∃ v a, doc.get? p.name = some v ∧ args₀.lookup p.name = some a ∧
      p.reading.read p.name v = .ok a)
    {n : String} (hn : ∃ p ∈ params, p.name = n) (acc : Args) :
    ∃ a, args₀.lookup n = some a ∧ readStep params doc acc (.str n) = .ok (acc ++ [(n, a)]) := by
  obtain ⟨p, hp, rfl⟩ := hn
  obtain ⟨q, hq⟩ : ∃ q, params.find? (·.name == p.name) = some q :=
    Option.isSome_iff_exists.1 (List.find?_isSome.2 ⟨p, hp, by simp⟩)
  have hname : q.name = p.name := by simpa using List.find?_some hq
  obtain ⟨v, a, hv, ha, hr⟩ := hread q (List.mem_of_find?_eq_some hq)
  rw [hname] at hv ha hr
  refine ⟨a, ha, ?_⟩
  simp only [readStep, hq, hv, hr, hname]
  rfl

theorem foldlM_readStep
    (hread : ∀ p ∈ params, ∃ v a, doc.get? p.name = some v ∧ args₀.lookup p.name = some a ∧
      p.reading.read p.name v = .ok a) :
    ∀ (names : List String) (acc : Args), (∀ n ∈ names, ∃ p ∈ params, p.name = n) →
      ∃ read, (names.map Value.str).foldlM (readStep params doc) acc = .ok (acc ++ read) ∧
        read.map Prod.fst = names ∧ ∀ e ∈ read, args₀.lookup e.1 = some e.2
  | [], acc, _ => ⟨[], by simp; rfl, rfl, by simp⟩
  | n :: names, acc, h => by
    obtain ⟨a, ha, hstep⟩ := readStep_str hread (h n List.mem_cons_self) acc
    obtain ⟨read, hrun, hnames, hargs⟩ :=
      foldlM_readStep hread names (acc ++ [(n, a)]) (fun m hm => h m (List.mem_cons_of_mem _ hm))
    refine ⟨(n, a) :: read, ?_, by simp [hnames], ?_⟩
    · rw [List.map_cons, List.foldlM_cons, hstep]
      show (names.map Value.str).foldlM (readStep params doc) (acc ++ [(n, a)]) = _
      simpa using hrun
    · rintro e (_ | ⟨_, he⟩)
      · exact ha
      · exact hargs e he

end Reads

/-- An arg some reading gives. -/
def Arg.IsRead (a : Arg) : Prop :=
  ∃ r key v, Reading.read r key v = .ok a

section Provenance

variable {params : List Param} {doc : Value}

theorem readStep_isRead {acc acc' : Args} {key : Value} (h : readStep params doc acc key = .ok acc')
    (hacc : ∀ e ∈ acc, e.2.IsRead) : ∀ e ∈ acc', e.2.IsRead := by
  unfold readStep at h
  split at h
  · split at h
    · rename_i p v _ _
      cases hr : p.reading.read p.name v with
      | error f => rw [hr] at h; cases h
      | ok a =>
        rw [hr] at h
        cases h
        intro e he
        rcases List.mem_append.1 he with he | he
        · exact hacc e he
        · rw [List.mem_singleton.1 he]
          exact ⟨_, _, _, hr⟩
    · cases h
      exact hacc
  · cases h
    exact hacc

theorem foldlM_readStep_isRead : ∀ (order : List Value) (acc : Args) {args : Args},
    (∀ e ∈ acc, e.2.IsRead) → order.foldlM (readStep params doc) acc = .ok args →
      ∀ e ∈ args, e.2.IsRead
  | [], acc, args, hacc, h => by
    cases h
    exact hacc
  | key :: order, acc, args, hacc, h => by
    obtain ⟨acc', hstep, hrun⟩ := ok_of_bind_eq_ok h
    exact foldlM_readStep_isRead order acc' (readStep_isRead hstep hacc) hrun

end Provenance

theorem lookup_eq_of_perm {args args₀ : Args} (hkeys : (args.map Prod.fst).Perm (args₀.map Prod.fst))
    (hargs : ∀ e ∈ args, args₀.lookup e.1 = some e.2) (n : String) :
    args.lookup n = args₀.lookup n := by
  cases h : args.lookup n with
  | none =>
    -- `n` names no arg of `args`, hence none of `args₀`
    have hn : n ∉ args.map Prod.fst := by
      simp only [List.lookup_eq_none_iff, bne_iff_ne, ne_eq] at h
      simpa using fun b hb => h (n, b) hb rfl
    have hn₀ : n ∉ args₀.map Prod.fst := fun hm => hn (hkeys.symm.subset hm)
    symm
    simp only [List.lookup_eq_none_iff, bne_iff_ne, ne_eq]
    intro e he hne
    exact hn₀ (List.mem_map.2 ⟨e, he, hne.symm⟩)
  | some b =>
    obtain ⟨l₁, l₂, rfl, -⟩ := List.lookup_eq_some_iff.1 h
    exact (hargs (n, b) (by simp)).symm

/-! ## Building from a spec document -/

section Catalogue

variable {κ σ : Type} {c : Catalogue κ σ}

theorem Catalogue.kindOf_specDocument (hc : c.Rereads) {k : κ} (hk : k ∈ c.kinds)
    (ps : List (String × Value)) : c.kindOf (specDocument (c.name k) ps) = .ok k := by
  simp [Catalogue.kindOf, get?_specDocument, hc.find_name k hk]

/-- A document of a kind that writes every parameter, each value read to its arg in `args₀`, is
built as the kind's assembly of args that look up like `args₀`. -/
theorem Catalogue.build_specDocument (hc : c.Rereads) {k : κ} (hk : k ∈ c.kinds)
    {ps : List (String × Value)} {args₀ : Args}
    (hnames : ps.map Prod.fst = (c.params k).map Param.name)
    (hnames₀ : args₀.map Prod.fst = (c.params k).map Param.name)
    (hread : ∀ p ∈ c.params k, ∃ v a, ps.lookup p.name = some v ∧ args₀.lookup p.name = some a ∧
      p.reading.read p.name v = .ok a) :
    ∃ args, (∀ n, args.lookup n = args₀.lookup n) ∧
      c.build (specDocument (c.name k) ps) =
        headed ("Invalid " ++ c.what ++ " " ++ c.name k ++ ": ") (c.assemble k args) := by
  obtain ⟨hstrays, hstr, hperm, htype⟩ := hc.writes k hk
  -- the document's values are found under the parameters' names, none of which is `type`
  have hread' : ∀ p ∈ c.params k, ∃ v a, (specDocument (c.name k) ps).get? p.name = some v ∧
      args₀.lookup p.name = some a ∧ p.reading.read p.name v = .ok a := by
    intro p hp
    obtain ⟨v, a, hv, ha, hr⟩ := hread p hp
    have htype' : p.name ≠ "type" := fun h => htype (h ▸ List.mem_map_of_mem hp)
    exact ⟨v, a, by rw [get?_specDocument, if_neg htype', hv], ha, hr⟩
  obtain ⟨read, hrun, hreadNames, hargs⟩ := foldlM_readStep hread' _ []
    (fun n hn => List.mem_map.1 (hperm.subset hn))
  have hlookup : ∀ n, read.lookup n = args₀.lookup n :=
    lookup_eq_of_perm (by rw [hreadNames, hnames₀]; exact hperm) hargs
  refine ⟨read, hlookup, ?_⟩
  have hmissing : ((c.params k).filter fun p => p.required && (read.lookup p.name).isNone) = [] := by
    rw [List.filter_eq_nil_iff]
    intro p hp
    obtain ⟨v, a, -, ha, -⟩ := hread p hp
    simp [hlookup, ha]
  have hkeys : ((Value.str "type", Value.str (c.name k)) ::
      ps.map fun e => (Value.str e.1, e.2)).map Prod.fst =
        .str "type" :: ((c.params k).map Param.name).map Value.str := by
    rw [← hnames]
    simp
  have hparams : (c.params k).map (fun p => Value.str p.name) =
      ((c.params k).map Param.name).map Value.str := (List.map_map ..).symm
  unfold Catalogue.build
  rw [Catalogue.kindOf_specDocument hc hk]
  show (if _ then _ else _) = _
  simp only [specDocument] at hrun ⊢
  rw [hkeys, hparams, hstrays, if_neg (by decide), readParams_eq_foldlM,
    ← map_display_of_isStr hstr, hrun]
  simp only [List.nil_append]
  show headed _ (if _ then _ else _) = _
  rw [hmissing]
  rfl

theorem Catalogue.build_specDocument_eq (hc : c.Rereads) {k : κ} (hk : k ∈ c.kinds)
    {ps : List (String × Value)} {args₀ : Args} {s : σ}
    (hnames : ps.map Prod.fst = (c.params k).map Param.name)
    (hnames₀ : args₀.map Prod.fst = (c.params k).map Param.name)
    (hread : ∀ p ∈ c.params k, ∃ v a, ps.lookup p.name = some v ∧ args₀.lookup p.name = some a ∧
      p.reading.read p.name v = .ok a)
    (hassemble : ∀ args : Args, (∀ n, args.lookup n = args₀.lookup n) → c.assemble k args = .ok s) :
    c.build (specDocument (c.name k) ps) = .ok s := by
  obtain ⟨args, hargs, hbuild⟩ := Catalogue.build_specDocument hc hk hnames hnames₀ hread
  rw [hbuild, hassemble args hargs]
  rfl

theorem Catalogue.build_ok {doc : Value} {s : σ} (h : c.build doc = .ok s) :
    ∃ k args, c.assemble k args = .ok s ∧ ∀ e ∈ args, e.2.IsRead := by
  unfold Catalogue.build at h
  obtain ⟨k, -, h⟩ := ok_of_bind_eq_ok h
  -- the first split is on whether the document is a mapping, which only changes its keys
  split at h
  all_goals
    dsimp only at h
    split at h
    · cases h
    · obtain ⟨args, hargs, h⟩ := ok_of_bind_eq_ok (eq_ok_of_mapError_eq_ok h)
      rw [readParams_eq_foldlM] at hargs
      refine ⟨k, args, ?_, foldlM_readStep_isRead _ [] (by simp) hargs⟩
      split at h
      · cases h
      · exact h

end Catalogue

/-! ## Readings of written values -/

theorem choose_name {α : Type} {choices : List α} {name : α → String} {c : α} (hc : c ∈ choices)
    (hinj : ∀ c' ∈ choices, name c' = name c → c' = c) (key : String) :
    choose choices name key (.str (name c)) = .ok c := by
  obtain ⟨c', hc'⟩ : ∃ c', choices.find? (fun c' => name c' == name c) = some c' :=
    Option.isSome_iff_exists.1 (List.find?_isSome.2 ⟨c, hc, by simp⟩)
  have hname : name c' = name c := by simpa using List.find?_some hc'
  rw [hinj c' (List.mem_of_find?_eq_some hc') hname] at hc'
  simp [choose, hc']

@[simp] theorem read_real (key : String) (x : Float) :
    Reading.real.read key (.float x) = .ok (.real x) := rfl

@[simp] theorem read_text (key s : String) : Reading.text.read key (.str s) = .ok (.text s) := rfl

@[simp] theorem read_direction (key : String) (d : Direction) :
    Reading.direction.read key (.str d.name) = .ok (.direction d) := by
  rw [Reading.read, choose_name (by cases d <;> decide) (by cases d <;> decide)]
  rfl

@[simp] theorem read_sense (key : String) (s : Sense) :
    Reading.sense.read key (.str s.name) = .ok (.sense s) := by
  rw [Reading.read, choose_name (by cases s <;> decide) (by cases s <;> decide)]
  rfl

@[simp] theorem read_bounds (key : String) (b : Bounds) :
    Reading.bounds.read key (.str b.name) = .ok (.bounds b) := by
  rw [Reading.read, choose_name (by cases b <;> decide) (by cases b <;> decide)]
  rfl

@[simp] theorem read_field (key : String) (f : Market.Field) :
    Reading.field.read key (.str f.name) = .ok (.field f) := by
  rw [Reading.read, choose_name (by cases f <;> decide) (by cases f <;> decide)]
  rfl

theorem read_count {key : String} {x : Float} {n : Int} (hw : isWhole x = true)
    (ht : truncate? x = .ok n) (hn : 0 < n) : Reading.count.read key (.int n) = .ok (.count n) := by
  simp [Reading.read, toCount_int hw ht hn]

/-! ## Conditions -/

/-- The conditions `build` gives: a change condition's threshold is not below zero. -/
def Condition.Valid : Condition → Prop
  | .change _ t _ => ¬ t < 0.0
  | _ => True

/-- The args a condition's written parameters read to, in its kind's order. -/
def Condition.args : Condition → Args
  | .always => []
  | .change _ t d => [("threshold_percent", .real t), ("direction", .direction d)]
  | .changeRange lo hi f s b =>
    [("min_percent", .real lo), ("max_percent", .real hi), ("field", .field f),
      ("direction", .sense s), ("bounds", .bounds b)]
  | .valueRange lo hi b => [("min_price", .real lo), ("max_price", .real hi), ("bounds", .bounds b)]

theorem ConditionKind.mem_all (k : ConditionKind) : k ∈ ConditionKind.all := by
  rcases k with _ | f | _ | _
  all_goals (try cases f) <;> decide

theorem ConditionKind.assemble_valid {k : ConditionKind} {args : Args} {c : Condition}
    (h : k.assemble args = .ok c) : c.Valid := by
  cases k with
  | change f =>
    simp only [ConditionKind.assemble] at h
    split at h
    · cases h
    · cases h
      assumption
  | _ =>
    simp only [ConditionKind.assemble] at h
    cases h
    trivial

theorem Condition.assemble_of_lookup {c : Condition} {args : Args}
    (hargs : ∀ n, args.lookup n = c.args.lookup n) (h : c.Valid) : c.kind.assemble args = .ok c := by
  cases c with
  | change f t d =>
    simp only [Condition.Valid] at h
    simp [Condition.kind, Condition.args, ConditionKind.assemble, Args.real, Args.direction, hargs,
      List.lookup_cons, h]
  | _ =>
    simp [Condition.kind, Condition.args, ConditionKind.assemble, Args.real, Args.field, Args.sense,
      Args.bounds, hargs, List.lookup_cons]

theorem Condition.reads (c : Condition) :
    ∀ p ∈ c.kind.params, ∃ v a, c.params.lookup p.name = some v ∧ c.args.lookup p.name = some a ∧
      p.reading.read p.name v = .ok a := by
  cases c <;> simp [Condition.kind, ConditionKind.params, Condition.params, Condition.args, real,
    choice, List.lookup_cons]

/-- A condition that meets its kind's constraints is built back from its document. -/
theorem buildCondition_toValue {c : Condition} (h : c.Valid) : buildCondition c.toValue = .ok c := by
  have hnames : c.params.map Prod.fst = c.kind.params.map Param.name := by cases c <;> rfl
  have hnames₀ : c.args.map Prod.fst = c.kind.params.map Param.name := by cases c <;> rfl
  exact Catalogue.build_specDocument_eq conditions_rereads c.kind.mem_all hnames hnames₀ c.reads
    fun _ hargs => c.assemble_of_lookup hargs h

theorem buildCondition_valid {doc : Value} {c : Condition} (h : buildCondition doc = .ok c) :
    c.Valid := by
  obtain ⟨k, args, ha, -⟩ := Catalogue.build_ok h
  exact ConditionKind.assemble_valid ha

/-! ## Actions -/

/-- The actions `build` gives: a percentage between 0 and 100, and a share count that is
positive and the integer part of a whole float. -/
def Action.Valid : Action → Prop
  | .percent _ p => isPercent p = true
  | .shares _ n => 0 < n ∧ ∃ x, isWhole x = true ∧ truncate? x = .ok (n : Int)
  | _ => True

/-- The args an action's written parameters read to. -/
def Action.args : Action → Args
  | .percent _ p => [("percent", .real p)]
  | .amount _ a => [("amount", .real a)]
  | .shares _ n => [("count", .count n)]
  | .formula _ _ text => [("formula", .text text)]
  | .sellAll | .hold => []

theorem ActionKind.mem_all (k : ActionKind) : k ∈ ActionKind.all := by
  rcases k with s | s | s | ⟨s, m⟩ | _ | _
  all_goals (try cases s) <;> (try cases m) <;> decide

theorem map_eq_ok {ε α β : Type} {f : α → β} {x : Except ε α} {b : β} (h : f <$> x = .ok b) :
    ∃ a, x = .ok a ∧ f a = b := by
  cases x with
  | error e => cases h
  | ok a =>
    cases h
    exact ⟨a, rfl, rfl⟩

theorem toCount_eq_ok {key : String} {v : Value} {m : Int} (h : v.toCount key = .ok m) :
    ∃ x, isWhole x = true ∧ truncate? x = .ok m := by
  unfold Value.toCount at h
  split at h
  · obtain ⟨_, -, h⟩ := ok_of_bind_eq_ok h
    cases h
  · split at h
    · cases h
    · obtain ⟨_, -, h⟩ := ok_of_bind_eq_ok h
      cases h
    · rename_i x _
      split at h
      · exact ⟨x, by assumption, eq_ok_of_mapError_eq_ok h⟩
      · obtain ⟨_, -, h⟩ := ok_of_bind_eq_ok h
        cases h

theorem IsRead.count {m : Int} (h : (Arg.count m).IsRead) :
    ∃ x, isWhole x = true ∧ truncate? x = .ok m := by
  obtain ⟨r, key, v, h⟩ := h
  -- only the count reading gives a count
  cases r <;> obtain ⟨a, ha, hm⟩ := map_eq_ok h <;> cases hm
  exact toCount_eq_ok ha

theorem ActionKind.assemble_valid {k : ActionKind} {args : Args} {a : Action}
    (h : k.assemble args = .ok a) (hargs : ∀ e ∈ args, e.2.IsRead) : a.Valid := by
  cases k with
  | percent s =>
    simp only [ActionKind.assemble] at h
    split at h
    · cases h
      assumption
    · cases h
  | shares s =>
    simp only [ActionKind.assemble] at h
    split at h
    · cases h
    · cases h
      rename_i hpos
      -- a positive count was found under `count`, and a reading gave it
      unfold Args.count at hpos ⊢
      split at hpos
      · rename_i m hm
        obtain ⟨l₁, l₂, hl, -⟩ := List.lookup_eq_some_iff.1 hm
        obtain ⟨x, hw, ht⟩ := IsRead.count (hargs ("count", .count m) (by simp [hl]))
        exact ⟨by omega, x, hw, by rw [Int.toNat_of_nonneg (by omega)]; exact ht⟩
      · omega
  | _ =>
    simp only [ActionKind.assemble] at h
    cases h
    trivial

theorem Action.assemble_of_lookup {a : Action} {args : Args}
    (hargs : ∀ n, args.lookup n = a.args.lookup n) (h : a.Valid) : a.kind.assemble args = .ok a := by
  cases a with
  | percent s p =>
    simp only [Action.Valid] at h
    simp [Action.kind, Action.args, ActionKind.assemble, Args.real, hargs, h]
  | shares s n =>
    have hn : n ≠ 0 := Nat.pos_iff_ne_zero.1 h.1
    simp [Action.kind, Action.args, ActionKind.assemble, Args.count, hargs, hn]
  | _ => simp [Action.kind, Action.args, ActionKind.assemble, Args.real, Args.text, hargs]

theorem Action.reads {a : Action} (h : a.Valid) :
    ∀ p ∈ a.kind.params, ∃ v b, a.params.lookup p.name = some v ∧ a.args.lookup p.name = some b ∧
      p.reading.read p.name v = .ok b := by
  cases a with
  | shares s n =>
    obtain ⟨hn, x, hw, ht⟩ := h
    simp [Action.kind, ActionKind.params, Action.params, Action.args, read_count hw ht (by omega)]
  | _ => simp [Action.kind, ActionKind.params, Action.params, Action.args, real]

/-- An action that meets its kind's constraints is built back from its document. -/
theorem buildAction_toValue {a : Action} (h : a.Valid) : buildAction a.toValue = .ok a := by
  have hnames : a.params.map Prod.fst = a.kind.params.map Param.name := by cases a <;> rfl
  have hnames₀ : a.args.map Prod.fst = a.kind.params.map Param.name := by cases a <;> rfl
  exact Catalogue.build_specDocument_eq actions_rereads a.kind.mem_all hnames hnames₀
    (Action.reads h) fun _ hargs => a.assemble_of_lookup hargs h

theorem buildAction_valid {doc : Value} {a : Action} (h : buildAction doc = .ok a) : a.Valid := by
  obtain ⟨k, args, ha, hargs⟩ := Catalogue.build_ok h
  exact ActionKind.assemble_valid ha hargs

/-! ## Specs written back -/

/-- The conditions some document builds are exactly those that meet their kind's constraints. -/
theorem buildCondition_image (c : Condition) : (∃ doc, buildCondition doc = .ok c) ↔ c.Valid :=
  ⟨fun ⟨_, h⟩ => buildCondition_valid h, fun h => ⟨_, buildCondition_toValue h⟩⟩

/-- The actions some document builds are exactly those that meet their kind's constraints. -/
theorem buildAction_image (a : Action) : (∃ doc, buildAction doc = .ok a) ↔ a.Valid :=
  ⟨fun ⟨_, h⟩ => buildAction_valid h, fun h => ⟨_, buildAction_toValue h⟩⟩

theorem buildAction_of_parseAction {doc : Value} {a : Action} (h : parseAction doc = .ok a) :
    buildAction doc = .ok a := by
  unfold parseAction at h
  obtain ⟨a', hb, h⟩ := ok_of_bind_eq_ok h
  split at h
  · dsimp only at h
    split at h
    · cases h
      exact hb
    · cases h
  · cases h
    exact hb

/-- Writing a built spec as a document and building that again gives the spec back: for
conditions, for actions, and for actions whose formula is checked too. -/
theorem rebuild_toValue :
    (∀ doc c, buildCondition doc = .ok c → buildCondition c.toValue = .ok c) ∧
    (∀ doc a, buildAction doc = .ok a → buildAction a.toValue = .ok a) ∧
    (∀ doc a, parseAction doc = .ok a → parseAction a.toValue = .ok a) := by
  refine ⟨fun _ _ h => buildCondition_toValue (buildCondition_valid h),
    fun _ _ h => buildAction_toValue (buildAction_valid h), fun doc a h => ?_⟩
  -- the formula check after building looks at the action only
  have hb := buildAction_of_parseAction h
  unfold parseAction at h ⊢
  rw [hb] at h
  rw [buildAction_toValue (buildAction_valid hb)]
  exact h

/-- The condition `always` and the action buying two shares are rebuilt from their documents. -/
theorem rebuild_toValue_alwaysBuyTwo :
    buildCondition (.map [(.str "type", .str "always")]) = .ok .always ∧
      buildCondition Condition.always.toValue = .ok .always ∧
    parseAction (.map [(.str "type", .str "buy_shares"), (.str "count", .int 2)]) =
        .ok (.shares .buy 2) ∧
      parseAction (Action.shares .buy 2).toValue = .ok (.shares .buy 2) := by
  have hc : buildCondition (.map [(.str "type", .str "always")]) = .ok .always := by
    rfl
  have ha : parseAction (.map [(.str "type", .str "buy_shares"), (.str "count", .int 2)]) =
      .ok (.shares .buy 2) := by
    rfl
  exact ⟨hc, rebuild_toValue.1 _ _ hc, ha, rebuild_toValue.2.2 _ _ ha⟩

end Backtest.Rules
