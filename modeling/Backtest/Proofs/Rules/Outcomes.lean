import Backtest.Proofs.Rules.Rebuild
import Backtest.Proofs.Document.KeySets

/-!
# What building a spec gives

Building a document whose keys are texts ends in one of the six ways `Catalogue.BuildsAs` lists:
a type that is missing, cannot be a key or names no kind, a stray key, a parameter that does not
read, a missing required parameter, failed constraints, or the spec (`Catalogue.buildsAs`). Whether
and into what a document is built depends on it only as a mapping (`Catalogue.build_eq_ok_congr`),
but which of two unreadable parameters is reported follows the order the keys are written in
(`buildCondition_order`).
-/

namespace Backtest.Document

/-- Whether a value is a collection that cannot be a key: a list, a mapping or a set. -/
def Value.isUnhashable : Value → Bool
  | .list _ | .map _ | .set _ => true
  | _ => false

end Backtest.Document

namespace Backtest.Rules

open Backtest.Document Backtest.Document.KeyTable

/-- The keys a document writes: a mapping's keys, and none for any other value. -/
def docKeys : Value → List Value
  | .map entries => entries.map Prod.fst
  | _ => []

theorem mem_docKeys_of_get? {doc : Value} (hkeys : ∀ key ∈ docKeys doc, key.isStr = true)
    {n : String} {v : Value} (h : doc.get? n = some v) : Value.str n ∈ docKeys doc := by
  cases doc with
  | map entries =>
    simp only [Value.get?, Option.map_eq_some_iff] at h
    obtain ⟨e, he, -⟩ := h
    have hmem := List.mem_of_find?_eq_some he
    have hkey := List.find?_some he
    have hstr := hkeys e.1 (List.mem_map_of_mem hmem)
    rw [Value.keyEq_str hstr rfl] at hkey
    exact hkey ▸ List.mem_map_of_mem hmem
  | _ => simp [Value.get?] at h

theorem lookup_eq_of_graph {args : Args} {g : String → Option Arg}
    (hval : ∀ e ∈ args, g e.1 = some e.2) (hkeys : ∀ n, (g n).isSome → n ∈ args.map Prod.fst)
    (n : String) : args.lookup n = g n := by
  cases h : args.lookup n with
  | none =>
    cases hg : g n with
    | none => rfl
    | some a =>
      obtain ⟨e, he, rfl⟩ := List.mem_map.1 (hkeys n (by rw [hg]; rfl))
      have := List.lookup_eq_none_iff.1 h e he
      simp at this
  | some b =>
    obtain ⟨l₁, l₂, rfl, -⟩ := List.lookup_eq_some_iff.1 h
    exact (hval (n, b) (by simp)).symm

theorem find?_name : ∀ {ps : List Param} {p : Param}, (ps.map Param.name).Nodup → p ∈ ps →
    ps.find? (·.name == p.name) = some p
  | q :: ps, p, hnd, hp => by
    rw [List.map_cons, List.nodup_cons] at hnd
    rcases List.mem_cons.1 hp with rfl | hp
    · simp
    · have hne : q.name ≠ p.name := fun h => hnd.1 (h ▸ List.mem_map_of_mem hp)
      rw [List.find?_cons_of_neg (by simpa using hne)]
      exact find?_name hnd.2 hp

/-! ## Reading the parameters -/

/-- The arg the document's value under `n` reads to, by the first of the parameters `ps` named
`n`. -/
def argAt (ps : List Param) (doc : Value) (n : String) : Option Arg :=
  (ps.find? (·.name == n)).bind fun p =>
    (doc.get? n).bind fun v => (p.reading.read p.name v).toOption

section Reading

variable {ps : List Param} {doc : Value}

theorem argAt_of_mem (hnd : (ps.map Param.name).Nodup) {p : Param} (hp : p ∈ ps) :
    argAt ps doc p.name = (doc.get? p.name).bind fun v => (p.reading.read p.name v).toOption := by
  simp only [argAt, find?_name hnd hp, Option.bind_some]

theorem readStep_eq_error {acc : Args} {key : Value} {g : Fault}
    (h : readStep ps doc acc key = .error g) :
    ∃ p ∈ ps, ∃ v, doc.get? p.name = some v ∧ p.reading.read p.name v = .error g := by
  cases key with
  | str n =>
    cases hp : ps.find? (·.name == n) with
    | none => simp [readStep, hp] at h
    | some p =>
      cases hv : doc.get? n with
      | none => simp [readStep, hp, hv] at h
      | some v =>
        have hname : p.name = n := by simpa using List.find?_some hp
        cases hr : p.reading.read p.name v with
        | error g' =>
          simp only [readStep, hp, hv, hr] at h
          cases h
          exact ⟨p, List.mem_of_find?_eq_some hp, v, hname ▸ hv, hr⟩
        | ok a => simp [readStep, hp, hv, hr] at h
  | _ => simp [readStep] at h

theorem foldlM_readStep_eq_error : ∀ (os : List Value) (acc : Args) {g : Fault},
    os.foldlM (readStep ps doc) acc = .error g →
      ∃ p ∈ ps, ∃ v, doc.get? p.name = some v ∧ p.reading.read p.name v = .error g
  | [], acc, g, h => by cases h
  | o :: os, acc, g, h => by
    rw [List.foldlM_cons] at h
    rcases bind_eq_error h with h | ⟨acc', -, h⟩
    · exact readStep_eq_error h
    · exact foldlM_readStep_eq_error os acc' h

theorem readStep_eq_ok {acc acc' : Args} {key : Value} (h : readStep ps doc acc key = .ok acc') :
    ∃ new, acc' = acc ++ new ∧ (∀ e ∈ new, argAt ps doc e.1 = some e.2) ∧
      ∀ n p v, key = .str n → ps.find? (·.name == n) = some p → doc.get? n = some v →
        n ∈ new.map Prod.fst := by
  cases key with
  | str n =>
    cases hp : ps.find? (·.name == n) with
    | none =>
      simp only [readStep, hp] at h
      cases h
      refine ⟨[], by simp, by simp, fun m q w hm hq _ => ?_⟩
      cases hm
      rw [hp] at hq
      cases hq
    | some p =>
      cases hv : doc.get? n with
      | none =>
        simp only [readStep, hp, hv] at h
        cases h
        refine ⟨[], by simp, by simp, fun m q w hm _ hw => ?_⟩
        cases hm
        rw [hv] at hw
        cases hw
      | some v =>
        have hname : p.name = n := by simpa using List.find?_some hp
        subst hname
        cases hr : p.reading.read p.name v with
        | error g => simp [readStep, hp, hv, hr] at h
        | ok a =>
          simp only [readStep, hp, hv, hr] at h
          cases h
          refine ⟨[(p.name, a)], rfl, ?_, fun m q w hm _ _ => ?_⟩
          · intro e he
            rw [List.mem_singleton.1 he]
            simp [argAt, hp, hv, hr, Except.toOption]
          · cases hm
            simp
  | _ =>
    simp only [readStep] at h
    cases h
    exact ⟨[], by simp, by simp, fun _ _ _ hn => by cases hn⟩

theorem foldlM_readStep_eq_ok : ∀ (os : List Value) (acc : Args) {args : Args},
    os.foldlM (readStep ps doc) acc = .ok args →
      ∃ more, args = acc ++ more ∧ (∀ e ∈ more, argAt ps doc e.1 = some e.2) ∧
        ∀ n p v, Value.str n ∈ os → ps.find? (·.name == n) = some p → doc.get? n = some v →
          n ∈ more.map Prod.fst
  | [], acc, args, h => by
    cases h
    exact ⟨[], by simp, by simp, by simp⟩
  | o :: os, acc, args, h => by
    rw [List.foldlM_cons] at h
    obtain ⟨acc', hstep, hrest⟩ := ok_of_bind_eq_ok h
    obtain ⟨new, rfl, hnew, hnewHeld⟩ := readStep_eq_ok hstep
    obtain ⟨more, rfl, hval, hheld⟩ := foldlM_readStep_eq_ok os (acc ++ new) hrest
    refine ⟨new ++ more, by simp, fun e he => ?_, fun n p v hn hp hv => ?_⟩
    · rcases List.mem_append.1 he with he | he
      exacts [hnew e he, hval e he]
    · rw [List.map_append, List.mem_append]
      rcases List.mem_cons.1 hn with hn | hn
      exacts [.inl (hnewHeld n p v hn.symm hp hv), .inr (hheld n p v hn hp hv)]

theorem lookup_of_readParams {order : List Value} {args : Args}
    (horder : ∀ n p v, ps.find? (·.name == n) = some p → doc.get? n = some v → Value.str n ∈ order)
    (h : readParams ps order doc = .ok args) (n : String) : args.lookup n = argAt ps doc n := by
  obtain ⟨more, rfl, hval, hheld⟩ := foldlM_readStep_eq_ok order [] h
  apply lookup_eq_of_graph hval
  intro m hm
  obtain ⟨a, ha⟩ := Option.isSome_iff_exists.1 hm
  simp only [argAt, Option.bind_eq_some_iff] at ha
  obtain ⟨p, hp, v, hv, -⟩ := ha
  exact hheld m p v (horder m p v hp hv) hp hv

end Reading

section Catalogue

variable {κ σ : Type} (c : Catalogue κ σ)

/-- The heading of the faults met while reading and assembling a kind. -/
def Catalogue.heading (k : κ) : String :=
  "Invalid " ++ c.what ++ " " ++ c.name k ++ ": "

/-- A key a document of kind `k` may write: `type`, or the name of one of the kind's
parameters. -/
def Catalogue.Allows (k : κ) (key : Value) : Prop :=
  key = .str "type" ∨ ∃ p ∈ c.params k, key = .str p.name

/-- Every parameter of kind `k` that the document holds reads. -/
def Catalogue.ReadsAll (k : κ) (doc : Value) : Prop :=
  ∀ p ∈ c.params k, ∀ v, doc.get? p.name = some v → ∃ a, p.reading.read p.name v = .ok a

/-- The args a document's parameters read to, in the kind's order. -/
def Catalogue.argsOf (k : κ) (doc : Value) : Args :=
  (c.params k).filterMap fun p =>
    (doc.get? p.name).bind fun v => (p.reading.read p.name v).toOption.map (p.name, ·)

/-- The required parameters of kind `k` that the document does not hold, in the kind's order. -/
def Catalogue.missing (k : κ) (doc : Value) : List String :=
  ((c.params k).filter fun p => p.required && (doc.get? p.name).isNone).map (·.name)

/-- The stray keys of a document for a kind, as the key tables of `build` find them. -/
def Catalogue.strays (k : κ) (doc : Value) : List Value :=
  (((KeyTable.empty.addKeys (docKeys doc)).diff
    (KeyTable.ofList ((c.params k).map fun p => Value.str p.name))).diff
      (KeyTable.ofList [.str "type"])).keys

/-- The order in which `build` reads the parameters a document holds. -/
def Catalogue.readOrder (k : κ) (doc : Value) : List Value :=
  ((KeyTable.ofList ((c.params k).map fun p => Value.str p.name)).inter
    (KeyTable.empty.addKeys (docKeys doc))).keys

theorem Catalogue.build_eq (doc : Value) :
    c.build doc = c.kindOf doc >>= fun k =>
      if !(c.strays k doc).isEmpty then .error (strayKeysFault c.what (c.name k) (c.strays k doc))
      else headed (c.heading k) (readParams (c.params k) (c.readOrder k doc) doc >>= fun args =>
        let missing := ((c.params k).filter fun p => p.required && (args.lookup p.name).isNone).map
          (·.name)
        if !missing.isEmpty then .error (missingFault (c.className k) missing) else c.assemble k args) := by
  unfold Catalogue.build
  cases doc <;> rfl

/-! ## The key tables -/

section Tables

variable {k : κ} {doc : Value}

theorem sound_names (ps : List Param) :
    (KeyTable.ofList (ps.map fun p => Value.str p.name)).Sound ∧
      ∀ v, v ∈ (KeyTable.ofList (ps.map fun p => Value.str p.name)).keys ↔
        ∃ p ∈ ps, v = .str p.name := by
  obtain ⟨hs, hk⟩ := @ofList_sound (ps.map fun p => Value.str p.name) (by simp [Value.isStr])
  refine ⟨hs, fun v => ?_⟩
  rw [hk, List.mem_map]
  simp only [eq_comm]

theorem sound_type :
    (KeyTable.ofList [Value.str "type"]).Sound ∧
      ∀ v, v ∈ (KeyTable.ofList [Value.str "type"]).keys ↔ v = .str "type" := by
  obtain ⟨hs, hk⟩ := @ofList_sound [Value.str "type"] (by simp [Value.isStr])
  exact ⟨hs, fun v => by rw [hk, List.mem_singleton]⟩

theorem Catalogue.mem_strays (hkeys : ∀ key ∈ docKeys doc, key.isStr = true) (v : Value) :
    v ∈ c.strays k doc ↔ v ∈ docKeys doc ∧ ¬c.Allows k v := by
  obtain ⟨hn, hnk⟩ := sound_names (c.params k)
  obtain ⟨hp, hpk⟩ := empty_sound.addKeys hkeys
  obtain ⟨ht, htk⟩ := sound_type
  obtain ⟨hd, hdk⟩ := hp.diff hn
  obtain ⟨-, hsk⟩ := hd.diff ht
  rw [Catalogue.strays, hsk, hdk, hpk, hnk, htk]
  simp only [not_mem_keys_empty, false_or, Catalogue.Allows]
  rw [not_or]
  exact ⟨fun ⟨⟨hv, hp⟩, ht⟩ => ⟨hv, ht, hp⟩, fun ⟨hv, ht, hp⟩ => ⟨⟨hv, hp⟩, ht⟩⟩

theorem Catalogue.nodup_strays (hkeys : ∀ key ∈ docKeys doc, key.isStr = true) :
    (c.strays k doc).Nodup := by
  obtain ⟨hn, -⟩ := sound_names (c.params k)
  obtain ⟨hp, -⟩ := empty_sound.addKeys hkeys
  obtain ⟨ht, -⟩ := sound_type
  exact ((hp.diff hn).1.diff ht).1.keyed.nodup_keys

theorem Catalogue.mem_readOrder (hkeys : ∀ key ∈ docKeys doc, key.isStr = true) (v : Value) :
    v ∈ c.readOrder k doc ↔ (∃ p ∈ c.params k, v = .str p.name) ∧ v ∈ docKeys doc := by
  obtain ⟨hn, hnk⟩ := sound_names (c.params k)
  obtain ⟨hp, hpk⟩ := empty_sound.addKeys hkeys
  obtain ⟨-, hik⟩ := hn.inter hp
  rw [Catalogue.readOrder, hik, hnk, hpk]
  simp only [not_mem_keys_empty, false_or]

end Tables

/-! ## The stages of a build -/

section Stages

variable {k : κ} {doc : Value}

theorem Catalogue.strays_eq_nil_iff (hkeys : ∀ key ∈ docKeys doc, key.isStr = true) :
    c.strays k doc = [] ↔ ∀ key ∈ docKeys doc, c.Allows k key := by
  rw [List.eq_nil_iff_forall_not_mem]
  simp only [c.mem_strays hkeys, not_and, not_not]

theorem Catalogue.readOrder_held (hkeys : ∀ key ∈ docKeys doc, key.isStr = true) (n : String)
    (p : Param) (v : Value) (hp : (c.params k).find? (·.name == n) = some p)
    (hv : doc.get? n = some v) : Value.str n ∈ c.readOrder k doc := by
  have hname : p.name = n := by simpa using List.find?_some hp
  rw [c.mem_readOrder hkeys]
  exact ⟨⟨p, List.mem_of_find?_eq_some hp, by rw [hname]⟩, mem_docKeys_of_get? hkeys hv⟩

theorem Catalogue.lookup_argsOf (hnd : ((c.params k).map Param.name).Nodup) (n : String) :
    (c.argsOf k doc).lookup n = argAt (c.params k) doc n := by
  apply lookup_eq_of_graph
  · intro e he
    simp only [Catalogue.argsOf, List.mem_filterMap, Option.bind_eq_some_iff,
      Option.map_eq_some_iff] at he
    obtain ⟨p, hp, v, hv, a, ha, rfl⟩ := he
    rw [argAt_of_mem hnd hp, hv]
    exact ha
  · intro m hm
    obtain ⟨a, ha⟩ := Option.isSome_iff_exists.1 hm
    simp only [argAt, Option.bind_eq_some_iff] at ha
    obtain ⟨p, hp, v, hv, ha⟩ := ha
    have hname : p.name = m := by simpa using List.find?_some hp
    subst hname
    simp only [Catalogue.argsOf, List.mem_map, List.mem_filterMap]
    exact ⟨(p.name, a), ⟨p, List.mem_of_find?_eq_some hp, by simp [hv, ha]⟩, rfl⟩

theorem Catalogue.readParams_eq_ok (hnd : ((c.params k).map Param.name).Nodup)
    (hkeys : ∀ key ∈ docKeys doc, key.isStr = true) {args : Args}
    (h : readParams (c.params k) (c.readOrder k doc) doc = .ok args) :
    c.ReadsAll k doc ∧ ∀ n, args.lookup n = (c.argsOf k doc).lookup n := by
  have hlook := lookup_of_readParams (c.readOrder_held hkeys) h
  refine ⟨fun p hp v hv => ?_, fun n => by rw [hlook, c.lookup_argsOf hnd]⟩
  -- a held parameter's name is among the args read, with the arg its value reads to
  have hfind := find?_name hnd hp
  obtain ⟨more, rfl, hval, hheld⟩ := foldlM_readStep_eq_ok _ [] h
  obtain ⟨e, he, hname⟩ :=
    List.mem_map.1 (hheld p.name p v (c.readOrder_held hkeys _ p v hfind hv) hfind hv)
  have ha := hval e he
  rw [hname, argAt_of_mem hnd hp, hv] at ha
  cases hr : p.reading.read p.name v with
  | ok a => exact ⟨a, rfl⟩
  | error g => simp [hr, Except.toOption] at ha

theorem Catalogue.readParams_of_readsAll (hreads : c.ReadsAll k doc) :
    ∃ args, readParams (c.params k) (c.readOrder k doc) doc = .ok args := by
  cases hr : readParams (c.params k) (c.readOrder k doc) doc with
  | ok args => exact ⟨args, rfl⟩
  | error g =>
    rw [readParams_eq_foldlM] at hr
    obtain ⟨p, hp, v, hv, hg⟩ := foldlM_readStep_eq_error _ [] hr
    obtain ⟨a, ha⟩ := hreads p hp v hv
    rw [ha] at hg
    cases hg

theorem Catalogue.missing_of_lookup (hnd : ((c.params k).map Param.name).Nodup)
    (hreads : c.ReadsAll k doc) {args : Args}
    (hargs : ∀ n, args.lookup n = (c.argsOf k doc).lookup n) :
    ((c.params k).filter fun p => p.required && (args.lookup p.name).isNone).map (·.name) =
      c.missing k doc := by
  unfold Catalogue.missing
  congr 1
  apply List.filter_congr
  intro p hp
  rw [hargs, c.lookup_argsOf hnd, argAt_of_mem hnd hp]
  cases hv : doc.get? p.name with
  | none => rfl
  | some v =>
    obtain ⟨a, ha⟩ := hreads p hp v hv
    simp [ha, Except.toOption]

end Stages

end Catalogue

theorem headed_eq_ok {α : Type} {heading : String} {x : Except Fault α} {a : α} :
    headed heading x = .ok a ↔ x = .ok a := by
  cases x <;> simp [headed, Except.mapError]

theorem headed_eq_error {α : Type} {heading : String} {x : Except Fault α} {f : Fault} :
    headed heading x = .error f ↔ ∃ g, x = .error g ∧ f = g.underHeading heading := by
  cases x <;> simp [headed, Except.mapError, eq_comm]

theorem bind_toText_eq_error {α : Type} {t : Value} {m : String} {f : Fault} :
    (do Except.error (Fault.invalid (m ++ (← t.toText))) : Except Fault α) = .error f ↔
      (∃ text, t.toText = .ok text ∧ f = .invalid (m ++ text)) ∨ t.toText = .error f := by
  cases t.toText <;> simp [bind, Except.bind, eq_comm]

theorem bind_toText_ne_ok {α : Type} {t : Value} {m : String} {a : α} :
    (do Except.error (Fault.invalid (m ++ (← t.toText))) : Except Fault α) ≠ .ok a := by
  cases t.toText <;> simp [bind, Except.bind]

section Kind

variable {κ σ : Type} (c : Catalogue κ σ) {doc : Value}

theorem Catalogue.kindOf_eq_ok {k : κ} :
    c.kindOf doc = .ok k ↔
      ∃ s, doc.get? "type" = some (.str s) ∧ c.kinds.find? (fun k => c.name k == s) = some k := by
  unfold Catalogue.kindOf
  cases doc.get? "type" with
  | none => simp
  | some t =>
    cases t with
    | str s =>
      dsimp only
      split
      · rename_i k' hf
        simp [hf]
      · rename_i hf
        simp [hf, bind_toText_ne_ok]
    | _ => simp [bind_toText_ne_ok]

theorem Catalogue.kindOf_eq_error {f : Fault} :
    c.kindOf doc = .error f ↔
      doc.get? "type" = none ∧ f = .invalid "Missing required config key: type" ∨
      ∃ t, doc.get? "type" = some t ∧
        (t.isUnhashable = true ∧ f = .wrongType ("unhashable type: '" ++ t.typeName ++ "'") ∨
          t.isUnhashable = false ∧ (∀ k ∈ c.kinds, t ≠ .str (c.name k)) ∧
            ((∃ text, t.toText = .ok text ∧ f = .invalid ("Unknown " ++ c.what ++ " type: " ++ text)) ∨
              t.toText = .error f)) := by
  unfold Catalogue.kindOf
  cases doc.get? "type" with
  | none => simp [@eq_comm _ f]
  | some t =>
    cases t with
    | str s =>
      dsimp only
      split
      · -- the type names a kind
        rename_i k hf
        have hk := List.mem_of_find?_eq_some hf
        have hname : c.name k = s := by simpa using List.find?_some hf
        constructor
        · intro h
          cases h
        · rintro (⟨h, -⟩ | ⟨t, ht, ⟨hu, -⟩ | ⟨-, hall, -⟩⟩)
          · cases h
          · cases ht
            cases hu
          · cases ht
            exact absurd (by rw [hname]) (hall k hk)
      · -- no kind has the type's name
        rename_i hf
        have hnames : ∀ k ∈ c.kinds, ¬s = c.name k := by
          intro k hk heq
          have := List.find?_eq_none.1 hf k hk
          simp_all
        rw [bind_toText_eq_error]
        simp only [Option.some.injEq, exists_eq_left', Value.isUnhashable, reduceCtorEq, false_and,
          false_or, true_and, ne_eq, Value.str.injEq, Bool.false_eq_true]
        exact ⟨fun h => ⟨hnames, h⟩, fun h => h.2⟩
    | list xs => simp [Value.isUnhashable, Value.typeName, @eq_comm _ f]
    | map es => simp [Value.isUnhashable, Value.typeName, @eq_comm _ f]
    | set xs => simp [Value.isUnhashable, Value.typeName, @eq_comm _ f]
    | _ =>
      dsimp only
      rw [bind_toText_eq_error]
      simp [Value.isUnhashable]

end Kind

/-! ## Outcomes -/

section Outcome

variable {κ σ : Type} (c : Catalogue κ σ)

/-- A catalogue whose kinds name their parameters apart and assemble args by name only. -/
structure Catalogue.ByName : Prop where
  nodup : ∀ k, ((c.params k).map Param.name).Nodup
  assemble : ∀ k (args args' : Args), (∀ n, args.lookup n = args'.lookup n) →
    c.assemble k args = c.assemble k args'

/-- The ways building a document ends. A type that is missing, cannot be a key, or names no kind
is reported as such. A document of a kind is built exactly when it writes no stray key, every
parameter it holds reads, every required one is there and the kind's constraints hold of the
args. Any other fault lists the stray keys, in some order, or restates under the kind's heading
the fault of a parameter that does not read, the missing parameters, or the failed constraint. -/
structure Catalogue.BuildsAs (doc : Value) : Prop where
  typeFault : ∀ f, c.kindOf doc = .error f ↔
    doc.get? "type" = none ∧ f = .invalid "Missing required config key: type" ∨
    ∃ t, doc.get? "type" = some t ∧
      (t.isUnhashable = true ∧ f = .wrongType ("unhashable type: '" ++ t.typeName ++ "'") ∨
        t.isUnhashable = false ∧ (∀ k ∈ c.kinds, t ≠ .str (c.name k)) ∧
          ((∃ text, t.toText = .ok text ∧ f = .invalid ("Unknown " ++ c.what ++ " type: " ++ text)) ∨
            t.toText = .error f))
  kind : ∀ k, c.kindOf doc = .ok k ↔
    ∃ s, doc.get? "type" = some (.str s) ∧ c.kinds.find? (fun k => c.name k == s) = some k
  built : ∀ s, c.build doc = .ok s ↔ ∃ k, c.kindOf doc = .ok k ∧
    (∀ key ∈ docKeys doc, c.Allows k key) ∧ c.ReadsAll k doc ∧ c.missing k doc = [] ∧
      c.assemble k (c.argsOf k doc) = .ok s
  fault : ∀ f, c.build doc = .error f → c.kindOf doc = .error f ∨ ∃ k, c.kindOf doc = .ok k ∧
    ((∃ strays : List Value, strays.Nodup ∧ (∀ v, v ∈ strays ↔ v ∈ docKeys doc ∧ ¬c.Allows k v) ∧
        strays ≠ [] ∧ f = strayKeysFault c.what (c.name k) strays) ∨
      (∀ key ∈ docKeys doc, c.Allows k key) ∧
        ((∃ p ∈ c.params k, ∃ v g, doc.get? p.name = some v ∧ p.reading.read p.name v = .error g ∧
            f = g.underHeading (c.heading k)) ∨
          c.ReadsAll k doc ∧ c.missing k doc ≠ [] ∧
            f = (missingFault (c.className k) (c.missing k doc)).underHeading (c.heading k) ∨
          c.ReadsAll k doc ∧ c.missing k doc = [] ∧ ∃ g, c.assemble k (c.argsOf k doc) = .error g ∧
            f = g.underHeading (c.heading k)))

variable {c} {doc : Value}

theorem Catalogue.build_eq_ok (hc : c.ByName) (hkeys : ∀ key ∈ docKeys doc, key.isStr = true)
    {s : σ} :
    c.build doc = .ok s ↔ ∃ k, c.kindOf doc = .ok k ∧ (∀ key ∈ docKeys doc, c.Allows k key) ∧
      c.ReadsAll k doc ∧ c.missing k doc = [] ∧ c.assemble k (c.argsOf k doc) = .ok s := by
  rw [c.build_eq]
  constructor
  · intro h
    obtain ⟨k, hk, h⟩ := ok_of_bind_eq_ok h
    by_cases hs : c.strays k doc = []
    · rw [if_neg (by simp [hs])] at h
      obtain ⟨args, hargs, h⟩ := ok_of_bind_eq_ok (headed_eq_ok.1 h)
      obtain ⟨hreads, hlook⟩ := c.readParams_eq_ok (hc.nodup k) hkeys hargs
      dsimp only at h
      rw [c.missing_of_lookup (hc.nodup k) hreads hlook] at h
      by_cases hm : c.missing k doc = []
      · rw [hm, if_neg (by simp)] at h
        exact ⟨k, hk, (c.strays_eq_nil_iff hkeys).1 hs, hreads, hm,
          (hc.assemble k _ _ hlook).symm.trans h⟩
      · rw [if_pos (by simpa [List.isEmpty_iff] using hm)] at h
        cases h
    · rw [if_pos (by simpa [List.isEmpty_iff] using hs)] at h
      cases h
  · rintro ⟨k, hk, hallow, hreads, hm, hs⟩
    obtain ⟨args, hargs⟩ := c.readParams_of_readsAll hreads
    obtain ⟨-, hlook⟩ := c.readParams_eq_ok (hc.nodup k) hkeys hargs
    rw [hk]
    show (if _ then _ else _) = _
    rw [if_neg (by simp [(c.strays_eq_nil_iff hkeys).2 hallow]), headed_eq_ok, hargs]
    show (if _ then _ else _) = _
    rw [c.missing_of_lookup (hc.nodup k) hreads hlook, hm, if_neg (by simp),
      hc.assemble k _ _ hlook, hs]

theorem Catalogue.build_eq_error (hc : c.ByName) (hkeys : ∀ key ∈ docKeys doc, key.isStr = true)
    {f : Fault} (h : c.build doc = .error f) :
    c.kindOf doc = .error f ∨ ∃ k, c.kindOf doc = .ok k ∧
      ((∃ strays : List Value, strays.Nodup ∧ (∀ v, v ∈ strays ↔ v ∈ docKeys doc ∧ ¬c.Allows k v) ∧
          strays ≠ [] ∧ f = strayKeysFault c.what (c.name k) strays) ∨
        (∀ key ∈ docKeys doc, c.Allows k key) ∧
          ((∃ p ∈ c.params k, ∃ v g, doc.get? p.name = some v ∧
              p.reading.read p.name v = .error g ∧ f = g.underHeading (c.heading k)) ∨
            c.ReadsAll k doc ∧ c.missing k doc ≠ [] ∧
              f = (missingFault (c.className k) (c.missing k doc)).underHeading (c.heading k) ∨
            c.ReadsAll k doc ∧ c.missing k doc = [] ∧
              ∃ g, c.assemble k (c.argsOf k doc) = .error g ∧ f = g.underHeading (c.heading k))) := by
  rw [c.build_eq] at h
  rcases bind_eq_error h with hk | ⟨k, hk, h⟩
  · exact .inl hk
  refine .inr ⟨k, hk, ?_⟩
  by_cases hs : c.strays k doc = []
  · rw [if_neg (by simp [hs])] at h
    obtain ⟨g, hg, rfl⟩ := headed_eq_error.1 h
    refine .inr ⟨(c.strays_eq_nil_iff hkeys).1 hs, ?_⟩
    rcases bind_eq_error hg with hr | ⟨args, hargs, hg⟩
    · -- a parameter that does not read
      rw [readParams_eq_foldlM] at hr
      obtain ⟨p, hp, v, hv, hpg⟩ := foldlM_readStep_eq_error _ [] hr
      exact .inl ⟨p, hp, v, g, hv, hpg, rfl⟩
    · obtain ⟨hreads, hlook⟩ := c.readParams_eq_ok (hc.nodup k) hkeys hargs
      dsimp only at hg
      rw [c.missing_of_lookup (hc.nodup k) hreads hlook] at hg
      by_cases hm : c.missing k doc = []
      · rw [hm, if_neg (by simp), hc.assemble k _ _ hlook] at hg
        exact .inr (.inr ⟨hreads, hm, g, hg, rfl⟩)
      · rw [if_pos (by simpa [List.isEmpty_iff] using hm)] at hg
        cases hg
        exact .inr (.inl ⟨hreads, hm, rfl⟩)
  · rw [if_pos (by simpa [List.isEmpty_iff] using hs)] at h
    cases h
    exact .inl ⟨c.strays k doc, c.nodup_strays hkeys, c.mem_strays hkeys, hs, rfl⟩

/-- Building a document whose keys are texts ends in one of the ways `BuildsAs` lists, for a
catalogue whose kinds name their parameters apart and assemble by name. -/
theorem Catalogue.buildsAs (hc : c.ByName) (hkeys : ∀ key ∈ docKeys doc, key.isStr = true) :
    c.BuildsAs doc :=
  ⟨fun _ => c.kindOf_eq_error, fun _ => c.kindOf_eq_ok, fun _ => c.build_eq_ok hc hkeys,
    fun _ => c.build_eq_error hc hkeys⟩

/-- Whether a document is built, and into which spec, depends on it only as a mapping: on the
set of its keys and the value under each. -/
theorem Catalogue.build_eq_ok_congr (hc : c.ByName) {doc' : Value}
    (hkeys : ∀ key ∈ docKeys doc, key.isStr = true) (hkeys' : ∀ key ∈ docKeys doc', key.isStr = true)
    (hsame : ∀ key, key ∈ docKeys doc ↔ key ∈ docKeys doc') (hget : ∀ n, doc.get? n = doc'.get? n)
    {s : σ} : c.build doc = .ok s ↔ c.build doc' = .ok s := by
  have hg : doc.get? = doc'.get? := funext hget
  have hkind : c.kindOf doc = c.kindOf doc' := by
    unfold Catalogue.kindOf
    rw [hg]
  rw [c.build_eq_ok hc hkeys, c.build_eq_ok hc hkeys']
  simp only [hkind, Catalogue.ReadsAll, Catalogue.missing, Catalogue.argsOf, hg, hsame]

end Outcome

/-! ## The two catalogues -/

theorem conditions_byName : conditions.ByName where
  nodup k := by
    cases k <;> simp [conditions, ConditionKind.params, real, choice]
  assemble k args args' h := by
    cases k <;> simp only [conditions, ConditionKind.assemble, Args.real, Args.direction, Args.field,
      Args.sense, Args.bounds, h]
    -- `Args.real` is left folded inside the decision of the threshold's comparison
    rfl

theorem actions_byName : actions.ByName where
  nodup k := by
    cases k <;> simp [actions, ActionKind.params, real]
  assemble k args args' h := by
    cases k <;> simp only [actions, ActionKind.assemble, Args.real, Args.count, Args.text, h] <;> rfl

theorem buildsAs_hugeThreshold :
    conditions.ByName ∧
      (∀ key ∈ docKeys (.map [(.str "type", .str "close_price_change"),
        (.str "threshold_percent", .int (10 ^ 400))]), key.isStr = true) ∧
      conditions.BuildsAs (.map [(.str "type", .str "close_price_change"),
        (.str "threshold_percent", .int (10 ^ 400))]) :=
  have hkeys : ∀ key ∈ docKeys (.map [(.str "type", .str "close_price_change"),
      (.str "threshold_percent", .int (10 ^ 400))]), key.isStr = true := by
    decide
  ⟨conditions_byName, hkeys, Catalogue.buildsAs conditions_byName hkeys⟩

/-- The message of a failure, and nothing for a success. -/
def failure? {α : Type} : Except Fault α → Option String
  | .error f => some f.message
  | .ok _ => none

/-- Which of two parameters that do not read is reported depends on the order in which the
document writes them: `min_price` and `bounds` start their probes at the same slot of the key
table of the document's keys, and the first written takes it. -/
theorem buildCondition_order :
    failure? (buildCondition (.map [(.str "type", .str "price_value_range"),
        (.str "min_price", .str "x"), (.str "bounds", .str "y")])) =
      some "Invalid condition price_value_range: could not convert string to float: 'x'" ∧
    failure? (buildCondition (.map [(.str "type", .str "price_value_range"),
        (.str "bounds", .str "y"), (.str "min_price", .str "x")])) =
      some "Invalid condition price_value_range: Invalid bounds: y" := by
  constructor <;> decide +kernel

end Backtest.Rules

