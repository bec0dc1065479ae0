import Backtest.Market.PriceFile
import Backtest.Proofs.Ledger.Sizing
import Mathlib.Data.List.Forall2

/-!
# Reading a price file row by row

A price file whose header has the required columns is read row by row (`readPriceFile_rows`): one
observation per row when every row reads, and otherwise the fault of the first row that does not,
numbered by the rows before it, not by lines; only after every row read does a field past the
reader's limit fail the file. For a text of quote-free lines the reading is explicit
(`read_plainLines`): one record per line, up to the first line with a field past the limit.
-/

namespace Backtest.Csv

/-- A character that a quote-free line may hold: neither a quote nor a line break. -/
def Plain (c : Char) : Prop := c ≠ '"' ∧ c ≠ '\n' ∧ c ≠ '\r'

instance (c : Char) : Decidable (Plain c) :=
  inferInstanceAs (Decidable (c ≠ '"' ∧ c ≠ '\n' ∧ c ≠ '\r'))

/-- The fields of a line without quotes and line breaks: none for an empty line, and otherwise the
pieces between its commas. -/
def lineFields (cs : List Char) : List String :=
  if cs = [] then [] else (cs.splitOn ',').map String.ofList

/-- Whether a line without quotes and line breaks has a field longer than the limit. -/
def overlong (cs : List Char) : Bool :=
  (cs.splitOn ',').any fun p => fieldLimit < p.length

theorem marks_cons_of_ne {c : Char} {rest : List Char} (hr : c ≠ '\r') (hn : c ≠ '\n')
    (hne : rest ≠ []) : marks (c :: rest) = .ch c :: marks rest := by
  cases rest with
  | nil => exact absurd rfl hne
  | cons d ds => simp [marks, hr]

theorem marks_newline (rest : List Char) :
    marks ('\n' :: rest) = .ch '\n' :: .eol :: marks rest := by
  cases rest <;> simp [marks]

theorem marks_plain_line {cs : List Char} (hcs : ∀ c ∈ cs, Plain c) (rest : List Char) :
    marks (cs ++ '\n' :: rest) = cs.map .ch ++ .ch '\n' :: .eol :: marks rest := by
  induction cs with
  | nil => exact marks_newline rest
  | cons c cs ih =>
    obtain ⟨-, hn, hr⟩ := hcs c List.mem_cons_self
    rw [List.cons_append, marks_cons_of_ne hr hn (by simp), ih fun d hd => hcs d (by simp [hd])]
    rfl

theorem breaks_ch {c : Char} (hn : c ≠ '\n') (hr : c ≠ '\r') : (Sym.ch c).breaks = false := by
  rw [Sym.breaks.eq_def]
  split <;> simp_all

/-- The reader inside a record: before a field or in one. -/
def Scan.Within (s : Scan) : Prop := s.phase = .startField ∨ s.phase = .inField

theorem step_plain {s : Scan} {c : Char} (hp : Plain c) (hs : s.phase = .startRecord ∨ s.Within) :
    s.step (.ch c) = if c = ',' then ⟨.startField, [], 0, s.fields ++ [String.ofList s.field.reverse]⟩
      else ⟨.inField, c :: s.field, s.size + 1, s.fields⟩ := by
  obtain ⟨hq, hn, hr⟩ := hp
  rw [Scan.step.eq_def]
  by_cases hc : c = ','
  · subst hc
    rcases hs with hs | hs | hs <;> simp [hs, startField, Sym.breaks, Scan.save]
  · rcases hs with hs | hs | hs <;> simp [hs, hc, hn, hr, startField, breaks_ch hn hr, Scan.add]

theorem within_step_plain {s : Scan} {c : Char} (hp : Plain c)
    (hs : s.phase = .startRecord ∨ s.Within) : (s.step (.ch c)).Within := by
  rw [step_plain hp hs]
  by_cases hc : c = ',' <;> simp [hc, Scan.Within]

theorem within_foldl_plain {cs : List Char} (hcs : ∀ c ∈ cs, Plain c) {s : Scan} (hs : s.Within) :
    ((cs.map Sym.ch).foldl Scan.step s).Within := by
  induction cs generalizing s with
  | nil => exact hs
  | cons c cs ih =>
    exact ih (fun d hd => hcs d (List.mem_cons_of_mem c hd))
      (within_step_plain (hcs c List.mem_cons_self) (.inr hs))

theorem foldl_plain {cs : List Char} (hcs : ∀ c ∈ cs, Plain c) {s : Scan}
    (hs : s.phase = .startRecord ∨ s.Within) :
    let t := (cs.map Sym.ch).foldl Scan.step s
    t.fields ++ [String.ofList t.field.reverse] =
      s.fields ++ (cs.splitOnPPrepend (· == ',') s.field).map String.ofList := by
  induction cs generalizing s with
  | nil => simp
  | cons c cs ih =>
    have hc := hcs c List.mem_cons_self
    have heq := ih (fun d hd => hcs d (List.mem_cons_of_mem c hd)) (.inr (within_step_plain hc hs))
    simp only [List.map_cons, List.foldl_cons] at heq ⊢
    rw [heq, step_plain hc hs]
    by_cases hcomma : c = ','
    · simp [hcomma, List.splitOnPPrepend_cons_pos]
    · simp [hcomma, List.splitOnPPrepend_cons_neg]

theorem size_step_plain {s : Scan} {c : Char} (hp : Plain c)
    (hs : s.phase = .startRecord ∨ s.Within) (hsize : s.size = s.field.length) :
    (s.step (.ch c)).size = (s.step (.ch c)).field.length := by
  rw [step_plain hp hs]
  split <;> simp [hsize]

theorem splitOnPPrepend_step_plain {s : Scan} {c : Char} (hp : Plain c)
    (hs : s.phase = .startRecord ∨ s.Within) (cs : List Char) :
    (c :: cs).splitOnPPrepend (· == ',') s.field =
      (if c = ',' then [s.field.reverse] else []) ++
        cs.splitOnPPrepend (· == ',') (s.step (.ch c)).field := by
  rw [step_plain hp hs]
  by_cases hc : c = ','
  · subst hc
    rw [List.splitOnPPrepend_cons_pos rfl, List.splitOnP_eq_splitOnPPrepend]
    rfl
  · simp [hc, List.splitOnPPrepend_cons_neg]

theorem exists_length_le_splitOnPPrepend {α : Type} (p : α → Bool) (xs acc : List α) :
    ∃ piece ∈ xs.splitOnPPrepend p acc, acc.length ≤ piece.length := by
  induction xs generalizing acc with
  | nil => simp
  | cons a xs ih =>
    cases hp : p a
    · rw [List.splitOnPPrepend_cons_neg hp]
      obtain ⟨piece, hmem, hlen⟩ := ih (a :: acc)
      exact ⟨piece, hmem, by simp at hlen; omega⟩
    · rw [List.splitOnPPrepend_cons_pos hp]
      exact ⟨acc.reverse, by simp, by simp⟩

theorem recordsFrom_ch (s : Scan) (c : Char) (rest : List Sym) :
    recordsFrom s (.ch c :: rest) =
      if fieldLimit < (s.step (.ch c)).size then ⟨[], true⟩
      else recordsFrom (s.step (.ch c)) rest := by
  simp [recordsFrom]

theorem recordsFrom_chars {cs : List Char} (hcs : ∀ c ∈ cs, Plain c) {s : Scan}
    (hs : s.phase = .startRecord ∨ s.Within) (hsize : s.size = s.field.length)
    (hfit : ∀ p ∈ cs.splitOnPPrepend (· == ',') s.field, p.length ≤ fieldLimit)
    (rest : List Sym) :
    recordsFrom s (cs.map Sym.ch ++ rest) = recordsFrom ((cs.map Sym.ch).foldl Scan.step s) rest := by
  induction cs generalizing s with
  | nil => rfl
  | cons c cs ih =>
    have hc := hcs c List.mem_cons_self
    have hpieces := splitOnPPrepend_step_plain hc hs cs
    -- the field after the step begins a field of the line, so it is within the limit
    have hle : (s.step (.ch c)).size ≤ fieldLimit := by
      obtain ⟨p, hp, hlen⟩ := exists_length_le_splitOnPPrepend (· == ',') cs (s.step (.ch c)).field
      rw [size_step_plain hc hs hsize]
      exact Nat.le_trans hlen (hfit p (by rw [hpieces]; simp [hp]))
    rw [List.map_cons, List.cons_append, recordsFrom_ch, if_neg (Nat.not_lt.2 hle), List.foldl_cons]
    exact ih (fun d hd => hcs d (List.mem_cons_of_mem c hd)) (.inr (within_step_plain hc hs))
      (size_step_plain hc hs hsize) (fun p hp => hfit p (by rw [hpieces]; simp [hp]))

theorem recordsFrom_chars_overflow {cs : List Char} (hcs : ∀ c ∈ cs, Plain c) {s : Scan}
    (hs : s.phase = .startRecord ∨ s.Within) (hsize : s.size = s.field.length)
    (hle : s.size ≤ fieldLimit)
    (hover : ∃ p ∈ cs.splitOnPPrepend (· == ',') s.field, fieldLimit < p.length)
    (rest : List Sym) : recordsFrom s (cs.map Sym.ch ++ rest) = ⟨[], true⟩ := by
  induction cs generalizing s with
  | nil =>
    -- the only field left is the current one, which is within the limit
    obtain ⟨p, hp, hlen⟩ := hover
    rw [List.splitOnPPrepend_nil, List.mem_singleton] at hp
    rw [hp, List.length_reverse] at hlen
    omega
  | cons c cs ih =>
    have hc := hcs c List.mem_cons_self
    rw [List.map_cons, List.cons_append, recordsFrom_ch]
    split
    · rfl
    · rename_i hnot
      refine ih (fun d hd => hcs d (List.mem_cons_of_mem c hd)) (.inr (within_step_plain hc hs))
        (size_step_plain hc hs hsize) (Nat.not_lt.1 hnot) ?_
      -- the field a comma here closes is the current one, which is within the limit
      obtain ⟨p, hp, hlen⟩ := hover
      rw [splitOnPPrepend_step_plain hc hs cs] at hp
      rcases List.mem_append.1 hp with hp | hp
      · have hcur : p = s.field.reverse := by
          split at hp
          · exact List.mem_singleton.1 hp
          · simp at hp
        rw [hcur, List.length_reverse] at hlen
        omega
      · exact ⟨p, hp, hlen⟩

theorem step_eol_eatLineBreak {s : Scan} (hs : s.phase = .eatLineBreak) :
    s.step .eol = { s with phase := .startRecord } := by
  rw [Scan.step.eq_def]
  simp [hs]

theorem recordsFrom_newline_within {s : Scan} (hs : s.Within) (rest : List Sym) :
    recordsFrom s (.ch '\n' :: .eol :: rest) =
      (recordsFrom {} rest).cons (s.fields ++ [String.ofList s.field.reverse]) := by
  have hstep : s.step (.ch '\n') =
      ⟨.eatLineBreak, [], 0, s.fields ++ [String.ofList s.field.reverse]⟩ := by
    rw [Scan.step.eq_def]
    rcases hs with hs | hs <;> simp [hs, startField, Sym.breaks, Scan.save, afterBreak]
  simp [recordsFrom, hstep, step_eol_eatLineBreak]

theorem recordsFrom_newline_empty (rest : List Sym) :
    recordsFrom {} (.ch '\n' :: .eol :: rest) = (recordsFrom {} rest).cons [] := by
  have hstep : ({} : Scan).step (.ch '\n') = { phase := .eatLineBreak } := rfl
  simp [recordsFrom, hstep, step_eol_eatLineBreak]

theorem recordsFrom_plain_line {cs : List Char} (hcs : ∀ c ∈ cs, Plain c)
    (hfit : overlong cs = false) (rest : List Sym) :
    recordsFrom {} (cs.map .ch ++ .ch '\n' :: .eol :: rest) =
      (recordsFrom {} rest).cons (lineFields cs) := by
  have hpieces : ∀ p ∈ cs.splitOnPPrepend (· == ',') [], p.length ≤ fieldLimit := by
    simpa [overlong, List.splitOn_eq_splitOnP] using hfit
  rw [recordsFrom_chars hcs (.inl rfl) rfl hpieces]
  cases cs with
  | nil => exact recordsFrom_newline_empty rest
  | cons c cs =>
    have hwithin : (((c :: cs).map Sym.ch).foldl Scan.step {}).Within :=
      within_foldl_plain (fun d hd => hcs d (List.mem_cons_of_mem c hd))
        (within_step_plain (hcs c List.mem_cons_self) (.inl rfl))
    rw [recordsFrom_newline_within hwithin, foldl_plain hcs (.inl rfl), lineFields,
      if_neg (List.cons_ne_nil c cs)]
    rfl

theorem read_plain_line {line : String} (hline : ∀ c ∈ line.toList, Plain c) (rest : String) :
    read (line ++ "\n" ++ rest) =
      if overlong line.toList then ⟨[], true⟩ else (read rest).cons (lineFields line.toList) := by
  unfold read
  have htext : (line ++ "\n" ++ rest).toList = line.toList ++ '\n' :: rest.toList := by
    simp [String.toList_append]
  rw [htext, marks_plain_line hline]
  cases hover : overlong line.toList
  · exact recordsFrom_plain_line hline hover _
  · refine recordsFrom_chars_overflow hline (.inl rfl) rfl (Nat.zero_le _) ?_ _
    simpa [overlong, List.splitOn_eq_splitOnP] using hover

/-- A text of quote-free lines is read one record per line, up to the first line with a field past
the limit, where the reader stops. -/
theorem read_plainLines {lines : List String} (hlines : ∀ l ∈ lines, ∀ c ∈ l.toList, Plain c) :
    read (String.join (lines.map (· ++ "\n"))) =
      ⟨(lines.takeWhile fun l => !overlong l.toList).map fun l => lineFields l.toList,
        lines.any fun l => overlong l.toList⟩ := by
  induction lines with
  | nil => rfl
  | cons l ls ih =>
    rw [List.map_cons, String.join_cons, read_plain_line (hlines l List.mem_cons_self),
      ih fun l' hl' => hlines l' (List.mem_cons_of_mem l hl')]
    cases hover : overlong l.toList <;> simp [Reading.cons, hover]

theorem lineFields_eq_nil {cs : List Char} : lineFields cs = [] ↔ cs = [] := by
  unfold lineFields
  split
  · simp_all
  · simp_all [List.splitOn_ne_nil]

/-- In a text of quote-free lines whose header the reader reads, the rows are the lines after the
first that are not blank, up to the first line with a field past the limit, where the reader
stops. -/
theorem table_plainLines {lines : List String} (hlines : ∀ l ∈ lines, ∀ c ∈ l.toList, Plain c)
    {table : Table} (hread : Table.read (String.join (lines.map (· ++ "\n"))) = .ok table) :
    table.overflow = lines.any (fun l => overlong l.toList) ∧
      table.rows = (((lines.takeWhile fun l => !overlong l.toList).drop 1).filter (· ≠ "")).map
        fun l => lineFields l.toList := by
  unfold Table.read at hread
  rw [read_plainLines hlines] at hread
  cases lines with
  | nil =>
    cases hread
    exact ⟨rfl, rfl⟩
  | cons header lines =>
    cases hover : overlong header.toList
    · have htake : (header :: lines).takeWhile (fun l => !overlong l.toList) =
          header :: lines.takeWhile (fun l => !overlong l.toList) := by
        simp [hover]
      simp [hover] at hread
      subst hread
      refine ⟨by simp [hover], ?_⟩
      rw [htake, List.drop_succ_cons, List.drop_zero, List.filter_map]
      dsimp only
      congr 1
      apply List.filter_congr
      intro l _
      rw [Bool.eq_iff_iff]
      simp [lineFields_eq_nil, String.toList_eq_nil_iff]
    · simp [hover] at hread

end Backtest.Csv

namespace Backtest

theorem Fault.framed_of_isValueOrType {f : Fault} (h : f.isValueOrType = true)
    (before after : String) : f.framed before after = .invalid (before ++ f.message ++ after) := by
  simp [Fault.framed, h]

theorem Fault.framed_of_not {f : Fault} (h : f.isValueOrType = false) (before after : String) :
    f.framed before after = f := by
  simp [Fault.framed, h]

end Backtest

namespace Backtest.Market

open Backtest.Csv Backtest.Document

theorem cell_eq_some_none {header row : List String} {name : String} (h : name ∈ header) :
    cell header row name = some none ↔ ∃ i, header[i]? = some name ∧ row.length ≤ i := by
  have hpos : ∀ i, i ∈ (List.range header.length).filter (fun i => header[i]? = some name) ↔
      header[i]? = some name := by
    intro i
    simp only [List.mem_filter, List.mem_range, decide_eq_true_eq, and_iff_right_iff_imp]
    intro hi
    exact (List.getElem?_eq_some_iff.1 hi).1
  unfold cell
  dsimp only
  rw [if_neg (not_not_intro h)]
  split
  · rename_i hany
    obtain ⟨i, hi, hle⟩ := List.any_eq_true.1 hany
    exact iff_of_true rfl ⟨i, (hpos i).1 hi, of_decide_eq_true hle⟩
  · rename_i hany
    simp only [Bool.not_eq_true, List.any_eq_false, decide_eq_true_eq, Nat.not_le] at hany
    constructor
    · -- the last position lies within the row, so the row has a field there
      intro hnone
      obtain ⟨j, hj⟩ : ∃ j, header[j]? = some name := List.mem_iff_getElem?.1 h
      have hne : (List.range header.length).filter (fun i => header[i]? = some name) ≠ [] :=
        List.ne_nil_of_mem ((hpos j).2 hj)
      obtain ⟨last, hlast⟩ := Option.isSome_iff_exists.1 (List.getLast?_isSome.2 hne)
      have hin : last < row.length := hany last (List.mem_of_getLast? hlast)
      simp [hlast, List.getElem?_eq_getElem hin] at hnone
    · rintro ⟨i, hi, hle⟩
      exact absurd hle (Nat.not_le.2 (hany i ((hpos i).2 hi)))

theorem cell_ne_none {header row : List String} {name : String} (h : name ∈ header) :
    cell header row name ≠ none := by
  unfold cell
  dsimp only
  rw [if_neg (not_not_intro h)]
  split <;> simp

theorem cell_eq_some_none_of_ne {header row : List String} {name : String} (h : name ∈ header)
    (hno : ∀ s, cell header row name ≠ some (some s)) : cell header row name = some none := by
  cases hc : cell header row name with
  | none => exact absurd hc (cell_ne_none h)
  | some v =>
    cases v with
    | none => rfl
    | some s => exact absurd hc (hno s)

theorem toFloat_str_isValueOrType {s : String} {g : Fault} (h : Value.toFloat (.str s) = .error g) :
    g.isValueOrType = true := by
  simp only [Value.toFloat] at h
  split at h
  · cases h
  · cases h
    rfl

theorem priceField_isValueOrType {header row : List String} {name : String} {g : Fault}
    (h : priceField header row name = .error g) : g.isValueOrType = true := by
  unfold priceField at h
  split at h
  · exact toFloat_str_isValueOrType h
  · cases h
    rfl

theorem Observation.make_isValueOrType {date : Calendar.Date} {o h l c v : Float} {g : Fault}
    (hmake : Observation.make date o h l c v = .error g) : g.isValueOrType = true := by
  unfold Observation.make at hmake
  split at hmake
  · cases hmake
    rfl
  · cases hmake

theorem readRow_eq_error {header row : List String} {g : Fault} (h : readRow header row = .error g) :
    g.isValueOrType = true ∨
      (g = .noAttribute "'NoneType' object has no attribute 'strip'" ∧
        ∀ s, cell header row "date" ≠ some (some s)) := by
  unfold readRow at h
  dsimp only at h
  split at h
  · -- a malformed date is a value fault
    rcases bind_eq_error h with hdate | ⟨_, -, h⟩
    · obtain ⟨e, -, rfl⟩ := mapError_eq_error hdate
      exact .inl rfl
    rcases bind_eq_error h with hp | ⟨_, -, h⟩
    · exact .inl (priceField_isValueOrType hp)
    rcases bind_eq_error h with hp | ⟨_, -, h⟩
    · exact .inl (priceField_isValueOrType hp)
    rcases bind_eq_error h with hp | ⟨_, -, h⟩
    · exact .inl (priceField_isValueOrType hp)
    rcases bind_eq_error h with hp | ⟨_, -, h⟩
    · exact .inl (priceField_isValueOrType hp)
    -- the volume: an empty or missing field is zero, any other is read as a float
    split at h
    · split at h
      · simp only [pure_bind] at h
        exact .inl (Observation.make_isValueOrType h)
      · rcases bind_eq_error h with hv | ⟨_, -, h⟩
        · exact .inl (toFloat_str_isValueOrType hv)
        · exact .inl (Observation.make_isValueOrType h)
    · simp only [pure_bind] at h
      exact .inl (Observation.make_isValueOrType h)
  · -- a missing date is read before any fault is caught
    rename_i hcell
    cases h
    exact .inr ⟨rfl, hcell⟩

theorem readRow_of_date_error {header row : List String} {s m : String}
    (hcell : cell header row "date" = some (some s))
    (hdate : Calendar.Date.ofIso (Text.trim s) = .error m) :
    readRow header row = .error (.invalid m) := by
  unfold readRow
  dsimp only
  rw [hcell]
  dsimp only
  rw [hdate]
  rfl

theorem readRows_cons_error {path : String} {header row : List String} {line : Nat}
    {rest : List (List String)} {g : Fault} (h : readRow header row = .error g) :
    readRows path header line (row :: rest) =
      .error (g.framed (path ++ ":" ++ toString line ++ ": invalid price row (") ")") := by
  rw [readRows, h]
  rfl

theorem readRows_cons_ok {path : String} {header row : List String} {line : Nat}
    {rest : List (List String)} {o : Observation} (h : readRow header row = .ok o) :
    readRows path header line (row :: rest) = (readRows path header (line + 1) rest).map (o :: ·) := by
  rw [readRows, h]
  cases readRows path header (line + 1) rest <;> rfl

theorem readRows_eq_ok {path : String} {header : List String} {line : Nat}
    {rows : List (List String)} {os : List Observation} :
    readRows path header line rows = .ok os ↔
      List.Forall₂ (fun row o => readRow header row = .ok o) rows os := by
  induction rows generalizing line os with
  | nil => cases os <;> simp [readRows]
  | cons row rest ih =>
    cases hrow : readRow header row with
    | error g =>
      rw [readRows_cons_error hrow]
      cases os <;> simp [hrow]
    | ok o =>
      rw [readRows_cons_ok hrow]
      cases hrest : readRows path header (line + 1) rest with
      | error e =>
        -- the later rows do not all read, so no list of observations matches them
        have hnot : ∀ os', ¬ List.Forall₂ (fun row o => readRow header row = .ok o) rest os' :=
          fun os' hall => by simp [ih.2 hall] at hrest
        cases os <;> simp [Except.map, hrow, hnot]
      | ok os' =>
        have hall := (@ih (line + 1) os').1 hrest
        cases os with
        | nil => simp [Except.map]
        | cons o' os =>
          simp only [Except.map, Except.ok.injEq, List.cons.injEq, List.forall₂_cons, hrow]
          constructor
          · rintro ⟨rfl, rfl⟩
            exact ⟨rfl, hall⟩
          · rintro ⟨rfl, hall'⟩
            refine ⟨rfl, ?_⟩
            have := (@ih (line + 1) os).2 hall'
            rw [hrest] at this
            exact Except.ok.inj this

theorem readRows_eq_error {path : String} {header : List String} {line : Nat}
    {rows : List (List String)} {f : Fault} :
    readRows path header line rows = .error f ↔
      ∃ done row later g, rows = done ++ row :: later ∧
        (∀ r ∈ done, ∃ o, readRow header r = .ok o) ∧ readRow header row = .error g ∧
        f = g.framed (path ++ ":" ++ toString (line + done.length) ++ ": invalid price row (") ")" := by
  induction rows generalizing line with
  | nil => simp [readRows]
  | cons row rest ih =>
    cases hrow : readRow header row with
    | error g =>
      -- the first row fails: nothing is read before it
      rw [readRows_cons_error hrow]
      constructor
      · rintro ⟨⟩
        exact ⟨[], row, rest, g, rfl, by simp, hrow, by simp⟩
      · rintro ⟨done, row', later, g', hsplit, hdone, hrow', rfl⟩
        cases done with
        | nil =>
          obtain ⟨rfl, rfl⟩ := List.cons.inj hsplit
          rw [hrow] at hrow'
          cases hrow'
          simp
        | cons r done =>
          obtain ⟨rfl, -⟩ := List.cons.inj hsplit
          obtain ⟨o, ho⟩ := hdone _ List.mem_cons_self
          rw [hrow] at ho
          cases ho
    | ok o =>
      -- the first row reads: the failing row is among the later ones, one line further on
      rw [readRows_cons_ok hrow]
      have hmap : (readRows path header (line + 1) rest).map (o :: ·) = .error f ↔
          readRows path header (line + 1) rest = .error f := by
        cases readRows path header (line + 1) rest <;> simp [Except.map]
      rw [hmap, ih]
      constructor
      · rintro ⟨done, row', later, g, rfl, hdone, hrow', rfl⟩
        refine ⟨row :: done, row', later, g, rfl, ?_, hrow', ?_⟩
        · intro r hr
          rcases List.mem_cons.1 hr with rfl | hr
          · exact ⟨o, hrow⟩
          · exact hdone r hr
        · simp [Nat.add_assoc, Nat.add_comm 1]
      · rintro ⟨done, row', later, g, hsplit, hdone, hrow', rfl⟩
        cases done with
        | nil =>
          obtain ⟨rfl, -⟩ := List.cons.inj hsplit
          rw [hrow] at hrow'
          cases hrow'
        | cons r done =>
          obtain ⟨rfl, rfl⟩ := List.cons.inj hsplit
          refine ⟨done, row', later, g, rfl, fun r' hr' => hdone r' (List.mem_cons_of_mem _ hr'),
            hrow', ?_⟩
          simp [Nat.add_assoc, Nat.add_comm 1]

theorem readRows_reads {path : String} {header : List String} {line : Nat}
    {rows : List (List String)} :
    (∃ os, readRows path header line rows = .ok os) ↔ ∀ r ∈ rows, ∃ o, readRow header r = .ok o := by
  induction rows generalizing line with
  | nil => simp [readRows]
  | cons row rest ih =>
    cases hrow : readRow header row with
    | error g => simp [readRows_cons_error hrow, hrow]
    | ok o =>
      have hmap : (∃ os, (readRows path header (line + 1) rest).map (o :: ·) = .ok os) ↔
          ∃ os, readRows path header (line + 1) rest = .ok os := by
        cases readRows path header (line + 1) rest <;> simp [Except.map]
      rw [readRows_cons_ok hrow, hmap, ih]
      simp [hrow]

theorem rowFault_framed {path : String} {header row : List String} {g f : Fault} (n : Nat)
    (hdate : "date" ∈ header) (hrow : readRow header row = .error g) :
    f = g.framed (path ++ ":" ++ toString n ++ ": invalid price row (") ")" ↔
      g.isValueOrType = true ∧
          f = .invalid (path ++ ":" ++ toString n ++ ": invalid price row (" ++ g.message ++ ")") ∨
        (∃ i, header[i]? = some "date" ∧ row.length ≤ i) ∧
          g = .noAttribute "'NoneType' object has no attribute 'strip'" ∧ f = g := by
  constructor
  · rintro rfl
    rcases readRow_eq_error hrow with hvt | ⟨rfl, hno⟩
    · exact .inl ⟨hvt, Fault.framed_of_isValueOrType hvt _ _⟩
    · exact .inr ⟨(cell_eq_some_none hdate).1 (cell_eq_some_none_of_ne hdate hno), rfl,
        Fault.framed_of_not rfl _ _⟩
  · rintro (⟨hvt, rfl⟩ | ⟨-, rfl, rfl⟩)
    · exact (Fault.framed_of_isValueOrType hvt _ _).symm
    · exact (Fault.framed_of_not rfl _ _).symm

theorem readPriceFile_eq_readRows {path text : String} {table : Table}
    (hread : Table.read text = .ok table) (hcols : ∀ c ∈ requiredColumns, c ∈ table.header) :
    readPriceFile path text = (readRows path table.header 2 table.rows).bind fun os =>
      if table.overflow then .error fieldTooLarge else .ok os := by
  have hmissing : requiredColumns.filter (fun c => c ∉ table.header) = [] :=
    List.filter_eq_nil_iff.2 fun c hc => by simp [hcols c hc]
  rw [readPriceFile, hread]
  dsimp only [bind, Except.bind]
  rw [hmissing]
  cases readRows path table.header 2 table.rows <;> cases table.overflow <;> rfl

theorem readPriceFile_eq_ok {path text : String} {table : Table}
    (hread : Table.read text = .ok table) (hcols : ∀ c ∈ requiredColumns, c ∈ table.header)
    (os : List Observation) :
    readPriceFile path text = .ok os ↔
      table.overflow = false ∧
        List.Forall₂ (fun row o => readRow table.header row = .ok o) table.rows os := by
  rw [readPriceFile_eq_readRows hread hcols, ← @readRows_eq_ok path table.header 2 table.rows os]
  cases readRows path table.header 2 table.rows <;> cases table.overflow <;> simp [Except.bind]

theorem readPriceFile_eq_error {path text : String} {table : Table}
    (hread : Table.read text = .ok table) (hcols : ∀ c ∈ requiredColumns, c ∈ table.header)
    (f : Fault) :
    readPriceFile path text = .error f ↔
      (∃ done row later g, table.rows = done ++ row :: later ∧
        (∀ r ∈ done, ∃ o, readRow table.header r = .ok o) ∧
        readRow table.header row = .error g ∧
        (g.isValueOrType = true ∧
            f = .invalid (path ++ ":" ++ toString (done.length + 2) ++ ": invalid price row (" ++
              g.message ++ ")") ∨
          (∃ i, table.header[i]? = some "date" ∧ row.length ≤ i) ∧
            g = .noAttribute "'NoneType' object has no attribute 'strip'" ∧ f = g)) ∨
      (∀ r ∈ table.rows, ∃ o, readRow table.header r = .ok o) ∧ table.overflow = true ∧
        f = fieldTooLarge := by
  have hdate : "date" ∈ table.header := hcols "date" (by simp [requiredColumns])
  -- the rows are read first, so the reader's stop shows only when all of them read
  have hbind : readPriceFile path text = .error f ↔
      readRows path table.header 2 table.rows = .error f ∨
        (∃ os, readRows path table.header 2 table.rows = .ok os) ∧ table.overflow = true ∧
          f = fieldTooLarge := by
    rw [readPriceFile_eq_readRows hread hcols]
    cases readRows path table.header 2 table.rows <;> cases table.overflow <;>
      simp [Except.bind, eq_comm]
  rw [hbind, readRows_eq_error, readRows_reads]
  refine or_congr (exists_congr fun done => exists_congr fun row => exists_congr fun later =>
    exists_congr fun g => and_congr_right fun _ => and_congr_right fun _ =>
      and_congr_right fun hrow => ?_) Iff.rfl
  rw [Nat.add_comm]
  exact rowFault_framed _ hdate hrow

/-- A price file whose header the reader reads and has the required columns is read row by row.
It returns one observation for each row, in order, when every row reads and the reader does not
stop. Otherwise it fails at the first row that does not read, numbered by the count of rows before
it plus two: the fault of that row framed as a value fault under `<path>:<n>: invalid price row
(…)`, or, for a row too short to have a date, the missing attribute `strip` of nothing as it is; or,
when every row reads, with the fault of a field past the reader's limit. The rows are the records
after the header that are not empty; in a text of quote-free lines, the lines after the first that
are not blank, up to the first line with a field past the limit, so a blank line before a row puts
its number behind its line. -/
theorem readPriceFile_rows (path text : String) (table : Table)
    (hread : Table.read text = .ok table) (hcols : ∀ c ∈ requiredColumns, c ∈ table.header) :
    (∀ os, readPriceFile path text = .ok os ↔
      table.overflow = false ∧
        List.Forall₂ (fun row o => readRow table.header row = .ok o) table.rows os) ∧
    (∀ f, readPriceFile path text = .error f ↔
      (∃ done row later g, table.rows = done ++ row :: later ∧
        (∀ r ∈ done, ∃ o, readRow table.header r = .ok o) ∧
        readRow table.header row = .error g ∧
        (g.isValueOrType = true ∧
            f = .invalid (path ++ ":" ++ toString (done.length + 2) ++ ": invalid price row (" ++
              g.message ++ ")") ∨
          (∃ i, table.header[i]? = some "date" ∧ row.length ≤ i) ∧
            g = .noAttribute "'NoneType' object has no attribute 'strip'" ∧ f = g)) ∨
      (∀ r ∈ table.rows, ∃ o, readRow table.header r = .ok o) ∧ table.overflow = true ∧
        f = fieldTooLarge) ∧
    (∀ lines : List String, (∀ l ∈ lines, ∀ c ∈ l.toList, Plain c) →
      text = String.join (lines.map (· ++ "\n")) →
      table.overflow = lines.any (fun l => overlong l.toList) ∧
      table.rows = (((lines.takeWhile fun l => !overlong l.toList).drop 1).filter (· ≠ "")).map
        fun l => lineFields l.toList) := by
  refine ⟨readPriceFile_eq_ok hread hcols, readPriceFile_eq_error hread hcols,
    fun lines hlines htext => ?_⟩
  subst htext
  exact table_plainLines hlines hread

/-- A row after a blank line is numbered 2 though it stands on line 3. -/
theorem readPriceFile_rows_afterBlankLine :
    Table.read "date,open,high,low,close\n\nbad,1,1,1,1\n" =
        .ok ⟨["date", "open", "high", "low", "close"], [["bad", "1", "1", "1", "1"]], false⟩ ∧
      (∀ c ∈ requiredColumns, c ∈ ["date", "open", "high", "low", "close"]) ∧
      readPriceFile "prices.csv" "date,open,high,low,close\n\nbad,1,1,1,1\n" =
        .error (.invalid "prices.csv:2: invalid price row (Invalid isoformat string: 'bad')") := by
  have hread : Table.read "date,open,high,low,close\n\nbad,1,1,1,1\n" =
      .ok ⟨["date", "open", "high", "low", "close"], [["bad", "1", "1", "1", "1"]], false⟩ := by
    rfl
  have hcols : ∀ c ∈ requiredColumns, c ∈ ["date", "open", "high", "low", "close"] := by
    decide
  refine ⟨hread, hcols, ((readPriceFile_rows "prices.csv" _ _ hread hcols).2.1 _).2
    (.inl ⟨[], ["bad", "1", "1", "1", "1"], [], .invalid "Invalid isoformat string: 'bad'", rfl,
      by simp, ?_, .inl ⟨rfl, congrArg Fault.invalid (by decide)⟩⟩)⟩
  exact readRow_of_date_error (s := "bad") (by decide +kernel) (by decide +kernel)

end Backtest.Market
