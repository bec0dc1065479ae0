import Backtest.Decimal.Layout
import Backtest.Decimal.Reader
import Backtest.Proofs.Decimal.Shortest

/-!
# Reading a float's text gives the float back

The plain text of a finite nonzero float writes the decimal `c * 10 ^ k` that `shortest` chose
(`writesDecimal_magnitude`); the reader takes its digits as one whole number and its point as a
power of ten, and `Float.ofScientific` rounds that decimal back to the float. Zero, the infinities
and NaN are read by their words and a leading `-` by negation, so every float's text reads as the
float (`readChars_plainText`).
-/

namespace Backtest.Decimal

open Float.Model.UnpackedFloat Backtest.Text

/-! ## Characters -/

theorem toNat_of_isDigit {d : Char} (h : d.isDigit = true) : 48 ≤ d.toNat ∧ d.toNat ≤ 57 := by
  simp only [Char.isDigit, Bool.and_eq_true, decide_eq_true_eq, UInt32.le_iff_toNat_le] at h
  exact h

theorem toLower_of_isDigit {d : Char} (h : d.isDigit = true) : d.toLower = d := by
  have hd := toNat_of_isDigit h
  unfold Char.toLower
  rw [dif_neg]
  simp only [UInt32.le_iff_toNat_le, ge_iff_le, not_and, not_le]
  intro h₁
  change 65 ≤ d.toNat at h₁
  change 90 < d.toNat
  omega

theorem IsNumeral.ascii {c : Char} (h : IsNumeral c) :
    c.toNat < 128 ∧ isAsciiBlank c = false ∧ c ≠ '_' := by
  rcases h with h | h
  · have hd := toNat_of_isDigit h
    refine ⟨by omega, ?_, fun hc => by rw [hc] at hd; simp at hd⟩
    simp only [isAsciiBlank, Bool.or_eq_false_iff, decide_eq_false_iff_not, Bool.and_eq_false_imp,
      decide_eq_true_eq]
    refine ⟨fun hc => by rw [hc] at hd; simp at hd, fun _ => by omega⟩
  · simp only [List.mem_cons, List.not_mem_nil, or_false] at h
    rcases h with rfl | rfl | rfl | rfl | rfl | rfl | rfl | rfl <;> decide

theorem asciiForm_of_numeral {s : List Char} (h : ∀ c ∈ s, IsNumeral c) : asciiForm s = s := by
  unfold asciiForm
  conv_rhs => rw [← List.map_id s]
  apply List.map_congr_left
  intro c hc
  simp [(h c hc).ascii.1]

theorem dropWhile_of_forall {p : Char → Bool} {s : List Char} (h : ∀ c ∈ s, p c = false) :
    s.dropWhile p = s := by
  cases s with
  | nil => rfl
  | cons c cs => simp [h c (by simp)]

theorem underscoresBetweenDigits_of_not_mem : ∀ {s : List Char}, '_' ∉ s →
    underscoresBetweenDigits s = true
  | [], _ => rfl
  | [c], h => by
    simp only [List.mem_singleton] at h
    simpa [underscoresBetweenDigits] using Ne.symm h
  | a :: b :: rest, h => by
    have hb : b ≠ '_' := fun hb => h (by simp [hb])
    have ha : a ≠ '_' := fun ha => h (by simp [ha])
    unfold underscoresBetweenDigits
    rw [if_neg hb, if_neg ha]
    exact underscoresBetweenDigits_of_not_mem (fun hm => h (List.mem_cons_of_mem _ hm))

theorem readChars_eq_of_numeral (s : List Char) : (∀ c ∈ s, IsNumeral c) →
    readChars? s = match s with
      | '-' :: body => (readUnsigned body).map (fun x => -x)
      | '+' :: body => readUnsigned body
      | body => readUnsigned body := by
  intro h
  have hblank : ∀ c ∈ s, isAsciiBlank c = false := fun c hc => (h c hc).ascii.2.1
  have hunder : '_' ∉ s := fun hm => (h _ hm).ascii.2.2 rfl
  unfold readChars?
  dsimp only
  rw [asciiForm_of_numeral h, dropWhile_of_forall hblank,
    dropWhile_of_forall (fun c hc => hblank c (List.mem_reverse.1 hc)), List.reverse_reverse,
    underscoresBetweenDigits_of_not_mem hunder,
    List.filter_eq_self.2 (fun c hc => decide_eq_true (show c ≠ '_' from fun hc' => hunder (hc' ▸ hc)))]
  rfl

theorem readChars_neg {body : List Char} (h : ∀ c ∈ body, IsNumeral c) :
    readChars? ('-' :: body) = (readUnsigned body).map (fun x => -x) := by
  rw [readChars_eq_of_numeral _ (fun c hc => by
    rcases List.mem_cons.1 hc with rfl | hc
    · exact Or.inr (by simp)
    · exact h c hc)]
  rfl

theorem readChars_of_isDigit {d : Char} {rest : List Char} (hd : d.isDigit = true ∨ d = 'i' ∨ d = 'n')
    (h : ∀ c ∈ d :: rest, IsNumeral c) : readChars? (d :: rest) = readUnsigned (d :: rest) := by
  rw [readChars_eq_of_numeral _ h]
  have hminus : d ≠ '-' := by
    rintro rfl
    rcases hd with hd | hd | hd <;> simp at hd
  have hplus : d ≠ '+' := by
    rintro rfl
    rcases hd with hd | hd | hd <;> simp at hd
  split
  · rename_i body heq
    exact absurd (List.cons.inj heq).1 hminus
  · rename_i body heq
    exact absurd (List.cons.inj heq).1 hplus
  · rfl

/-! ## Decimals -/

theorem digitsValue_natDigits (n : Nat) : digitsValue (natDigits n) = n :=
  Nat.ofDigitChars_ten_toDigits

theorem natDigits_ne_nil (n : Nat) : natDigits n ≠ [] :=
  List.ne_nil_of_length_pos Nat.length_toDigits_pos

theorem isDigit_of_mem_natDigits {n : Nat} {c : Char} (h : c ∈ natDigits n) : c.isDigit = true :=
  Nat.isDigit_of_mem_toDigits (by decide) (by decide) h

theorem digitsValue_foldl (init : Nat) (b : List Char) :
    b.foldl (fun n d => 10 * n + (d.toNat - 48)) init = init * 10 ^ b.length + digitsValue b := by
  induction b generalizing init with
  | nil => simp [digitsValue]
  | cons c b ih =>
    simp only [digitsValue, List.foldl_cons, List.length_cons] at ih ⊢
    rw [ih, ih (10 * 0 + (c.toNat - 48))]
    ring

theorem digitsValue_append (a b : List Char) :
    digitsValue (a ++ b) = digitsValue a * 10 ^ b.length + digitsValue b := by
  rw [digitsValue, List.foldl_append, digitsValue_foldl]
  rfl

theorem digitsValue_zeros (z : Nat) : digitsValue (zeros z) = 0 := by
  change Nat.ofDigitChars 10 (List.replicate z '0') 0 = 0
  rw [Nat.ofDigitChars_replicate_zero, Nat.mul_zero]

theorem digitsValue_append_zeros (ds : List Char) (z : Nat) :
    digitsValue (ds ++ zeros z) = digitsValue ds * 10 ^ z := by
  rw [digitsValue_append, digitsValue_zeros, zeros, List.length_replicate, Nat.add_zero]

theorem digitsValue_zeros_append (z : Nat) (ds : List Char) :
    digitsValue (zeros z ++ ds) = digitsValue ds := by
  rw [digitsValue_append, digitsValue_zeros, Nat.zero_mul, Nat.zero_add]

/-- Digits, then a point and more digits when there are any: the form of every decimal the
reader is given here. -/
def decimalText (whole frac : List Char) : List Char :=
  if frac = [] then whole else whole ++ '.' :: frac

theorem dropWhile_append_of_forall {p : Char → Bool} {xs : List Char} (h : ∀ c ∈ xs, p c = true)
    (ys : List Char) : (xs ++ ys).dropWhile p = ys.dropWhile p := by
  induction xs with
  | nil => rfl
  | cons c cs ih =>
    rw [List.cons_append, List.dropWhile_cons_of_pos (h c (by simp))]
    exact ih (fun d hd => h d (by simp [hd]))

theorem takeWhile_of_forall {p : Char → Bool} {s : List Char} (h : ∀ c ∈ s, p c = true) :
    s.takeWhile p = s := by
  simpa using @List.takeWhile_append_of_pos _ p s [] h

theorem lowerAscii_cons_of_isDigit {d : Char} (hd : d.isDigit = true) (rest : List Char) :
    lowerAscii (d :: rest) = d :: lowerAscii rest := by
  simp [lowerAscii, toLower_of_isDigit hd]

theorem not_word_of_isDigit {d : Char} (hd : d.isDigit = true) (rest : List Char) :
    ¬(lowerAscii (d :: rest) = "inf".toList ∨ lowerAscii (d :: rest) = "infinity".toList) ∧
      lowerAscii (d :: rest) ≠ "nan".toList := by
  have hdn := toNat_of_isDigit hd
  have hi : d ≠ 'i' := fun h => by rw [h] at hdn; simp at hdn
  have hn : d ≠ 'n' := fun h => by rw [h] at hdn; simp at hdn
  rw [lowerAscii_cons_of_isDigit hd]
  simp [hi, hn]

theorem ofScientific_natAbs_isNearest (m : Nat) (x : Int) :
    Float.IsNearest (m * 10 ^ x) (Float.ofScientific m (decide (x < 0)) x.natAbs) := by
  have h := Float.ofScientific_isNearest m (decide (x < 0)) x.natAbs
  have hx : (if decide (x < 0) = true then -(x.natAbs : Int) else x.natAbs) = x := by
    by_cases hneg : x < 0
    · rw [if_pos (decide_eq_true hneg)]
      omega
    · rw [if_neg (by simpa using hneg)]
      omega
  rwa [hx] at h

theorem readUnsigned_point {whole frac : List Char} (hw : whole ≠ [])
    (hwd : ∀ c ∈ whole, c.isDigit = true) (hfd : ∀ c ∈ frac, c.isDigit = true) :
    readUnsigned (whole ++ '.' :: frac) = some (Float.ofScientific (digitsValue (whole ++ frac))
      (decide ((0 : Int) - frac.length < 0)) ((0 : Int) - frac.length).natAbs) := by
  obtain ⟨d, rest, rfl⟩ := List.exists_cons_of_ne_nil hw
  obtain ⟨hword, hnan⟩ := not_word_of_isDigit (hwd d (by simp)) (rest ++ '.' :: frac)
  have hpoint : ¬('.'.isDigit = true) := by decide
  rw [← List.cons_append] at hword hnan
  unfold readUnsigned
  dsimp only
  rw [if_neg hword, if_neg hnan, List.takeWhile_append_of_pos hwd, dropWhile_append_of_forall hwd,
    List.takeWhile_cons_of_neg hpoint, List.dropWhile_cons_of_neg hpoint]
  have hdrop : frac.dropWhile Char.isDigit = [] := by
    simpa using dropWhile_append_of_forall hfd []
  simp [takeWhile_of_forall hfd, hdrop]

theorem readUnsigned_digits {whole : List Char} (hw : whole ≠ [])
    (hwd : ∀ c ∈ whole, c.isDigit = true) :
    readUnsigned whole = some (Float.ofScientific (digitsValue whole)
      (decide ((0 : Int) < 0)) (0 : Int).natAbs) := by
  obtain ⟨d, rest, rfl⟩ := List.exists_cons_of_ne_nil hw
  obtain ⟨hword, hnan⟩ := not_word_of_isDigit (hwd d (by simp)) rest
  have hdrop : (d :: rest).dropWhile Char.isDigit = [] := by
    simpa using dropWhile_append_of_forall hwd []
  unfold readUnsigned
  dsimp only
  rw [if_neg hword, if_neg hnan, takeWhile_of_forall hwd, hdrop]
  simp

/-- A decimal text reads as the float nearest to the decimal it writes. -/
theorem readUnsigned_decimalText {whole frac : List Char} (hw : whole ≠ [])
    (hwd : ∀ c ∈ whole, c.isDigit = true) (hfd : ∀ c ∈ frac, c.isDigit = true) :
    ∃ y, readUnsigned (decimalText whole frac) = some y ∧
      Float.IsNearest (digitsValue (whole ++ frac) * 10 ^ (-(frac.length : Int))) y := by
  unfold decimalText
  split
  · rename_i hnil
    subst hnil
    refine ⟨_, readUnsigned_digits hw hwd, ?_⟩
    simpa using ofScientific_natAbs_isNearest (digitsValue whole) 0
  · refine ⟨_, readUnsigned_point hw hwd hfd, ?_⟩
    simpa using ofScientific_natAbs_isNearest (digitsValue (whole ++ frac)) (0 - frac.length)

/-! ## The plain layout writes the shortest decimal -/

/-- `s` writes the rational `v` in decimal: digits, then a point and more digits if there are
any. -/
def WritesDecimal (s : List Char) (v : ℚ) : Prop :=
  ∃ whole frac, s = decimalText whole frac ∧ whole ≠ [] ∧ (∀ c ∈ whole, c.isDigit = true) ∧
    (∀ c ∈ frac, c.isDigit = true) ∧
    (digitsValue (whole ++ frac) : ℚ) * 10 ^ (-(frac.length : Int)) = v

theorem WritesDecimal.readUnsigned {s : List Char} {v : ℚ} (h : WritesDecimal s v) :
    ∃ y, readUnsigned s = some y ∧ Float.IsNearest v y := by
  obtain ⟨whole, frac, rfl, hw, hwd, hfd, rfl⟩ := h
  exact readUnsigned_decimalText hw hwd hfd

theorem WritesDecimal.head {s : List Char} {v : ℚ} (h : WritesDecimal s v) :
    ∃ d rest, s = d :: rest ∧ d.isDigit = true := by
  obtain ⟨whole, frac, rfl, hw, hwd, -, -⟩ := h
  obtain ⟨d, rest, rfl⟩ := List.exists_cons_of_ne_nil hw
  unfold decimalText
  split
  · exact ⟨d, rest, rfl, hwd d (by simp)⟩
  · exact ⟨d, rest ++ '.' :: frac, rfl, hwd d (by simp)⟩

theorem WritesDecimal.mem {s : List Char} {v : ℚ} (h : WritesDecimal s v) {c : Char}
    (hc : c ∈ s) : c.isDigit = true ∨ c = '.' := by
  obtain ⟨whole, frac, rfl, -, hwd, hfd, -⟩ := h
  unfold decimalText at hc
  split at hc
  · exact Or.inl (hwd c hc)
  · simp only [List.mem_append, List.mem_cons] at hc
    rcases hc with hc | hc | hc
    · exact Or.inl (hwd c hc)
    · exact Or.inr hc
    · exact Or.inl (hfd c hc)

theorem isDigit_of_mem_zeros {c : Char} {z : Nat} (h : c ∈ zeros z) : c.isDigit = true := by
  simp only [zeros, List.mem_replicate] at h
  rw [h.2]
  rfl

theorem writesDecimal_writtenOut {ds : List Char} (hds : ds ≠ []) (hd : ∀ c ∈ ds, c.isDigit = true)
    (x : Int) : WritesDecimal (writtenOut ds x) (digitsValue ds * 10 ^ (x + 1 - ds.length)) := by
  unfold writtenOut
  split
  · rename_i hx
    split
    · -- a whole number: the digits and then zeros, no point
      rename_i hlen
      refine ⟨ds ++ zeros (x.toNat + 1 - ds.length), [], by simp [decimalText], by simp [hds],
        fun c hc => ?_, by simp, ?_⟩
      · rcases List.mem_append.1 hc with hc | hc
        · exact hd c hc
        · exact isDigit_of_mem_zeros hc
      · have hz : x + 1 - ds.length = ((x.toNat + 1 - ds.length : Nat) : Int) := by omega
        rw [List.append_nil, digitsValue_append_zeros, hz, zpow_natCast]
        push_cast
        simp
    · -- the point falls inside the digits
      rename_i hlen
      have hcut : ds.drop (x.toNat + 1) ≠ [] := by
        simp only [ne_eq, List.drop_eq_nil_iff]
        omega
      have he : -((ds.drop (x.toNat + 1)).length : Int) = x + 1 - ds.length := by
        rw [List.length_drop]
        omega
      refine ⟨ds.take (x.toNat + 1), ds.drop (x.toNat + 1), by simp [decimalText, hcut], ?_,
        fun c hc => hd c (List.mem_of_mem_take hc), fun c hc => hd c (List.mem_of_mem_drop hc), ?_⟩
      · simpa [List.take_eq_nil_iff] using hds
      · rw [List.take_append_drop, he]
  · -- below one: a zero, the point, zeros and the digits
    rename_i hx
    have hfrac : zeros ((-x).toNat - 1) ++ ds ≠ [] := by simp [hds]
    have he : -((zeros ((-x).toNat - 1) ++ ds).length : Int) = x + 1 - ds.length := by
      rw [List.length_append, zeros, List.length_replicate]
      omega
    refine ⟨['0'], zeros ((-x).toNat - 1) ++ ds, by simp [decimalText, hfrac], by simp,
      by simp, fun c hc => ?_, ?_⟩
    · rcases List.mem_append.1 hc with hc | hc
      · exact isDigit_of_mem_zeros hc
      · exact hd c hc
    · have hzero : ['0'] ++ zeros ((-x).toNat - 1) = zeros ((-x).toNat - 1 + 1) := rfl
      rw [he, ← List.append_assoc, hzero, digitsValue_zeros_append]

theorem writesDecimal_positional {ds : List Char} (hds : ds ≠ [])
    (hd : ∀ c ∈ ds, c.isDigit = true) (x : Int) :
    WritesDecimal (positional ds x) (digitsValue ds * 10 ^ (x + 1 - ds.length)) := by
  unfold positional
  split
  · -- a whole number with `.0` after it
    rename_i hx
    have hz : x + 1 - ds.length = ((x.toNat + 1 - ds.length : Nat) : Int) := by omega
    have hzeros : zeros (x.toNat + 1 - ds.length) ++ ['0'] = zeros (x.toNat + 1 - ds.length + 1) :=
      (List.replicate_succ' ..).symm
    refine ⟨ds ++ zeros (x.toNat + 1 - ds.length), ['0'], ?_, by simp [hds], fun c hc => ?_,
      by simp, ?_⟩
    · rw [writtenOut, if_pos hx.1, if_pos hx.2]
      simp [decimalText]
    · rcases List.mem_append.1 hc with hc | hc
      · exact hd c hc
      · exact isDigit_of_mem_zeros hc
    · rw [List.append_assoc, hzeros, digitsValue_append_zeros, hz, zpow_natCast]
      push_cast
      rw [pow_succ, List.length_singleton, Nat.cast_one, zpow_neg, zpow_one]
      field_simp
  · exact writesDecimal_writtenOut hds hd x

theorem writesDecimal_arrange_plain {ds : List Char} (hds : ds ≠ [])
    (hd : ∀ c ∈ ds, c.isDigit = true) (x : Int) :
    WritesDecimal (Layout.plain.arrange ds x) (digitsValue ds * 10 ^ (x + 1 - ds.length)) := by
  unfold Layout.arrange
  split
  · exact writesDecimal_positional hds hd x
  · exact writesDecimal_writtenOut hds hd x

/-- The plain text of a finite nonzero magnitude writes its shortest decimal. -/
theorem writesDecimal_magnitude {m : Nat} (hm : 0 < m) (e : Int) :
    WritesDecimal (Layout.plain.magnitude m e) ((shortest m e).1 * 10 ^ (shortest m e).2) := by
  have h := writesDecimal_arrange_plain (natDigits_ne_nil (shortest m e).1)
    (fun _ => isDigit_of_mem_natDigits)
    ((shortest m e).2 + (natDigits (shortest m e).1).length - 1)
  rw [digitsValue_natDigits] at h
  unfold Layout.magnitude
  rw [if_neg hm.ne']
  convert h using 3
  omega

/-! ## Reading a float's plain text -/

theorem unpacked_of_isNearest_shortest {m : Nat} {e : Int} {y : Float} (hm : 0 < m)
    (hn : Normalized m e) (he : e ≤ 971)
    (hy : Float.IsNearest ((shortest m e).1 * 10 ^ (shortest m e).2) y) :
    y.unpacked = .finite .positive m e hm := by
  obtain ⟨u, hu, hyu⟩ := hy
  have hpos : (0 : ℚ) < (shortest m e).1 * 10 ^ (shortest m e).2 := by
    have := shortest_pos hm hn
    positivity
  have hown : RoundedValue ((shortest m e).1 * 10 ^ (shortest m e).2) .positive
      (.finite .positive m e hm) :=
    roundedValue_of_pos hpos (shortest_roundsTo hm hn) ⟨rfl, hn, rfl⟩
  rw [hyu, hu.unique hown]
  simp [fit, he]

/-- Reading the plain text of a float gives the float back: NaN and the infinities by their
words, the zeros by `0.0` and its negation, and every other float by its shortest digits. -/
theorem readChars_plainText (x : Float) : readChars? (plainText x).toList = some x := by
  have hcanon : Canonical x.unpacked := Float.Model.canonical_unpack x.toModel
  unfold plainText Layout.render
  rw [ofFloat_eq_toBinary64]
  cases hu : x.unpacked with
  | notANumber =>
    rw [Float.eq_of_unpacked_eq (show x.unpacked = (0.0 / 0.0 : Float).unpacked by rw [hu]; rfl)]
    rfl
  | infinity s =>
    cases s with
    | positive =>
      rw [Float.eq_of_unpacked_eq (show x.unpacked = (1.0 / 0.0 : Float).unpacked by rw [hu]; rfl)]
      rfl
    | negative =>
      rw [Float.eq_of_unpacked_eq
        (show x.unpacked = (-(1.0 / 0.0) : Float).unpacked by rw [hu]; rfl)]
      rfl
  | zero s =>
    cases s with
    | positive =>
      rw [Float.eq_of_unpacked_eq
        (show x.unpacked = (Float.ofScientific 0 true 1).unpacked by rw [hu]; rfl)]
      rfl
    | negative =>
      rw [Float.eq_of_unpacked_eq
        (show x.unpacked = (-Float.ofScientific 0 true 1).unpacked by rw [hu]; rfl)]
      rfl
  | finite s m e hm =>
    rw [hu] at hcanon
    obtain ⟨hn, he⟩ := hcanon
    have hw := writesDecimal_magnitude hm e
    obtain ⟨y, hread, hy⟩ := hw.readUnsigned
    have hyu := unpacked_of_isNearest_shortest hm hn he hy
    have hnum : ∀ c ∈ Layout.plain.magnitude m e, IsNumeral c :=
      fun c hc => @isNumeral_of_mem_magnitude c Layout.plain m e hc
    simp only [toBinary64, String.toList_ofList]
    cases s with
    | positive =>
      obtain ⟨d, rest, hdr, hd⟩ := hw.head
      rw [Sign.isNegative, if_neg Bool.false_ne_true, List.nil_append, hdr,
        readChars_of_isDigit (Or.inl hd) (hdr ▸ hnum), ← hdr, hread]
      exact congrArg some (Float.eq_of_unpacked_eq (hyu.trans hu.symm))
    | negative =>
      rw [Sign.isNegative, if_pos rfl, List.singleton_append, readChars_neg hnum, hread]
      refine congrArg some (Float.eq_of_unpacked_eq ?_)
      rw [Float.unpacked_neg, hyu, hu]
      rfl

/-- The characters of a float's text after its sign: digits, the point and the letters of `nan`
and `inf`. -/
def IsMagnitudeChar (c : Char) : Prop :=
  c.isDigit = true ∨ c ∈ ['.', 'n', 'a', 'i', 'f']

instance : DecidablePred IsMagnitudeChar :=
  fun c => inferInstanceAs (Decidable (c.isDigit = true ∨ c ∈ ['.', 'n', 'a', 'i', 'f']))

theorem IsMagnitudeChar.numeral {c : Char} (h : IsMagnitudeChar c) : IsNumeral c := by
  rcases h with h | h
  · exact Or.inl h
  · simp only [List.mem_cons, List.not_mem_nil, or_false] at h
    rcases h with rfl | rfl | rfl | rfl | rfl <;> exact Or.inr (by simp)

theorem IsMagnitudeChar.not_sign {c : Char} (h : IsMagnitudeChar c) : c ≠ '-' ∧ c ≠ '+' := by
  rcases h with h | h
  · have hc := toNat_of_isDigit h
    exact ⟨fun hm => by rw [hm] at hc; simp at hc, fun hp => by rw [hp] at hc; simp at hc⟩
  · simp only [List.mem_cons, List.not_mem_nil, or_false] at h
    rcases h with rfl | rfl | rfl | rfl | rfl <;> decide

theorem readChars_unsigned {body : List Char} (h : ∀ c ∈ body, IsMagnitudeChar c) :
    readChars? body = readUnsigned body := by
  rw [readChars_eq_of_numeral _ (fun c hc => (h c hc).numeral)]
  split
  · exact absurd rfl (h _ List.mem_cons_self).not_sign.1
  · exact absurd rfl (h _ List.mem_cons_self).not_sign.2
  · rfl

theorem plainText_sign (x : Float) : ∃ body, body ≠ [] ∧ (∀ c ∈ body, IsMagnitudeChar c) ∧
    ((plainText x).toList = body ∨ (plainText x).toList = '-' :: body) ∧
    (x.isFinite = true → ∀ c ∈ body, c.isDigit = true ∨ c = '.') := by
  unfold plainText Layout.render
  rw [ofFloat_eq_toBinary64, Float.isFinite_iff]
  cases hu : x.unpacked with
  | notANumber =>
    exact ⟨['n', 'a', 'n'], by simp, by simp [IsMagnitudeChar], Or.inl rfl, by simp [isFinite]⟩
  | infinity s =>
    refine ⟨['i', 'n', 'f'], by simp, by simp [IsMagnitudeChar], ?_, by simp [isFinite]⟩
    cases s with
    | positive => exact Or.inl rfl
    | negative => exact Or.inr rfl
  | zero s =>
    refine ⟨['0', '.', '0'], by simp, by simp [IsMagnitudeChar], ?_, fun _ => by simp⟩
    cases s with
    | positive => exact Or.inl rfl
    | negative => exact Or.inr rfl
  | finite s m e hm =>
    have hw := writesDecimal_magnitude hm e
    obtain ⟨d, rest, hdr, -⟩ := hw.head
    refine ⟨Layout.plain.magnitude m e, by simp [hdr], fun c hc => ?_, ?_, fun _ c hc => hw.mem hc⟩
    · rcases hw.mem hc with hc | hc
      · exact Or.inl hc
      · exact Or.inr (by simp [hc])
    · simp only [toBinary64, String.toList_ofList]
      cases s with
      | positive => exact Or.inl rfl
      | negative => exact Or.inr rfl

theorem readChars_neg_plainText (x : Float) (h : (plainText x).toList.head? ≠ some '-') :
    readChars? ('-' :: (plainText x).toList) = some (-x) := by
  obtain ⟨body, -, hmag, htext | htext, -⟩ := plainText_sign x
  · have hx := readChars_plainText x
    rw [htext, readChars_unsigned hmag] at hx
    rw [htext, readChars_neg (fun c hc => (hmag c hc).numeral), hx]
    rfl
  · rw [htext] at h
    exact absurd rfl h

/-- A float's plain text starts with a minus sign exactly when the float is negative: a negative
number, the negative zero or the negative infinity. NaN is written without a sign. -/
theorem head_plainText_eq_minus_iff (x : Float) :
    (plainText x).toList.head? = some '-' ↔
      (∃ m e, Binary64.ofFloat x = .finite true m e) ∨ Binary64.ofFloat x = .infinite true := by
  unfold plainText Layout.render
  cases Binary64.ofFloat x with
  | nan => simp
  | infinite negative => cases negative <;> simp
  | finite negative m e =>
    simp only [String.toList_ofList]
    cases negative with
    | true => simp
    | false =>
      have hhead : (Layout.plain.magnitude m e).head? ≠ some '-' := by
        by_cases hm : m = 0
        · simp [Layout.magnitude, hm]
        · obtain ⟨d, rest, hdr, hd⟩ := (writesDecimal_magnitude (Nat.pos_of_ne_zero hm) e).head
          have hdn := toNat_of_isDigit hd
          rw [hdr, List.head?_cons, ne_eq, Option.some.injEq]
          intro h
          rw [h] at hdn
          simp at hdn
      simpa using hhead

theorem head_plainText_abs (x : Float) : (plainText x.abs).toList.head? ≠ some '-' := by
  rw [ne_eq, head_plainText_eq_minus_iff, ofFloat_eq_toBinary64, Float.unpacked_abs]
  cases x.unpacked <;> simp [Float.Model.UnpackedFloat.abs, toBinary64, Sign.isNegative]

end Backtest.Decimal
