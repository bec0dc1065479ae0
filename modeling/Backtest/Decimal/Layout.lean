import Backtest.Decimal.Shortest

/-!
# Float text

Three ways of writing a float from its exact digits: `shortText`, the text of floats in messages
and answers; `plainText`, the same digits never with an exponent, the text a formula sees for a
number; and `fixedText`, the exact value rounded to a number of places, ties to even. NaN and the
infinities are `nan`, `inf` and `-inf`, and a negative zero keeps its sign.
-/

namespace Backtest.Decimal

/-- Where a float's digits are written positionally, and how they are written elsewhere. -/
structure Layout where
  /-- The smallest decimal exponent written positionally. -/
  lowest : Int
  /-- The largest decimal exponent written positionally. -/
  highest : Int
  /-- Outside that range: scientific notation, or every digit written out. -/
  scientific : Bool

/-- Positional from `1e-4` up to below `1e16`, scientific beyond. -/
def Layout.short : Layout := { lowest := -4, highest := 15, scientific := true }

/-- Positional from `1e-4` up to below `1e16`, every digit written out beyond. -/
def Layout.plain : Layout := { lowest := -4, highest := 15, scientific := false }

/-- The decimal digits of a natural number, most significant first. -/
def natDigits (n : Nat) : List Char :=
  Nat.toDigits 10 n

/-- `n` zeros. -/
def zeros (n : Nat) : List Char :=
  List.replicate n '0'

/-- The digits `ds`, whose first digit has decimal exponent `exp10`, written out with a point
where the value has a fraction. -/
def writtenOut (ds : List Char) (exp10 : Int) : List Char :=
  if 0 ≤ exp10 then
    if ds.length ≤ exp10.toNat + 1 then ds ++ zeros (exp10.toNat + 1 - ds.length)
    else ds.take (exp10.toNat + 1) ++ '.' :: ds.drop (exp10.toNat + 1)
  else '0' :: '.' :: zeros ((-exp10).toNat - 1) ++ ds

/-- Like `writtenOut`, with `.0` after a whole number. -/
def positional (ds : List Char) (exp10 : Int) : List Char :=
  if 0 ≤ exp10 ∧ ds.length ≤ exp10.toNat + 1 then writtenOut ds exp10 ++ ['.', '0']
  else writtenOut ds exp10

/-- The mantissa `d.ddd` of scientific notation. -/
def mantissa : List Char → List Char
  | [] => ['0']
  | [d] => [d]
  | d :: rest => d :: '.' :: rest

/-- An exponent of scientific notation: `e`, its sign, and at least two digits. -/
def exponentMark (exp10 : Int) : List Char :=
  'e' :: (if exp10 < 0 then '-' else '+') ::
    (if (natDigits exp10.natAbs).length < 2 then '0' :: natDigits exp10.natAbs
     else natDigits exp10.natAbs)

/-- The digits `ds` as `d.ddd` times a power of ten, written `e+XX` or `e-XX`. -/
def scientificForm (ds : List Char) (exp10 : Int) : List Char :=
  mantissa ds ++ exponentMark exp10

/-- The digits `ds`, whose first digit has decimal exponent `exp10`, laid out. -/
def Layout.arrange (l : Layout) (ds : List Char) (exp10 : Int) : List Char :=
  if l.lowest ≤ exp10 ∧ exp10 ≤ l.highest then positional ds exp10
  else if l.scientific then scientificForm ds exp10
  else writtenOut ds exp10

/-- The text of the magnitude `m * 2 ^ e` of a finite float under a layout. -/
def Layout.magnitude (l : Layout) (m : Nat) (e : Int) : List Char :=
  if m = 0 then ['0', '.', '0']
  else
    l.arrange (natDigits (shortest m e).1)
      ((shortest m e).2 + (natDigits (shortest m e).1).length - 1)

/-- The text of a float under a layout. -/
def Layout.render (l : Layout) (x : Float) : String :=
  match Binary64.ofFloat x with
  | .nan => "nan"
  | .infinite negative => if negative then "-inf" else "inf"
  | .finite negative m e => String.ofList ((if negative then ['-'] else []) ++ l.magnitude m e)

/-- The shortest text that reads back as the float: positional for decimal exponents from -4 to 15,
with `.0` after a whole number, and scientific otherwise (`1e+16`, `1.5e-07`). -/
def shortText (x : Float) : String :=
  Layout.short.render x

/-- The shortest digits of a float, written without an exponent: every digit written out, with no
`.0` after a whole number (`10000000000000000`, `0.0000001`). -/
def plainText (x : Float) : String :=
  Layout.plain.render x

/-- `num / den` rounded to the nearest integer, an exact tie going to the even one. -/
def roundHalfEven (num den : Nat) : Nat :=
  let q := num / den
  let r := num % den
  if den < 2 * r then q + 1
  else if 2 * r = den then (if q % 2 = 1 then q + 1 else q)
  else q

/-- The exact value of a float rounded to `places` decimals, an exact tie going to the even
neighbour (`0.125` becomes `0.12`). -/
def fixedText (places : Nat) (x : Float) : String :=
  match Binary64.ofFloat x with
  | .nan => "nan"
  | .infinite negative => if negative then "-inf" else "inf"
  | .finite negative m e =>
    let q := roundHalfEven (m * Nat.pow 2 e.toNat * Nat.pow 10 places) (Nat.pow 2 (-e).toNat)
    let ds := natDigits q
    let ds := zeros (places + 1 - ds.length) ++ ds
    let cut := ds.length - places
    let body := if places = 0 then ds else ds.take cut ++ '.' :: ds.drop cut
    (if negative then "-" else "") ++ String.ofList body

/-- The characters a float's text is made of: digits, the point, signs, the exponent mark and the
letters of `nan` and `inf`. -/
def IsNumeral (c : Char) : Prop :=
  c.isDigit = true ∨ c ∈ ['.', '-', '+', 'e', 'n', 'a', 'i', 'f']

theorem isNumeral_of_mem_natDigits {c : Char} {n : Nat} (h : c ∈ natDigits n) : IsNumeral c :=
  Or.inl (Nat.isDigit_of_mem_toDigits (by decide) (by decide) h)

theorem isNumeral_of_mem_zeros {c : Char} {n : Nat} (h : c ∈ zeros n) : IsNumeral c := by
  simp only [zeros, List.mem_replicate] at h
  rw [h.2]
  exact Or.inl rfl

theorem isNumeral_of_mem_writtenOut {c : Char} {ds : List Char} {x : Int}
    (hds : ∀ d ∈ ds, IsNumeral d) (h : c ∈ writtenOut ds x) : IsNumeral c := by
  unfold writtenOut at h
  split at h
  · split at h
    · rcases List.mem_append.1 h with h | h
      · exact hds c h
      · exact isNumeral_of_mem_zeros h
    · rcases List.mem_append.1 h with h | h
      · exact hds c (List.mem_of_mem_take h)
      · rcases List.mem_cons.1 h with h | h
        · exact Or.inr (by simp [h])
        · exact hds c (List.mem_of_mem_drop h)
  · rcases List.mem_cons.1 h with h | h
    · rw [h]; exact Or.inl rfl
    · rcases List.mem_cons.1 h with h | h
      · exact Or.inr (by simp [h])
      · rcases List.mem_append.1 h with h | h
        · exact isNumeral_of_mem_zeros h
        · exact hds c h

theorem isNumeral_of_mem_positional {c : Char} {ds : List Char} {x : Int}
    (hds : ∀ d ∈ ds, IsNumeral d) (h : c ∈ positional ds x) : IsNumeral c := by
  unfold positional at h
  split at h
  · rcases List.mem_append.1 h with h | h
    · exact isNumeral_of_mem_writtenOut hds h
    · rcases List.mem_cons.1 h with h | h
      · exact Or.inr (by simp [h])
      · rw [List.mem_singleton.1 h]; exact Or.inl rfl
  · exact isNumeral_of_mem_writtenOut hds h

theorem isNumeral_of_mem_mantissa {c : Char} {ds : List Char}
    (hds : ∀ d ∈ ds, IsNumeral d) (h : c ∈ mantissa ds) : IsNumeral c := by
  match ds, h with
  | [], h => rw [List.mem_singleton.1 h]; exact Or.inl rfl
  | [d], h => exact hds c h
  | d :: e :: rest, h =>
    rcases List.mem_cons.1 h with h | h
    · exact hds c (h ▸ List.mem_cons_self ..)
    · rcases List.mem_cons.1 h with h | h
      · exact Or.inr (by simp [h])
      · exact hds c (List.mem_cons_of_mem _ h)

theorem isNumeral_of_mem_exponentMark {c : Char} {x : Int} (h : c ∈ exponentMark x) :
    IsNumeral c := by
  unfold exponentMark at h
  rcases List.mem_cons.1 h with h | h
  · exact Or.inr (by simp [h])
  · rcases List.mem_cons.1 h with h | h
    · split at h <;> exact Or.inr (by simp [h])
    · split at h
      · rcases List.mem_cons.1 h with h | h
        · rw [h]; exact Or.inl rfl
        · exact isNumeral_of_mem_natDigits h
      · exact isNumeral_of_mem_natDigits h

theorem isNumeral_of_mem_magnitude {c : Char} {l : Layout} {m : Nat} {e : Int}
    (h : c ∈ l.magnitude m e) : IsNumeral c := by
  unfold Layout.magnitude at h
  have hds : ∀ d ∈ natDigits (shortest m e).1, IsNumeral d :=
    fun d hd => isNumeral_of_mem_natDigits hd
  split at h
  · simp only [List.mem_cons, List.not_mem_nil, or_false] at h
    rcases h with h | h | h
    · rw [h]; exact Or.inl rfl
    · exact Or.inr (by simp [h])
    · rw [h]; exact Or.inl rfl
  · unfold Layout.arrange at h
    split at h
    · exact isNumeral_of_mem_positional hds h
    · split at h
      · rcases List.mem_append.1 h with h | h
        · exact isNumeral_of_mem_mantissa hds h
        · exact isNumeral_of_mem_exponentMark h
      · exact isNumeral_of_mem_writtenOut hds h

theorem isNumeral_of_mem_render (l : Layout) (x : Float) :
    ∀ c ∈ (l.render x).toList, IsNumeral c := by
  intro c h
  unfold Layout.render at h
  split at h
  · have hsub : ∀ d ∈ ['n', 'a', 'n'], d ∈ ['.', '-', '+', 'e', 'n', 'a', 'i', 'f'] := by
      intro d hd
      simp only [List.mem_cons, List.not_mem_nil, or_false] at hd
      rcases hd with rfl | rfl | rfl <;> simp
    exact Or.inr (hsub c h)
  · have hsub : ∀ d ∈ ['-', 'i', 'n', 'f'], d ∈ ['.', '-', '+', 'e', 'n', 'a', 'i', 'f'] := by
      intro d hd
      simp only [List.mem_cons, List.not_mem_nil, or_false] at hd
      rcases hd with rfl | rfl | rfl | rfl <;> simp
    split at h
    · exact Or.inr (hsub c h)
    · exact Or.inr (hsub c (List.mem_cons_of_mem _ h))
  · rw [String.toList_ofList] at h
    rcases List.mem_append.1 h with h | h
    · split at h
      · exact Or.inr (by simp at h; simp [h])
      · simp at h
    · exact isNumeral_of_mem_magnitude h

/-- No float's text holds an opening parenthesis. -/
theorem not_open_mem_render (l : Layout) (x : Float) : '(' ∉ (l.render x).toList := by
  intro h
  rcases isNumeral_of_mem_render l x '(' h with h | h
  · exact absurd h (by decide)
  · exact absurd h (by decide)

end Backtest.Decimal
