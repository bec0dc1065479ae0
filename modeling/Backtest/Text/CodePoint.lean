/-!
# Texts of code points

A text may hold any code point, lone UTF-16 surrogates included, which JSON and YAML escapes can
name. A `Char` cannot hold a surrogate, so a text is a `String` in which each surrogate, and U+10FFFF
itself, is written as the marker U+10FFFF and a second character; `codes` reads the code points
back and undoes `ofCodes` (`decode_flatMap_codeChars`), so equal texts are equal strings.
-/

namespace Backtest.Text

/-- The marker character, U+10FFFF. -/
def marker : Char := Char.ofNat 0x10FFFF

/-- The code point of the marker. -/
def markerCode : Nat := 0x10FFFF

/-- The first character standing for a surrogate after the marker. -/
def surrogateBase : Nat := 0x10F000

/-- Whether a code is a UTF-16 surrogate. -/
def isSurrogateCode (u : Nat) : Bool :=
  0xD800 ≤ u && u ≤ 0xDFFF

/-- The characters that write a code point. -/
def codeChars (u : Nat) : List Char :=
  if isSurrogateCode u then [marker, Char.ofNat (surrogateBase + (u - 0xD800))]
  else if u = markerCode then [marker, marker]
  else [Char.ofNat u]

/-- The surrogate a character after the marker stands for, if it stands for one. -/
def surrogateOf? (d : Char) : Option Nat :=
  if surrogateBase ≤ d.toNat ∧ d.toNat < surrogateBase + 0x800 then
    some (0xD800 + (d.toNat - surrogateBase))
  else none

/-- The code points that characters write, `pending` when the character before them was an
unmatched marker. A marker not followed by a second character of a pair stands for itself. -/
def decodePending : Bool → List Char → List Nat
  | false, [] => []
  | true, [] => [markerCode]
  | false, c :: rest => if c = marker then decodePending true rest else c.toNat :: decodePending false rest
  | true, d :: rest =>
    if d = marker then markerCode :: decodePending false rest
    else
      match surrogateOf? d with
      | some u => u :: decodePending false rest
      | none => markerCode :: d.toNat :: decodePending false rest

/-- The code points that characters write. -/
def decode (cs : List Char) : List Nat :=
  decodePending false cs

/-- The code points of a text. -/
def codes (s : String) : List Nat :=
  decode s.toList

/-- The text of code points. -/
def ofCodes (us : List Nat) : String :=
  String.ofList (us.flatMap codeChars)

/-- The text of one code point. -/
def ofCode (u : Nat) : String :=
  String.ofList (codeChars u)

/-- The text of characters, each standing for its own code point. -/
def ofChars (cs : List Char) : String :=
  ofCodes (cs.map Char.toNat)

/-- The UTF-8 bytes of a code point (a surrogate gets the three bytes of its bit pattern, though
no text that is encoded holds one). -/
def utf8Of (u : Nat) : List UInt8 :=
  if u < 0x80 then [u.toUInt8]
  else if u < 0x800 then [(0xC0 + u / 64).toUInt8, (0x80 + u % 64).toUInt8]
  else if u < 0x10000 then
    [(0xE0 + u / 4096).toUInt8, (0x80 + u / 64 % 64).toUInt8, (0x80 + u % 64).toUInt8]
  else
    [(0xF0 + u / 262144).toUInt8, (0x80 + u / 4096 % 64).toUInt8, (0x80 + u / 64 % 64).toUInt8,
      (0x80 + u % 64).toUInt8]

/-- The UTF-8 bytes of a text. -/
def utf8 (s : String) : List UInt8 :=
  (codes s).flatMap utf8Of

/-- The number of code points of a text. -/
def codeLength (s : String) : Nat :=
  (codes s).length

/-- Lexicographic comparison of code point lists. -/
def compareCodes : List Nat → List Nat → Ordering
  | [], [] => .eq
  | [], _ :: _ => .lt
  | _ :: _, [] => .gt
  | a :: as, b :: bs => if a < b then .lt else if b < a then .gt else compareCodes as bs

/-- Whether a text comes before another by its code points. -/
def codesLess (s t : String) : Bool :=
  compareCodes (codes s) (codes t) == .lt

theorem toNat_ofNat_of_valid (u : Nat) (h : u.isValidChar) : (Char.ofNat u).toNat = u := by
  rw [Char.ofNat, dif_pos h]
  rfl

theorem surrogateOf?_payload (u : Nat) (h : isSurrogateCode u = true) :
    surrogateOf? (Char.ofNat (surrogateBase + (u - 0xD800))) = some u := by
  have hb : 0xD800 ≤ u ∧ u ≤ 0xDFFF := by
    simpa only [isSurrogateCode, Bool.and_eq_true, decide_eq_true_eq] using h
  have hv : (surrogateBase + (u - 0xD800)).isValidChar := by
    unfold surrogateBase Nat.isValidChar
    omega
  rw [surrogateOf?, toNat_ofNat_of_valid _ hv]
  unfold surrogateBase
  rw [if_pos (by omega)]
  exact congrArg some (by omega)

theorem payload_ne_marker (u : Nat) (h : isSurrogateCode u = true) :
    Char.ofNat (surrogateBase + (u - 0xD800)) ≠ marker := by
  intro heq
  have hp := surrogateOf?_payload u h
  rw [heq] at hp
  have hm : marker.toNat = 0x10FFFF := toNat_ofNat_of_valid 0x10FFFF (by decide)
  rw [surrogateOf?, hm] at hp
  simp [surrogateBase] at hp

theorem decode_codeChars_append (u : Nat) (cs : List Char) (hu : u < 0x110000) :
    decode (codeChars u ++ cs) = u :: decode cs := by
  unfold decode
  by_cases hs : isSurrogateCode u = true
  · have hp := surrogateOf?_payload u hs
    have hne := payload_ne_marker u hs
    rw [codeChars, if_pos hs, List.cons_append, List.cons_append, List.nil_append, decodePending,
      if_pos rfl, decodePending, if_neg hne, hp]
  · by_cases hm : u = markerCode
    · rw [codeChars, if_neg hs, if_pos hm, List.cons_append, List.cons_append, List.nil_append,
        decodePending, if_pos rfl, decodePending, if_pos rfl, hm]
    · have hv : u.isValidChar := by
        simp only [isSurrogateCode, Bool.and_eq_true, decide_eq_true_eq, not_and,
          Nat.not_le] at hs
        unfold Nat.isValidChar
        omega
      have hne : Char.ofNat u ≠ marker := by
        intro heq
        have := congrArg Char.toNat heq
        rw [toNat_ofNat_of_valid u hv,
          show marker.toNat = 0x10FFFF from toNat_ofNat_of_valid 0x10FFFF (by decide)] at this
        exact hm this
      rw [codeChars, if_neg hs, if_neg hm, List.singleton_append, decodePending, if_neg hne,
        toNat_ofNat_of_valid u hv]

/-- Reading the characters that write valid code points gives the code points back. -/
theorem decode_flatMap_codeChars (us : List Nat) (h : ∀ u ∈ us, u < 0x110000) :
    decode (us.flatMap codeChars) = us := by
  induction us with
  | nil => rfl
  | cons u rest ih =>
    rw [List.flatMap_cons, decode_codeChars_append u _ (h u (by simp)),
      ih (fun v hv => h v (by simp [hv]))]

example : decode ([0x61, 0xD800, 0x10FFFF, 0x10F800].flatMap codeChars) =
    [0x61, 0xD800, 0x10FFFF, 0x10F800] := by
  decide +kernel

end Backtest.Text
