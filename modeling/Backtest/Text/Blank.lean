/-!
# Blank characters

Formulas lose every blank before they are read, and dates and formulas are trimmed of blanks. Blank
means the 29 Unicode white-space code points (`isBlank`), the information separators `\x1c` to
`\x1f` among them; numbers are trimmed of the narrower `isAsciiBlank`, which leaves those out.
-/

namespace Backtest.Text

/-- The 29 blank code points. -/
def isBlank (c : Char) : Bool :=
  let n := c.toNat
  (0x09 ≤ n && n ≤ 0x0D) || (0x1C ≤ n && n ≤ 0x20) || n == 0x85 || n == 0xA0 || n == 0x1680 ||
    (0x2000 ≤ n && n ≤ 0x200A) || n == 0x2028 || n == 0x2029 || n == 0x202F || n == 0x205F ||
    n == 0x3000

/-- The six ASCII blanks: tab, line feed, vertical tab, form feed, carriage return and space.
Numbers are trimmed of these only, once blanks outside ASCII have become spaces. -/
def isAsciiBlank (c : Char) : Bool :=
  c = ' ' || (9 ≤ c.toNat && c.toNat ≤ 13)

/-- Drops blanks at both ends of a character list. -/
def trimBlanks (s : List Char) : List Char :=
  ((s.dropWhile isBlank).reverse.dropWhile isBlank).reverse

/-- Drops blanks at both ends of a text. -/
def trim (s : String) : String :=
  String.ofList (trimBlanks s.toList)

/-- Removes every blank from a character list. -/
def dropBlanks (s : List Char) : List Char :=
  s.filter (fun c => !isBlank c)

theorem isBlank_of_isWhitespace (c : Char) (h : c.isWhitespace = true) : isBlank c = true := by
  simp only [Char.isWhitespace, Bool.or_eq_true, decide_eq_true_eq] at h
  rcases h with ((h | h) | h) | h <;> subst h <;> decide

theorem dropBlanks_no_blank (s : List Char) : ∀ c ∈ dropBlanks s, isBlank c = false := by
  intro c hc
  simp only [dropBlanks, List.mem_filter, Bool.not_eq_eq_eq_not, Bool.not_true] at hc
  exact hc.2

end Backtest.Text
