import Backtest.Text.Quoted

/-!
# Calendar dates

A date is a day of the proleptic Gregorian calendar between the years 1 and 9999, written
`YYYY-MM-DD`. Reading follows the ISO 8601 subset of the standard date reader on the UTF-8 bytes:
only texts of 7, 8 or 10 bytes, a four-digit year and then, with or without `-`, a month and day or
`W`, a week and an optional weekday; the fields must name a real day.
-/

namespace Backtest.Calendar

/-- A calendar day. -/
structure Date where
  year : Nat
  month : Nat
  day : Nat
deriving DecidableEq, Repr, Inhabited

/-- Leap years: divisible by four, except centuries not divisible by 400. -/
def isLeapYear (y : Nat) : Bool :=
  y % 4 == 0 && (y % 100 != 0 || y % 400 == 0)

/-- The number of days of a month. -/
def daysInMonth (y m : Nat) : Nat :=
  match m with
  | 2 => if isLeapYear y then 29 else 28
  | 4 | 6 | 9 | 11 => 30
  | _ => 31

/-- A key that orders dates as the calendar does. -/
def Date.key (d : Date) : Nat :=
  (d.year * 13 + d.month) * 32 + d.day

instance : LT Date := ⟨fun a b => a.key < b.key⟩
instance : LE Date := ⟨fun a b => a.key ≤ b.key⟩
instance (a b : Date) : Decidable (a < b) := inferInstanceAs (Decidable (a.key < b.key))
instance (a b : Date) : Decidable (a ≤ b) := inferInstanceAs (Decidable (a.key ≤ b.key))

/-- `n` written with at least `width` digits. -/
def padded (width n : Nat) : String :=
  let ds := Nat.toDigits 10 n
  String.ofList (List.replicate (width - ds.length) '0' ++ ds)

/-- The `YYYY-MM-DD` text of a date. -/
def Date.iso (d : Date) : String :=
  padded 4 d.year ++ "-" ++ padded 2 d.month ++ "-" ++ padded 2 d.day

/-- Checks the fields of a date, with the message of the first that is out of range. -/
def Date.make (year month day : Int) : Except String Date :=
  if year < 1 ∨ 9999 < year then .error s!"year {year} is out of range"
  else if month < 1 ∨ 12 < month then .error "month must be in 1..12"
  else if day < 1 ∨ (daysInMonth year.toNat month.toNat : Int) < day then
    .error "day is out of range for month"
  else .ok ⟨year.toNat, month.toNat, day.toNat⟩

/-- Days before the first of January of year `y`, counting from the year 1. -/
def daysBeforeYear (y : Int) : Int :=
  let p := y - 1
  p * 365 + p.tdiv 4 - p.tdiv 100 + p.tdiv 400

/-- Days of the year before the first of month `m`. -/
def daysBeforeMonth (y m : Nat) : Nat :=
  ((List.range (m - 1)).map (fun i => daysInMonth y (i + 1))).foldl (· + ·) 0

/-- The day number of a date, the first of January of the year 1 being day 1. -/
def ordinal (y m d : Nat) : Int :=
  daysBeforeYear y + daysBeforeMonth y m + d

/-- The date of a day number, for day numbers of the years 1 to 9999; found by counting years
and months from an estimate. A day number below 1 lies before the calendar and comes out as the
year 1 with month 0, which the range check then refuses as a month. -/
def ofOrdinal (n : Int) : Int × Nat × Nat :=
  if n ≤ 0 then (1, 0, 0) else
  -- an estimate of the year, then at most two steps to the right one
  let y0 : Int := (n * 400).tdiv 146097 + 1
  let y := if daysBeforeYear y0 ≥ n then y0 - 1
    else if daysBeforeYear (y0 + 1) < n then y0 + 1 else y0
  let dayOfYear := (n - daysBeforeYear y).toNat
  let yn := y.toNat
  let m := ((List.range 12).filter (fun i => daysBeforeMonth yn (i + 1) < dayOfYear)).length
  (y, m, dayOfYear - daysBeforeMonth yn m)

/-- The date of a week date: the Monday of week 1 is the Monday of the week holding January 4. -/
def ofWeekDate (year week weekday : Nat) : Option (Int × Nat × Nat) :=
  let first := ordinal year 1 1
  -- weekdays count from Monday = 0; the first of January of the year 1 was a Monday; the
  -- remainder takes the sign of the day number, which only the year 0 has negative
  let firstWeekday := (first + 6).tmod 7
  let longYear := firstWeekday == 3 || (firstWeekday == 2 && isLeapYear year)
  if (week = 0 ∨ 53 ≤ week) ∧ !(week = 53 ∧ longYear) then none
  else if weekday = 0 ∨ 8 ≤ weekday then none
  else
    let monday := first - firstWeekday + (if 3 < firstWeekday then 7 else 0)
    some (ofOrdinal (monday + ((week - 1) * 7 + weekday - 1 : Nat)))

/-- The value of `n` ASCII digits at the start of a byte list. -/
def digitsAt : Nat → List UInt8 → Option (Nat × List UInt8)
  | 0, rest => some (0, rest)
  | n + 1, b :: rest =>
    if 48 ≤ b.toNat ∧ b.toNat ≤ 57 then
      (digitsAt n rest).map fun (v, r) => ((b.toNat - 48) * Nat.pow 10 n + v, r)
    else none
  | _ + 1, [] => none

/-- The calendar fields of a date text's bytes, before range checks. -/
def isoFields (bytes : List UInt8) : Option (Int × Nat × Nat) := do
  let (year, rest) ← digitsAt 4 bytes
  let (separated, rest) := match rest with
    | 45 :: r => (true, r)
    | r => (false, r)
  match rest with
  | 87 :: r =>
    let (week, r) ← digitsAt 2 r
    let readSoFar := bytes.length - r.length
    let weekday ← if readSoFar < bytes.length then
        let r ← if separated then (match r with | 45 :: r' => some r' | _ => none) else some r
        (digitsAt 1 r).map (·.1)
      else some 1
    ofWeekDate year week weekday
  | _ =>
    let (month, r) ← digitsAt 2 rest
    let r ← if separated then (match r with | 45 :: r' => some r' | _ => none) else some r
    let (day, _) ← digitsAt 2 r
    some (year, month, day)

/-- Reads a date as the standard ISO reader does; the error is its message. -/
def Date.ofIso (s : String) : Except String Date :=
  let bytes := Text.utf8 s
  let fields := if bytes.length = 7 ∨ bytes.length = 8 ∨ bytes.length = 10 then isoFields bytes
    else none
  match fields with
  | none => .error ("Invalid isoformat string: " ++ Text.quote s)
  | some (y, m, d) => Date.make y m d

end Backtest.Calendar
