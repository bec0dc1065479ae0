import Backtest.Calendar.Date

/-!
# Moments

A moment is a date with a time of day down to microseconds and, when known, its offset from UTC.
Moments are read from the ISO 8601 texts the standard reader accepts, on the UTF-8 bytes: a date, a
separator of any character, `HH[:MM[:SS]]` or `HHMMSS` with an optional fraction, and optionally
`Z` or an offset within a day. They are written in extended ISO form or as the compact stamp
`20240229T120000Z` of run identifiers.
-/

namespace Backtest.Calendar

/-- A date and time of day, with an offset from UTC in microseconds when known. -/
structure Moment where
  date : Date
  hour : Nat
  minute : Nat
  second : Nat
  micro : Nat
  offset : Option Int
deriving DecidableEq, Repr

/-- The byte at a position, zero past the end (as a terminated string reads). -/
def byteAt (a : Array UInt8) (i : Nat) : UInt8 :=
  a.getD i 0

/-- Whether a byte is an ASCII digit. -/
def isDigitByte (b : UInt8) : Bool :=
  48 ≤ b.toNat && b.toNat ≤ 57

/-- The value of `n` digits from position `p`, and the position after them. -/
def digitsFrom (a : Array UInt8) (p : Nat) : Nat → Option (Nat × Nat)
  | 0 => some (0, p)
  | n + 1 =>
    let b := byteAt a p
    if isDigitByte b then
      (digitsFrom a (p + 1) n).map fun (v, q) => ((b.toNat - 48) * Nat.pow 10 n + v, q)
    else none

/-- Where the date part of a moment's text ends, by the form of the date; `none` for a text
that cannot be a moment. -/
def separatorAt (a : Array UInt8) : Option Nat :=
  let len := a.size
  if len = 7 then some 7
  else if byteAt a 4 = 45 then
    if byteAt a 5 = 87 then
      if len < 8 then none
      else if 8 < len && byteAt a 8 = 45 then
        if len = 9 then none
        else if 10 < len && isDigitByte (byteAt a 10) then some 8 else some 10
      else some 8
    else some 10
  else if byteAt a 4 = 87 then
    let idx := ((List.range (len - 7)).find? fun i => !isDigitByte (byteAt a (7 + i))).map (· + 7)
    let idx := idx.getD len
    if idx < 9 then some idx
    else if idx % 2 = 0 then some 7 else some 8
  else some 8

/-- The year, month and day of the date part ending at `len`. -/
def dateFields (a : Array UInt8) (len : Nat) : Option (Int × Nat × Nat) := do
  let (year, p) ← digitsFrom a 0 4
  let separated := byteAt a p = 45
  let p := if separated then p + 1 else p
  if byteAt a p = 87 then
    let (week, p) ← digitsFrom a (p + 1) 2
    let weekday ← if p < len then
        let p ← if separated then (if byteAt a p = 45 then some (p + 1) else none) else some p
        (digitsFrom a p 1).map (·.1)
      else some 1
    ofWeekDate year week weekday
  else
    let (month, p) ← digitsFrom a p 2
    let p ← if separated then (if byteAt a p = 45 then some (p + 1) else none) else some p
    let (day, _) ← digitsFrom a p 2
    some (year, month, day)

/-- Clock fields read from `start` up to `stop`: hours, minutes, seconds, microseconds, and
whether the reading stopped before the end of the text. -/
structure Clock where
  hour : Nat := 0
  minute : Nat := 0
  second : Nat := 0
  micro : Nat := 0
  early : Bool := false

/-- Reads the fraction of a second at `p`. -/
def fraction (a : Array UInt8) (p stop : Nat) (c : Clock) : Option Clock := do
  let toParse := min 6 (stop - p)
  let (v, q) ← digitsFrom a p toParse
  let micro := v * Nat.pow 10 (6 - toParse)
  let rest := (List.range (a.size - q)).find? fun i => !isDigitByte (byteAt a (q + i))
  let q := q + rest.getD (a.size - q)
  some { c with micro, early := byteAt a q ≠ 0 }

/-- Reads `HH[:MM[:SS]]`, its compact form, and a fraction, from `p` up to `stop`. -/
def clockFrom (a : Array UInt8) (stop : Nat) : Nat → Nat → Bool → Clock → Option Clock
  | 3, p, _, c => fraction a p stop c
  | i, p, separated, c => do
    let (v, p) ← digitsFrom a p 2
    let c := match i with
      | 0 => { c with hour := v }
      | 1 => { c with minute := v }
      | _ => { c with second := v }
    let ch := byteAt a p
    let p := p + 1
    let separated := if i = 0 then ch = 58 else separated
    if stop ≤ p then some { c with early := ch ≠ 0 }
    else if separated && ch = 58 then
      (if i < 2 then clockFrom a stop (i + 1) p separated c else fraction a p stop c)
    else if ch = 46 || ch = 44 then fraction a p stop c
    else if !separated then
      (if i < 2 then clockFrom a stop (i + 1) (p - 1) separated c else fraction a (p - 1) stop c)
    else none
termination_by i => 3 - i

/-- Reads the time part: the clock and, if written, the offset in microseconds. -/
def timeFields (a : Array UInt8) : Option (Clock × Option Int) := do
  let len := a.size
  let tzPos := ((List.range len).find? fun i =>
    let b := byteAt a i
    b = 90 || b = 43 || b = 45).getD (max len 1)
  let c ← clockFrom a tzPos 0 0 true {}
  if len ≤ tzPos then
    if c.early then none else some (c, none)
  else if byteAt a tzPos = 90 then
    if byteAt a (tzPos + 1) ≠ 0 then none else some (c, some 0)
  else
    let negative := byteAt a tzPos = 45
    let rest := a.extract (tzPos + 1) len
    let z ← clockFrom rest rest.size 0 0 true {}
    if z.early then none
    else
      let seconds : Int := z.hour * 3600 + z.minute * 60 + z.second
      let total := seconds * 1000000 + z.micro
      -- an offset of whole zero seconds is UTC, whatever its microseconds
      some (c, some (if seconds = 0 then 0 else if negative then -total else total))

/-- The `datetime.timedelta(...)` text of a duration in microseconds. -/
def durationLiteral (micros : Int) : String :=
  let days := micros / 86400000000
  let restMicros := micros - days * 86400000000
  let seconds := restMicros / 1000000
  let us := restMicros % 1000000
  let parts := (if days ≠ 0 then ["days=" ++ toString days] else []) ++
    (if seconds ≠ 0 then ["seconds=" ++ toString seconds] else []) ++
    (if us ≠ 0 then ["microseconds=" ++ toString us] else [])
  "datetime.timedelta(" ++ (if parts.isEmpty then "0" else ", ".intercalate parts) ++ ")"

/-- Checks the fields of a moment, with the message of the first that is out of range: the
offset (strictly within a day), then the date, then the time of day. -/
def Moment.make (year : Int) (month day hour minute second micro : Nat) (offset : Option Int) :
    Except String Moment := do
  match offset with
  | some o =>
    if o ≤ -86400000000 || 86400000000 ≤ o then
      throw ("offset must be a timedelta strictly between -timedelta(hours=24) and " ++
        "timedelta(hours=24), not " ++ durationLiteral o ++ ".")
  | none => pure ()
  let date ← Date.make year month day
  if 23 < hour then throw "hour must be in 0..23"
  if 59 < minute then throw "minute must be in 0..59"
  if 59 < second then throw "second must be in 0..59"
  pure { date, hour, minute, second, micro, offset }

/-- The length of the UTF-8 sequence that a lead byte starts: one for ASCII, three and four by
the top bits, two otherwise. The separator between date and time may be any character, and the
time starts after all of its bytes. -/
def sequenceLength (b : UInt8) : Nat :=
  if b < 0x80 then 1
  else if b &&& 0xF0 = 0xE0 then 3
  else if b &&& 0xF0 = 0xF0 then 4
  else 2

/-- The code points of a moment's text with a surrogate at one of the places a separator can
take (7, 8 or 10, the first that holds one) read as `T`. -/
def sanitizeSeparator (us : List Nat) : List Nat :=
  match [7, 8, 10].find? fun p => p ≤ us.length && Text.isSurrogateCode (us.getD p 0) with
  | some p => us.set p 0x54
  | none => us

/-- Reads a moment; the error is the reader's message. A text holding a surrogate anywhere but
at its separator cannot be encoded, and is refused. -/
def Moment.ofIso (s : String) : Except String Moment := do
  let invalid : String := "Invalid isoformat string: " ++ Text.quote s
  let us := Text.codes s
  if us.length < 7 then throw invalid
  let us := sanitizeSeparator us
  if us.any Text.isSurrogateCode then throw invalid
  let a := (us.flatMap Text.utf8Of).toArray
  let some sep := separatorAt a | throw invalid
  let some (year, month, day) := dateFields a sep | throw invalid
  let (clock, offset) ← if sep < a.size then
      match timeFields (a.extract (sep + sequenceLength (byteAt a sep)) a.size) with
      | some r => pure r
      | none => throw invalid
    else pure ({}, none)
  Moment.make year month day clock.hour clock.minute clock.second clock.micro offset

/-- The `+HH:MM[:SS[.ffffff]]` text of an offset in microseconds. -/
def offsetText (o : Int) : String :=
  let sign := if o < 0 then "-" else "+"
  let m := o.natAbs
  let seconds := m / 1000000
  let us := m % 1000000
  let hms := padded 2 (seconds / 3600) ++ ":" ++ padded 2 (seconds / 60 % 60)
  let tail := if us ≠ 0 then ":" ++ padded 2 (seconds % 60) ++ "." ++ padded 6 us
    else if seconds % 60 ≠ 0 then ":" ++ padded 2 (seconds % 60) else ""
  sign ++ hms ++ tail

/-- The extended ISO text of a moment with `sep` between the date and the time of day. -/
def Moment.isoWith (m : Moment) (sep : String) : String :=
  m.date.iso ++ sep ++ padded 2 m.hour ++ ":" ++ padded 2 m.minute ++ ":" ++ padded 2 m.second ++
    (if m.micro ≠ 0 then "." ++ padded 6 m.micro else "") ++
    (match m.offset with
      | some o => offsetText o
      | none => "")

/-- The extended ISO text of a moment: `2024-02-29T12:00:00+05:30`. -/
def Moment.iso (m : Moment) : String :=
  m.isoWith "T"

/-- The plain text of a moment, a space between date and time: `2024-02-29 12:00:00+05:30`. -/
def Moment.text (m : Moment) : String :=
  m.isoWith " "

/-- The `datetime.timezone(...)` text of an offset in microseconds; a zero offset is UTC. -/
def zoneLiteral (o : Int) : String :=
  if o = 0 then "datetime.timezone.utc" else "datetime.timezone(" ++ durationLiteral o ++ ")"

/-- The `datetime.datetime(...)` text of a moment: the date, hour and minute always, the second
when it or the microseconds are not zero, the microseconds when not zero, then the zone. -/
def Moment.literal (m : Moment) : String :=
  let clock := if m.micro ≠ 0 then [m.second, m.micro] else if m.second ≠ 0 then [m.second] else []
  let fields := ([m.date.year, m.date.month, m.date.day, m.hour, m.minute] ++ clock).map toString
  let zone := match m.offset with
    | some o => ["tzinfo=" ++ zoneLiteral o]
    | none => []
  "datetime.datetime(" ++ ", ".intercalate (fields ++ zone) ++ ")"

/-- The compact stamp `YYYYmmddTHHMMSSZ` (the year without padding). -/
def Moment.stamp (m : Moment) : String :=
  toString m.date.year ++ padded 2 m.date.month ++ padded 2 m.date.day ++ "T" ++ padded 2 m.hour ++
    padded 2 m.minute ++ padded 2 m.second ++ "Z"

/-- A moment's microseconds from the start of day 1 of the calendar, read on its own clock. -/
def Moment.clockMicros (m : Moment) : Int :=
  ordinal m.date.year m.date.month m.date.day * 86400000000 +
    (((m.hour * 60 + m.minute) * 60 + m.second) * 1000000 + m.micro : Nat)

/-- How two moments compare: on their clocks when neither has an offset, as instants when both
have one. A moment with an offset and one without do not compare. -/
def Moment.order (a b : Moment) : Except String Ordering :=
  match a.offset, b.offset with
  | none, none => .ok (compare a.clockMicros b.clockMicros)
  | some x, some y => .ok (compare (a.clockMicros - x) (b.clockMicros - y))
  | _, _ => .error "can't compare offset-naive and offset-aware datetimes"

/-- A point of the calendar as a setting gives it: a day, or a moment of a day. -/
inductive Point where
  | day (d : Date)
  | moment (m : Moment)
deriving DecidableEq, Repr

/-- How two points compare: days by the calendar, moments by `Moment.order`; a day and a moment
do not compare. -/
def Point.order : Point → Point → Except String Ordering
  | .day a, .day b => .ok (compare a.key b.key)
  | .moment a, .moment b => a.order b
  | _, _ => .error "can't compare datetime.datetime to datetime.date"

/-- The extended ISO text of a point. -/
def Point.iso : Point → String
  | .day d => d.iso
  | .moment m => m.iso

end Backtest.Calendar
