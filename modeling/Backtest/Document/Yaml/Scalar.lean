import Backtest.Document.Value
import Backtest.Decimal.Reader
import Backtest.Fault

/-!
# YAML scalars

A scalar whose tag is chosen by its form gets the first tag of YAML 1.1 whose form it has
(`scalarTag`), and the tagged scalars are then built by tag (`boolOf`, `intOf`, `floatOf`,
`timestampOf`). An explicit tag is not checked against the form, so building may fail on text that
does not have it.
-/

namespace Backtest.Document.Yaml

open Backtest.Decimal

/-- The tag of texts. -/
def strTag : String := "tag:yaml.org,2002:str"

/-- The tag of integers. -/
def intTag : String := "tag:yaml.org,2002:int"

/-- The tag of floats. -/
def floatTag : String := "tag:yaml.org,2002:float"

/-- The tag of booleans. -/
def boolTag : String := "tag:yaml.org,2002:bool"

/-- The tag of null. -/
def nullTag : String := "tag:yaml.org,2002:null"

/-- The tag of dates and moments. -/
def timestampTag : String := "tag:yaml.org,2002:timestamp"

/-- The tag of byte strings written in base 64. -/
def binaryTag : String := "tag:yaml.org,2002:binary"

/-- The tag of the merge key `<<`. -/
def mergeTag : String := "tag:yaml.org,2002:merge"

/-- The tag of the value key `=`. -/
def valueTag : String := "tag:yaml.org,2002:value"

/-- The tag of sequences. -/
def seqTag : String := "tag:yaml.org,2002:seq"

/-- The tag of mappings. -/
def mapTag : String := "tag:yaml.org,2002:map"

/-- The tag of sets (mappings whose values are ignored). -/
def setTag : String := "tag:yaml.org,2002:set"

/-- The tag of ordered maps (sequences of one-pair mappings). -/
def omapTag : String := "tag:yaml.org,2002:omap"

/-- The tag of pair lists (sequences of one-pair mappings). -/
def pairsTag : String := "tag:yaml.org,2002:pairs"

/-- Whether a character is an ASCII digit. -/
def isDigit (c : Char) : Bool :=
  '0' ≤ c && c ≤ '9'

/-- The boolean a word stands for. -/
def boolWord? (s : List Char) : Option Bool :=
  let word := String.ofList s
  if ["yes", "Yes", "YES", "true", "True", "TRUE", "on", "On", "ON"].contains word then some true
  else if ["no", "No", "NO", "false", "False", "FALSE", "off", "Off", "OFF"].contains word then
    some false
  else none

/-- Whether a word stands for null. -/
def isNullWord (s : List Char) : Bool :=
  ["", "~", "null", "Null", "NULL"].contains (String.ofList s)

/-- The sign of a scalar and the rest. -/
def splitSign : List Char → Bool × List Char
  | '-' :: rest => (true, rest)
  | '+' :: rest => (false, rest)
  | rest => (false, rest)

/-- Whether the text is one or more base-60 groups `:d` or `:dd` with the first digit at most 5. -/
def sexagesimalGroups : List Char → Bool
  | ':' :: a :: b :: rest =>
    if isDigit a && isDigit b && a ≤ '5' then
      match rest with
      | [] => true
      | ':' :: _ => sexagesimalGroups rest
      | _ => false
    else if isDigit a then
      match b :: rest with
      | ':' :: _ => sexagesimalGroups (b :: rest)
      | _ => false
    else false
  | [':', a] => isDigit a
  | _ => false

/-- Splits off the longest prefix whose characters satisfy `p`. -/
def spanChars (p : Char → Bool) (s : List Char) : List Char × List Char :=
  (s.takeWhile p, s.dropWhile p)

/-- Whether an exponent is `e` or `E`, a sign and digits. -/
def isSignedExponent : List Char → Bool
  | e :: s :: ds => (e = 'e' || e = 'E') && (s = '+' || s = '-') && !ds.isEmpty && ds.all isDigit
  | _ => false

/-- Whether digits-and-underscores, a point, digits-and-underscores and an optional signed
exponent make up the text (the first form of floats, after the sign). -/
def isPointFloat (s : List Char) : Bool :=
  match s with
  | c :: _ =>
    isDigit c &&
    (let (whole, rest) := spanChars (fun c => isDigit c || c = '_') s
     match rest with
     | '.' :: frac =>
       let (_, tail) := spanChars (fun c => isDigit c || c = '_') frac
       !whole.isEmpty && (tail.isEmpty || isSignedExponent tail)
     | _ => false)
  | [] => false

/-- Whether the text is a point, a digit, digits-and-underscores and an optional signed
exponent. -/
def isFractionFloat : List Char → Bool
  | '.' :: c :: rest =>
    isDigit c &&
    (let (_, tail) := spanChars (fun c => isDigit c || c = '_') rest
     tail.isEmpty || isSignedExponent tail)
  | _ => false

/-- Whether the text is a base-60 float: a first group, base-60 groups, a point and a fraction. -/
def isSexagesimalFloat (s : List Char) : Bool :=
  match s with
  | c :: _ =>
    isDigit c &&
    (let (_, rest) := spanChars (fun c => isDigit c || c = '_') s
     let groups := rest.takeWhile (· ≠ '.')
     let tail := rest.dropWhile (· ≠ '.')
     match tail with
     | '.' :: frac => sexagesimalGroups groups && frac.all (fun c => isDigit c || c = '_')
     | _ => false)
  | [] => false

/-- Whether a scalar has the form of a float. -/
def isFloatForm (s : List Char) : Bool :=
  let (_, body) := splitSign s
  isPointFloat body || isFractionFloat s || isSexagesimalFloat body ||
    ["inf", "Inf", "INF"].any (fun w => body = '.' :: w.toList) ||
    ["nan", "NaN", "NAN"].any (fun w => s = '.' :: w.toList)

/-- Whether a scalar has the form of an integer. -/
def isIntForm (s : List Char) : Bool :=
  let (_, body) := splitSign s
  match body with
  | '0' :: 'b' :: rest => !rest.isEmpty && rest.all (fun c => c = '0' || c = '1' || c = '_')
  | '0' :: 'x' :: rest =>
    !rest.isEmpty && rest.all (fun c => isDigit c || c = '_' || ('a' ≤ c && c ≤ 'f') ||
      ('A' ≤ c && c ≤ 'F'))
  | ['0'] => true
  | '0' :: rest => rest.all (fun c => ('0' ≤ c && c ≤ '7') || c = '_')
  | c :: rest =>
    isDigit c &&
    (rest.all (fun c => isDigit c || c = '_') ||
      (let (_, groups) := spanChars (fun c => isDigit c || c = '_') rest
       sexagesimalGroups groups))
  | [] => false

/-- The value of digits in a base. -/
def digitsIn (base : Nat) (ds : List Char) : Nat :=
  ds.foldl (fun n c =>
    let d := if isDigit c then c.toNat - 48
      else if 'a' ≤ c && c ≤ 'f' then c.toNat - 87
      else c.toNat - 55
    base * n + d) 0

/-- Splits a text at a separator. -/
def splitOn (sep : Char) : List Char → List (List Char)
  | [] => [[]]
  | c :: rest =>
    if c = sep then [] :: splitOn sep rest
    else match splitOn sep rest with
      | first :: others => (c :: first) :: others
      | [] => [[c]]

/-- Whether a scalar has the form of the merge key. -/
def isMergeForm (s : List Char) : Bool :=
  s = ['<', '<']

/-- Whether a scalar has the form of the value key. -/
def isValueForm (s : List Char) : Bool :=
  s = ['=']

/-- Exactly `n` digits at the front: their value and the rest. -/
def fixedDigits (n : Nat) (s : List Char) : Option (Nat × List Char) :=
  let ds := s.take n
  if ds.length = n ∧ ds.all isDigit then some (digitsIn 10 ds, s.drop n) else none

/-- One or two digits at the front (two when there are two): their value and the rest. -/
def shortDigits : List Char → Option (Nat × List Char)
  | a :: b :: rest =>
    if isDigit a && isDigit b then some (digitsIn 10 [a, b], rest)
    else if isDigit a then some (digitsIn 10 [a], b :: rest)
    else none
  | [a] => if isDigit a then some (digitsIn 10 [a], []) else none
  | [] => none

/-- The rest after the character `c` at the front. -/
def expect (c : Char) : List Char → Option (List Char)
  | d :: rest => if d = c then some rest else none
  | [] => none

/-- Whether a character is a blank inside a timestamp: a space or a tab. -/
def isStampBlank (c : Char) : Bool :=
  c = ' ' || c = '\t'

/-- The rest after the separator of date and time: `T`, `t`, or one or more blanks. -/
def stampSeparator : List Char → Option (List Char)
  | 'T' :: rest | 't' :: rest => some rest
  | c :: rest => if isStampBlank c then some (rest.dropWhile isStampBlank) else none
  | [] => none

/-- The offset in minutes that a zone stands for: `Z`, or a sign, one or two digits of hours and
optionally a colon and two digits of minutes, with nothing after. -/
def zoneMinutes : List Char → Option Int
  | ['Z'] => some 0
  | sign :: rest => do
    if sign ≠ '+' ∧ sign ≠ '-' then none
    let (h, rest) ← shortDigits rest
    let m ← match rest with
      | [] => some 0
      | ':' :: rest =>
        match fixedDigits 2 rest with
        | some (m, []) => some m
        | _ => none
      | _ => none
    let total : Int := h * 60 + m
    some (if sign = '-' then -total else total)
  | [] => none

/-- A time of day with its fraction in microseconds and its zone in minutes when it has one. -/
structure Clock where
  hour : Nat
  minute : Nat
  second : Nat
  micro : Nat
  zone : Option Int

/-- The fields of a timestamp: a date, and a time of day when it has one. -/
structure Stamp where
  year : Nat
  month : Nat
  day : Nat
  clock : Option Clock

/-- The time of day after a date: a separator, `H:MM:SS`, an optional fraction (digits past the
sixth dropped) and an optional zone after optional blanks. -/
def clockOf? (s : List Char) : Option Clock := do
  let s ← stampSeparator s
  let (hour, s) ← shortDigits s
  let s ← expect ':' s
  let (minute, s) ← fixedDigits 2 s
  let s ← expect ':' s
  let (second, s) ← fixedDigits 2 s
  let (fraction, s) := match s with
    | '.' :: rest => (rest.takeWhile isDigit, rest.dropWhile isDigit)
    | _ => ([], s)
  let f := fraction.take 6
  let micro := digitsIn 10 (f ++ List.replicate (6 - f.length) '0')
  let zone ← if s.isEmpty then some none else (zoneMinutes (s.dropWhile isStampBlank)).map some
  some { hour, minute, second, micro, zone }

/-- The fields of a text with a timestamp's fields: four digits of year, one or two of month and
of day, and optionally a time of day. -/
def stampFields? (s : List Char) : Option Stamp := do
  let (year, s) ← fixedDigits 4 s
  let s ← expect '-' s
  let (month, s) ← shortDigits s
  let s ← expect '-' s
  let (day, s) ← shortDigits s
  if s.isEmpty then some { year, month, day, clock := none }
  else some { year, month, day, clock := some (← clockOf? s) }

/-- Whether a scalar has the form of a timestamp: exactly `YYYY-MM-DD`, or a date with a time. -/
def isTimestampForm (s : List Char) : Bool :=
  match s with
  | [y1, y2, y3, y4, '-', m1, m2, '-', d1, d2] => [y1, y2, y3, y4, m1, m2, d1, d2].all isDigit
  | _ =>
    match stampFields? s with
    | some { clock := some _, .. } => true
    | _ => false

/-- Whether a form holds for a text, or for the text without one final line feed. -/
def formHolds (form : List Char → Bool) (s : List Char) : Bool :=
  form s || (s.getLast? == some '\n' && form s.dropLast)

/-- The forms and their tags in the order they are tried, each with the characters its form can
start with. -/
def forms : List (List Char × (List Char → Bool) × String) :=
  [ ("yYnNtTfFoO".toList, fun s => (boolWord? s).isSome, boolTag),
    ("-+0123456789.".toList, isFloatForm, floatTag),
    ("-+0123456789".toList, isIntForm, intTag),
    (['<'], isMergeForm, mergeTag),
    (['~', 'n', 'N'], isNullWord, nullTag),
    ("0123456789".toList, isTimestampForm, timestampTag),
    (['='], isValueForm, valueTag) ]

/-- The tag a scalar gets by its form, trying only the tags whose forms can start with its first
character: `bool` (`yes`, `on`, `true` and their opposites in three casings), `float` (a point is
needed, `1.0e+6` but not `1e6`, base 60, `.inf`, `.nan`), `int` (decimal, octal, `0b`, `0x`, base 60),
`merge`, `null` (`~`, `null` and the empty scalar), `timestamp`, `value`, and otherwise `str`. A form
may be followed by one closing line feed. -/
def scalarTag (value : String) : String :=
  let s := value.toList
  match s with
  | [] => nullTag
  | c :: _ =>
    match forms.find? (fun (starts, form, _) => starts.contains c && formHolds form s) with
    | some (_, _, tag) => tag
    | none => strTag

/-- The fault of an index into an empty text. -/
def Fault.emptyIndex : Fault :=
  .outOfRange "string index out of range"

/-- The fault of a text that is no integer in a base. -/
def intFault (base : Nat) (s : List Char) : IntRefusal → Fault
  | .tooLong n => Fault.tooManyDigits n
  | .malformed =>
    .invalid ("invalid literal for int() with base " ++ toString base ++ ": " ++
      Text.quoteCut 200 (String.ofList s))

/-- Reads an integer in a base, or fails as the integer reader does. -/
def intIn (base : Nat) (s : List Char) : Except Fault Int :=
  (readIntIn base s).mapError (intFault base s)

/-- Reads a float, or fails as the float reader does. -/
def floatIn (s : List Char) : Except Fault Float :=
  match readChars? s with
  | some x => .ok x
  | none => .error (.invalid ("could not convert string to float: " ++ Text.quote (String.ofList s)))

/-- The boolean of a text: its lower-case form must be a boolean word. -/
def boolOf (s : String) : Except Fault Bool :=
  let word := String.ofList (s.toList.map Char.toLower)
  if ["yes", "true", "on"].contains word then .ok true
  else if ["no", "false", "off"].contains word then .ok false
  else .error (.missingKey (Text.quote word))

/-- The integer of a text, underscores dropped: a sign, then `0`, `0b` and binary digits, `0x`
and hex digits, a leading `0` and octal digits, base-60 groups separated by `:`, or decimal
digits. -/
def intOf (s : String) : Except Fault Int := do
  let v := s.toList.filter (· ≠ '_')
  let some c := v.head? | throw Fault.emptyIndex
  let negative := c = '-'
  let body := if c = '-' ∨ c = '+' then v.tail else v
  let signed := fun (n : Int) => if negative then -n else n
  if body = ['0'] then return 0
  else if body.take 2 = ['0', 'b'] then return signed (← intIn 2 (body.drop 2))
  else if body.take 2 = ['0', 'x'] then return signed (← intIn 16 (body.drop 2))
  else
    match body with
    | [] => throw Fault.emptyIndex
    | '0' :: _ => return signed (← intIn 8 body)
    | _ =>
      if body.contains ':' then
        let groups ← (splitOn ':' body).mapM (intIn 10)
        let total := (groups.reverse.zipIdx.map fun (d, i) => d * (Nat.pow 60 i : Int)).foldl
          (· + ·) 0
        return signed total
      else return signed (← intIn 10 body)

/-- The sum of sexagesimal groups, lowest first, each multiplied by its place value `60 ^ i`. A
place value is an exact integer, rounded to the nearest float only for the product, so a place
value too large for a float fails even when its group is zero. -/
def sexagesimalSum : List Float → Nat → Float → Except Fault Float
  | [], _, total => .ok total
  | d :: rest, place, total =>
    match ofInt? place with
    | none => .error Fault.tooLargeForFloat
    | some p => sexagesimalSum rest (place * 60) (total + d * p)

/-- The float of a text, underscores dropped and letters lowered: a sign, then `.inf`, `.nan`,
base-60 groups separated by `:`, or any text the float reader takes. -/
def floatOf (s : String) : Except Fault Float := do
  let v := (s.toList.filter (· ≠ '_')).map Char.toLower
  let some c := v.head? | throw Fault.emptyIndex
  let negative := c = '-'
  let body := if c = '-' ∨ c = '+' then v.tail else v
  let signed := fun (x : Float) => if negative then -x else x
  if body = ".inf".toList then return signed (1.0 / 0.0)
  else if body = ".nan".toList then return 0.0 / 0.0
  else if body.contains ':' then
    let groups ← (splitOn ':' body).mapM floatIn
    return signed (← sexagesimalSum groups.reverse 1 0.0)
  else return signed (← floatIn body)

/-- Whether a float text stands for the one NaN that every `.nan` scalar shares: `.nan` in any
case, signed or not, underscores anywhere. Such NaNs are one value, so as keys they are one key;
any other NaN is a value of its own. -/
def isSharedNan (s : String) : Bool :=
  let v := (s.toList.filter (· ≠ '_')).map Char.toLower
  let body := match v with
    | c :: rest => if c = '-' ∨ c = '+' then rest else v
    | [] => []
  body = ".nan".toList

/-- The date or moment of a text with a timestamp's fields (a final line feed allowed); a text
without them fails as a missing match does. -/
def timestampOf (s : String) : Except Fault Value :=
  let cs := s.toList
  let fields := match stampFields? cs with
    | some st => some st
    | none => if cs.getLast? == some '\n' then stampFields? cs.dropLast else none
  match fields with
  | none => .error (.noAttribute "'NoneType' object has no attribute 'groupdict'")
  | some st =>
    match st.clock with
    | none => (Value.date <$> Calendar.Date.make st.year st.month st.day).mapError Fault.invalid
    | some c =>
      (Value.moment <$> Calendar.Moment.make st.year st.month st.day c.hour c.minute c.second
        c.micro (c.zone.map (· * 60000000))).mapError Fault.invalid

/-- The value of a base-64 character. -/
def base64Value (c : Char) : Option Nat :=
  if 'A' ≤ c ∧ c ≤ 'Z' then some (c.toNat - 65)
  else if 'a' ≤ c ∧ c ≤ 'z' then some (c.toNat - 71)
  else if '0' ≤ c ∧ c ≤ '9' then some (c.toNat + 4)
  else if c = '+' then some 62
  else if c = '/' then some 63
  else none

/-- Decodes base 64 leniently, from a position in a group of four (`quad`), the bits left over
(`left`) and the padding seen (`pads`): characters outside the alphabet are skipped, and padding
after at least two characters of a group ends the data. The bytes come out reversed. A group
left open fails: with one character as a bad count, with more as bad padding. -/
def base64From : List Char → Nat → Nat → Nat → List UInt8 → Except String (List UInt8)
  | [], quad, _, _, out =>
    if quad = 0 then .ok out
    else if quad = 1 then
      .error ("Invalid base64-encoded string: number of data characters (" ++
        toString (out.length / 3 * 4 + 1) ++ ") cannot be 1 more than a multiple of 4")
    else .error "Incorrect padding"
  | c :: rest, quad, left, pads, out =>
    if c = '=' then
      if 2 ≤ quad then
        if 4 ≤ quad + (pads + 1) then .ok out
        else base64From rest quad left (pads + 1) out
      else base64From rest quad left pads out
    else
      match base64Value c with
      | none => base64From rest quad left pads out
      | some v =>
        match quad with
        | 0 => base64From rest 1 v 0 out
        | 1 => base64From rest 2 (v % 16) 0 (UInt8.ofNat (left * 4 + v / 16) :: out)
        | 2 => base64From rest 3 (v % 4) 0 (UInt8.ofNat (left % 16 * 16 + v / 4) :: out)
        | _ => base64From rest 0 0 0 (UInt8.ofNat (left % 4 * 64 + v) :: out)

/-- Decodes base 64 leniently; the error is the decoder's message. -/
def decodeBase64 (s : List Char) : Except String (List UInt8) :=
  List.reverse <$> base64From s 0 0 0 []

/-- How an encoding error shows a character: `\xhh`, `\uhhhh` or `\Uhhhhhhhh` by its code. -/
def codeEscape (n : Nat) : String :=
  if n < 0x100 then "\\x" ++ String.ofList (Text.hexDigits 2 n)
  else if n < 0x10000 then "\\u" ++ String.ofList (Text.hexDigits 4 n)
  else "\\U" ++ String.ofList (Text.hexDigits 8 n)

/-- The message of a text that is not ASCII: the first run of characters outside ASCII, by its
character or its positions. -/
def asciiProblem (s : List Char) : Option String :=
  let codes := Text.decode s
  match codes.findIdx? (· ≥ 128) with
  | none => none
  | some start =>
    let run := ((codes.drop start).takeWhile (· ≥ 128)).length
    let tail := ": ordinal not in range(128)"
    if run = 1 then
      some ("'ascii' codec can't encode character '" ++ codeEscape (codes.getD start 0) ++
        "' in position " ++ toString start ++ tail)
    else
      some ("'ascii' codec can't encode characters in position " ++ toString start ++ "-" ++
        toString (start + run - 1) ++ tail)

end Backtest.Document.Yaml
