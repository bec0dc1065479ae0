import Backtest.Document.Value
import Backtest.Decimal.Reader
import Backtest.Fault

/-!
# JSON documents

Reading follows the standard JSON reader with its extensions: `NaN`, `Infinity` and `-Infinity` are
numbers, an integer has at most 4300 digits, a repeated key keeps its first position and last value,
and nesting is bounded by `maxJsonDepth`; errors show as `message: line L column C (char P)`.
Writing gives the compact form with `", "` and `": "`, floats in their shortest text, and in the
ASCII style (`writeJson`) every character outside printable ASCII escaped.
-/

namespace Backtest.Document

open Backtest.Decimal

/-- How deep arrays and objects may nest. -/
def maxJsonDepth : Nat := 990

/-- A JSON reading fault. -/
inductive JsonError where
  /-- The text breaks the grammar: the message and the character position. -/
  | malformed (message : String) (position : Nat)
  /-- An array (`true`) or object (`false`) nested deeper than `maxJsonDepth`. -/
  | tooDeep (array : Bool)
  /-- An integer of more than 4300 digits (the count is given). -/
  | tooLong (digits : Nat)

/-- The message of a grammar fault with its line and column in the text. -/
def describePosition (message : String) (position : Nat) (text : String) : String :=
  let before := text.toList.take position
  let line := before.count '\n' + 1
  let column := (before.reverse.takeWhile (· ≠ '\n')).length + 1
  message ++ ": line " ++ toString line ++ " column " ++ toString column ++ " (char " ++
    toString position ++ ")"

/-- The fault of reading a text. -/
def JsonError.toFault (text : String) : JsonError → Fault
  | .malformed message position => .malformedJson (describePosition message position text)
  | .tooDeep array =>
    .tooDeep ("maximum recursion depth exceeded while decoding a JSON " ++
      (if array then "array" else "object") ++ " from a unicode string")
  | .tooLong digits => Fault.tooManyDigits digits

/-- JSON blanks. -/
def isJsonBlank (c : Char) : Bool :=
  c = ' ' || c = '\t' || c = '\n' || c = '\r'

/-- A position in the text being read: the characters left and how many were read. -/
structure Cursor where
  rest : List Char
  pos : Nat

/-- Skips blanks. -/
def Cursor.skip (c : Cursor) : Cursor :=
  let n := (c.rest.takeWhile isJsonBlank).length
  { rest := c.rest.drop n, pos := c.pos + n }

/-- Moves past `n` characters. -/
def Cursor.advance (c : Cursor) (n : Nat) : Cursor :=
  { rest := c.rest.drop n, pos := c.pos + n }

/-- The value of a hexadecimal digit. -/
def hexValue? (c : Char) : Option Nat :=
  if '0' ≤ c ∧ c ≤ '9' then some (c.toNat - 48)
  else if 'a' ≤ c ∧ c ≤ 'f' then some (c.toNat - 87)
  else if 'A' ≤ c ∧ c ≤ 'F' then some (c.toNat - 55)
  else none

/-- The value of four hexadecimal digits. -/
def hex4? (cs : List Char) : Option Nat :=
  match cs with
  | [a, b, c, d] => do
    let a ← hexValue? a
    let b ← hexValue? b
    let c ← hexValue? c
    let d ← hexValue? d
    some (((a * 16 + b) * 16 + c) * 16 + d)
  | _ => none

/-- Reads the rest of a string whose opening quote is at `begin`; `acc` holds the characters read,
last first. The fuel bounds the number of steps by the text's length. -/
def readString (begin : Nat) : Nat → List Char → Cursor → Except JsonError (String × Cursor)
  | 0, _, _ => .error (.malformed "Unterminated string starting at" begin)
  | fuel + 1, acc, c =>
    match c.rest with
    | [] => .error (.malformed "Unterminated string starting at" begin)
    | '"' :: _ => .ok (String.ofList acc.reverse, c.advance 1)
    | '\\' :: rest =>
      match rest with
      | [] => .error (.malformed "Unterminated string starting at" begin)
      | 'u' :: more =>
        -- four digits and at least one character after them
        if more.length ≤ 4 then .error (.malformed "Invalid \\uXXXX escape" (c.pos + 1))
        else match hex4? (more.take 4) with
          | none => .error (.malformed "Invalid \\uXXXX escape" (c.pos + 1))
          | some hi =>
            let after := more.drop 4
            -- a high surrogate followed by a second escape is read as a pair
            if 0xD800 ≤ hi ∧ hi ≤ 0xDBFF ∧ 6 < after.length ∧ after.take 2 = ['\\', 'u'] then
              match hex4? ((after.drop 2).take 4) with
              | none => .error (.malformed "Invalid \\uXXXX escape" (c.pos + 7))
              | some lo =>
                if 0xDC00 ≤ lo ∧ lo ≤ 0xDFFF then
                  let code := 0x10000 + (hi - 0xD800) * 0x400 + (lo - 0xDC00)
                  readString begin fuel ((Text.codeChars code).reverse ++ acc) (c.advance 12)
                else readString begin fuel ((Text.codeChars hi).reverse ++ acc) (c.advance 6)
            else
              readString begin fuel ((Text.codeChars hi).reverse ++ acc) (c.advance 6)
      | e :: _ =>
        let decoded : Option Char := match e with
          | '"' => some '"'
          | '\\' => some '\\'
          | '/' => some '/'
          | 'b' => some '\x08'
          | 'f' => some '\x0c'
          | 'n' => some '\n'
          | 'r' => some '\r'
          | 't' => some '\t'
          | _ => none
        match decoded with
        | some d => readString begin fuel (d :: acc) (c.advance 2)
        | none => .error (.malformed "Invalid \\escape" c.pos)
    | ch :: _ =>
      if ch.toNat < 0x20 then .error (.malformed "Invalid control character at" c.pos)
      else readString begin fuel ((Text.codeChars ch.toNat).reverse ++ acc) (c.advance 1)

/-- The length of the number at the start of a text, and whether it is a float; none when no
number starts there. -/
def numberSpan (cs : List Char) : Option (Nat × Bool) :=
  let (signLen, body) := match cs with
    | '-' :: rest => (1, rest)
    | rest => (0, rest)
  let intLen : Option Nat := match body with
    | '0' :: _ => some 1
    | d :: rest => if '1' ≤ d ∧ d ≤ '9' then some (1 + (rest.takeWhile Char.isDigit).length) else none
    | [] => none
  match intLen with
  | none => none
  | some intLen =>
    let afterInt := body.drop intLen
    let fracLen := match afterInt with
      | '.' :: d :: rest => if d.isDigit then 2 + (rest.takeWhile Char.isDigit).length else 0
      | _ => 0
    let afterFrac := afterInt.drop fracLen
    let expLen := match afterFrac with
      | e :: rest =>
        if e = 'e' ∨ e = 'E' then
          let (s, ds) := match rest with
            | '+' :: ds => (1, ds)
            | '-' :: ds => (1, ds)
            | ds => (0, ds)
          let n := (ds.takeWhile Char.isDigit).length
          if n = 0 then 0 else 1 + s + n
        else 0
      | [] => 0
    some (signLen + intLen + fracLen + expLen, fracLen > 0 ∨ expLen > 0)

/-- Whether a text starts with a word. -/
def startsWith (cs word : List Char) : Bool :=
  word.isPrefixOf cs

mutual
/-- Reads one value at the cursor, inside `depth` arrays and objects. -/
def readValue : Nat → Nat → Cursor → Except JsonError (Value × Cursor)
  | 0, _, c => .error (.malformed "Expecting value" c.pos)
  | fuel + 1, depth, c =>
    match c.rest with
    | '"' :: _ => (readString c.pos c.rest.length [] (c.advance 1)).map fun (s, c) => (.str s, c)
    | '{' :: _ =>
      if depth < maxJsonDepth then readObject fuel (depth + 1) (c.advance 1)
      else .error (.tooDeep false)
    | '[' :: _ =>
      if depth < maxJsonDepth then readArray fuel (depth + 1) (c.advance 1)
      else .error (.tooDeep true)
    | cs =>
      if startsWith cs "null".toList then .ok (.null, c.advance 4)
      else if startsWith cs "true".toList then .ok (.bool true, c.advance 4)
      else if startsWith cs "false".toList then .ok (.bool false, c.advance 5)
      else if startsWith cs "NaN".toList then .ok (.float (0.0 / 0.0), c.advance 3)
      else if startsWith cs "Infinity".toList then .ok (.float (1.0 / 0.0), c.advance 8)
      else if startsWith cs "-Infinity".toList then .ok (.float (-1.0 / 0.0), c.advance 9)
      else match numberSpan cs with
        | none => .error (.malformed "Expecting value" c.pos)
        | some (n, isFloat) =>
          let text := cs.take n
          let digits := (text.filter Char.isDigit).length
          if isFloat then .ok (.float ((readChars? text).getD 0.0), c.advance n)
          else if digits > maxIntDigits then .error (.tooLong digits)
          else
            let magnitude := digitsValue (text.filter Char.isDigit)
            let v : Int := if text.head? = some '-' then -(magnitude : Int) else magnitude
            .ok (.int v, c.advance n)

/-- Reads the members of an object after its `{`. -/
def readObject : Nat → Nat → Cursor → Except JsonError (Value × Cursor)
  | 0, _, c => .error (.malformed "Expecting value" c.pos)
  | fuel + 1, depth, c =>
    let c := c.skip
    match c.rest with
    | '}' :: _ => .ok (.map [], c.advance 1)
    | _ => readMembers fuel depth [] c

/-- Reads `"key": value` members separated by commas up to the closing `}`. -/
def readMembers : Nat → Nat → List (Value × Value) → Cursor →
    Except JsonError (Value × Cursor)
  | 0, _, _, c => .error (.malformed "Expecting value" c.pos)
  | fuel + 1, depth, acc, c =>
    match c.rest with
    | '"' :: _ => do
      let (key, c) ← readString c.pos c.rest.length [] (c.advance 1)
      let c := c.skip
      match c.rest with
      | ':' :: _ =>
        let (v, c) ← readValue fuel depth (c.advance 1).skip
        let acc := Value.insert acc (.str key) v
        let c := c.skip
        match c.rest with
        | '}' :: _ => .ok (.map acc, c.advance 1)
        | ',' :: _ => readMembers fuel depth acc (c.advance 1).skip
        | _ => .error (.malformed "Expecting ',' delimiter" c.pos)
      | _ => .error (.malformed "Expecting ':' delimiter" c.pos)
    | _ => .error (.malformed "Expecting property name enclosed in double quotes" c.pos)

/-- Reads the items of an array after its `[`. -/
def readArray : Nat → Nat → Cursor → Except JsonError (Value × Cursor)
  | 0, _, c => .error (.malformed "Expecting value" c.pos)
  | fuel + 1, depth, c =>
    let c := c.skip
    match c.rest with
    | ']' :: _ => .ok (.list [], c.advance 1)
    | _ => readItems fuel depth [] c

/-- Reads values separated by commas up to the closing `]`. -/
def readItems : Nat → Nat → List Value → Cursor → Except JsonError (Value × Cursor)
  | 0, _, _, c => .error (.malformed "Expecting value" c.pos)
  | fuel + 1, depth, acc, c => do
    let (v, c) ← readValue fuel depth c
    let c := c.skip
    match c.rest with
    | ']' :: _ => .ok (.list (acc ++ [v]), c.advance 1)
    | ',' :: _ => readItems fuel depth (acc ++ [v]) (c.advance 1).skip
    | _ => .error (.malformed "Expecting ',' delimiter" c.pos)
end

/-- Reads a whole JSON text. -/
def parseJson (text : String) : Except JsonError Value :=
  let cs := text.toList
  match cs with
  | '\uFEFF' :: _ => .error (.malformed "Unexpected UTF-8 BOM (decode using utf-8-sig)" 0)
  | _ => do
    let fuel := 2 * cs.length + 2
    let (v, c) ← readValue fuel 0 (Cursor.skip ⟨cs, 0⟩)
    let c := c.skip
    if c.rest.isEmpty then .ok v else .error (.malformed "Extra data" c.pos)

/-- Lowercase hexadecimal digits of a code unit, four of them. -/
def hexUnit (n : Nat) : List Char :=
  Text.hexDigits 4 n

/-- A code point escaped for JSON output. Quotes, backslashes and control characters are always
escaped; with `ascii`, so is every code point outside printable ASCII (astral ones as two
surrogate escapes, a lone surrogate as its own escape). -/
def escapeJsonCode (ascii : Bool) (u : Nat) : List Char :=
  if u = 0x22 then ['\\', '"']
  else if u = 0x5C then ['\\', '\\']
  else if u = 0x0A then ['\\', 'n']
  else if u = 0x0D then ['\\', 'r']
  else if u = 0x09 then ['\\', 't']
  else if u = 0x08 then ['\\', 'b']
  else if u = 0x0C then ['\\', 'f']
  else if u < 0x20 then '\\' :: 'u' :: hexUnit u
  else if u < 0x7F ∨ !ascii then Text.codeChars u
  else if u < 0x10000 then '\\' :: 'u' :: hexUnit u
  else
    let v := u - 0x10000
    '\\' :: 'u' :: hexUnit (0xD800 + v / 0x400) ++ '\\' :: 'u' :: hexUnit (0xDC00 + v % 0x400)

/-- A text as a JSON string, escaped as `escapeJsonCode ascii` says. -/
def jsonStringWith (ascii : Bool) (s : String) : String :=
  String.ofList ('"' :: (Text.codes s).flatMap (escapeJsonCode ascii) ++ ['"'])

/-- A text as a JSON string in printable ASCII. -/
def jsonString (s : String) : String :=
  jsonStringWith true s

/-- A float as a JSON number. -/
def jsonFloat (x : Float) : String :=
  if x.isNaN then "NaN"
  else if x.isInf then (if x < 0.0 then "-Infinity" else "Infinity")
  else shortText x

mutual
/-- A value as JSON text; with `ascii` every character outside printable ASCII is escaped. -/
def writeJsonWith (ascii : Bool) : Value → String
  | .null => "null"
  | .bool b => if b then "true" else "false"
  | .int n => toString n
  | .float x => jsonFloat x
  | .str s => jsonStringWith ascii s
  | .date d => jsonStringWith ascii d.iso
  | .moment m => jsonStringWith ascii m.iso
  | .list items => "[" ++ ", ".intercalate (writeJsonAll ascii items) ++ "]"
  | .map entries => "\x7b" ++ ", ".intercalate (writeJsonEntries ascii entries) ++ "\x7d"
  | .tuple items => "[" ++ ", ".intercalate (writeJsonAll ascii items) ++ "]"
  | .bytes data => jsonStringWith ascii (Value.bytesLiteral data)
  | .set items => "[" ++ ", ".intercalate (writeJsonAll ascii items) ++ "]"
  | .enclosing _ => "null"

/-- The JSON texts of list items. -/
def writeJsonAll (ascii : Bool) : List Value → List String
  | [] => []
  | v :: rest => writeJsonWith ascii v :: writeJsonAll ascii rest

/-- The JSON texts of mapping entries; keys are written as texts. -/
def writeJsonEntries (ascii : Bool) : List (Value × Value) → List String
  | [] => []
  | (k, v) :: rest =>
    let key := match k with
      | .str s => jsonStringWith ascii s
      | .bool b => jsonStringWith ascii (if b then "true" else "false")
      | .null => jsonStringWith ascii "null"
      | .float x => jsonStringWith ascii (jsonFloat x)
      | other => jsonStringWith ascii (Value.display other)
    (key ++ ": " ++ writeJsonWith ascii v) :: writeJsonEntries ascii rest
end

/-- A value as JSON text in printable ASCII. -/
def writeJson (v : Value) : String :=
  writeJsonWith true v

end Backtest.Document
