import Backtest.Document.Yaml.Token
import Backtest.Decimal.Reader
import Backtest.Text.Utf8

/-!
# Scanning YAML text into tokens

`Scan.nextToken` scans only as far as it needs to be sure of the next token: a token that may start
a simple key holds back those after it until a `:` on the same line, within 1024 characters, makes
it a key. Blocks follow indentation outside flow collections. Scalars come in five styles, plain,
single- and double-quoted, literal and folded, each with its own folding of line breaks; a tab may
not start a token.
-/

namespace Backtest.Document.Yaml

namespace Scan

/-! ## Simple keys and indentation -/

/-- The smallest token number of the possible simple keys. -/
def nextPossibleKey : ScanM (Option Nat) := do
  return (← get).keys.foldl (fun acc (_, k) => match acc with
    | none => some k.tokenNumber
    | some m => some (min m k.tokenNumber)) none

/-- Drops the possible simple keys that can no longer be keys: those on an earlier line or more
than 1024 characters back. A required one fails. -/
def staleKeys : ScanM Unit := do
  let s ← get
  let pos := s.src.pos
  let isStale := fun (key : SimpleKey) =>
    key.mark.line != pos.line || pos.index - key.mark.index > 1024
  match s.keys.find? (fun (_, key) => isStale key && key.required) with
  | some (_, key) =>
    fail (some "while scanning a simple key") (some key.mark) "could not find expected ':'" pos
  | none => set { s with keys := s.keys.filter (fun (_, key) => !isStale key) }

/-- Forgets the possible simple key of the current flow level; a required one fails. -/
def removeKey : ScanM Unit := do
  let s ← get
  match s.keys.lookup s.flowLevel with
  | some key =>
    if key.required then
      fail (some "while scanning a simple key") (some key.mark) "could not find expected ':'"
        s.src.pos
    modify fun s => { s with keys := s.keys.filter (·.1 != s.flowLevel) }
  | none => pure ()

/-- Records that a simple key may start here, if simple keys are allowed here. In block context
a key is required where the position is at the current indentation. -/
def saveKey : ScanM Unit := do
  let s ← get
  let required := s.flowLevel == 0 && s.indent == (s.src.pos.column : Int)
  if s.allowSimpleKey then
    removeKey
    modify fun s =>
      let key : SimpleKey :=
        { tokenNumber := s.tokensTaken + s.tokens.length, required, mark := s.src.pos }
      { s with keys := s.keys ++ [(s.flowLevel, key)] }

/-- Closes the blocks indented further than `column` with block-end tokens; nothing in flow
context. -/
def closeBlocks (column : Int) : ScanM Unit := do
  let rec go : List Int → ScanM Unit
    | [] => pure ()
    | outer :: rest => do
      let s ← get
      if s.indent > column then
        let m := s.src.pos
        let closing : Token := ⟨.blockEnd, m, m⟩
        set { s with indent := outer, indents := rest, tokens := s.tokens ++ [closing] }
        go rest
  if (← get).flowLevel == 0 then go (← get).indents

/-- Opens a block at `column` if it is further right than the current one. -/
def openBlock (column : Int) : ScanM Bool := do
  let s ← get
  if s.indent < column then
    set { s with indents := s.indent :: s.indents, indent := column }
    return true
  else return false

/-! ## Between tokens -/

/-- Passes spaces, comments and line breaks up to the next token; a line break in block context
allows a simple key. A byte order mark at the very start is passed too. -/
def toNextToken : ScanM Unit := do
  if (← here).index == 0 && (← peek) == '\uFEFF' then forward 1
  let rec go : Nat → ScanM Unit
    | 0 => pure ()
    | fuel + 1 => do
      skipWhile (· == ' ')
      if (← peek) == '#' then skipWhile (fun c => !isBreakOrEnd c)
      if (← lineBreak) != "" then
        if (← get).flowLevel == 0 then modify fun s => { s with allowSimpleKey := true }
        go fuel
  go ((← get).src.buffer.size + 1)

/-! ## Directives -/

/-- The name of a directive. -/
def directiveName (startMark : Mark) : ScanM String := do
  let n ← count isWordChar 0
  if n == 0 then
    fail (some "while scanning a directive") (some startMark)
      ("expected alphabetic or numeric character, but found " ++ quoteChar (← peek)) (← here)
  let name ← ahead n
  forward n
  let c ← peek
  if !isSpaceOrEnd c then
    fail (some "while scanning a directive") (some startMark)
      ("expected alphabetic or numeric character, but found " ++ quoteChar c) (← here)
  return name

/-- A number of a version directive. -/
def versionNumber (startMark : Mark) : ScanM Nat := do
  let c ← peek
  if !('0' ≤ c && c ≤ '9') then
    fail (some "while scanning a directive") (some startMark)
      ("expected a digit, but found " ++ quoteChar c) (← here)
  let n ← count (fun c => '0' ≤ c && c ≤ '9') 0
  let digits ← ahead n
  if n > Decimal.maxIntDigits then throw (Fault.tooManyDigits n)
  forward n
  return Decimal.digitsValue digits.toList

/-- The value of a version directive: `major.minor`. -/
def versionValue (startMark : Mark) : ScanM Directive := do
  skipWhile (· == ' ')
  let major ← versionNumber startMark
  if (← peek) != '.' then
    fail (some "while scanning a directive") (some startMark)
      ("expected a digit or '.', but found " ++ quoteChar (← peek)) (← here)
  forward 1
  let minor ← versionNumber startMark
  if !isSpaceOrEnd (← peek) then
    fail (some "while scanning a directive") (some startMark)
      ("expected a digit or ' ', but found " ++ quoteChar (← peek)) (← here)
  return .version major minor

/-- A tag handle: `!`, `!!` or `!word!`. -/
def tagHandle (what : String) (startMark : Mark) : ScanM String := do
  let c ← peek
  if c != '!' then
    fail (some ("while scanning a " ++ what)) (some startMark)
      ("expected '!', but found " ++ quoteChar c) (← here)
  let mut length := 1
  let c ← peekAt 1
  if c != ' ' then
    length := 1 + (← count isWordChar 1)
    let c ← peekAt length
    if c != '!' then
      forward length
      fail (some ("while scanning a " ++ what)) (some startMark)
        ("expected '!', but found " ++ quoteChar c) (← here)
    length := length + 1
  let handle ← ahead length
  forward length
  return handle

/-- The characters of tag URIs. -/
def isUriChar (c : Char) : Bool :=
  isWordChar c || "-;/?:@&=+$,_.!~*'()[]%".toList.contains c

/-- Reads `%XX` escapes of a tag URI and decodes their bytes as UTF-8; the reading runs `below`
steps under the fetch and makes its position one step further down. -/
def uriEscapes (what : String) (startMark : Mark) (below : Nat) : ScanM String := do
  reachBelow below (Step.under 1)
  let m ← here
  let rec go : Nat → Array UInt8 → ScanM (Array UInt8)
    | 0, bytes => pure bytes
    | fuel + 1, bytes => do
      if (← peek) != '%' then return bytes
      forward 1
      for k in [0, 1] do
        let c ← peekAt k
        if !isHexDigit c then
          fail (some ("while scanning a " ++ what)) (some startMark)
            ("expected URI escape sequence of 2 hexadecimal numbers, but found " ++ quoteChar c)
            (← here)
      let code := hexValue (← ahead 2)
      forward 2
      go fuel (bytes.push code.toUInt8)
  let bytes ← go ((← get).src.buffer.size + 1) #[]
  match Text.decodeUtf8 bytes.toList with
  | .ok text => return Text.ofChars text.toList
  | .error msg => fail (some ("while scanning a " ++ what)) (some startMark) msg m

/-- A tag URI, with `%XX` escapes decoded; the reading runs `below` steps under the fetch. -/
def tagUri (what : String) (startMark : Mark) (below : Nat) : ScanM String := do
  let rec go : Nat → Nat → List String → ScanM (Nat × List String)
    | 0, length, chunks => pure (length, chunks)
    | fuel + 1, length, chunks => do
      let c ← peekAt length
      if !isUriChar c then return (length, chunks)
      if c == '%' then
        let before ← ahead length
        forward length
        let decoded ← uriEscapes what startMark (below + 1)
        go fuel 0 (chunks ++ [before, decoded])
      else go fuel (length + 1) chunks
  let (length, chunks) ← go ((← get).src.buffer.size + 1) 0 []
  let mut chunks := chunks
  if length > 0 then
    chunks := chunks ++ [← ahead length]
    forward length
  if chunks.isEmpty then
    fail (some ("while parsing a " ++ what)) (some startMark)
      ("expected URI, but found " ++ quoteChar (← peekAt 0)) (← here)
  return String.join chunks

/-- The value of a tag directive: a handle and a prefix. -/
def tagDirectiveValue (startMark : Mark) : ScanM Directive := do
  skipWhile (· == ' ')
  let handle ← tagHandle "directive" startMark
  let c ← peek
  if c != ' ' then
    fail (some "while scanning a directive") (some startMark)
      ("expected ' ', but found " ++ quoteChar c) (← here)
  skipWhile (· == ' ')
  let pfx ← tagUri "directive" startMark 5
  let c ← peek
  if !isSpaceOrEnd c then
    fail (some "while scanning a directive") (some startMark)
      ("expected ' ', but found " ++ quoteChar c) (← here)
  return .tagPrefix handle pfx

/-- The rest of a directive's line: spaces and an optional comment. -/
def directiveLineEnd (startMark : Mark) : ScanM Unit := do
  skipWhile (· == ' ')
  if (← peek) == '#' then skipWhile (fun c => !isBreakOrEnd c)
  let c ← peek
  if !isBreakOrEnd c then
    fail (some "while scanning a directive") (some startMark)
      ("expected a comment or a line break, but found " ++ quoteChar c) (← here)
  discard lineBreak

/-- A directive: `%`, a name and its value. -/
def directive : ScanM Token := do
  let startMark ← here
  forward 1
  let name ← directiveName startMark
  let (d, endMark) ← if name == "YAML" then do
      let d ← versionValue startMark
      pure (d, ← here)
    else if name == "TAG" then do
      let d ← tagDirectiveValue startMark
      pure (d, ← here)
    else do
      let endMark ← here
      skipWhile (fun c => !isBreakOrEnd c)
      pure (.other name, endMark)
  directiveLineEnd startMark
  return ⟨.directive d, startMark, endMark⟩

/-! ## Anchors, aliases and tags -/

/-- An anchor `&name` or an alias `*name`. -/
def anchorOrAlias (isAlias : Bool) : ScanM Token := do
  let startMark ← here
  let what := if isAlias then "alias" else "anchor"
  forward 1
  let n ← count isWordChar 0
  if n == 0 then
    fail (some ("while scanning an " ++ what)) (some startMark)
      ("expected alphabetic or numeric character, but found " ++ quoteChar (← peek)) (← here)
  let name ← ahead n
  forward n
  let c ← peek
  if !(isBlankOrEnd c || "?:,]\x7d%@`".toList.contains c) then
    fail (some ("while scanning an " ++ what)) (some startMark)
      ("expected alphabetic or numeric character, but found " ++ quoteChar c) (← here)
  let endMark ← here
  return ⟨if isAlias then .alias name else .anchor name, startMark, endMark⟩

/-- A tag: `!<uri>`, a lone `!`, `!suffix`, or `handle suffix`. -/
def tag : ScanM Token := do
  let startMark ← here
  let c ← peekAt 1
  let (handle, suffix) ← if c == '<' then do
      forward 2
      let suffix ← tagUri "tag" startMark 3
      if (← peek) != '>' then
        fail (some "while parsing a tag") (some startMark)
          ("expected '>', but found " ++ quoteChar (← peek)) (← here)
      forward 1
      pure (none, suffix)
    else if isBlankOrEnd c then do
      forward 1
      pure (none, "!")
    else do
      -- a second `!` before the next space means the tag has a handle
      let n ← count (fun c => !isSpaceOrEnd c && c != '!') 1
      let useHandle := (← peekAt (1 + n)) == '!'
      let handle ← if useHandle then tagHandle "tag" startMark else do
          forward 1
          pure "!"
      let suffix ← tagUri "tag" startMark 3
      pure (some handle, suffix)
  let c ← peek
  if !isSpaceOrEnd c then
    fail (some "while scanning a tag") (some startMark)
      ("expected ' ', but found " ++ quoteChar c) (← here)
  return ⟨.tag handle suffix, startMark, ← here⟩

/-! ## Block scalars -/

/-- The chomping and indentation indicators of a block scalar header. -/
def blockIndicators (startMark : Mark) : ScanM (Option Bool × Option Nat) := do
  let zeroIndent : ScanM Unit := do
    fail (some "while scanning a block scalar") (some startMark)
      "expected indentation indicator in the range 1-9, but found 0" (← here)
  let isDigit := fun (c : Char) => '0' ≤ c && c ≤ '9'
  let mut chomping : Option Bool := none
  let mut increment : Option Nat := none
  let c ← peek
  if c == '+' || c == '-' then
    chomping := some (c == '+')
    forward 1
    let d ← peek
    if isDigit d then
      if d == '0' then zeroIndent
      increment := some (d.toNat - 48)
      forward 1
  else if isDigit c then
    if c == '0' then zeroIndent
    increment := some (c.toNat - 48)
    forward 1
    let d ← peek
    if d == '+' || d == '-' then
      chomping := some (d == '+')
      forward 1
  let c ← peek
  if !isSpaceOrEnd c then
    fail (some "while scanning a block scalar") (some startMark)
      ("expected chomping or indentation indicators, but found " ++ quoteChar c) (← here)
  return (chomping, increment)

/-- The rest of a block scalar's header line: spaces and an optional comment. -/
def blockHeaderEnd (startMark : Mark) : ScanM Unit := do
  skipWhile (· == ' ')
  if (← peek) == '#' then skipWhile (fun c => !isBreakOrEnd c)
  let c ← peek
  if !isBreakOrEnd c then
    fail (some "while scanning a block scalar") (some startMark)
      ("expected a comment or a line break, but found " ++ quoteChar c) (← here)
  discard lineBreak

/-- The leading empty lines of a block scalar without an indentation indicator: their breaks, the
largest indentation seen, and the position after the last break. -/
def blockIndentation : ScanM (Array String × Nat × Mark) := do
  let rec go : Nat → Array String → Nat → Mark → ScanM (Array String × Nat × Mark)
    | 0, breaks, most, endMark => pure (breaks, most, endMark)
    | fuel + 1, breaks, most, endMark => do
      let c ← peek
      if c == ' ' then
        forward 1
        go fuel breaks (max most (← here).column) endMark
      else if isBreak c then
        let b ← lineBreak
        go fuel (breaks.push b) most (← here)
      else pure (breaks, most, endMark)
  go ((← get).src.buffer.size + 1) #[] 0 (← here)

/-- The line breaks between lines of a block scalar, passing indentation up to `indent`; returns
the breaks and the position after the last. -/
def blockBreaks (indent : Nat) : ScanM (Array String × Mark) := do
  let indentSpaces : ScanM Unit := do
    let col := (← here).column
    let room := indent - col
    forward (min room (← count (· == ' ') 0))
  let startMark ← here
  indentSpaces
  let rec go : Nat → Array String → Mark → ScanM (Array String × Mark)
    | 0, breaks, endMark => pure (breaks, endMark)
    | fuel + 1, breaks, endMark => do
      if isBreak (← peek) then
        let b ← lineBreak
        let endMark ← here
        indentSpaces
        go fuel (breaks.push b) endMark
      else pure (breaks, endMark)
  go ((← get).src.buffer.size + 1) #[] startMark

/-- The lines of a block scalar at indentation `indent`, folded or kept. -/
def blockLines (folded : Bool) (indent : Nat) :
    Nat → Array String → Array String → String → Mark →
      ScanM (Array String × Array String × String × Mark)
  | 0, chunks, breaks, lastBreak, endMark => pure (chunks, breaks, lastBreak, endMark)
  | fuel + 1, chunks, breaks, lastBreak, endMark => do
    if (← here).column == indent && (← peek) != '\x00' then
      let chunks := chunks ++ breaks
      let leadingNonSpace := !((← peek) == ' ' || (← peek) == '\t')
      let line ← takeWhile (fun c => !isBreakOrEnd c)
      let chunks := chunks.push line
      let lastBreak ← lineBreak
      let (breaks, endMark) ← blockBreaks indent
      if (← here).column == indent && (← peek) != '\x00' then
        let next ← peek
        let chunks :=
          if folded && lastBreak == "\n" && leadingNonSpace && !(next == ' ' || next == '\t') then
            (if breaks.isEmpty then chunks.push " " else chunks)
          else chunks.push lastBreak
        blockLines folded indent fuel chunks breaks lastBreak endMark
      else pure (chunks, breaks, lastBreak, endMark)
    else pure (chunks, breaks, lastBreak, endMark)

/-- A literal or folded block scalar. -/
def blockScalar (folded : Bool) : ScanM Token := do
  let startMark ← here
  forward 1
  let (chomping, increment) ← blockIndicators startMark
  blockHeaderEnd startMark
  let minIndent : Nat := max ((← get).indent + 1) 1 |>.toNat
  let (breaks, endMark, indent) ← match increment with
    | none => do
      let (breaks, most, endMark) ← blockIndentation
      pure (breaks, endMark, max minIndent most)
    | some inc => do
      let indent := minIndent + inc - 1
      let (breaks, endMark) ← blockBreaks indent
      pure (breaks, endMark, indent)
  let (chunks, breaks, lastBreak, endMark) ←
    blockLines folded indent ((← get).src.buffer.size + 1) #[] breaks "" endMark
  let chunks := if chomping != some false then chunks.push lastBreak else chunks
  let chunks := if chomping == some true then chunks ++ breaks else chunks
  return ⟨.scalar (String.join chunks.toList) false, startMark, endMark⟩

/-! ## Quoted scalars -/

/-- The character a one-letter escape of a double-quoted scalar stands for. -/
def escapeChar? : Char → Option Char
  | '0' => some '\x00'
  | 'a' => some '\x07'
  | 'b' => some '\x08'
  | 't' => some '\t'
  | '\t' => some '\t'
  | 'n' => some '\n'
  | 'v' => some '\x0b'
  | 'f' => some '\x0c'
  | 'r' => some '\r'
  | 'e' => some '\x1b'
  | ' ' => some ' '
  | '"' => some '"'
  | '\\' => some '\\'
  | '/' => some '/'
  | 'N' => some '\x85'
  | '_' => some '\xa0'
  | 'L' => some '\u2028'
  | 'P' => some '\u2029'
  | _ => none

/-- The number of hexadecimal digits of a code escape. -/
def escapeWidth? : Char → Option Nat
  | 'x' => some 2
  | 'u' => some 4
  | 'U' => some 8
  | _ => none

/-- The line breaks inside a quoted scalar after its first; a document marker there fails. Each
break is read six steps under the fetch. -/
def quotedBreaks (startMark : Mark) : ScanM (Array String) := do
  let rec go : Nat → Array String → ScanM (Array String)
    | 0, breaks => pure breaks
    | fuel + 1, breaks => do
      let marker ← ahead 3
      if (marker == "---" || marker == "...") && isBlankOrEnd (← peekAt 3) then
        fail (some "while scanning a quoted scalar") (some startMark)
          "found unexpected document separator" (← here)
      skipWhile (fun c => c == ' ' || c == '\t')
      if isBreak (← peek) then
        reachBelow 5 [.reader, .reader]
        go fuel (breaks.push (← lineBreak))
      else pure breaks
  go ((← get).src.buffer.size + 1) #[]

/-- The characters of a quoted scalar up to a blank, a line break or its end, after the chunks
read so far. -/
def quotedText (double : Bool) (startMark : Mark) (chunks : Array String) :
    ScanM (Array String) := do
  let stops := fun (c : Char) => c == '\'' || c == '"' || c == '\\' || isBlankOrEnd c
  let rec go : Nat → Array String → ScanM (Array String)
    | 0, chunks => pure chunks
    | fuel + 1, chunks => do
      let text ← takeWhile (fun c => !stops c)
      let chunks := if text.isEmpty then chunks else chunks.push text
      let c ← peek
      if !double && c == '\'' && (← peekAt 1) == '\'' then
        forward 2
        go fuel (chunks.push "'")
      else if (double && c == '\'') || (!double && (c == '"' || c == '\\')) then
        forward 1
        go fuel (chunks.push (String.singleton c))
      else if double && c == '\\' then
        forward 1
        let e ← peek
        match escapeChar? e, escapeWidth? e with
        | some r, _ =>
          forward 1
          go fuel (chunks.push (String.singleton r))
        | none, some width =>
          forward 1
          for k in List.range width do
            let d ← peekAt k
            if !isHexDigit d then
              fail (some "while scanning a double-quoted scalar") (some startMark)
                ("expected escape sequence of " ++ toString width ++
                  " hexadecimal numbers, but found " ++ quoteChar d) (← here)
          let code := hexValue (← ahead width)
          if code ≥ 0x110000 then throw (.invalid "chr() arg not in range(0x110000)")
          forward width
          go fuel (chunks.push (Text.ofCode code))
        | none, none =>
          if isBreak e then
            discard lineBreak
            let breaks ← quotedBreaks startMark
            go fuel (chunks ++ breaks)
          else
            fail (some "while scanning a double-quoted scalar") (some startMark)
              ("found unknown escape character " ++ quoteChar e) (← here)
      else pure chunks
  go ((← get).src.buffer.size + 1) chunks

/-- The blanks and line breaks inside a quoted scalar, folded: a single line feed becomes a space,
more keep all but the first. -/
def quotedSpaces (startMark : Mark) : ScanM (Array String) := do
  let blanks ← takeWhile (fun c => c == ' ' || c == '\t')
  let c ← peek
  if c == '\x00' then
    fail (some "while scanning a quoted scalar") (some startMark) "found unexpected end of stream"
      (← here)
  else if isBreak c then
    let first ← lineBreak
    let breaks ← quotedBreaks startMark
    let head := if first != "\n" then #[first] else if breaks.isEmpty then #[" "] else #[]
    return head ++ breaks
  else return #[blanks]

/-- A single- or double-quoted scalar. -/
def quotedScalar (double : Bool) : ScanM Token := do
  let startMark ← here
  let quote ← peek
  forward 1
  let first ← quotedText double startMark #[]
  let rec go : Nat → Array String → ScanM (Array String)
    | 0, chunks => pure chunks
    | fuel + 1, chunks => do
      if (← peek) == quote then return chunks
      let spaces ← quotedSpaces startMark
      go fuel (← quotedText double startMark (chunks ++ spaces))
  let chunks ← go ((← get).src.buffer.size + 1) first
  forward 1
  return ⟨.scalar (String.join chunks.toList) false, startMark, ← here⟩

/-! ## Plain scalars -/

/-- Whether a document marker `---` or `...` followed by a blank starts here. -/
def atDocumentMarker : ScanM Bool := do
  let marker ← ahead 3
  return (marker == "---" || marker == "...") && isBlankOrEnd (← peekAt 3)

/-- The spaces and line breaks after a piece of a plain scalar, folded; none when the scalar
cannot go on (a document marker follows a break). A line break allows a simple key. -/
def plainSpaces : ScanM (Array String) := do
  let blanks ← takeWhile (· == ' ')
  let c ← peek
  if isBreak c then
    let first ← lineBreak
    modify fun s => { s with allowSimpleKey := true }
    if ← atDocumentMarker then return #[]
    let rec go : Nat → Array String → ScanM (Option (Array String))
      | 0, breaks => pure (some breaks)
      | fuel + 1, breaks => do
        let c ← peek
        if c == ' ' then
          forward 1
          go fuel breaks
        else if isBreak c then
          let b ← lineBreak
          if ← atDocumentMarker then return none
          go fuel (breaks.push b)
        else pure (some breaks)
    match ← go ((← get).src.buffer.size + 1) #[] with
    | none => return #[]
    | some breaks =>
      let head := if first != "\n" then #[first] else if breaks.isEmpty then #[" "] else #[]
      return head ++ breaks
  else if blanks.isEmpty then return #[]
  else return #[blanks]

/-- The length of the next piece of a plain scalar. -/
def plainPieceLength (flow : Bool) : ScanM Nat := do
  let s ← get
  let stopsAt := fun (k : Nat) =>
    let c := s.src.peek k
    isBlankOrEnd c ||
      (c == ':' && (isBlankOrEnd (s.src.peek (k + 1)) ||
        (flow && ",[]\x7b\x7d".toList.contains (s.src.peek (k + 1))))) ||
      (flow && ",?[]\x7b\x7d".toList.contains c)
  let rec go : Nat → Nat → Nat
    | 0, k => k
    | fuel + 1, k => if stopsAt k then k else go fuel (k + 1)
  return go (s.src.buffer.size + 1) 0

/-- A plain scalar. -/
def plainScalar : ScanM Token := do
  let startMark ← here
  let indent : Int := (← get).indent + 1
  let flow := (← get).flowLevel != 0
  let rec go : Nat → Array String → Array String → Mark → ScanM (Array String × Mark)
    | 0, chunks, _, endMark => pure (chunks, endMark)
    | fuel + 1, chunks, spaces, endMark => do
      if (← peek) == '#' then return (chunks, endMark)
      let n ← plainPieceLength flow
      if n == 0 then return (chunks, endMark)
      modify fun s => { s with allowSimpleKey := false }
      let piece ← ahead n
      forward n
      let chunks := (chunks ++ spaces).push piece
      let endMark ← here
      let spaces ← plainSpaces
      if spaces.isEmpty || (← peek) == '#' || (!flow && ((← here).column : Int) < indent) then
        return (chunks, endMark)
      go fuel chunks spaces endMark
  let (chunks, endMark) ← go ((← get).src.buffer.size + 1) #[] #[] startMark
  return ⟨.scalar (String.join chunks.toList) true, startMark, endMark⟩

/-! ## Fetching tokens -/

/-- The end of the stream: all blocks close. -/
def fetchStreamEnd : ScanM Unit := do
  closeBlocks (-1)
  removeKey
  modify fun s => { s with allowSimpleKey := false, keys := [] }
  let m ← here
  push .streamEnd m m
  modify fun s => { s with done := true }

/-- A directive: all blocks close. -/
def fetchDirective : ScanM Unit := do
  closeBlocks (-1)
  removeKey
  modify fun s => { s with allowSimpleKey := false }
  let t ← directive
  modify fun s => { s with tokens := s.tokens ++ [t] }

/-- A document marker `---` or `...`: all blocks close. -/
def fetchDocumentMarker (kind : TokenKind) : ScanM Unit := do
  closeBlocks (-1)
  removeKey
  modify fun s => { s with allowSimpleKey := false }
  let startMark ← here
  forward 3
  push kind startMark (← here)

/-- The start of a flow collection: it may start a simple key. -/
def fetchFlowStart (kind : TokenKind) : ScanM Unit := do
  saveKey
  modify fun s => { s with flowLevel := s.flowLevel + 1, allowSimpleKey := true }
  let startMark ← here
  forward 1
  push kind startMark (← here)

/-- The end of a flow collection. -/
def fetchFlowEnd (kind : TokenKind) : ScanM Unit := do
  removeKey
  modify fun s => { s with flowLevel := s.flowLevel - 1, allowSimpleKey := false }
  let startMark ← here
  forward 1
  push kind startMark (← here)

/-- A flow entry `,`. -/
def fetchFlowEntry : ScanM Unit := do
  modify fun s => { s with allowSimpleKey := true }
  removeKey
  let startMark ← here
  forward 1
  push .flowEntry startMark (← here)

/-- A block entry `-`: in block context it may open a block sequence. -/
def fetchBlockEntry : ScanM Unit := do
  let s ← get
  if s.flowLevel == 0 then
    if !s.allowSimpleKey then
      fail none none "sequence entries are not allowed here" (← here)
    if ← openBlock (← here).column then
      let m ← here
      push .blockSequenceStart m m
  modify fun s => { s with allowSimpleKey := true }
  removeKey
  let startMark ← here
  forward 1
  push .blockEntry startMark (← here)

/-- A complex key `?`: in block context it may open a block mapping. -/
def fetchKey : ScanM Unit := do
  let s ← get
  if s.flowLevel == 0 then
    if !s.allowSimpleKey then
      fail none none "mapping keys are not allowed here" (← here)
    if ← openBlock (← here).column then
      let m ← here
      push .blockMappingStart m m
  modify fun s => { s with allowSimpleKey := s.flowLevel == 0 }
  removeKey
  let startMark ← here
  forward 1
  push .key startMark (← here)

/-- A value indicator `:`: it settles the possible simple key of this level as a key, or else
follows a complex key. -/
def fetchValue : ScanM Unit := do
  let s ← get
  match s.keys.lookup s.flowLevel with
  | some key =>
    let at_ := key.tokenNumber - s.tokensTaken
    let keyToken : Token := ⟨.key, key.mark, key.mark⟩
    set { s with keys := s.keys.filter (·.1 != s.flowLevel),
                 tokens := s.tokens.insertIdx at_ keyToken }
    if s.flowLevel == 0 then
      if ← openBlock key.mark.column then
        modify fun s => { s with
          tokens := s.tokens.insertIdx at_ ⟨.blockMappingStart, key.mark, key.mark⟩ }
    modify fun s => { s with allowSimpleKey := false }
  | none =>
    if s.flowLevel == 0 then
      if !s.allowSimpleKey then
        fail none none "mapping values are not allowed here" (← here)
      if ← openBlock (← here).column then
        let m ← here
        push .blockMappingStart m m
    modify fun s => { s with allowSimpleKey := s.flowLevel == 0 }
    removeKey
  let startMark ← here
  forward 1
  push .value startMark (← here)

/-- An alias or anchor: it may start a simple key. -/
def fetchAnchor (isAlias : Bool) : ScanM Unit := do
  saveKey
  modify fun s => { s with allowSimpleKey := false }
  let t ← anchorOrAlias isAlias
  modify fun s => { s with tokens := s.tokens ++ [t] }

/-- A tag: it may start a simple key. -/
def fetchTag : ScanM Unit := do
  saveKey
  modify fun s => { s with allowSimpleKey := false }
  let t ← tag
  modify fun s => { s with tokens := s.tokens ++ [t] }

/-- A block scalar: a simple key may follow it. -/
def fetchBlockScalar (folded : Bool) : ScanM Unit := do
  modify fun s => { s with allowSimpleKey := true }
  removeKey
  let t ← blockScalar folded
  modify fun s => { s with tokens := s.tokens ++ [t] }

/-- A quoted scalar: it may be a simple key. -/
def fetchQuoted (double : Bool) : ScanM Unit := do
  saveKey
  modify fun s => { s with allowSimpleKey := false }
  let t ← quotedScalar double
  modify fun s => { s with tokens := s.tokens ++ [t] }

/-- A plain scalar: it may be a simple key. -/
def fetchPlain : ScanM Unit := do
  saveKey
  modify fun s => { s with allowSimpleKey := false }
  let t ← plainScalar
  modify fun s => { s with tokens := s.tokens ++ [t] }

/-- Whether a document marker (`---` or `...` as given) starts here, at the start of a line and
followed by a blank. -/
def checkDocumentMarker (marker : String) : ScanM Bool := do
  return (← here).column == 0 && (← ahead 3) == marker && isBlankOrEnd (← peekAt 3)

/-- Whether a plain scalar may start here: not at an indicator, except `-`, and in block context
`?` and `:`, followed by a non-blank. -/
def checkPlain : ScanM Bool := do
  let c ← peek
  let next ← peekAt 1
  let flow := (← get).flowLevel != 0
  return !(isBlankOrEnd c || "-?:,[]\x7b\x7d#&*!|>'\"%@`".toList.contains c) ||
    (!isBlankOrEnd next && (c == '-' || (!flow && (c == '?' || c == ':'))))

/-- The steps under a fetch that every fetch takes first: passing blanks and comments, and, when
blocks close, making the position where they end. -/
def fetchPrelude (closed : Bool) : List Step :=
  List.replicate (if closed then 4 else 3) .reader

/-- Scans the next token or tokens. A fetch is a step of its own, and under it each kind of token
makes its positions and tokens a fixed number of steps down, which is checked before the token is
read: a flow collection's start, a quoted scalar or a block scalar four steps down, a plain
scalar, an alias, an anchor, a tag or a flow collection's end three, an indicator two. A token
that may start a simple key, where one is allowed, makes the key one step further down. -/
def fetchMore : ScanM Unit := nested do
  reach (fetchPrelude false)
  toNextToken
  staleKeys
  let before := (← get).tokens.length
  closeBlocks (← here).column
  let closed := before < (← get).tokens.length
  let steps := fun (own : List Step) => reach (Step.overlay (fetchPrelude closed) own)
  let c ← peek
  let s ← get
  let flow := s.flowLevel != 0
  let blocksOpen := !flow && s.indent ≥ 0
  let blankNext := isBlankOrEnd (← peekAt 1)
  if c == '\x00' then
    steps (Step.under (if blocksOpen then 3 else 2))
    fetchStreamEnd
  else if c == '%' && (← here).column == 0 then
    steps (Step.under 3)
    fetchDirective
  else if c == '-' && (← checkDocumentMarker "---") then
    steps (Step.under (if blocksOpen then 4 else 3))
    fetchDocumentMarker .documentStart
  else if c == '.' && (← checkDocumentMarker "...") then
    steps (Step.under (if blocksOpen then 4 else 3))
    fetchDocumentMarker .documentEnd
  else if c == '[' || c == '\x7b' then
    steps (Step.under (if s.allowSimpleKey then 4 else 3))
    fetchFlowStart (if c == '[' then .flowSequenceStart else .flowMappingStart)
  else if c == ']' || c == '\x7d' then
    steps (Step.under 3)
    fetchFlowEnd (if c == ']' then .flowSequenceEnd else .flowMappingEnd)
  else if c == ',' then
    steps (Step.under 2)
    fetchFlowEntry
  else if c == '-' && blankNext then
    steps (Step.under 2)
    fetchBlockEntry
  else if c == '?' && (flow || blankNext) then
    steps (Step.under 2)
    fetchKey
  else if c == ':' && (flow || blankNext) then
    steps (Step.under 2)
    fetchValue
  else if c == '*' || c == '&' then
    steps (Step.under 3)
    fetchAnchor (c == '*')
  else if c == '!' then
    steps (Step.under 3)
    fetchTag
  else if (c == '|' || c == '>') && !flow then
    steps (Step.overlay (Step.under 4) (Step.under 5))
    fetchBlockScalar (c == '>')
  else if c == '\'' || c == '"' then
    steps (Step.under 4)
    fetchQuoted (c == '"')
  else if ← checkPlain then
    steps (Step.under 3)
    fetchPlain
  else
    fail (some "while scanning for the next token") none
      ("found character " ++ quoteChar c ++ " that cannot start any token") (← here)

/-- Whether more tokens must be scanned before the first one is certain: none is queued, or the
first may still turn out to be preceded by a key. This is a step of its own, and looking at the
possible keys one more. -/
def needMore : ScanM Bool := nested do
  let s ← get
  if s.done then return false
  if s.tokens.isEmpty then return true
  reach [.reader]
  staleKeys
  return (← nextPossibleKey) == some (← get).tokensTaken

/-- Scans until the first queued token is certain. -/
def fill : ScanM Unit := do
  let rec go : Nat → ScanM Unit
    | 0 => pure ()
    | fuel + 1 => do
      if ← needMore then
        fetchMore
        go fuel
  go ((← get).src.buffer.size + 2)

/-- The first queued token once it is certain; the end of the stream once none is left. -/
def first : ScanM Token := do
  fill
  let s ← get
  match s.tokens with
  | t :: _ => return t
  | [] => return ⟨.streamEnd, s.src.pos, s.src.pos⟩

/-- The next token, left in place. -/
def peekToken : ScanM Token :=
  nested first

/-- The next token, taken. -/
def nextToken : ScanM Token := nested do
  let t ← first
  modify fun s => { s with tokens := s.tokens.drop 1, tokensTaken := s.tokensTaken + 1 }
  return t

/-- Whether the next token is of one of the classes. -/
def nextIs (classes : List TokenClass) : ScanM Bool := nested do
  let t ← first
  return classes.contains t.kind.cls

end Scan

end Backtest.Document.Yaml
