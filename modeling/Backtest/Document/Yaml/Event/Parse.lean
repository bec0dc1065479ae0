import Backtest.Document.Yaml.Event

/-!
# Parsing YAML tokens into events

The grammar over tokens: a stream of an optional implicit document and explicit documents; block
nodes that are aliases, or properties with a collection or scalar; block sequences and mappings up
to a block end, a mapping's value allowed to be a sequence at the key's own indentation; flow
sequences and mappings, with one-pair mappings inside flow sequences. A missing key, value or entry
is an empty scalar, and each state is a step of the bounded chain of reading.
-/

namespace Backtest.Document.Yaml

namespace Parse

/-- Runs a scanning step on the parser's scanner. -/
def scan {α : Type} (m : ScanM α) : ParseM α := do
  let p ← get
  match m.run p.scanner with
  | .ok (a, s) =>
    set { p with scanner := s }
    return a
  | .error f => throw f

/-- Runs a step of the parser one level deeper. -/
def nested {α : Type} (m : ParseM α) : ParseM α := do
  scan (Scan.enter .reader)
  let a ← m
  scan Scan.leave
  return a

/-- Whether the next token is of one of the classes. -/
def nextIs (classes : List TokenClass) : ParseM Bool :=
  scan (Scan.nextIs classes)

/-- The next token, left in place. -/
def peekToken : ParseM Token :=
  scan Scan.peekToken

/-- The next token, taken. -/
def takeToken : ParseM Token :=
  scan Scan.nextToken

/-- Fails with a parser problem found at `m`. -/
def fail {α : Type} (context : Option String) (contextMark : Option Mark) (problem : String)
    (m : Mark) : ParseM α := do
  throw ((Problem.mk .parser context contextMark problem (some m)).fault
    (← get).scanner.src.buffer)

/-- Returns to the state on top of the stack. -/
def popState : ParseM Unit :=
  modify fun p => match p.states with
    | s :: rest => { p with state := some s, states := rest }
    | [] => { p with state := none }

/-- Remembers a state to return to. -/
def pushState (st : ParseState) : ParseM Unit :=
  modify fun p => { p with states := st :: p.states }

/-- Sets the next state. -/
def goTo (st : ParseState) : ParseM Unit :=
  modify fun p => { p with state := some st }

/-- Remembers where a collection starts. -/
def pushMark (m : Mark) : ParseM Unit :=
  modify fun p => { p with marks := m :: p.marks }

/-- Forgets where the innermost collection starts. -/
def popMark : ParseM Unit :=
  modify fun p => { p with marks := p.marks.drop 1 }

/-- Where the innermost collection starts. -/
def topMark : ParseM (Option Mark) :=
  return (← get).marks.head?

/-- An empty scalar at a position. -/
def emptyScalar (m : Mark) : Event :=
  ⟨.scalar none none true false "", m, m⟩

/-- An empty scalar at a position, made by a step of its own. -/
def emptyAt (m : Mark) : ParseM Event := do
  scan (Scan.reach (.reader :: Step.made))
  return emptyScalar m

/-- The tag handles every document has. -/
def defaultHandles : List (String × String) :=
  [("!", "!"), ("!!", "tag:yaml.org,2002:")]

/-- A node: an alias, or properties and content. -/
def node (block indentless : Bool) : ParseM Event := nested do
  if ← nextIs [.alias] then
    let t ← takeToken
    popState
    let name := match t.kind with
      | .alias n => n
      | _ => ""
    return ⟨.alias name, t.startMark, t.endMark⟩
  let mut anchor : Option String := none
  let mut tag : Option (Option String × String) := none
  let mut startMark : Option Mark := none
  let mut endMark : Option Mark := none
  let mut tagMark : Option Mark := none
  let anchorName := fun (t : Token) => match t.kind with
    | .anchor n => some n
    | _ => none
  let tagParts := fun (t : Token) => match t.kind with
    | .tag h s => some (h, s)
    | _ => none
  if ← nextIs [.anchor] then
    let t ← takeToken
    startMark := some t.startMark
    endMark := some t.endMark
    anchor := anchorName t
    if ← nextIs [.tag] then
      let t ← takeToken
      tagMark := some t.startMark
      endMark := some t.endMark
      tag := tagParts t
  else if ← nextIs [.tag] then
    let t ← takeToken
    startMark := some t.startMark
    tagMark := some t.startMark
    endMark := some t.endMark
    tag := tagParts t
    if ← nextIs [.anchor] then
      let t ← takeToken
      endMark := some t.endMark
      anchor := anchorName t
  let tagText : Option String ← match tag with
    | some (some handle, suffix) =>
      match (← get).tagHandles.lookup handle with
      | some pfx => pure (some (pfx ++ suffix))
      | none =>
        fail (some "while parsing a node") startMark
          ("found undefined tag handle " ++ Text.quote handle) (tagMark.getD default)
    | some (none, suffix) => pure (some suffix)
    | none => pure none
  let (first, last) ← match startMark, endMark with
    | some s, some e => pure (s, e)
    | _, _ => do
      let t ← peekToken
      pure (t.startMark, t.startMark)
  let implicit := tagText.isNone || tagText == some "!"
  if indentless then
    if ← nextIs [.blockEntry] then
      let t ← peekToken
      goTo .indentlessSequenceEntry
      return ⟨.sequenceStart anchor tagText, first, t.endMark⟩
  if ← nextIs [.scalar] then
    let t ← takeToken
    let (text, plain) := match t.kind with
      | .scalar v p => (v, p)
      | _ => ("", false)
    let (byForm, asText) :=
      if (plain && tagText.isNone) || tagText == some "!" then (true, false)
      else if tagText.isNone then (false, true)
      else (false, false)
    popState
    return ⟨.scalar anchor tagText byForm asText text, first, t.endMark⟩
  if ← nextIs [.flowSequenceStart] then
    let t ← peekToken
    goTo .flowSequenceFirstEntry
    return ⟨.sequenceStart anchor tagText, first, t.endMark⟩
  if ← nextIs [.flowMappingStart] then
    let t ← peekToken
    goTo .flowMappingFirstKey
    return ⟨.mappingStart anchor tagText, first, t.endMark⟩
  if block then
    if ← nextIs [.blockSequenceStart] then
      let t ← peekToken
      goTo .blockSequenceFirstEntry
      return ⟨.sequenceStart anchor tagText, first, t.startMark⟩
    if ← nextIs [.blockMappingStart] then
      let t ← peekToken
      goTo .blockMappingFirstKey
      return ⟨.mappingStart anchor tagText, first, t.startMark⟩
  if anchor.isSome || tagText.isSome then
    popState
    return ⟨.scalar anchor tagText implicit false "", first, last⟩
  let t ← peekToken
  fail (some ("while parsing a " ++ (if block then "block" else "flow") ++ " node"))
    (some first) ("expected the node content, but found " ++ Text.quote t.kind.name)
    t.startMark

/-- A node in block context, by a step of its own. -/
def blockNode : ParseM Event :=
  nested (node true false)

/-- A node in block context that may be a sequence at its key's indentation, by a step of its
own. -/
def blockNodeOrIndentless : ParseM Event :=
  nested (node true true)

/-- A node in flow context, by a step of its own. -/
def flowNode : ParseM Event :=
  nested (node false false)

/-- The directives before an explicit document: at most one version, which must be 1.x, and tag
handles each declared once; the default handles are added where not declared. -/
def directives : ParseM Unit := nested do
  modify fun p => { p with tagHandles := [] }
  let rec go : Nat → Bool → ParseM Unit
    | 0, _ => pure ()
    | fuel + 1, seenVersion => do
      if !(← nextIs [.directive]) then return
      let t ← takeToken
      match t.kind with
      | .directive (.version major _) =>
        if seenVersion then fail none none "found duplicate YAML directive" t.startMark
        if major != 1 then
          fail none none "found incompatible YAML document (version 1.* is required)" t.startMark
        go fuel true
      | .directive (.tagPrefix handle pfx) =>
        if ((← get).tagHandles.lookup handle).isSome then
          fail none none ("duplicate tag handle " ++ Text.quote handle) t.startMark
        modify fun p => { p with tagHandles := p.tagHandles ++ [(handle, pfx)] }
        go fuel seenVersion
      | _ => go fuel seenVersion
  go ((← get).scanner.src.buffer.size + 1) false
  modify fun p => { p with
    tagHandles := p.tagHandles ++ defaultHandles.filter fun (h, _) => (p.tagHandles.lookup h).isNone }

/-- The start of the stream. -/
def streamStart : ParseM Event := nested do
  let t ← takeToken
  goTo .implicitDocumentStart
  return ⟨.streamStart, t.startMark, t.endMark⟩

/-- An explicit document's start, or the end of the stream. -/
def documentStart : ParseM Event := nested do
  let rec skipEnds : Nat → ParseM Unit
    | 0 => pure ()
    | fuel + 1 => do
      if ← nextIs [.documentEnd] then
        discard takeToken
        skipEnds fuel
  skipEnds ((← get).scanner.src.buffer.size + 1)
  if !(← nextIs [.streamEnd]) then
    let startMark := (← peekToken).startMark
    directives
    if !(← nextIs [.documentStart]) then
      let t ← peekToken
      fail none none ("expected '<document start>', but found " ++ Text.quote t.kind.name)
        t.startMark
    let t ← takeToken
    pushState .documentEnd
    goTo .documentContent
    return ⟨.documentStart, startMark, t.endMark⟩
  else
    let t ← takeToken
    modify fun p => { p with state := none }
    return ⟨.streamEnd, t.startMark, t.endMark⟩

/-- The start of the first document, which may be implicit. -/
def implicitDocumentStart : ParseM Event := nested do
  if !(← nextIs [.directive, .documentStart, .streamEnd]) then
    modify fun p => { p with tagHandles := defaultHandles }
    let t ← peekToken
    pushState .documentEnd
    goTo .blockNode
    return ⟨.documentStart, t.startMark, t.startMark⟩
  else documentStart

/-- The end of a document, with or without `...`. -/
def documentEnd : ParseM Event := nested do
  let startMark := (← peekToken).startMark
  let endMark ← if ← nextIs [.documentEnd] then do
      let t ← takeToken
      pure t.endMark
    else pure startMark
  goTo .documentStart
  return ⟨.documentEnd, startMark, endMark⟩

/-- The content of an explicit document: a block node, or an empty scalar. -/
def documentContent : ParseM Event := nested do
  if ← nextIs [.directive, .documentStart, .documentEnd, .streamEnd] then
    let t ← peekToken
    popState
    emptyAt t.startMark
  else blockNode

/-- An entry of a block sequence, or its end. -/
def blockSequenceEntry : ParseM Event := nested do
  if ← nextIs [.blockEntry] then
    let t ← takeToken
    if !(← nextIs [.blockEntry, .blockEnd]) then
      pushState .blockSequenceEntry
      blockNode
    else
      goTo .blockSequenceEntry
      emptyAt t.endMark
  else if !(← nextIs [.blockEnd]) then
    let t ← peekToken
    fail (some "while parsing a block collection") (← topMark)
      ("expected <block end>, but found " ++ Text.quote t.kind.name) t.startMark
  else
    let t ← takeToken
    popState
    popMark
    return ⟨.sequenceEnd, t.startMark, t.endMark⟩

/-- The first entry of a block sequence. -/
def blockSequenceFirstEntry : ParseM Event := nested do
  let t ← takeToken
  pushMark t.startMark
  blockSequenceEntry

/-- An entry of a sequence written at its key's indentation, or its end. -/
def indentlessSequenceEntry : ParseM Event := nested do
  if ← nextIs [.blockEntry] then
    let t ← takeToken
    if !(← nextIs [.blockEntry, .key, .value, .blockEnd]) then
      pushState .indentlessSequenceEntry
      blockNode
    else
      goTo .indentlessSequenceEntry
      emptyAt t.endMark
  else
    let t ← peekToken
    popState
    return ⟨.sequenceEnd, t.startMark, t.startMark⟩

/-- A key of a block mapping, or its end. -/
def blockMappingKey : ParseM Event := nested do
  if ← nextIs [.key] then
    let t ← takeToken
    if !(← nextIs [.key, .value, .blockEnd]) then
      pushState .blockMappingValue
      blockNodeOrIndentless
    else
      goTo .blockMappingValue
      emptyAt t.endMark
  else if !(← nextIs [.blockEnd]) then
    let t ← peekToken
    fail (some "while parsing a block mapping") (← topMark)
      ("expected <block end>, but found " ++ Text.quote t.kind.name) t.startMark
  else
    let t ← takeToken
    popState
    popMark
    return ⟨.mappingEnd, t.startMark, t.endMark⟩

/-- The first key of a block mapping. -/
def blockMappingFirstKey : ParseM Event := nested do
  let t ← takeToken
  pushMark t.startMark
  blockMappingKey

/-- A value of a block mapping. -/
def blockMappingValue : ParseM Event := nested do
  if ← nextIs [.value] then
    let t ← takeToken
    if !(← nextIs [.key, .value, .blockEnd]) then
      pushState .blockMappingKey
      blockNodeOrIndentless
    else
      goTo .blockMappingKey
      emptyAt t.endMark
  else
    goTo .blockMappingKey
    emptyAt (← peekToken).startMark

/-- An entry of a flow sequence, or its end; entries after the first follow a `,`. -/
def flowSequenceEntry (first : Bool) : ParseM Event := nested do
  if !(← nextIs [.flowSequenceEnd]) then
    if !first then
      if ← nextIs [.flowEntry] then discard takeToken
      else
        let t ← peekToken
        fail (some "while parsing a flow sequence") (← topMark)
          ("expected ',' or ']', but got " ++ Text.quote t.kind.name) t.startMark
    if ← nextIs [.key] then
      let t ← peekToken
      goTo .flowSequenceEntryMappingKey
      return ⟨.mappingStart none none, t.startMark, t.endMark⟩
    else if !(← nextIs [.flowSequenceEnd]) then
      pushState .flowSequenceEntry
      return ← flowNode
  let t ← takeToken
  popState
  popMark
  return ⟨.sequenceEnd, t.startMark, t.endMark⟩

/-- The first entry of a flow sequence. -/
def flowSequenceFirstEntry : ParseM Event := nested do
  let t ← takeToken
  pushMark t.startMark
  flowSequenceEntry true

/-- The key of a one-pair mapping inside a flow sequence. -/
def flowSequenceEntryMappingKey : ParseM Event := nested do
  let t ← takeToken
  if !(← nextIs [.value, .flowEntry, .flowSequenceEnd]) then
    pushState .flowSequenceEntryMappingValue
    flowNode
  else
    goTo .flowSequenceEntryMappingValue
    emptyAt t.endMark

/-- The value of a one-pair mapping inside a flow sequence. -/
def flowSequenceEntryMappingValue : ParseM Event := nested do
  if ← nextIs [.value] then
    let t ← takeToken
    if !(← nextIs [.flowEntry, .flowSequenceEnd]) then
      pushState .flowSequenceEntryMappingEnd
      flowNode
    else
      goTo .flowSequenceEntryMappingEnd
      emptyAt t.endMark
  else
    goTo .flowSequenceEntryMappingEnd
    emptyAt (← peekToken).startMark

/-- The end of a one-pair mapping inside a flow sequence. -/
def flowSequenceEntryMappingEnd : ParseM Event := nested do
  goTo .flowSequenceEntry
  let t ← peekToken
  return ⟨.mappingEnd, t.startMark, t.startMark⟩

/-- A key of a flow mapping, or its end; keys after the first follow a `,`. -/
def flowMappingKey (first : Bool) : ParseM Event := nested do
  if !(← nextIs [.flowMappingEnd]) then
    if !first then
      if ← nextIs [.flowEntry] then discard takeToken
      else
        let t ← peekToken
        fail (some "while parsing a flow mapping") (← topMark)
          ("expected ',' or '\x7d', but got " ++ Text.quote t.kind.name) t.startMark
    if ← nextIs [.key] then
      let t ← takeToken
      if !(← nextIs [.value, .flowEntry, .flowMappingEnd]) then
        pushState .flowMappingValue
        return ← flowNode
      else
        goTo .flowMappingValue
        return ← emptyAt t.endMark
    else if !(← nextIs [.flowMappingEnd]) then
      pushState .flowMappingEmptyValue
      return ← flowNode
  let t ← takeToken
  popState
  popMark
  return ⟨.mappingEnd, t.startMark, t.endMark⟩

/-- The first key of a flow mapping. -/
def flowMappingFirstKey : ParseM Event := nested do
  let t ← takeToken
  pushMark t.startMark
  flowMappingKey true

/-- A value of a flow mapping. -/
def flowMappingValue : ParseM Event := nested do
  if ← nextIs [.value] then
    let t ← takeToken
    if !(← nextIs [.flowEntry, .flowMappingEnd]) then
      pushState .flowMappingKey
      flowNode
    else
      goTo .flowMappingKey
      emptyAt t.endMark
  else
    goTo .flowMappingKey
    emptyAt (← peekToken).startMark

/-- The empty value of a flow mapping entry written without `:`. -/
def flowMappingEmptyValue : ParseM Event := nested do
  goTo .flowMappingKey
  emptyAt (← peekToken).startMark

/-- The event a state produces. -/
def step : ParseState → ParseM Event
  | .streamStart => streamStart
  | .implicitDocumentStart => implicitDocumentStart
  | .documentStart => documentStart
  | .documentEnd => documentEnd
  | .documentContent => documentContent
  | .blockNode => blockNode
  | .blockSequenceFirstEntry => blockSequenceFirstEntry
  | .blockSequenceEntry => blockSequenceEntry
  | .indentlessSequenceEntry => indentlessSequenceEntry
  | .blockMappingFirstKey => blockMappingFirstKey
  | .blockMappingKey => blockMappingKey
  | .blockMappingValue => blockMappingValue
  | .flowSequenceFirstEntry => flowSequenceFirstEntry
  | .flowSequenceEntry => flowSequenceEntry false
  | .flowSequenceEntryMappingKey => flowSequenceEntryMappingKey
  | .flowSequenceEntryMappingValue => flowSequenceEntryMappingValue
  | .flowSequenceEntryMappingEnd => flowSequenceEntryMappingEnd
  | .flowMappingFirstKey => flowMappingFirstKey
  | .flowMappingKey => flowMappingKey false
  | .flowMappingValue => flowMappingValue
  | .flowMappingEmptyValue => flowMappingEmptyValue

/-- The next event, produced by the current state if none is waiting; none after the end of the
stream. -/
def current : ParseM (Option Event) := do
  let p ← get
  match p.current with
  | some e => return some e
  | none =>
    match p.state with
    | some st =>
      let e ← step st
      modify fun p => { p with current := some e }
      return some e
    | none => return none

/-- The next event, left in place. -/
def peekEvent : ParseM (Option Event) :=
  nested current

/-- The next event, taken. -/
def nextEvent : ParseM (Option Event) := nested do
  let e ← current
  modify fun p => { p with current := none }
  return e

end Parse

end Backtest.Document.Yaml
