import ProcUnits.Yaml.Token.Name
import ProcUnits.Yaml.Token.Scalar

/-!
Cutting a text into tokens.

`Token.scan` reads one token after another. What kind of token follows is decided by the next
character or two; a key shows itself only by the colon after it, so the tokens of a mapping's
start and of the key are put in afterwards, before the token that turned out to be the key.
-/

namespace ProcUnits.Yaml

/-! ### One token -/

/-- Reads the end of the text. -/
def fetchEnd : Scan Unit := do
  modify fun cur => { cur with column := 0 }
  if (← get).keys.any fun k => k.required && k.possible then throw .missingColon
  unrollIndent (-1)
  dropKey
  disallowKey
  emit .streamEnd

/-- Reads a document marker. In the strict reading nothing else stands on the line of an
end marker. -/
def fetchMarker (t : Token) : Scan Unit := do
  unrollIndent (-1)
  dropKey
  disallowKey
  emit t
  modify (·.skipMany 3)
  if t == .documentEnd && (← get).edition == .strict then
    let _ ← skipLine true
    if !(← get).endsLine 0 then throw .trailing

/-- In the strict reading, steps over what follows on the line of an indicator. -/
def skipAfterIndicator : Scan Unit := do
  if (← get).edition == .strict then
    let _ ← skipLine true

/-- Ends the pair without braces that is open in a flow collection. -/
def endPair : Scan Unit := do
  let cur ← get
  if cur.pairOpen then
    set { cur with pairOpen := false, mappingStarted := false }
    emit .flowMappingEnd

/-- Reads an opening bracket or brace. -/
def fetchFlowStart (t : Token) : Scan Unit := do
  saveKey
  rollOneColumn
  let cur ← get
  if cur.edition == .strict && 255 ≤ cur.flowDepth then throw .depth
  set { cur with
    keys := {} :: cur.keys, flowDepth := cur.flowDepth + 1, keyAllowed := true
    mappingStarted := cur.mappingStarted || t == Token.flowMappingStart }
  emit t
  modify Cursor.skip
  skipAfterIndicator

/-- Reads a closing bracket or brace. -/
def fetchFlowEnd (t : Token) : Scan Unit := do
  dropKey
  modify fun cur =>
    if 0 < cur.flowDepth then
      { cur with flowDepth := cur.flowDepth - 1, keys := cur.keys.tail }
    else cur
  disallowKey
  endPair
  let column := (← get).column
  modify Cursor.skip
  skipAfterIndicator
  modify fun cur => if 0 < cur.flowDepth then { cur with adjacentAt := some cur.index } else cur
  emitAt t column

/-- Reads a comma. -/
def fetchFlowEntry : Scan Unit := do
  dropKey
  allowKey
  endPair
  emit .flowEntry
  modify Cursor.skip
  skipAfterIndicator

/-- Reads the dash of a block sequence. -/
def fetchBlockEntry : Scan Unit := do
  let cur ← get
  if 0 < cur.flowDepth then throw .context
  if !cur.keyAllowed then throw .context
  if cur.edition == .strict then
    match cur.tokens.back? with
    | some (.anchor _, 0) | some (.tag _, 0) =>
      if cur.column == 0 && -1 < cur.indent then throw .indentation
    | _ => pure ()
  set cur.skip
  rollIndent cur.column none .blockSequenceStart
  if cur.edition == .strict then
    let gap ← skipLine true
    let next ← get
    if gap.tab && next.has 0 (· == '-') && next.endsWord 1 then throw .tab
    let _ ← skipLine false
    let next ← get
    if next.has 0 (fun c => isBreak next.edition c || isFlow c) then rollOneColumn
  dropKey
  allowKey
  emitAt .blockEntry cur.column

/-- Steps over spaces, line breaks and comments. The result says whether a space or a line break
was among them, apart from what `separated` says of those before. -/
def skipSpacing : Nat → Bool → Scan Bool
  | 0, separated => pure separated
  | n + 1, separated => do
    let cur ← get
    match cur.peek 0 with
    | some ' ' =>
      set cur.skipBlank
      skipSpacing n true
    | some '#' =>
      set (skipComment cur.rest.length cur)
      skipSpacing n separated
    | some c =>
      if isBreak cur.edition c then
        set cur.skipBreak
        if cur.flowDepth == 0 then allowKey
        skipSpacing n true
      else pure separated
    | none => pure separated

/-- Reads a question mark, which announces a key. In the strict reading a space or a line break
separates it from the key. -/
def fetchKey : Scan Unit := do
  let cur ← get
  if cur.flowDepth == 0 then
    if !cur.keyAllowed then throw .context
    rollIndent cur.column none .blockMappingStart
  else modify fun cur => { cur with mappingStarted := true }
  dropKey
  if cur.flowDepth == 0 then allowKey else disallowKey
  modify Cursor.skip
  if cur.edition == .strict then
    let separated ← skipSpacing ((← get).rest.length + 1) false
    if !separated then throw .trailing
    if (← get).has 0 (· == '\t') then throw .tab
  emitAt .key cur.column

/-- Reads a colon, which ends a key. If a key stands before it, the tokens of the key and of
its mapping's start go before that. In the strict reading a pair without braces in a flow
collection is a mapping of its own: it ends at the next comma, closing bracket or closing brace,
unless another colon comes before that and takes no mapping of its own. -/
def fetchValue : Scan Unit := do
  let cur ← get
  let spot := cur.keys.head?.getD {}
  let single := cur.edition == .strict && 0 < cur.flowDepth && !cur.mappingStarted
  set { cur with pairOpen := single }
  modify Cursor.skip
  if cur.edition == .strict && (← get).has 0 (· == '\t') then
    let gap ← skipLine true
    if !gap.space && (← get).has 0 (fun c => c == '-' || isNameChar c) then throw .tab
  if spot.possible then
    insertAt spot.tokens .key spot.column
    if single then
      if spot.line < cur.line then throw .context
      insertAt spot.tokens .flowMappingStart spot.column
    rollIndent spot.column (some spot.tokens) .blockMappingStart
    rollOneColumn
    modify fun cur => { cur with
      keys := { spot with possible := false } :: cur.keys.tail, keyAllowed := false }
  else
    if single then emit .flowMappingStart
    if cur.flowDepth == 0 then
      if !cur.keyAllowed then throw .context
      rollIndent cur.column none .blockMappingStart
    rollOneColumn
    if cur.flowDepth == 0 then allowKey else disallowKey
  emitAt .value cur.column

/-- Reads a token that may be a key and leaves no room for another one. -/
def fetchNode (read : Scan Token) : Scan Unit := do
  saveKey
  disallowKey
  let column := (← get).column
  emitAt (← read) column

/-- Reads a quoted scalar. A value may follow it without a blank in a flow collection. -/
def readQuotedToken (single : Bool) : Scan Token := do
  let s ← readQuoted single
  if (← get).edition == .strict then skipGap
  modify fun cur => { cur with adjacentAt := some cur.index }
  pure (.scalar (if single then .singleQuoted else .doubleQuoted) s)

/-- Reads the token that starts with a character. -/
def fetchAt (c : Char) : Scan Unit := do
  let cur ← get
  let inFlow := 0 < cur.flowDepth
  let lenient := cur.edition == .lenient
  if c == '[' then fetchFlowStart .flowSequenceStart
  else if c == '{' then fetchFlowStart .flowMappingStart
  else if c == ']' then fetchFlowEnd .flowSequenceEnd
  else if c == '}' then fetchFlowEnd .flowMappingEnd
  else if c == ',' then fetchFlowEntry
  else if c == '-' && cur.endsWord 1 then fetchBlockEntry
  else if c == '?' && (cur.endsWord 1 || (lenient && inFlow)) then fetchKey
  else if c == ':' && (cur.endsWord 1
      || (inFlow && (lenient || cur.has 1 isFlow || cur.adjacentAt == some cur.index))) then
    fetchValue
  else if c == '*' then fetchNode do pure (.alias (← readAnchor))
  else if c == '&' then fetchNode do pure (.anchor (← readAnchor))
  else if c == '!' then fetchNode do pure (.tag (← readTag))
  else if (c == '|' || c == '>') && !inFlow then
    saveKey
    allowKey
    let s ← readBlock (c == '|')
    emitAt (.scalar (if c == '|' then .literal else .folded) s) cur.column
  else if c == '\'' then fetchNode (readQuotedToken true)
  else if c == '"' then fetchNode (readQuotedToken false)
  else if c == '%' || c == '@' || c == '\x60' then throw (.character c)
  else if lenient && (c == '|' || c == '>') then throw (.character c)
  else
    saveKey
    disallowKey
    let s ← readPlain
    emitAt (.scalar .plain s) cur.column

/-- Reads the next token. The result says whether there may be more. -/
def fetch : Scan Bool := do
  skipGap
  dropStaleKeys
  unrollIndent (← get).column
  let cur ← get
  match cur.peek 0 with
  | none =>
    fetchEnd
    pure false
  | some c =>
    if cur.column == 0 && c == '%' then
      unrollIndent (-1)
      dropKey
      disallowKey
      readDirective
    else if cur.atMarker '-' then fetchMarker .documentStart
    else if cur.atMarker '.' then fetchMarker .documentEnd
    else
      if cur.edition == .strict && (cur.column : Int) < cur.indent then throw .indentation
      fetchAt c
    pure true

/-- Reads the tokens to the end. -/
def fetchAll : Nat → Scan Unit
  | 0 => pure ()
  | n + 1 => do if ← fetch then fetchAll n

/-- A character that the lenient reading takes. -/
def isPrintable (c : Char) : Bool :=
  let n := c.toNat
  n == 0x09 || n == 0x0A || n == 0x0D || (0x20 ≤ n && n ≤ 0x7E) || n == 0x85
    || (0xA0 ≤ n && n ≤ 0xD7FF) || (0xE000 ≤ n && n ≤ 0xFFFD) || 0x10000 ≤ n

/-- The tokens of a text. In the strict reading a text ends before its first NUL; in the
lenient one such characters are refused and a byte order mark may open the text. Each token
takes at least one character, so their number is bounded by the length of the text. -/
def Token.scan (edition : Edition) (text : List Char) : Except Cause (List Token) := do
  let text ←
    match edition with
    | .strict => pure (text.takeWhile (· != '\x00'))
    | .lenient =>
      match text.find? (!isPrintable ·) with
      | some c => throw (.character c)
      | none => pure (if text.head? == some '\uFEFF' then text.tail else text)
  let (_, cur) ← (fetchAll (2 * text.length + 4)).run { edition, rest := text }
  pure (cur.tokens.toList.map (·.1))

end ProcUnits.Yaml
