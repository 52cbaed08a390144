import ProcUnits.Yaml.Cursor

/-!
Scalars: the texts that quoted, plain and block scalars stand for.

Inside a quoted or a plain scalar blanks at the ends of a line vanish, a single line break
stands for a space, and of several the first one vanishes; `Folding` keeps what has been read
since the last word. A block scalar keeps its lines; what its last line breaks stand for is
decided by its `Chomping`.
-/

namespace ProcUnits.Yaml

/-- The character that a line break stands for. -/
def breakChar (c : Char) : Char := if c == '\u2028' || c == '\u2029' then c else '\n'

/-- Steps over a line break and gives what it stands for. -/
def readBreak : Scan Char := do
  let cur ← get
  set cur.skipBreak
  pure (breakChar ((cur.peek 0).getD '\n'))

/-! ### Folding -/

/-- Blanks and line breaks after a word. -/
structure Folding where
  /-- The blanks, as long as no line break follows them. -/
  blanks : String := ""
  /-- The first line break. -/
  first : String := ""
  /-- The line breaks after it. -/
  more : String := ""
  /-- A line break was read. -/
  broken : Bool := false

/-- What the blanks and line breaks between two words stand for. -/
def Folding.text (f : Folding) : String :=
  if !f.broken then f.blanks
  else if f.first == "\n" then if f.more.isEmpty then " " else f.more
  else f.first ++ f.more

/-- Reads blanks and line breaks. A tab left of the column `indent` is an error; in a plain
scalar of the strict reading it is one only on a line that has more on it than a comment, and the
break of a line with a comment stands for nothing. -/
def readFolding (indent : Int) (plain : Bool) : Nat → Folding → Scan Folding
  | 0, f => pure f
  | n + 1, f => do
    let cur ← get
    match cur.peek 0 with
    | none => pure f
    | some c =>
      if isSpaceOrTab c then
        if !f.broken then
          set cur.skipBlank
          readFolding indent plain n { f with blanks := f.blanks.push c }
        else if c == '\t' && (cur.column : Int) < indent
            && (plain || cur.edition == .strict) then
          if plain && cur.edition == .strict then
            let _ ← skipLine true
            if !(← get).endsLine 0 then throw .tab
            readFolding indent plain n f
          else throw .tab
        else
          set cur.skipBlank
          readFolding indent plain n f
      else if isBreak cur.edition c then
        let b ← readBreak
        if f.broken then
          readFolding indent plain n
            (if cur.atLineStart then { f with more := f.more.push b } else f)
        else
          readFolding indent plain n
            { f with blanks := "", first := String.singleton b, broken := true }
      else pure f

/-! ### Quoted scalars -/

/-- The character that a letter after a backslash stands for. -/
def escapedChar : Char → Option Char
  | '0' => some '\x00'
  | 'a' => some '\x07'
  | 'b' => some '\x08'
  | 't' => some '\t'
  | '\t' => some '\t'
  | 'n' => some '\n'
  | 'v' => some '\x0b'
  | 'f' => some '\x0c'
  | 'r' => some '\r'
  | 'e' => some '\x1b'
  | ' ' => some ' '
  | '"' => some '"'
  | '/' => some '/'
  | '\\' => some '\\'
  | 'N' => some '\u0085'
  | '_' => some '\u00a0'
  | 'L' => some '\u2028'
  | 'P' => some '\u2029'
  | _ => none

/-- How many digits follow a letter that announces the number of a character. -/
def escapeLength : Char → Option Nat
  | 'x' => some 2
  | 'u' => some 4
  | 'U' => some 8
  | _ => none

/-- The value of a hexadecimal digit. -/
def hexValue (c : Char) : Option Nat :=
  if c.isDigit then some (c.toNat - '0'.toNat)
  else if 'a' ≤ c ∧ c ≤ 'f' then some (c.toNat - 'a'.toNat + 10)
  else if 'A' ≤ c ∧ c ≤ 'F' then some (c.toNat - 'A'.toNat + 10)
  else none

/-- The number that digits are the numeral of. -/
def hexNumber (digits : List Char) : Option Nat :=
  digits.foldlM (fun n c => (hexValue c).map (n * 16 + ·)) 0

/-- Reads an escape sequence other than an escaped line break. -/
def readEscape : Scan Char := do
  let cur ← get
  match cur.peek 1 with
  | none => throw .escape
  | some c =>
    match escapedChar c with
    | some d =>
      set (cur.skipMany 2)
      pure d
    | none =>
      match escapeLength c with
      | none => throw .escape
      | some n =>
        let digits := (cur.rest.drop 2).take n
        match (if digits.length == n then hexNumber digits else none) with
        | none => throw .escape
        | some v =>
          if v.isValidChar then
            set (cur.skipMany (2 + n))
            pure (Char.ofNat v)
          else throw .escape

/-- Reads characters up to a blank, a line break or the closing quote. The flag tells that the
last one was an escaped line break. -/
def readQuotedWord (single : Bool) : Nat → String → Scan (String × Bool)
  | 0, s => pure (s, false)
  | n + 1, s => do
    let cur ← get
    if cur.endsWord 0 then return (s, false)
    let c := (cur.peek 0).getD ' '
    if single then
      if c == '\'' then
        if cur.has 1 (· == '\'') then
          set (cur.skipMany 2)
          readQuotedWord single n (s.push '\'')
        else pure (s, false)
      else
        set cur.skip
        readQuotedWord single n (s.push c)
    else if c == '"' then pure (s, false)
    else if c == '\\' then
      if cur.has 1 (isBreak cur.edition) then
        set cur.skip.skipBreak
        pure (s, true)
      else
        let d ← readEscape
        readQuotedWord single n (s.push d)
    else
      set cur.skip
      readQuotedWord single n (s.push c)

/-- Reads a quoted scalar from after its opening quote to before its closing one. -/
def readQuotedFrom (single : Bool) : Nat → String → Scan String
  | 0, _ => throw .unclosedQuote
  | n + 1, s => do
    let cur ← get
    if cur.atDocumentMarker || (cur.peek 0).isNone then throw .unclosedQuote
    if cur.edition == .strict && (cur.column : Int) < cur.indent then throw .indentation
    let (s, escapedBreak) ← readQuotedWord single (cur.rest.length + 1) s
    let cur ← get
    if cur.has 0 (· == if single then '\'' else '"') then return s
    let folding ← readFolding cur.indent false (cur.rest.length + 1) { broken := escapedBreak }
    readQuotedFrom single n (s ++ folding.text)

/-- Reads a quoted scalar with both quotes. The strict reading looks at what follows it: on the
same line that can only be a comment, the colon after a key, or the next token of a flow
collection. -/
def readQuoted (single : Bool) : Scan String := do
  let start ← get
  set start.skip
  let s ← readQuotedFrom single (start.rest.length + 1) ""
  modify Cursor.skip
  if start.edition == .strict then
    let _ ← skipLine true
    let cur ← get
    let inFlow := 0 < cur.flowDepth
    let ok :=
      cur.endsLine 0
        || (inFlow && cur.has 0 fun c => c == ',' || c == '}' || c == ']' || c == ':')
        || (!inFlow && cur.has 0 (· == ':') && start.line == cur.line)
    if !ok then throw .trailing
  pure s

/-! ### Plain scalars -/

/-- The character can belong to a plain scalar: it is no colon that ends a key and, in a flow
collection, no indicator of it. -/
def Cursor.isPlain (cur : Cursor) : Bool :=
  match cur.peek 0 with
  | none => false
  | some c =>
    let inFlow := 0 < cur.flowDepth
    if c == ':' && (cur.endsWord 1 || (inFlow && cur.edition == .strict && cur.has 1 isFlow)) then
      false
    else !(inFlow && isFlow c)

/-- Reads the characters of a plain scalar up to a blank or a line break. -/
def readPlainWord : Nat → String → Scan String
  | 0, s => pure s
  | n + 1, s => do
    let cur ← get
    if cur.endsWord 0 then return s
    if cur.edition == .lenient && 0 < cur.flowDepth && cur.has 0 (· == ':')
        && cur.has 1 (fun c => isFlow c || c == '?') then throw .context
    if !cur.isPlain then return s
    set cur.skip
    readPlainWord n (s.push ((cur.peek 0).getD ' '))

/-- Reads the words of a plain scalar and folds what is between them. `indent` is the least
column of its lines. -/
def readPlainFrom (indent : Int) : Nat → String → Folding → Scan (String × Bool)
  | 0, s, f => pure (s, f.broken)
  | n + 1, s, f => do
    let cur ← get
    if cur.atDocumentMarker || cur.has 0 (· == '#') then return (s, f.broken)
    if cur.edition == .strict && 0 < cur.flowDepth && cur.has 0 (· == '-')
        && cur.has 1 isFlow then throw .context
    let word ← readPlainWord (cur.rest.length + 1) ""
    let (s, f) := if word.isEmpty then (s, f) else (s ++ f.text ++ word, {})
    let cur ← get
    if !cur.has 0 (fun c => isSpaceOrTab c || isBreak cur.edition c) then return (s, f.broken)
    let f ← readFolding indent true (cur.rest.length + 1) f
    let cur ← get
    if cur.flowDepth == 0 && (cur.column : Int) < indent then return (s, f.broken)
    readPlainFrom indent n s f

/-- Reads a plain scalar. After a line break a key may follow it. -/
def readPlain : Scan String := do
  unrollOneColumns
  let start ← get
  let indent := start.indent + 1
  if start.edition == .strict && 0 < start.flowDepth && (start.column : Int) < indent then
    throw .indentation
  let (s, broken) ← readPlainFrom indent (start.rest.length + 1) "" {}
  if broken then allowKey
  if s.isEmpty then throw .context
  pure s

/-! ### Block scalars -/

/-- What becomes of the line breaks at the end of a block scalar. -/
inductive Chomping where
  | clip
  | strip
  | keep
  deriving DecidableEq, Repr

/-- Steps over spaces up to a column, or over all of them. -/
def skipSpaces (limit : Option Nat) : Nat → Cursor → Cursor
  | 0, cur => cur
  | n + 1, cur =>
    if limit.all (cur.column < ·) && cur.has 0 (· == ' ') then skipSpaces limit n cur.skipBlank
    else cur

/-- Reads empty lines before a line of a block scalar, up to the indentation of that line if it
is known. The second result is the deepest column reached. -/
def readBlockGap (indent : Option Nat) : Nat → String → Nat → Scan (String × Nat)
  | 0, breaks, deepest => pure (breaks, deepest)
  | n + 1, breaks, deepest => do
    let cur := skipSpaces indent ((← get).rest.length + 1) (← get)
    set cur
    let deepest := max deepest cur.column
    if cur.edition == .lenient && indent.all (cur.column < ·) && cur.has 0 (· == '\t') then
      throw .tab
    if cur.has 0 (isBreak cur.edition) then
      let b ← readBreak
      readBlockGap indent n (breaks.push b) deepest
    else pure (breaks, deepest)

/-- Reads the rest of a line. -/
def readLine : Nat → String → Scan String
  | 0, s => pure s
  | n + 1, s => do
    let cur ← get
    if cur.endsLine 0 then return s
    set cur.skip
    readLine n (s.push ((cur.peek 0).getD ' '))

/-- What has been read of a block scalar. -/
structure Block where
  text : String := ""
  /-- The break that ends the last line. -/
  last : String := ""
  /-- The empty lines after it. -/
  more : String := ""
  /-- The last line began with a blank, so that its break is not folded. -/
  blankLine : Bool := false

/-- Reads the lines of a block scalar that start at a column. -/
def readBlockLines (literal : Bool) (indent : Nat) : Nat → Block → Scan Block
  | 0, b => pure b
  | n + 1, b => do
    let cur ← get
    if cur.column != indent || (cur.peek 0).isNone then return b
    if indent == 0 && cur.atMarker '.' && cur.edition == .strict then return b
    let blank := cur.has 0 isSpaceOrTab
    let folded := !literal && b.last == "\n" && !b.blankLine && !blank
    let joint := if folded then if b.more.isEmpty then " " else "" else b.last
    let text ← readLine (cur.rest.length + 1) (b.text ++ joint ++ b.more)
    let cur ← get
    if (cur.peek 0).isNone then return { text, blankLine := blank }
    let last := String.singleton (← readBreak)
    let (more, _) ← readBlockGap (some indent) (cur.rest.length + 1) "" 0
    readBlockLines literal indent n { text, last, more, blankLine := blank }

/-- Reads the indicators after `|` or `>`: a chomping indicator and an indentation from 1 to 9,
in either order. -/
def readBlockHeader : Scan (Chomping × Nat) := do
  let chomping : Scan (Option Chomping) := do
    let cur ← get
    if cur.has 0 (· == '+') then set cur.skip; pure (some .keep)
    else if cur.has 0 (· == '-') then set cur.skip; pure (some .strip)
    else pure none
  let increment : Scan (Option Nat) := do
    let cur ← get
    match cur.peek 0 with
    | some c =>
      if c.isDigit then
        if c == '0' then throw .indentation
        set cur.skip
        pure (some (c.toNat - '0'.toNat))
      else pure none
    | none => pure none
  match ← chomping with
  | some ch => pure (ch, (← increment).getD 0)
  | none =>
    match ← increment with
    | some i => pure ((← chomping).getD .clip, i)
    | none => pure (.clip, 0)

/-- Reads a block scalar. -/
def readBlock (literal : Bool) : Scan String := do
  let start ← get
  set start.skip
  unrollOneColumns
  let (chomping, increment) ← readBlockHeader
  if start.edition == .strict then
    let _ ← skipLine true
  else
    let blanks := (← get).rest.takeWhile isSpaceOrTab
    modify fun cur => blanks.foldl (fun cur _ => cur.skipBlank) cur
    modify fun cur => if cur.has 0 (· == '#') then skipComment cur.rest.length cur else cur
  if !(← get).endsLine 0 then throw .trailing
  let headBreak ← if ((← get).peek 0).isSome then String.singleton <$> readBreak else pure ""
  let cur ← get
  if start.edition == .strict && cur.has 0 (· == '\t') then throw .tab
  let fuel := cur.rest.length + 1
  let level := cur.indent
  let (indent, more) ← do
    if 0 < increment then
      let indent := if 0 ≤ level then level.toNat + increment else increment
      let (more, _) ← readBlockGap (some indent) fuel "" 0
      pure (indent, more)
    else
      let (more, deepest) ← readBlockGap none fuel "" 0
      let least := if start.edition == .lenient || 0 < level then 1 else 0
      pure (max (max deepest (level + 1).toNat) least, more)
  let cur ← get
  if start.edition == .strict then
    if (cur.peek 0).isNone then
      return match chomping with
        | .strip => ""
        | .clip => if cur.line == start.line then "" else headBreak
        | .keep =>
          if cur.line == start.line then "" else if more.isEmpty then headBreak else more
    if cur.column < indent && level < (cur.column : Int) then throw .indentation
  let b ← readBlockLines literal indent fuel { more }
  let cur ← get
  let ending :=
    if start.edition == .strict && (cur.peek 0).isNone && max indent 1 ≤ cur.column then "\n"
    else ""
  pure <| match chomping with
    | .strip => b.text
    | .clip => b.text ++ b.last ++ ending
    | .keep => b.text ++ b.last ++ ending ++ b.more

end ProcUnits.Yaml
