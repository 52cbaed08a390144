import ProcUnits.Yaml.Token

/-!
A reading position in a YAML text, with all that the text before it says about what may follow:
the open indentation levels, the open flow collections, and the places where a token may turn
out to be a mapping key.

* `Edition`: the two readings of the format. The strict one holds a text to the letter of
  YAML 1.2; the lenient one asks less of indentation and spacing and knows more line breaks;
* `Cursor`: the position; `Scan`: a step that moves it, puts out tokens or fails with a `Cause`;
* `skipLine`, `skipGap`: the blanks, comments and line breaks between tokens;
* `rollIndent`, `unrollIndent`: the start and the end of block collections;
* `saveKey`, `dropKey`, `dropStaleKeys`: the places of possible keys.
-/

namespace ProcUnits.Yaml

/-- The two readings of the format. -/
inductive Edition where
  | strict
  | lenient
  deriving DecidableEq, Repr

/-- A place where a token may turn out to be the key of a mapping. -/
structure KeySpot where
  possible : Bool := false
  /-- Nothing but a key can stand there. -/
  required : Bool := false
  /-- The number of tokens before it. -/
  tokens : Nat := 0
  index : Nat := 0
  line : Nat := 0
  column : Nat := 0
  deriving Repr

/-- An open indentation level: the level around it, and whether it is a block collection. -/
structure Level where
  outer : Int
  isBlock : Bool
  deriving Repr

/-- A reading position and its context. -/
structure Cursor where
  edition : Edition
  rest : List Char
  index : Nat := 0
  line : Nat := 0
  column : Nat := 0
  /-- Only blanks precede on this line. -/
  atLineStart : Bool := true
  /-- The tokens so far, each with its column. -/
  tokens : Array (Token × Nat) := #[]
  /-- Where a value may follow its key without a blank. -/
  adjacentAt : Option Nat := none
  /-- The next token may be a key. -/
  keyAllowed : Bool := true
  /-- The possible keys, one for each open flow collection and one for the block around them. -/
  keys : List KeySpot := [{}]
  indent : Int := -1
  levels : List Level := []
  flowDepth : Nat := 0
  /-- The mapping of the next pair in a flow collection has already been put out. -/
  mappingStarted : Bool := false
  /-- A pair without braces is open in a flow collection. -/
  pairOpen : Bool := false
  deriving Repr

/-- A step of reading. -/
abbrev Scan := StateT Cursor (Except Cause)

/-! ### Characters -/

def isBreak : Edition → Char → Bool
  | .strict, c => c == '\n' || c == '\r'
  | .lenient, c =>
    c == '\n' || c == '\r' || c == '\u0085' || c == '\u2028' || c == '\u2029'

def isSpaceOrTab (c : Char) : Bool := c == ' ' || c == '\t'

/-- The indicators of flow collections. -/
def isFlow (c : Char) : Bool := c == ',' || c == '[' || c == ']' || c == '{' || c == '}'

/-- The characters of handles and directive names. -/
def isNameChar (c : Char) : Bool := c.isAlphanum || c == '_' || c == '-'

/-- The `k`th character from here, if the text goes on that far. -/
def Cursor.peek (cur : Cursor) (k : Nat) : Option Char := cur.rest[k]?

/-- The text ends here, or the line does. -/
def Cursor.endsLine (cur : Cursor) (k : Nat) : Bool :=
  match cur.peek k with
  | none => true
  | some c => isBreak cur.edition c

/-- A blank follows, or the line ends. -/
def Cursor.endsWord (cur : Cursor) (k : Nat) : Bool :=
  match cur.peek k with
  | none => true
  | some c => isSpaceOrTab c || isBreak cur.edition c

/-- The character is there and is one of the class. -/
def Cursor.has (cur : Cursor) (k : Nat) (p : Char → Bool) : Bool := (cur.peek k).any p

/-- Steps over a space or a tab. -/
def Cursor.skipBlank (cur : Cursor) : Cursor :=
  { cur with rest := cur.rest.tail, index := cur.index + 1, column := cur.column + 1 }

/-- Steps over a character that is neither blank nor a line break. -/
def Cursor.skip (cur : Cursor) : Cursor := { cur.skipBlank with atLineStart := false }

/-- Steps over several of them. -/
def Cursor.skipMany (cur : Cursor) : Nat → Cursor
  | 0 => cur
  | n + 1 => cur.skip.skipMany n

/-- Steps over a line break, of which a carriage return with a line feed is one. -/
def Cursor.skipBreak (cur : Cursor) : Cursor :=
  let n := if cur.has 0 (· == '\r') && cur.has 1 (· == '\n') then 2 else 1
  { cur with
    rest := cur.rest.drop n, index := cur.index + n, line := cur.line + 1, column := 0
    atLineStart := true }

/-- A marker of a document's start or end stands here, at the beginning of a line. -/
def Cursor.atMarker (cur : Cursor) (c : Char) : Bool :=
  cur.column == 0 && cur.has 0 (· == c) && cur.has 1 (· == c) && cur.has 2 (· == c)
    && cur.endsWord 3

/-- A marker of either kind stands here. -/
def Cursor.atDocumentMarker (cur : Cursor) : Bool := cur.atMarker '-' || cur.atMarker '.'

/-! ### Gaps between tokens -/

/-- Steps over the rest of the line. -/
def skipComment : Nat → Cursor → Cursor
  | 0, cur => cur
  | n + 1, cur => if cur.endsLine 0 then cur else skipComment n cur.skip

/-- What was found between a token and the rest of its line. -/
structure LineGap where
  tab : Bool := false
  space : Bool := false

/-- Steps over blanks and a comment up to the next token or the end of the line; over tabs only
if `tabs`. -/
def skipLineFrom (tabs : Bool) : Nat → LineGap → Scan LineGap
  | 0, gap => pure gap
  | n + 1, gap => do
    let cur ← get
    match cur.peek 0 with
    | some ' ' =>
      set cur.skipBlank
      skipLineFrom tabs n { gap with space := true }
    | some '\t' =>
      if tabs then
        set cur.skipBlank
        skipLineFrom tabs n { gap with tab := true }
      else pure gap
    | some '#' =>
      if cur.edition == .strict && !gap.tab && !gap.space then throw .comment
      set (skipComment cur.rest.length cur)
      pure gap
    | _ => pure gap

/-- Steps over blanks and a comment up to the next token or the end of the line. -/
def skipLine (tabs : Bool) : Scan LineGap := do
  skipLineFrom tabs ((← get).rest.length + 1) {}

/-- Steps over all that may stand between two tokens. In a block a new line may start a key,
and a tab cannot stand for its indentation. In the lenient reading a line may begin with a byte
order mark. -/
def skipGapFrom : Nat → Scan Unit
  | 0 => pure ()
  | n + 1 => do
    let cur ← get
    match cur.peek 0 with
    | some ' ' =>
      set cur.skipBlank
      skipGapFrom n
    | some '\t' =>
      if cur.edition == .lenient then
        if 0 < cur.flowDepth || !cur.keyAllowed then
          set cur.skipBlank
          skipGapFrom n
        else throw .tab
      else if !cur.levels.isEmpty && cur.atLineStart && (cur.column : Int) < cur.indent then
        let _ ← skipLine true
        if !(← get).endsLine 0 then throw .tab
        skipGapFrom n
      else
        set cur.skipBlank
        skipGapFrom n
    | some '#' =>
      set (skipComment cur.rest.length cur)
      skipGapFrom n
    | some c =>
      if c == '\uFEFF' && cur.column == 0 && cur.edition == .lenient then
        set cur.skip
        skipGapFrom n
      else if isBreak cur.edition c then
        let next := cur.skipBreak
        set (if cur.flowDepth == 0 then { next with keyAllowed := true } else next)
        skipGapFrom n
      else pure ()
    | none => pure ()

/-- Steps over all that may stand between two tokens. -/
def skipGap : Scan Unit := do skipGapFrom ((← get).rest.length + 1)

/-! ### Tokens -/

/-- Puts out a token that starts at a column. -/
def emitAt (t : Token) (column : Nat) : Scan Unit :=
  modify fun cur => { cur with tokens := cur.tokens.push (t, column) }

/-- Puts out a token that starts here. -/
def emit (t : Token) : Scan Unit := do emitAt t (← get).column

/-- Puts a token before those that stand from number `n` on. -/
def insertAt (n : Nat) (t : Token) (column : Nat) : Scan Unit :=
  modify fun cur => { cur with
    tokens := (cur.tokens.extract 0 n).push (t, column) ++ cur.tokens.extract n cur.tokens.size }

/-! ### Indentation -/

/-- Opens a block collection at a column, if it is deeper than the indentation around it. The
token goes to the place `number`, or to the end. -/
def rollIndent (column : Nat) (number : Option Nat) (t : Token) : Scan Unit := do
  let cur ← get
  if 0 < cur.flowDepth then return
  let cur :=
    match cur.levels with
    | l :: ls =>
      if cur.indent ≤ (column : Int) && !l.isBlock then { cur with indent := l.outer, levels := ls }
      else cur
    | [] => cur
  if cur.indent < (column : Int) then
    set { cur with levels := ⟨cur.indent, true⟩ :: cur.levels, indent := (column : Int) }
    match number with
    | some n => insertAt n t column
    | none => emitAt t column
  else set cur

/-- Closes the collections that are indented deeper than a column. -/
def unrollLevels (column : Int) : List Level → Cursor → Cursor
  | [], cur => cur
  | l :: ls, cur =>
    if column < cur.indent then
      unrollLevels column ls
        { cur with
          indent := l.outer, levels := ls
          tokens := if l.isBlock then cur.tokens.push (.blockEnd, cur.column) else cur.tokens }
    else cur

/-- Closes the collections that are indented deeper than a column. -/
def unrollIndent (column : Int) : Scan Unit :=
  modify fun cur => if 0 < cur.flowDepth then cur else unrollLevels column cur.levels cur

/-- Asks one more column of what follows a key or a dash, without opening a collection. -/
def rollOneColumn : Scan Unit :=
  modify fun cur =>
    if cur.edition == .strict && cur.flowDepth == 0 && cur.levels.head?.any (·.isBlock) then
      { cur with levels := ⟨cur.indent, false⟩ :: cur.levels, indent := cur.indent + 1 }
    else cur

/-- Drops the levels on top that are no collections. -/
def unrollBare : List Level → Cursor → Cursor
  | [], cur => cur
  | l :: ls, cur =>
    if l.isBlock then cur else unrollBare ls { cur with indent := l.outer, levels := ls }

/-- Drops the levels on top that are no collections. -/
def unrollOneColumns : Scan Unit := modify fun cur => unrollBare cur.levels cur

/-! ### Possible keys -/

def allowKey : Scan Unit := modify fun cur => { cur with keyAllowed := true }

def disallowKey : Scan Unit := modify fun cur => { cur with keyAllowed := false }

/-- Remembers that the next token may be a key. -/
def saveKey : Scan Unit :=
  modify fun cur =>
    if cur.keyAllowed then
      let required := cur.flowDepth == 0 && cur.indent == (cur.column : Int)
        && cur.levels.head?.any (·.isBlock)
      { cur with keys :=
        { possible := true, required, tokens := cur.tokens.size, index := cur.index,
          line := cur.line, column := cur.column } :: cur.keys.tail }
    else cur

/-- Gives up the possible key of the innermost collection. -/
def dropKey : Scan Unit := do
  let cur ← get
  match cur.keys with
  | [] => pure ()
  | k :: ks =>
    if k.possible && k.required then throw .missingColon
    set { cur with keys := { k with possible := false } :: ks }

/-- Gives up the possible keys that lie too far back: on another line, or more than 1024
characters away. In a flow collection the strict reading lets keys be as long as they are. -/
def dropStaleKeys : Scan Unit := do
  let cur ← get
  let keys ← cur.keys.mapM fun k => do
    if k.possible && (cur.flowDepth == 0 || cur.edition == .lenient)
        && (k.line < cur.line || k.index + 1024 < cur.index) then
      if k.required then throw .missingColon
      pure { k with possible := false }
    else pure k
  set { cur with keys }

end ProcUnits.Yaml
