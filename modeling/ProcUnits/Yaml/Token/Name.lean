import ProcUnits.Text.Utf8
import ProcUnits.Yaml.Token.Scalar

/-!
Names: what a text calls its nodes and their types by.

* `readAnchor`: the name of an anchor or an alias;
* `readTag`: a tag, in whose suffix octets may be escaped;
* `readDirective`: a line that gives the version of the format, or says what a handle of tags
  stands for.
-/

namespace ProcUnits.Yaml

/-! ### Characters of a class -/

/-- Reads characters of a class. -/
def readWhile (p : Char → Bool) : Nat → String → Scan String
  | 0, s => pure s
  | n + 1, s => do
    let cur ← get
    match cur.peek 0 with
    | some c =>
      if p c then
        set cur.skip
        readWhile p n (s.push c)
      else pure s
    | none => pure s

/-- Reads characters of a class. -/
def readName (p : Char → Bool) : Scan String := do readWhile p ((← get).rest.length + 1) ""

/-! ### Anchors -/

/-- The characters of an anchor's name: all but blanks, line breaks, flow indicators and the byte
order mark in the strict reading, letters and digits in the lenient one. -/
def isAnchorChar (e : Edition) (c : Char) : Bool :=
  match e with
  | .strict => !(isSpaceOrTab c || isBreak e c || isFlow c || c == '\uFEFF')
  | .lenient => isNameChar c

/-- Reads an anchor or an alias. -/
def readAnchor : Scan String := do
  modify Cursor.skip
  let name ← readName (isAnchorChar (← get).edition)
  if name.isEmpty then throw .name
  let cur ← get
  if cur.edition == .lenient
      && !(cur.endsWord 0 || cur.has 0 fun c => "?:,]\x7d%@\x60".toList.contains c) then
    throw .name
  pure name

/-! ### Tags -/

/-- The characters of a tag that is written out between `<` and `>`, and of what a handle stands
for. -/
def isUriChar (e : Edition) (c : Char) : Bool :=
  isNameChar c || ";/?:@&=+$,.!~*'()[]%".toList.contains c || (e == .strict && c == '#')

/-- The characters of a tag's suffix. -/
def isTagChar (e : Edition) (c : Char) : Bool :=
  isUriChar e c && !isFlow c && !(e == .strict && c == '!')

/-- The number of octets in the encoding of a character that starts with this octet. -/
def encodedLength (octet : Nat) : Option Nat :=
  if octet < 0x80 then some 1
  else if 0xC0 ≤ octet && octet < 0xE0 then some 2
  else if 0xE0 ≤ octet && octet < 0xF0 then some 3
  else if 0xF0 ≤ octet && octet < 0xF8 then some 4
  else none

/-- The octets that a text begins with, as many as `n`, each written as `%` and two digits. -/
def escapedOctets : Nat → List Char → Option (List Nat)
  | 0, _ => some []
  | n + 1, '%' :: a :: b :: r => do
    let octet ← hexNumber [a, b]
    return octet :: (← escapedOctets n r)
  | _ + 1, _ => none

/-- The escaped octets of one character at the start of a text: a leading one, and as many
trailing ones as that says. -/
def escapedEncoding (s : List Char) : Option (List Nat) := do
  let first ← (← escapedOctets 1 s).head?
  let octets ← escapedOctets (← encodedLength first) s
  if octets.tail.all fun octet => 0x80 ≤ octet && octet < 0xC0 then some octets else none

/-- The character that the octets of an encoding stand for: in the strict reading the one whose
number they are in base 256, in the lenient one the one they encode. -/
def encodedChar (e : Edition) (octets : List Nat) : Option Char :=
  match e with
  | .strict =>
    let n := octets.foldl (fun n octet => n * 256 + octet) 0
    if n.isValidChar then some (Char.ofNat n) else none
  | .lenient =>
    match Text.Utf8.decode (octets.map (·.toUInt8)) with
    | .ok [c] => some c
    | _ => some '\uFFFD'

/-- Reads characters of a class, among which those after `%` may be escaped. -/
def readUriFrom (p : Char → Bool) : Nat → String → Scan String
  | 0, s => pure s
  | n + 1, s => do
    let cur ← get
    match cur.peek 0 with
    | some '%' =>
      match escapedEncoding cur.rest with
      | none => throw .name
      | some octets =>
        match encodedChar cur.edition octets with
        | none => throw .name
        | some c =>
          set (cur.skipMany (3 * octets.length))
          readUriFrom p n (s.push c)
    | some c =>
      if p c then
        set cur.skip
        readUriFrom p n (s.push c)
      else pure s
    | none => pure s

/-- Reads characters of a class, among which those after `%` may be escaped. -/
def readUri (p : Char → Bool) : Scan String := do readUriFrom p ((← get).rest.length + 1) ""

/-- Reads a tag's handle: `!`, or a name between two of them. -/
def readHandle (directive : Bool) : Scan String := do
  if !(← get).has 0 (· == '!') then throw .name
  modify Cursor.skip
  let name ← readName isNameChar
  if (← get).has 0 (· == '!') then
    modify Cursor.skip
    pure ("!" ++ name ++ "!")
  else
    if directive && !name.isEmpty then throw .name
    pure ("!" ++ name)

/-- Reads a tag: one written out, one with a handle, or one that is only local. -/
def readTag : Scan Tag := do
  let cur ← get
  let lenient := cur.edition == .lenient
  let tag ←
    if cur.has 1 (· == '<') then
      set (cur.skipMany 2)
      let suffix ← readUri (isUriChar cur.edition)
      if !(← get).has 0 (· == '>') || (lenient && suffix.isEmpty) then throw .name
      modify Cursor.skip
      pure { handle := "", suffix : Tag }
    else
      let handle ← readHandle false
      if 2 ≤ handle.length && handle.toList.getLast? == some '!' then
        let suffix ← readUri (isTagChar cur.edition)
        if suffix.isEmpty then throw .name
        pure { handle, suffix : Tag }
      else
        let suffix := String.ofList handle.toList.tail ++ (← readUri (isTagChar cur.edition))
        if suffix.isEmpty then pure { handle := "", suffix := "!" : Tag }
        else pure { handle := "!", suffix : Tag }
  let cur ← get
  let inFlow := 0 < cur.flowDepth
  if cur.endsWord 0 || (inFlow && cur.has 0 fun c => c == ',' || (!lenient && isFlow c)) then
    pure tag
  else throw .name

/-! ### Directives -/

/-- Steps over blanks. -/
def skipBlanks : Scan Unit :=
  modify fun cur => (cur.rest.takeWhile isSpaceOrTab).foldl (fun cur _ => cur.skipBlank) cur

/-- Reads the version that a directive is about. The lenient reading knows two of them. -/
def readVersion : Scan Unit := do
  skipBlanks
  let major ← readName Char.isDigit
  if !(← get).has 0 (· == '.') then throw .name
  modify Cursor.skip
  let minor ← readName Char.isDigit
  if major.isEmpty || minor.isEmpty || 9 < major.length || 9 < minor.length then throw .name
  if (← get).edition == .lenient
      && !(major.toNat? == some 1 && (minor.toNat? == some 1 || minor.toNat? == some 2)) then
    throw .name

/-- Reads a handle and what it stands for. In the strict reading they need not be apart. -/
def readHandleMeaning : Scan (String × String) := do
  skipBlanks
  let handle ← readHandle true
  let cur ← get
  if cur.edition == .lenient && !cur.has 0 isSpaceOrTab then throw .name
  skipBlanks
  let cur ← get
  if cur.edition == .strict && !cur.has 0 (fun c => c == '!' || isTagChar .strict c) then
    throw .name
  let start ← readUri (isUriChar cur.edition)
  if start.isEmpty || !(← get).endsWord 0 then throw .name
  pure (handle, start)

/-- Reads the directive that starts here. Only versions and tag handles have a meaning; the strict
reading passes over the others. -/
def readDirective : Scan Unit := do
  let column := (← get).column
  modify Cursor.skip
  let name ← readName isNameChar
  if name.isEmpty || !(← get).endsWord 0 then throw .name
  if name == "YAML" then
    readVersion
    emitAt .versionDirective column
  else if name == "TAG" then
    let (handle, start) ← readHandleMeaning
    emitAt (.tagDirective handle start) column
  else
    if (← get).edition == .lenient then throw .name
    modify fun cur => skipComment cur.rest.length cur
    emitAt .otherDirective column
  let _ ← skipLine true
  if !(← get).endsLine 0 then throw .trailing
  if ((← get).peek 0).isSome then modify Cursor.skipBreak

end ProcUnits.Yaml
