import ProcUnits.Yaml.Value

/-!
Writing values as YAML text, as the converter does (section C.3 of the specification).

Block collections are indented by two spaces for each level. A text is written as it is if a
reader takes it for a plain scalar of type text, and between double quotes otherwise;
`needsQuotes` decides, and quotes rather once too often than too seldom.
-/

namespace ProcUnits.Yaml.Value

/-! ### Texts -/

/-- The characters that a plain scalar does not start with. -/
def leadingIndicators : List Char :=
  ['&', '*', '?', '|', '-', '<', '>', '=', '!', '%', '@', '.']

/-- The characters that a plain scalar does not hold. -/
def innerIndicators : List Char :=
  [':', '{', '}', '[', ']', ',', '#', '"', '\'', '\\', '\x60']

/-- A control character that a plain scalar does not hold. -/
def isUnsafeControl (c : Char) : Bool :=
  let n := c.toNat
  n ≤ 0x06 || n == 0x09 || n == 0x0A || n == 0x0D || (0x0E ≤ n && n ≤ 0x1A)
    || (0x1C ≤ n && n ≤ 0x1F)

/-- The words that some reader takes for a truth value or for null. -/
def reservedWords : List String :=
  ["true", "True", "TRUE", "false", "False", "FALSE", "null", "Null", "NULL",
    "y", "Y", "n", "N", "yes", "Yes", "YES", "no", "No", "NO", "on", "On", "ON",
    "off", "Off", "OFF", "~"]

/-- The text is a number, with digits or by name. -/
def isNumber (s : List Char) : Bool :=
  let unsigned :=
    match s with
    | '+' :: r => r
    | '-' :: r => r
    | r => r
  isDecimal s
    || ["inf", "infinity", "nan"].contains (String.ofList (unsigned.map Char.toLower))

/-- The text is written between quotes. -/
def needsQuotes (s : String) : Bool :=
  let cs := s.toList
  cs.isEmpty || cs.head? == some ' ' || cs.getLast? == some ' '
    || cs.head?.any leadingIndicators.contains
    || cs.any (fun c => innerIndicators.contains c || isUnsafeControl c)
    || reservedWords.contains s
    || ['0', 'x'].isPrefixOf cs
    || isNumber cs

/-- The digit of a value below 16. -/
def hexDigit (n : Nat) : Char :=
  if n < 10 then Char.ofNat ('0'.toNat + n) else Char.ofNat ('a'.toNat + (n - 10))

/-- A character between double quotes. -/
def quotedChar (c : Char) : List Char :=
  if c = '"' then ['\\', '"']
  else if c = '\\' then ['\\', '\\']
  else if c = '\x08' then ['\\', 'b']
  else if c = '\t' then ['\\', 't']
  else if c = '\n' then ['\\', 'n']
  else if c = '\x0c' then ['\\', 'f']
  else if c = '\r' then ['\\', 'r']
  else if c.toNat < 0x20 ∨ c.toNat = 0x7F then
    ['\\', 'u', '0', '0', hexDigit (c.toNat / 16), hexDigit (c.toNat % 16)]
  else [c]

/-- The text between double quotes. -/
def quoted (s : String) : String :=
  String.ofList ('"' :: s.toList.flatMap quotedChar ++ ['"'])

/-- The text as a scalar. -/
def printText (s : String) : String := if needsQuotes s then quoted s else s

/-! ### Trees -/

/-- The spaces in front of a line of a level. -/
def indentation (level : Nat) : String := String.ofList (List.replicate (2 * level) ' ')

/-- The text of a value that has no parts. -/
def leafText : Value → String
  | .null => "~"
  | .bool true => "true"
  | .bool false => "false"
  | .int i => toString i
  | .real s => s
  | .str s => printText s
  | .bad => ""
  | .list _ => "[]"
  | .map _ => "\x7b\x7d"

mutual

/-- The text of a value whose first line is already indented. -/
def printAt (level : Nat) : Value → String
  | .list (v :: vs) => printItems level (v :: vs)
  | .map (e :: es) => printEntries level (e :: es)
  | v => leafText v

/-- The items of a sequence, a line or more for each. -/
def printItems (level : Nat) : List Value → String
  | [] => ""
  | [v] => "- " ++ printAt (level + 1) v
  | v :: vs =>
    "- " ++ printAt (level + 1) v ++ "\n" ++ indentation level ++ printItems level vs

/-- The entries of a mapping, a line or more for each. -/
def printEntries (level : Nat) : List (Value × Value) → String
  | [] => ""
  | [(k, v)] => printAt level k ++ ":" ++ printUnder level v
  | (k, v) :: es =>
    printAt level k ++ ":" ++ printUnder level v ++ "\n" ++ indentation level
      ++ printEntries level es

/-- A value after its key: on the same line, or indented below it. -/
def printUnder (level : Nat) : Value → String
  | .list (v :: vs) => "\n" ++ indentation (level + 1) ++ printItems (level + 1) (v :: vs)
  | .map (e :: es) => "\n" ++ indentation (level + 1) ++ printEntries (level + 1) (e :: es)
  | v => " " ++ leafText v

end

/-- The text of a document. -/
def print (v : Value) : String := "---\n" ++ printAt 0 v

end ProcUnits.Yaml.Value
