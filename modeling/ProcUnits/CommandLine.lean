/-!
Command lines, as both programs read them (section B.4 of the specification).

The words of a command line are read from the left. A word `--name` or `-n` is an option, several
short options may share one word, and an option that takes a value takes the rest of its word,
the text after its equals sign, or the next word, unless that is an option itself. All other
words, and all after a word `--`, are operands. An option stands once at most. The value of a
word is looked at when the next option or operand is read, so that of two errors the first
unknown word may win.

* `Argument`: an option or an operand that a program takes;
* `Line`: what has been read of a command line so far;
* `Line.addWord`: one word more;
* `read`: the values of all arguments, or the reason why the words are no command line of the
  program.
-/

namespace ProcUnits.CommandLine

/-- What a value is. -/
inductive ValueKind where
  | text
  | path
  /-- One of some words. -/
  | choice (words : List String)
  deriving DecidableEq, Repr

/-- What an argument does. -/
inductive Effect where
  | takes (kind : ValueKind)
  /-- Is on if it is there. -/
  | mark
  | showHelp
  | showVersion
  deriving DecidableEq, Repr

/-- An argument that a program takes. One without a letter and a name is an operand. -/
structure Argument where
  key : String
  letter : Option Char := none
  names : List String := []
  effect : Effect
  required : Bool := false
  deriving DecidableEq, Repr

/-- The argument has a value. -/
def Argument.takesValue (a : Argument) : Bool :=
  match a.effect with
  | .takes _ => true
  | _ => false

/-- The argument has neither a letter nor a name. -/
def Argument.isOperand (a : Argument) : Bool := a.letter.isNone && a.names.isEmpty

/-- Why words are no command line. -/
inductive Refusal where
  /-- A word is an unknown option, or one operand too many. -/
  | unknown (word : String)
  /-- An option stands twice. -/
  | repeated (key : String)
  /-- The value of an argument is missing or empty. -/
  | noValue (key : String)
  /-- The value of an argument is none of its words. -/
  | badValue (key value : String)
  /-- An option without a value has one. -/
  | excessValue (key : String)
  | missing (keys : List String)
  /-- The words ask for help. -/
  | help
  /-- The words ask for the version. -/
  | version
  deriving DecidableEq, Repr

/-- The text of a refusal. -/
def Refusal.message : Refusal → String
  | .unknown w => s!"unexpected argument '{w}' found"
  | .repeated k => s!"the argument {k} cannot be used multiple times"
  | .noValue k => s!"a value is required for {k} but none was supplied"
  | .badValue k v => s!"invalid value '{v}' for {k}"
  | .excessValue k => s!"unexpected value for {k} found; no more were expected"
  | .missing ks =>
    "the following required arguments were not provided: " ++ ", ".intercalate ks
  | .help => "help"
  | .version => "version"

/-! ### Values -/

/-- The values that have been given, each under the key of its argument. -/
abbrev Given := List (String × String)

/-- The argument is given. -/
def Given.isOn (g : Given) (key : String) : Bool := (g.lookup key).isSome

/-- The value of an argument, if it is given. -/
def Given.value? (g : Given) (key : String) : Option String := g.lookup key

/-- The value of an argument, or the empty text. -/
def Given.value (g : Given) (key : String) : String := (g.lookup key).getD ""

/-- The value of the kind is accepted. -/
def checkValue (key : String) (kind : ValueKind) (s : String) : Except Refusal Unit :=
  match kind with
  | .text => .ok ()
  | .path => if s.isEmpty then .error (.noValue key) else .ok ()
  | .choice words => if words.contains s then .ok () else .error (.badValue key s)

/-- The values with that of one more argument. -/
def Given.add (g : Given) (a : Argument) (value : Option String) : Except Refusal Given :=
  match a.effect, value with
  | .showHelp, _ => .error .help
  | .showVersion, _ => .error .version
  | .takes _, none => .error (.noValue a.key)
  | .takes kind, some v => do
    if g.isOn a.key then throw (.repeated a.key)
    checkValue a.key kind v
    .ok ((a.key, v) :: g)
  | .mark, _ => if g.isOn a.key then .error (.repeated a.key) else .ok ((a.key, "") :: g)

/-! ### Words -/

/-- What has been read of a command line. -/
structure Line where
  /-- The options that the program takes. -/
  options : List Argument
  /-- The operands that are still to come. -/
  operands : List Argument
  given : Given := []
  /-- The argument read last, and its value, where that has not been looked at yet. -/
  pending : Option (Argument × Option String) := none
  /-- All words that follow are operands. -/
  closed : Bool := false
  deriving Repr

/-- Looks at the value that was read last. -/
def Line.settle (l : Line) : Except Refusal Line :=
  match l.pending with
  | none => .ok l
  | some (a, value) => return { l with given := ← l.given.add a value, pending := none }

/-- Adds an argument whose value, if any, is in the same word. -/
def Line.addNow (l : Line) (a : Argument) (value : Option String) : Except Refusal Line := do
  let l ← l.settle
  return { l with given := ← l.given.add a value }

/-- Adds an argument whose value comes later or may be looked at later. -/
def Line.addLater (l : Line) (a : Argument) (value : Option String) : Except Refusal Line := do
  return { ← l.settle with pending := some (a, value) }

/-- Reads the letters of a word. -/
def Line.addLetters (l : Line) : List Char → Except Refusal Line
  | [] => .ok l
  | c :: r =>
    match l.options.find? (·.letter == some c) with
    | none => .error (.unknown (String.ofList ['-', c]))
    | some a =>
      if !a.takesValue then do (← l.addNow a none).addLetters r
      else
        match r with
        | [] => l.addLater a none
        | '=' :: value => l.addNow a (some (String.ofList value))
        | value => l.addNow a (some (String.ofList value))

/-- The name and the value in a word without its dashes. -/
def cutValue : List Char → List Char × Option (List Char)
  | [] => ([], none)
  | c :: r =>
    if c = '=' then ([], some r)
    else
      let (name, value) := cutValue r
      (c :: name, value)

/-- Reads an option by its name. -/
def Line.addName (l : Line) (word : List Char) : Except Refusal Line :=
  let (name, value) := cutValue word
  let name := String.ofList name
  match l.options.find? (·.names.contains name) with
  | none => .error (.unknown ("--" ++ name))
  | some a =>
    match a.takesValue, value with
    | true, none => l.addLater a none
    | true, some v => l.addNow a (some (String.ofList v))
    | false, none => l.addNow a none
    | false, some _ => .error (.excessValue a.key)

/-- Reads an operand. -/
def Line.addOperand (l : Line) (word : String) : Except Refusal Line :=
  match l.operands with
  | [] => .error (.unknown word)
  | a :: rest => return { ← l.addLater a (some word) with operands := rest }

/-- Reads a word that is no option: the value that is waited for, or an operand. -/
def Line.addPlain (l : Line) (word : String) : Except Refusal Line :=
  match l.pending with
  | some (a, none) => .ok { l with pending := some (a, some word) }
  | _ => l.addOperand word

/-- Reads one word. -/
def Line.addWord (l : Line) (word : String) : Except Refusal Line :=
  if l.closed then l.addOperand word
  else
    match word.toList with
    | ['-', '-'] => .ok { l with closed := true }
    | '-' :: '-' :: name => l.addName name
    | ['-'] => l.addPlain word
    | '-' :: letters => l.addLetters letters
    | _ => l.addPlain word

/-! ### Command lines -/

/-- The values from outside the command line, for the arguments that it does not give. -/
def addFallbacks (arguments : List Argument) (fallbacks : List (String × String)) (g : Given) :
    Except Refusal Given :=
  arguments.foldlM (fun g a =>
    match fallbacks.lookup a.key with
    | some value => if g.isOn a.key then .ok g else g.add a (some value)
    | none => .ok g) g

/-- The values of all arguments in the words, the program's name not being among those. -/
def read (arguments : List Argument) (fallbacks : List (String × String)) (words : List String) :
    Except Refusal Given := do
  let start : Line :=
    { options := arguments.filter (!·.isOperand), operands := arguments.filter (·.isOperand) }
  let line ← words.foldlM Line.addWord start
  let line ← line.settle
  let given ← addFallbacks arguments fallbacks line.given
  match arguments.filter fun a => a.required && !given.isOn a.key with
  | [] => .ok given
  | missing => .error (.missing (missing.map (·.key)))

/-! ### Options of every program -/

/-- The option that asks for help. -/
def helpOption : Argument :=
  { key := "--help", letter := some 'h', names := ["help"], effect := .showHelp }

/-- The option that asks for the version. -/
def versionOption : Argument :=
  { key := "--version", letter := some 'V', names := ["version"], effect := .showVersion }

end ProcUnits.CommandLine
