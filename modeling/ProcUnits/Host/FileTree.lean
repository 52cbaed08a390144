import ProcUnits.Host.OsError
import ProcUnits.Path
import ProcUnits.Text.Utf8

/-!
A tree of files and directories, and the operations of the operating system on it: the file layer
that section 6 of the specification asks of the outside.

The user of the tree owns all files, so that of a file's permission bits the owner's decide.
There are no links. What an operation changes is a new tree; one that is refused changes
nothing.

An entry can have any octets for its name. They need not be those of a text, and then no path, which
is a text, leads to the entry; it shows among the names of its directory all the same.

* `Name`, `Location`: what entries are called, and the names on the way to one;
* `FileTree`: the entries by their location; `FileTree.get?` is the view of a tree that all
  operations are described by (`get?_put`, `get?_erase`);
* `FileTree.locate`: where a path leads, `..` going up from directories that exist;
* `FileTree.write`, `move`, `remove`, `setMode`, `makeDir`, `makeDirs`: the changes;
* `FileTree.read`, `names`, `isFile`, `isDir`: the questions.
-/

namespace ProcUnits.Host

/-- The name of an entry: a text, or octets that are those of no text. -/
inductive Name where
  | text (n : String)
  | octets (bs : List UInt8) (notText : ∀ s, Text.Utf8.decode bs ≠ .ok s)
  deriving DecidableEq, Repr

namespace Name

/-- The text that a name is, if it is one. -/
def text? : Name → Option String
  | .text n => some n
  | .octets .. => none

/-- What is shown of a name: of octets that are those of no text, as much of one as there is. -/
def shown : Name → String
  | .text n => n
  | .octets bs _ => String.ofList (Text.Utf8.decodeLossy bs)

instance : Coe String Name := ⟨text⟩

end Name

/-- The names on the way from the root to an entry. -/
abbrev Location := List Name

/-- A location is shown by its names. -/
instance : CoeOut Location (List String) := ⟨List.map Name.shown⟩

/-- What is at a location. -/
inductive Entry where
  | directory
  /-- The octets of a file and its permission bits. -/
  | file (content : List UInt8) (mode : Nat)
  deriving DecidableEq, Repr

/-- A file tree, as a process sees it. -/
structure FileTree where
  /-- All entries but the root. -/
  entries : List (Location × Entry) := []
  /-- Where relative paths start. -/
  workingDir : Location := []
  /-- The permission bits that new files do not get. -/
  mask : Nat := 0o22
  deriving DecidableEq, Repr, Inhabited

namespace FileTree

/-! ### The view -/

/-- The entry at a location. The root is a directory. -/
def get? (t : FileTree) (l : Location) : Option Entry :=
  if l = [] then some .directory else (t.entries.find? (·.1 = l)).map (·.2)

/-- The tree without the entry at a location. -/
def erase (t : FileTree) (l : Location) : FileTree :=
  { t with entries := t.entries.filter (·.1 ≠ l) }

/-- The tree with an entry at a location. -/
def put (t : FileTree) (l : Location) (e : Entry) : FileTree :=
  { t with entries := (l, e) :: (t.erase l).entries }

/-- Only the erased entry is gone. -/
theorem get?_erase (t : FileTree) {l m : Location} (hm : m ≠ []) :
    (t.erase l).get? m = if m = l then none else t.get? m := by
  simp only [get?, erase, hm, if_false, List.find?_filter]
  by_cases h : m = l
  · subst h
    simp
  · simp only [h, if_false]
    congr 2
    funext e
    by_cases he : e.1 = m <;> simp_all

/-- Only the entry at the location is another one. -/
theorem get?_put (t : FileTree) (e : Entry) {l m : Location} (hm : m ≠ []) :
    (t.put l e).get? m = if m = l then some e else t.get? m := by
  have he := get?_erase t (l := l) hm
  by_cases h : m = l
  · subst h
    simp [get?, put, hm]
  · simp only [h, if_false] at he ⊢
    rw [← he]
    simp [get?, put, hm, Ne.symm h]

/-! ### Paths -/

/-- The longest name that an entry can have, in octets. -/
def maxName : Nat := 255

/-- One part of a path further. Only from a directory there is a way on. -/
def step (t : FileTree) (l : Location) (part : Path.Part) : Except OsError Location :=
  match part, t.get? l with
  | .root, _ => .ok []
  | _, none => .error .notFound
  | _, some (.file ..) => .error .notDirectory
  | .here, _ => .ok l
  | .up, _ => .ok l.dropLast
  | .name n, _ => if maxName < n.utf8ByteSize then .error .nameTooLong else .ok (l ++ [.text n])

/-- Where a path leads. There need be no entry, but its directory has to be there. -/
def locate (t : FileTree) (p : String) : Except OsError Location :=
  if '\x00' ∈ p.toList then .error .nul
  else if p.isEmpty then .error .notFound
  else (Path.parts p).foldlM t.step t.workingDir

/-- The text of the path says that it leads to a directory. -/
def namesDirectory (p : String) : Bool :=
  match p.toList.reverse with
  | '/' :: _ => true
  | '.' :: '/' :: _ => true
  | _ => false

/-- The location of a path and the entry there. -/
def find (t : FileTree) (p : String) : Except OsError (Location × Entry) := do
  let l ← t.locate p
  match t.get? l with
  | none => .error .notFound
  | some e => if namesDirectory p && e != .directory then .error .notDirectory else .ok (l, e)

/-! ### Questions -/

/-- There is something at the path. -/
def isPresent (t : FileTree) (p : String) : Bool := (t.find p).toOption.isSome

/-- There is a file at the path. -/
def isFile (t : FileTree) (p : String) : Bool :=
  match t.find p with
  | .ok (_, .file ..) => true
  | _ => false

/-- There is a directory at the path. -/
def isDir (t : FileTree) (p : String) : Bool :=
  match t.find p with
  | .ok (_, .directory) => true
  | _ => false

/-- The owner may read a file of these permission bits. -/
def isReadable (mode : Nat) : Bool := mode &&& 0o400 != 0

/-- The owner may change a file of these permission bits. -/
def isWritable (mode : Nat) : Bool := mode &&& 0o200 != 0

/-- The octets of a file. -/
def read (t : FileTree) (p : String) : Except OsError (List UInt8) := do
  match ← t.find p with
  | (_, .directory) => .error .isDirectory
  | (_, .file content mode) => if isReadable mode then .ok content else .error .permissionDenied

/-- The name of an entry that lies in the directory itself. -/
def nameIn (dir : Location) (l : Location) : Option Name :=
  if l.dropLast = dir then l.getLast? else none

/-- The names of what lies in a directory. -/
def names (t : FileTree) (p : String) : Except OsError (List Name) := do
  match ← t.find p with
  | (_, .file ..) => .error .notDirectory
  | (l, .directory) => .ok (t.entries.filterMap fun e => nameIn l e.1)

/-! ### Changes -/

/-- Gives a file new octets. A file that is not there yet is created, with the permission bits
`mode` less those of the mask; one that is there keeps its own. -/
def write (t : FileTree) (p : String) (content : List UInt8) (mode : Nat) :
    Except OsError FileTree := do
  let l ← t.locate p
  if namesDirectory p then .error .isDirectory
  else
    match t.get? l with
    | some .directory => .error .isDirectory
    | some (.file _ old) =>
      if isWritable old then .ok (t.put l (.file content old)) else .error .permissionDenied
    | none => .ok (t.put l (.file content (mode ^^^ (mode &&& t.mask))))

/-- Opens a file to add to its end. The result is its location. -/
def openEnd (t : FileTree) (p : String) (mode : Nat) : Except OsError (Location × FileTree) := do
  let l ← t.locate p
  match t.get? l with
  | some (.file content old) =>
    if namesDirectory p then .error .isDirectory
    else if isWritable old then .ok (l, t.put l (.file content old))
    else .error .permissionDenied
  | _ => do return (l, ← t.write p [] mode)

/-- Adds octets to the end of an opened file. Nothing is left of them if it is gone. -/
def extend (t : FileTree) (l : Location) (octets : List UInt8) : FileTree :=
  match t.get? l with
  | some (.file content mode) => t.put l (.file (content ++ octets) mode)
  | _ => t

/-- Gives a file other permission bits. -/
def setMode (t : FileTree) (p : String) (mode : Nat) : Except OsError FileTree := do
  match ← t.find p with
  | (l, .file content _) => .ok (t.put l (.file content mode))
  | (_, .directory) => .error .isDirectory

/-- Moves a file onto another path, in place of a file that is there. -/
def move (t : FileTree) (source target : String) : Except OsError FileTree := do
  match ← t.find source with
  | (_, .directory) => .error .isDirectory
  | (l, .file content mode) =>
    let m ← t.locate target
    match t.get? m with
    | some .directory => .error .isDirectory
    | _ =>
      if namesDirectory target then .error .notDirectory
      else .ok ((t.erase l).put m (.file content mode))

/-- Removes a file. -/
def remove (t : FileTree) (p : String) : Except OsError FileTree := do
  match ← t.find p with
  | (_, .directory) => .error .isDirectory
  | (l, .file ..) => .ok (t.erase l)

/-- Removes what is at a path, with all that lies in it. -/
def removeAll (t : FileTree) (p : String) : Except OsError FileTree := do
  let (l, _) ← t.find p
  .ok { t with entries := t.entries.filter fun e => !l.isPrefixOf e.1 }

/-- Makes a directory in one that is there. -/
def makeDir (t : FileTree) (p : String) : Except OsError FileTree := do
  let l ← t.locate p
  match t.get? l with
  | some _ => .error .exists
  | none => .ok (t.put l .directory)

/-- The path and the paths of the directories above it, the nearest first. -/
def ancestors (p : String) : Nat → List String
  | 0 => [p]
  | n + 1 => p :: ancestors (Path.parent p) n

/-- Makes the directory, where the ones above it are there. One that is there already, or the
empty path, needs nothing. -/
def ensureDir (t : FileTree) (p : String) : Except OsError FileTree :=
  if p.isEmpty then .ok t
  else
    match t.makeDir p with
    | .ok t => .ok t
    | .error e => if t.isDir p then .ok t else .error e

/-- Makes a directory and those above it that are missing: from the nearest one that can be
made, or is there, down to it. -/
def makeDirsFrom (t : FileTree) : List String → Except OsError FileTree
  | [] => .ok t
  | p :: above =>
    match t.ensureDir p with
    | .error .notFound => do (← t.makeDirsFrom above).ensureDir p
    | r => r

/-- Makes a directory with those above it. -/
def makeDirs (t : FileTree) (p : String) : Except OsError FileTree :=
  t.makeDirsFrom (ancestors p (Path.parts p).length)

end FileTree

end ProcUnits.Host
