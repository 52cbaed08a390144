import ProcUnits.Program
import Std.Time.Format

/-!
The two programs on a real machine (section B.4 of the specification). A copy of those parts of the
file tree that a run can see is taken, the program runs on the copy, and what it has changed there
is changed on the machine.

The program starts no other programs. The commands that control the init system are printed for
the calling shell, one on a line, and count as done; a query has no answer.
-/

namespace ProcUnits.Main

open Host (Entry FileTree Location Name)

/-! ### The machine -/

/-- The location of a path. -/
def locationOf (workingDir path : String) : Location :=
  (Path.normalize (Path.resolve workingDir path)).names.map Name.text

/-- The absolute path of a location. -/
def pathOf (l : Location) : String := "/" ++ "/".intercalate l

/-- The entry at a location of the machine. The permission bits that a file has are not known;
its owner may read and write it. -/
def entryAt (l : Location) : IO (Option Entry) := do
  let path := System.mkFilePath [pathOf l]
  if ← path.isDir then return some .directory
  else if ← path.pathExists then
    return some (.file (← IO.FS.readBinFile path).data.toList 0o644)
  else return none

/-- Copies an entry with the directories above it. -/
def copy (t : FileTree) (l : Location) : IO FileTree :=
  (List.range (l.length + 1)).foldlM (fun (t : FileTree) n => do
    match t.get? (l.take n) with
    | some _ => pure t
    | none =>
      match ← entryAt (l.take n) with
      | some e => pure (t.put (l.take n) e)
      | none => pure t) t

/-- Copies a directory with what lies in it. -/
def copyDir (t : FileTree) (l : Location) : IO FileTree := do
  let t ← copy t l
  let path := System.mkFilePath [pathOf l]
  if ← path.isDir then
    (← path.readDir).toList.foldlM (fun t e => copy t (l ++ [.text e.fileName])) t
  else pure t

/-- The permission of one digit of the bits. -/
def accessOf (digit : Nat) : IO.AccessRight where
  read := digit &&& 4 != 0
  write := digit &&& 2 != 0
  execution := digit &&& 1 != 0

/-- The permission bits of a file. -/
def modeOf? : Entry → Option Nat
  | .file _ mode => some mode
  | .directory => none

/-- Brings the machine from one tree to another. -/
def apply (before after : FileTree) : IO Unit := do
  for (l, _) in before.entries do
    if (after.get? l).isNone then IO.FS.removeFile (pathOf l)
  for (l, e) in after.entries.reverse do
    let old := before.get? l
    if old != some e then
      match e with
      | .directory => IO.FS.createDirAll (pathOf l)
      | .file content mode =>
        IO.FS.writeBinFile (pathOf l) ⟨content.toArray⟩
        if old.bind modeOf? != some mode then
          IO.setAccessRights (pathOf l)
            { user := accessOf (mode / 64 % 8), group := accessOf (mode / 8 % 8),
              other := accessOf (mode % 8) }

/-- The names and numbers in a list of accounts. -/
def accounts (text : String) : List (String × Nat) :=
  (text.splitOn "\n").filterMap fun line =>
    match line.splitOn ":" with
    | name :: _ :: number :: _ => number.toNat?.map (name, ·)
    | _ => none

/-- The text of a file, or nothing. -/
def textAt (path : String) : IO String := do
  try IO.FS.readFile path catch _ => pure ""

/-- The number of the user that the program runs for. -/
def currentUser : IO Nat := do
  let lines := (← textAt "/proc/self/status").splitOn "\n"
  match (lines.find? (·.startsWith "Uid:")).map (·.splitOn "\t") with
  | some (_ :: _ :: effective :: _) => return effective.toNat?.getD 1
  | _ => return 1

/-- The program is in one of the directories. -/
def isAmong (dirs : List String) (program : String) : IO Bool :=
  dirs.anyM fun dir => do
    let path := System.mkFilePath [dir, program]
    return (← path.pathExists) && !(← path.isDir)

/-- The machine without any files. -/
def describe (workingDir : String) : IO Host := do
  let users := accounts (← textAt "/etc/passwd")
  let groups := accounts (← textAt "/etc/group")
  let id ← currentUser
  let dirs := ((← IO.getEnv "PATH").getD "").splitOn ":"
  let controls ← ["systemctl", "initctl"].filterM (isAmong dirs)
  let now := Std.Time.DateTime.ofTimestampWithZone (← Std.Time.Timestamp.now) .UTC
  return {
    answer := fun _ c =>
      if c = Install.releaseQuery then .refused "commands are only printed" else .finished {}
    hasProgram := controls.contains
    hasUser := fun n => users.any (·.1 == n)
    hasGroup := fun n => groups.any (·.1 == n)
    userId := id
    userName := (users.find? (·.2 == id)).map (·.1)
    date := now.format "uuuu/MM/dd HH:mm:ss"
    stamp := now.format "uuuu-MM-dd HH:mm:ss"
    files := { workingDir := locationOf "/" workingDir } }

/-! ### The programs -/

/-- Says why a program gives up. -/
def complain (f : Failure) : IO UInt32 := do
  IO.eprintln ("Error: " ++ f.message)
  if let some cause := f.cause then IO.eprintln ("\nCaused by:\n    " ++ cause)
  return 1

/-- Answers words that are no command line. -/
def refuse (usage : String) (r : CommandLine.Refusal) : IO UInt32 := do
  match r with
  | .help =>
    IO.println usage
    return 0
  | .version =>
    IO.println "0.1.0"
    return 0
  | r =>
    IO.eprintln ("error: " ++ r.message ++ "\n\n" ++ usage)
    return 2

/-- Runs the exporter. -/
def exporter (workingDir program : String) (words : List String) : IO UInt32 := do
  match CommandLine.Export.ofWords (← IO.getEnv CommandLine.Export.settingsVariable) words with
  | .error r => refuse "Usage: init-exporter [OPTIONS] <APP_NAME>" r
  | .ok args =>
    let h ← describe workingDir
    let place := locationOf workingDir
    let seen ← (args.settings :: args.procfile.toList).foldlM (fun t p => copy t (place p)) h.files
    let s := (Settings.load seen args.settings).toOption.getD {}
    let seen ← (s.paths.workingDir :: s.log.file.toList).foldlM (fun t p => copy t (place p)) seen
    let seen ← [s.paths.helperDir, s.paths.systemdDir, s.paths.upstartDir].foldlM
      (fun t p => copyDir t (place p)) seen
    let (result, after) := (runExport args program).run.run { h with files := seen }
    let after :=
      match result with
      | .ok () => after
      | .error f => after.withRecord .error f.fullMessage
    apply seen after.files
    IO.eprint after.stderr
    for (c, _) in after.history do IO.println c.text
    match result with
    | .ok () => return 0
    | .error f => complain f

/-- Runs the converter. -/
def converter (workingDir : String) (words : List String) : IO UInt32 := do
  match CommandLine.Convert.ofWords words with
  | .error r => refuse "Usage: init-exporter-converter [OPTIONS] --appname <APP_NAME> <PROCFILE>" r
  | .ok args =>
    let h ← describe workingDir
    let seen ← (args.procfile :: args.settings.toList).foldlM
      (fun t p => copy t (locationOf workingDir p)) h.files
    let (result, after) := (runConvert args).run.run { h with files := seen }
    apply seen after.files
    match result with
    | .ok printed =>
      if let some text := printed then IO.print text
      return 0
    | .error f => complain f

end ProcUnits.Main

/-- Runs the program that is meant by the name under which it is called. -/
def main (words : List String) : IO UInt32 := do
  let program := ProcUnits.CommandLine.programName (some (← IO.appPath).toString)
  let workingDir := (← IO.currentDir).toString
  if program == "init-exporter-converter" then ProcUnits.Main.converter workingDir words
  else ProcUnits.Main.exporter workingDir program words
