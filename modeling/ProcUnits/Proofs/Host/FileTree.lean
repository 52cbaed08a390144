import Mathlib.Data.Set.Basic
import ProcUnits.Host.FileTree
import ProcUnits.Proofs.Path.Join

/-!
What the operations on a file tree do to its files.

* `placeFrom`: where a path leads from a location if all directories on the way are there, and
  `placeFrom_join`: the path of a name leads to that name in the directory;
* `FileTree.file?`: the files of a tree by their location;
* `FileTree.placeOf`: where a path leads in a tree. This depends on the path alone (`locate_eq`),
  and once it leads there it always will while directories stay (`KeepsDirs.locate_eq`);
* `write_eq_ok`, `setMode_eq_ok`, `move_eq_ok`, `remove_eq_ok`, `makeDirs_eq_ok`: what a tree
  looks like after an operation;
* `CanRemove`, `CanList`: the removal of a file and the question for names are not refused.
-/

namespace ProcUnits.Host

/-! ### Places -/

/-- One part of a path further, if all directories on the way are there. -/
def Location.step (l : Location) : Path.Part → Location
  | .root => []
  | .here => l
  | .up => l.dropLast
  | .name n => l ++ [.text n]

/-- Where a path leads that is taken from a location, if all directories on the way are there. -/
def placeFrom (base : Location) (p : String) : Location := (Path.parts p).foldl Location.step base

/-- The path of a name in a directory leads to that name there. -/
theorem placeFrom_join (base : Location) (dir : String) {n : String} (hn : Path.IsEntryName n) :
    placeFrom base (Path.join dir n) = placeFrom base dir ++ [.text n] := by
  rw [placeFrom, Path.parts_join dir hn, List.foldl_append]
  rfl

/-- The path is that of a name in the directory, and leads to that name there, wherever it is
taken from. -/
def IsEntryOf (p dir : String) : Prop :=
  ∃ n, Path.IsEntryName n ∧ p = Path.join dir n
    ∧ ∀ base, placeFrom base p = placeFrom base dir ++ [.text n]

lemma isEntryOf_join (dir : String) {n : String} (hn : Path.IsEntryName n) :
    IsEntryOf (Path.join dir n) dir :=
  ⟨n, hn, rfl, fun base => placeFrom_join base dir hn⟩

namespace FileTree

variable {t t' u : FileTree} {l m : Location} {p dir n : String}

/-! ### Files -/

/-- The octets and the permission bits of the file at a location, if there is one. -/
def file? (t : FileTree) (l : Location) : Option (List UInt8 × Nat) :=
  match t.get? l with
  | some (.file content mode) => some (content, mode)
  | _ => none

/-- There is a directory at the location. -/
def HasDir (t : FileTree) (l : Location) : Prop := t.get? l = some .directory

lemma file?_of_get? {content : List UInt8} {mode : ℕ} (h : t.get? l = some (.file content mode)) :
    t.file? l = some (content, mode) := by
  rw [file?, h]

lemma get?_of_file? {content : List UInt8} {mode : ℕ} (h : t.file? l = some (content, mode)) :
    t.get? l = some (.file content mode) := by
  rw [file?] at h
  split at h
  · simp_all
  · simp at h

lemma file?_congr (h : t.get? l = t'.get? l) : t.file? l = t'.file? l := by
  rw [file?, file?, h]

/-- Where only directories are, there is no file. -/
lemma file?_eq_none_of_directories (h : ∀ e ∈ t.entries, e.2 = .directory) (l : Location) :
    t.file? l = none := by
  rw [file?, get?]
  split_ifs with hl
  · rfl
  cases hfind : t.entries.find? (·.1 = l) with
  | none => rfl
  | some e => rw [Option.map_some, h e (List.mem_of_find?_eq_some hfind)]

/-- A location with a directory has no file. -/
lemma HasDir.file?_eq (h : t.HasDir l) : t.file? l = none := by
  rw [file?, h]

lemma not_hasDir_of_get? {content : List UInt8} {mode : ℕ}
    (h : t.get? l = some (.file content mode)) : ¬ t.HasDir l := by
  rw [HasDir, h]
  simp

/-- There is always a directory at the root. -/
lemma hasDir_root (t : FileTree) : t.HasDir [] := by
  rw [HasDir, get?, if_pos rfl]

lemma ne_nil_of_not_hasDir (h : ¬ t.HasDir l) : l ≠ [] := by
  rintro rfl
  exact h t.hasDir_root

/-- Beside the location nothing is another one. -/
lemma get?_put_of_ne (t : FileTree) (e : Entry) (h : m ≠ l) : (t.put l e).get? m = t.get? m := by
  -- the root is a directory whatever the entries are, and `get?_put` leaves it out
  by_cases hm : m = []
  · subst hm
    rfl
  · rw [get?_put _ _ hm, if_neg h]

lemma get?_erase_of_ne (t : FileTree) (h : m ≠ l) : (t.erase l).get? m = t.get? m := by
  by_cases hm : m = []
  · subst hm
    rfl
  · rw [get?_erase _ hm, if_neg h]

/-- Only the file at the location is another one. -/
lemma file?_put (h : ¬ t.HasDir l) (content : List UInt8) (mode : ℕ) :
    (t.put l (.file content mode)).file? m = if m = l then some (content, mode) else t.file? m := by
  by_cases hm : m = []
  · subst hm
    rw [if_neg (Ne.symm (ne_nil_of_not_hasDir h)), (hasDir_root _).file?_eq,
      (hasDir_root _).file?_eq]
  · rw [file?, get?_put _ _ hm]
    split_ifs
    · rfl
    · rfl

/-- Only the file at the location is gone. -/
lemma file?_erase (h : l ≠ []) : (t.erase l).file? m = if m = l then none else t.file? m := by
  by_cases hm : m = []
  · subst hm
    rw [if_neg (Ne.symm h), (hasDir_root _).file?_eq, (hasDir_root _).file?_eq]
  · rw [file?, get?_erase _ hm]
    split_ifs
    · rfl
    · rfl

/-- A new directory is no file. -/
lemma file?_put_directory (h : t.get? l = none) : (t.put l .directory).file? m = t.file? m := by
  by_cases hm : m = []
  · subst hm
    rw [(hasDir_root _).file?_eq, (hasDir_root _).file?_eq]
  · rw [file?, get?_put _ _ hm, file?]
    split_ifs with hml
    · subst hml
      rw [h]
    · rfl

/-! ### Directories that stay -/

/-- The second tree has all directories of the first one, and relative paths start at the same
place. -/
structure KeepsDirs (t t' : FileTree) : Prop where
  workingDir_eq : t'.workingDir = t.workingDir
  hasDir : ∀ {l}, t.HasDir l → t'.HasDir l

lemma KeepsDirs.refl (t : FileTree) : t.KeepsDirs t := ⟨rfl, id⟩

lemma KeepsDirs.trans (h : t.KeepsDirs t') (h' : t'.KeepsDirs u) : t.KeepsDirs u :=
  ⟨h'.workingDir_eq.trans h.workingDir_eq, fun hl => h'.hasDir (h.hasDir hl)⟩

lemma keepsDirs_put {e : Entry} (h : ¬ t.HasDir l) : t.KeepsDirs (t.put l e) := by
  refine ⟨rfl, fun {m} hm => ?_⟩
  by_cases hnil : m = []
  · subst hnil
    exact hasDir_root _
  · have hml : m ≠ l := fun heq => h (heq ▸ hm)
    rw [HasDir, get?_put _ _ hnil, if_neg hml]
    exact hm

lemma keepsDirs_erase (h : ¬ t.HasDir l) : t.KeepsDirs (t.erase l) := by
  refine ⟨rfl, fun {m} hm => ?_⟩
  by_cases hnil : m = []
  · subst hnil
    exact hasDir_root _
  · have hml : m ≠ l := fun heq => h (heq ▸ hm)
    rw [HasDir, get?_erase _ hnil, if_neg hml]
    exact hm

/-! ### Paths -/

/-- Where a path leads if the directories on the way are there. -/
def placeOf (t : FileTree) (p : String) : Location := placeFrom t.workingDir p

lemma KeepsDirs.placeOf_eq (h : t.KeepsDirs t') (p : String) : t'.placeOf p = t.placeOf p := by
  rw [placeOf, placeOf, h.workingDir_eq]

/-- There is a way on only from a directory, and from the root. -/
lemma hasDir_of_step {part : Path.Part} (h : t.step l part = .ok m) (hroot : part ≠ .root) :
    t.HasDir l := by
  rw [HasDir]
  cases he : t.get? l with
  | none => cases part <;> simp_all [step]
  | some e => cases e <;> cases part <;> simp_all [step]

/-- From a directory the text of a path decides about the way, but for names that are too
long. -/
lemma step_of_hasDir (h : t.HasDir l) (part : Path.Part) :
    t.step l part = match part with
      | .name n => if maxName < n.utf8ByteSize then .error .nameTooLong else .ok (l ++ [.text n])
      | part => .ok (Location.step l part) := by
  rw [HasDir] at h
  cases part <;> simp [step, h, Location.step]

/-- A step leads where the text of the path says. -/
lemma step_eq {part : Path.Part} (h : t.step l part = .ok m) :
    Location.step l part = m := by
  cases part with
  | root => simp_all [step, Location.step]
  -- any other step was taken from a directory, where the text decides
  | here | up =>
      rw [step_of_hasDir (hasDir_of_step h (by simp))] at h
      simp_all [Location.step]
  | name n =>
      rw [step_of_hasDir (hasDir_of_step h (by simp))] at h
      simp only at h
      split_ifs at h
      simp_all [Location.step]

/-- A step goes on to be possible while directories stay. -/
lemma KeepsDirs.step_eq (h : t.KeepsDirs t') {part : Path.Part} (hs : t.step l part = .ok m) :
    t'.step l part = .ok m := by
  by_cases hroot : part = .root
  · subst hroot
    simpa [step] using hs
  · have hdir := hasDir_of_step hs hroot
    rw [step_of_hasDir hdir] at hs
    rw [step_of_hasDir (h.hasDir hdir)]
    exact hs

lemma foldlM_step_eq {parts : List Path.Part} (h : parts.foldlM t.step l = .ok m) :
    parts.foldl Location.step l = m := by
  induction parts generalizing l with
  | nil => simpa [pure, Except.pure] using h
  | cons part parts ih =>
      rw [List.foldlM_cons] at h
      cases hs : t.step l part with
      | error e => simp [hs, bind, Except.bind] at h
      | ok k =>
          rw [hs] at h
          rw [List.foldl_cons, FileTree.step_eq hs, ih h]

/-- A path leads where its text says. -/
lemma locate_eq (h : t.locate p = .ok l) : l = t.placeOf p := by
  rw [locate] at h
  split_ifs at h
  rw [placeOf, placeFrom, foldlM_step_eq h]

/-- A path goes on to lead where it led while directories stay. -/
lemma KeepsDirs.locate_eq (h : t.KeepsDirs t') (hl : t.locate p = .ok l) :
    t'.locate p = .ok l := by
  -- by induction over the parts, from any location: each step was taken from a directory that stays
  have hfold : ∀ (parts : List Path.Part) (k : Location),
      parts.foldlM t.step k = .ok l → parts.foldlM t'.step k = .ok l := by
    intro parts
    induction parts with
    | nil => exact fun k hk => hk
    | cons part parts ih =>
        intro k hk
        rw [List.foldlM_cons] at hk ⊢
        cases hs : t.step k part with
        | error e => simp [hs, bind, Except.bind] at hk
        | ok k' =>
            rw [hs] at hk
            rw [h.step_eq hs]
            exact ih k' hk
  rw [locate] at hl ⊢
  split_ifs at hl ⊢ with h₁ h₂
  rw [h.workingDir_eq]
  exact hfold _ _ hl

/-- What is found at a path is at the place that the path leads to. -/
lemma find_eq_ok {e : Entry} (h : t.find p = .ok (l, e)) :
    t.locate p = .ok l ∧ t.get? l = some e := by
  cases hl : t.locate p with
  | error x => simp [find, hl, bind, Except.bind] at h
  | ok k =>
      cases hk : t.get? k with
      | none => simp [find, hl, hk, bind, Except.bind] at h
      | some e' =>
          simp only [find, hl, hk, bind, Except.bind] at h
          split_ifs at h
          cases h
          exact ⟨rfl, hk⟩

/-- A directory is found at each path that leads to it. -/
lemma find_of_hasDir (hl : t.locate p = .ok l) (h : t.HasDir l) :
    t.find p = .ok (l, .directory) := by
  rw [HasDir] at h
  simp [find, hl, h, bind, Except.bind]

lemma isDir_iff : t.isDir p = true ↔ ∃ l, t.locate p = .ok l ∧ t.HasDir l := by
  constructor
  · intro h
    rw [isDir] at h
    split at h
    · rename_i l hf
      exact ⟨l, find_eq_ok hf⟩
    · simp at h
  · rintro ⟨l, hl, hd⟩
    rw [isDir, find_of_hasDir hl hd]

lemma isFile_iff : t.isFile p = true
    ↔ ∃ l content mode, t.find p = .ok (l, .file content mode) := by
  rw [isFile]
  split
  · rename_i l content mode hf
    exact ⟨fun _ => ⟨l, content, mode, hf⟩, fun _ => rfl⟩
  · rename_i hne
    refine ⟨fun h => absurd h (by simp), ?_⟩
    rintro ⟨l, content, mode, hf⟩
    exact absurd hf (hne l content mode)

/-- A path goes on to be that of a file while directories stay and the file does. -/
lemma KeepsDirs.isFile (h : t.KeepsDirs t') (hf : t.isFile p = true)
    (hfile : t'.file? (t.placeOf p) ≠ none) : t'.isFile p = true := by
  obtain ⟨l, content, mode, hfind⟩ := isFile_iff.mp hf
  obtain ⟨hl, hget⟩ := find_eq_ok hfind
  rw [← FileTree.locate_eq hl] at hfile
  obtain ⟨⟨content', mode'⟩, hfile'⟩ := Option.ne_none_iff_exists'.mp hfile
  refine isFile_iff.mpr ⟨l, content', mode', ?_⟩
  -- the path leads where it led, and its text is still not that of a directory
  simp only [find, hl, hget, bind, Except.bind] at hfind
  simp only [find, h.locate_eq hl, get?_of_file? hfile', bind, Except.bind]
  split_ifs at hfind with hname
  simp_all

/-! ### Names in a directory -/

/-- A path that ends with the name of an entry is not written like that of a directory. -/
lemma namesDirectory_join (dir : String) (hn : Path.IsEntryName n) :
    namesDirectory (Path.join dir n) = false := by
  obtain ⟨s, hs⟩ := Path.toList_join dir n
  have hslash : ∀ c ∈ n.toList.reverse, c ≠ '/' := fun c hc heq =>
    hn.slash_not_mem (heq ▸ List.mem_reverse.mp hc)
  have hdot : n.toList.reverse ≠ ['.'] := fun h =>
    hn.ne_here (String.toList_injective (by simpa using congrArg List.reverse h))
  rw [namesDirectory, hs, List.reverse_append]
  -- the path ends with a slash, or a slash and a dot, only if the name does
  rcases hrev : n.toList.reverse with _ | ⟨c, _ | ⟨c', r⟩⟩
  · exact absurd (String.toList_eq_nil_iff.mp (List.reverse_eq_nil_iff.mp hrev)) hn.ne_empty
  · rw [hrev] at hslash hdot
    have hc : c ≠ '/' := hslash c (by simp)
    have hc' : c ≠ '.' := fun h => hdot (by rw [h])
    simp [hc, hc']
  · rw [hrev] at hslash
    have hc : c ≠ '/' := hslash c (by simp)
    have hc' : c' ≠ '/' := hslash c' (by simp)
    simp [hc, hc']

lemma placeOf_join (t : FileTree) (dir : String) (hn : Path.IsEntryName n) :
    t.placeOf (Path.join dir n) = t.placeOf dir ++ [.text n] :=
  placeFrom_join _ _ hn

/-- There is a file at the path of its name if that leads to one. -/
lemma isFile_join_iff (hn : Path.IsEntryName n) : t.isFile (Path.join dir n) = true
    ↔ (∃ l, t.locate (Path.join dir n) = .ok l)
      ∧ ∃ f, t.file? (t.placeOf (Path.join dir n)) = some f := by
  rw [isFile_iff]
  constructor
  · rintro ⟨l, content, mode, hf⟩
    obtain ⟨hl, hget⟩ := find_eq_ok hf
    rw [← locate_eq hl]
    exact ⟨⟨l, hl⟩, _, file?_of_get? hget⟩
  · rintro ⟨⟨l, hl⟩, ⟨content, mode⟩, hfile⟩
    rw [← locate_eq hl] at hfile
    refine ⟨l, content, mode, ?_⟩
    simp [find, hl, get?_of_file? hfile, namesDirectory_join dir hn, bind, Except.bind]

/-- Where the path of a file leads there is a file. -/
lemma file?_of_isFile (h : t.isFile p = true) : ∃ f, t.file? (t.placeOf p) = some f := by
  obtain ⟨l, content, mode, hf⟩ := isFile_iff.mp h
  obtain ⟨hl, hget⟩ := find_eq_ok hf
  exact ⟨_, locate_eq hl ▸ file?_of_get? hget⟩

lemma not_hasDir_of_isFile (h : t.isFile p = true) : ¬ t.HasDir (t.placeOf p) := by
  obtain ⟨f, hf⟩ := file?_of_isFile h
  exact not_hasDir_of_get? (get?_of_file? hf)

/-- The path of a name leads on from a directory only. -/
lemma locate_of_locate_join (hdir : dir ≠ "") (hn : Path.IsEntryName n)
    (h : t.locate (Path.join dir n) = .ok l) :
    ∃ k, t.locate dir = .ok k ∧ t.HasDir k ∧ l = k ++ [.text n] := by
  rw [locate] at h
  split_ifs at h with hnul _
  rw [Path.parts_join dir hn, List.foldlM_append] at h
  cases hk : (Path.parts dir).foldlM t.step t.workingDir with
  | error e => simp [hk, bind, Except.bind] at h
  | ok k =>
      rw [hk] at h
      have hstep : t.step k (.name n) = .ok l := (bind_pure (t.step k (.name n))).symm.trans h
      have hd := hasDir_of_step hstep (by simp)
      rw [step_of_hasDir hd] at hstep
      simp only at hstep
      split_ifs at hstep
      refine ⟨k, ?_, hd, (Except.ok.inj hstep).symm⟩
      -- a path with a NUL leads nowhere, and the longer one led somewhere
      have hnul' : '\x00' ∉ dir.toList :=
        fun hmem => hnul (Path.mem_toList_join hn.isAbsolute_eq hmem)
      rw [locate, if_neg hnul', if_neg (by simpa using hdir), hk]

/-- A file is among the names of its directory. -/
lemma mem_names_of_isFile (hdir : dir ≠ "") (hn : Path.IsEntryName n)
    (h : t.isFile (Path.join dir n) = true) : ∃ ns, t.names dir = .ok ns ∧ .text n ∈ ns := by
  obtain ⟨l, content, mode, hf⟩ := isFile_iff.mp h
  obtain ⟨hl, hget⟩ := find_eq_ok hf
  obtain ⟨k, hk, hd, rfl⟩ := locate_of_locate_join hdir hn hl
  have hnames : t.names dir = .ok (t.entries.filterMap fun e => nameIn k e.1) := by
    simp [names, find_of_hasDir hk hd, bind, Except.bind]
  refine ⟨_, hnames, ?_⟩
  rw [get?, if_neg (by simp), Option.map_eq_some_iff] at hget
  obtain ⟨e, he, -⟩ := hget
  -- the entry that was found is one that is listed
  refine List.mem_filterMap.mpr ⟨e, List.mem_of_find?_eq_some he, ?_⟩
  have hl' : e.1 = k ++ [.text n] := by simpa using List.find?_some he
  simp [nameIn, hl']

/-! ### Operations -/

/-- What is found at a path is a file if there is one where the path leads. -/
lemma find_of_file {content : List UInt8} {mode : ℕ} (hl : t.locate p = .ok l)
    (hname : namesDirectory p = false) (h : t.get? l = some (.file content mode)) :
    t.find p = .ok (l, .file content mode) := by
  simp [find, hl, h, hname, bind, Except.bind]

/-- What is read are the octets of the file at the path. -/
lemma read_eq_ok {content : List UInt8} (h : t.read p = .ok content) :
    ∃ mode, t.file? (t.placeOf p) = some (content, mode) := by
  cases hfind : t.find p with
  | error e => simp [read, hfind, bind, Except.bind] at h
  | ok found =>
      obtain ⟨l, e⟩ := found
      obtain ⟨hl, hget⟩ := find_eq_ok hfind
      rw [← locate_eq hl]
      cases e with
      | directory => simp [read, hfind, bind, Except.bind] at h
      | file content' mode =>
          simp only [read, hfind, bind, Except.bind] at h
          split_ifs at h
          cases h
          exact ⟨mode, file?_of_get? hget⟩

lemma write_eq_put {content : List UInt8} {mode : ℕ} (h : t.write p content mode = .ok t') :
    ¬ t.HasDir (t.placeOf p) ∧ ∃ mode', t' = t.put (t.placeOf p) (.file content mode') := by
  cases hl : t.locate p with
  | error e => simp [write, hl, bind, Except.bind] at h
  | ok l =>
      rw [← locate_eq hl]
      simp only [write, hl, bind, Except.bind] at h
      split_ifs at h
      rw [HasDir]
      split at h
      · simp at h
      · rename_i old hold
        split_ifs at h
        exact ⟨by rw [hold]; simp, old, (Except.ok.inj h).symm⟩
      · rename_i hnone
        exact ⟨by rw [hnone]; simp, _, (Except.ok.inj h).symm⟩

/-- A path to which a file was written leads somewhere, and is not written like that of a
directory. -/
lemma locate_of_write {content : List UInt8} {mode : ℕ} (h : t.write p content mode = .ok t') :
    t.locate p = .ok (t.placeOf p) ∧ namesDirectory p = false := by
  cases hl : t.locate p with
  | error e => simp [write, hl, bind, Except.bind] at h
  | ok l =>
      simp only [write, hl, bind, Except.bind] at h
      split_ifs at h with hname
      exact ⟨by rw [← locate_eq hl], by simpa using hname⟩

/-- A file that was written is there with its octets, and all others are as before. -/
lemma write_eq_ok {content : List UInt8} {mode : ℕ} (h : t.write p content mode = .ok t') :
    t.KeepsDirs t' ∧ ∃ mode', ∀ m, t'.file? m
      = if m = t.placeOf p then some (content, mode') else t.file? m := by
  obtain ⟨hdir, mode', rfl⟩ := write_eq_put h
  exact ⟨keepsDirs_put hdir, mode', fun m => file?_put hdir content mode'⟩

/-- What is opened for more at its end is a file afterwards, and all other entries are as before. -/
lemma openEnd_eq_ok {mode : ℕ} (h : t.openEnd p mode = .ok (l, t')) :
    ¬ t.HasDir l ∧ ∃ content mode', t' = t.put l (.file content mode') := by
  cases hl : t.locate p with
  | error e => simp [openEnd, hl, bind, Except.bind] at h
  | ok k =>
      simp only [openEnd, hl, bind, Except.bind] at h
      split at h
      · rename_i content mode' hget
        split_ifs at h
        cases h
        exact ⟨not_hasDir_of_get? hget, content, mode', rfl⟩
      · -- there is no file yet, and it is written empty
        cases hw : t.write p [] mode with
        | error e => simp [hw] at h
        | ok u =>
            rw [hw] at h
            cases h
            rw [locate_eq hl]
            obtain ⟨hdir, mode', hput⟩ := write_eq_put hw
            exact ⟨hdir, [], mode', hput⟩

/-- A file whose permission bits were set has these and its old octets, and all others are as
before. -/
lemma setMode_eq_ok {mode : ℕ} (h : t.setMode p mode = .ok t') :
    t.KeepsDirs t' ∧ ∃ content old, t.file? (t.placeOf p) = some (content, old)
      ∧ ∀ m, t'.file? m = if m = t.placeOf p then some (content, mode) else t.file? m := by
  cases hf : t.find p with
  | error e => simp [setMode, hf, bind, Except.bind] at h
  | ok r =>
      obtain ⟨l, e⟩ := r
      obtain ⟨hl, hget⟩ := find_eq_ok hf
      rw [← locate_eq hl]
      cases e with
      | directory => simp [setMode, hf, bind, Except.bind] at h
      | file content old =>
          simp only [setMode, hf, bind, Except.bind] at h
          cases h
          have hdir := not_hasDir_of_get? hget
          exact ⟨keepsDirs_put hdir, content, old, file?_of_get? hget,
            fun m => file?_put hdir content mode⟩

/-- A file that was moved is at its new place and not at the old one, and all others are as
before. -/
lemma move_eq_ok {source target : String} (h : t.move source target = .ok t') :
    t.KeepsDirs t' ∧ t.locate target = .ok (t.placeOf target)
      ∧ ∃ f, t.file? (t.placeOf source) = some f
        ∧ ∀ m, t'.file? m = if m = t.placeOf target then some f
          else if m = t.placeOf source then none else t.file? m := by
  cases hf : t.find source with
  | error e => simp [move, hf, bind, Except.bind] at h
  | ok r =>
      obtain ⟨l, e⟩ := r
      obtain ⟨hl, hget⟩ := find_eq_ok hf
      rw [← locate_eq hl]
      cases e with
      | directory => simp [move, hf, bind, Except.bind] at h
      | file content mode =>
          cases hm : t.locate target with
          | error e => simp [move, hf, hm, bind, Except.bind] at h
          | ok m =>
              have hplace := locate_eq hm
              subst hplace
              -- the file is taken from its place first and put at the other one then
              have hput : ¬ t.HasDir (t.placeOf target)
                  ∧ t' = (t.erase l).put (t.placeOf target) (.file content mode) := by
                simp only [move, hf, hm, bind, Except.bind] at h
                rw [HasDir]
                split at h
                · simp at h
                · rename_i hne
                  split_ifs at h
                  exact ⟨hne, (Except.ok.inj h).symm⟩
              obtain ⟨hdir, rfl⟩ := hput
              have hdir' := not_hasDir_of_get? hget
              -- taking it away makes no directory, so what is put there hides none
              have hdir'' : ¬ (t.erase l).HasDir (t.placeOf target) := by
                intro hd
                rw [HasDir, get?_erase _ (ne_nil_of_not_hasDir hdir)] at hd
                split_ifs at hd
                exact hdir hd
              refine ⟨(keepsDirs_erase hdir').trans (keepsDirs_put hdir''), rfl, _,
                file?_of_get? hget, fun m => ?_⟩
              rw [file?_put hdir'', file?_erase (ne_nil_of_not_hasDir hdir')]

/-- A move is refused if the path leads nowhere, or to a directory, or is written like that of
one. -/
lemma move_eq_error {source target : String} {content : List UInt8} {mode : ℕ}
    (hf : t.find source = .ok (l, .file content mode))
    (h : ∀ m, t.locate target = .ok m → t.HasDir m ∨ namesDirectory target = true) :
    ∃ x, t.move source target = .error x := by
  cases hm : t.locate target with
  | error x => exact ⟨x, by simp [move, hf, hm, bind, Except.bind]⟩
  | ok m =>
      -- a directory in the way is reported before the text of the path is looked at
      rcases h m hm with hdir | hname
      · rw [HasDir] at hdir
        exact ⟨.isDirectory, by simp [move, hf, hm, hdir, bind, Except.bind]⟩
      · cases hget : t.get? m with
        | none => exact ⟨.notDirectory, by simp [move, hf, hm, hget, hname, bind, Except.bind]⟩
        | some e =>
            cases e with
            | directory =>
                exact ⟨.isDirectory, by simp [move, hf, hm, hget, bind, Except.bind]⟩
            | file content' mode' =>
                exact ⟨.notDirectory, by simp [move, hf, hm, hget, hname, bind, Except.bind]⟩

/-- Otherwise the file is taken from its place and put at the other one. -/
lemma move_eq_put {source target : String} {content : List UInt8} {mode : ℕ}
    (hf : t.find source = .ok (l, .file content mode)) (hm : t.locate target = .ok m)
    (hdir : ¬ t.HasDir m) (hname : namesDirectory target = false) :
    t.move source target = .ok ((t.erase l).put m (.file content mode)) := by
  simp only [move, hf, hm, hname, bind, Except.bind]
  split
  · next hget => exact absurd hget hdir
  · rfl

/-- A file that was removed was there. -/
lemma remove_eq_erase (h : t.remove p = .ok t') :
    t.isFile p = true ∧ t' = t.erase (t.placeOf p) := by
  cases hf : t.find p with
  | error e => simp [remove, hf, bind, Except.bind] at h
  | ok r =>
      obtain ⟨l, e⟩ := r
      rw [← locate_eq (find_eq_ok hf).1]
      cases e with
      | directory => simp [remove, hf, bind, Except.bind] at h
      | file content mode =>
          simp only [remove, hf, bind, Except.bind] at h
          exact ⟨isFile_iff.mpr ⟨l, content, mode, hf⟩, (Except.ok.inj h).symm⟩

/-- A file that was removed is gone, and all others are as before. -/
lemma remove_eq_ok (h : t.remove p = .ok t') :
    t.KeepsDirs t' ∧ ∀ m, t'.file? m = if m = t.placeOf p then none else t.file? m := by
  obtain ⟨hfile, rfl⟩ := remove_eq_erase h
  have hdir := not_hasDir_of_isFile hfile
  exact ⟨keepsDirs_erase hdir, fun m => file?_erase (ne_nil_of_not_hasDir hdir)⟩

/-- What cannot be removed is no file. -/
lemma isFile_of_remove_eq_error {e : OsError} (h : t.remove p = .error e) :
    t.isFile p = false := by
  rw [← Bool.not_eq_true, isFile_iff]
  rintro ⟨l, content, mode, hf⟩
  simp [remove, hf, bind, Except.bind] at h

/-- The removal of a file at the path is not refused. There need be none. -/
def CanRemove (t : FileTree) (p : String) : Prop := ∀ x, t.remove p = .error x → x = .notFound

/-- The question for the names in the directory is not refused. There need be none. -/
def CanList (t : FileTree) (p : String) : Prop := ∀ x, t.names p = .error x → x = .notFound

lemma canRemove_of_isFile (h : t.isFile p = true) : t.CanRemove p := by
  intro x hx
  rw [isFile_of_remove_eq_error hx] at h
  exact absurd h (by simp)

/-- There is no directory at the empty path. -/
lemma names_empty (t : FileTree) : t.names "" = .error .notFound := by
  simp [names, find, locate, bind, Except.bind]

/-- A directory that a file lies in has names. -/
lemma canList_of_isFile (hn : Path.IsEntryName n) (h : t.isFile (Path.join dir n) = true) :
    t.CanList dir := by
  intro x hx
  -- a name joined to the empty path leads to an entry, but the empty path leads nowhere
  by_cases hdir : dir = ""
  · rw [hdir, names_empty] at hx
    exact (Except.error.inj hx).symm
  · obtain ⟨ns, hns, -⟩ := mem_names_of_isFile hdir hn h
    rw [hns] at hx
    exact absurd hx (by simp)

/-! ### New directories -/

/-- The second tree has more directories and otherwise the same files. -/
structure AddsDirs (t t' : FileTree) : Prop extends KeepsDirs t t' where
  file?_eq : ∀ l, t'.file? l = t.file? l

lemma AddsDirs.refl (t : FileTree) : t.AddsDirs t := ⟨.refl t, fun _ => rfl⟩

lemma AddsDirs.trans (h : t.AddsDirs t') (h' : t'.AddsDirs u) : t.AddsDirs u :=
  ⟨h.toKeepsDirs.trans h'.toKeepsDirs, fun l => (h'.file?_eq l).trans (h.file?_eq l)⟩

/-- A directory that was made is there. -/
lemma makeDir_eq_ok (h : t.makeDir p = .ok t') : t.AddsDirs t' ∧ t'.isDir p = true := by
  cases hl : t.locate p with
  | error e => simp [makeDir, hl, bind, Except.bind] at h
  | ok l =>
      simp only [makeDir, hl, bind, Except.bind] at h
      split at h
      · simp at h
      · rename_i hnone
        have hdir : ¬ t.HasDir l := by
          rw [HasDir, hnone]
          simp
        have hput := Except.ok.inj h
        subst hput
        have hkeeps : t.KeepsDirs (t.put l .directory) := keepsDirs_put hdir
        refine ⟨⟨hkeeps, fun m => file?_put_directory hnone⟩, ?_⟩
        refine isDir_iff.mpr ⟨l, hkeeps.locate_eq hl, ?_⟩
        rw [HasDir, get?_put _ _ (ne_nil_of_not_hasDir hdir), if_pos rfl]

lemma ensureDir_eq_ok (h : t.ensureDir p = .ok t') :
    t.AddsDirs t' ∧ (p ≠ "" → t'.isDir p = true) := by
  rw [ensureDir] at h
  by_cases hp : p.isEmpty
  · rw [if_pos hp] at h
    cases h
    exact ⟨.refl t, fun hne => absurd (by simpa using hp) hne⟩
  · rw [if_neg hp] at h
    cases hu : t.makeDir p with
    | ok u =>
        rw [hu] at h
        cases h
        exact ⟨(makeDir_eq_ok hu).1, fun _ => (makeDir_eq_ok hu).2⟩
    | error e =>
        simp only [hu] at h
        -- a refusal counts for nothing if the directory is there
        split_ifs at h with hdir
        cases h
        exact ⟨.refl t, fun _ => hdir⟩

lemma makeDirsFrom_eq_ok {above : List String} (h : t.makeDirsFrom (p :: above) = .ok t') :
    t.AddsDirs t' ∧ (p ≠ "" → t'.isDir p = true) := by
  -- the induction is on the directories above the path, of which the last one that is missing is
  -- made first
  induction above generalizing t t' p with
  | nil =>
      rw [makeDirsFrom] at h
      split at h
      · simp only [makeDirsFrom, bind, Except.bind] at h
        exact ensureDir_eq_ok h
      · exact ensureDir_eq_ok h
  | cons q above ih =>
      rw [makeDirsFrom] at h
      split at h
      · cases hu : t.makeDirsFrom (q :: above) with
        | error e => simp [hu, bind, Except.bind] at h
        | ok u =>
            rw [hu] at h
            obtain ⟨hadds, hdir⟩ := ensureDir_eq_ok (t := u) h
            exact ⟨(ih hu).1.trans hadds, hdir⟩
      · exact ensureDir_eq_ok h

/-- Directories that were made with those above them are there, and no file is another one. -/
lemma makeDirs_eq_ok (h : t.makeDirs p = .ok t') :
    t.AddsDirs t' ∧ (p ≠ "" → t'.isDir p = true) := by
  rw [makeDirs] at h
  cases hn : (Path.parts p).length with
  | zero =>
      rw [hn, ancestors] at h
      exact makeDirsFrom_eq_ok h
  | succ n =>
      rw [hn, ancestors] at h
      exact makeDirsFrom_eq_ok h

end FileTree

end ProcUnits.Host
