import ProcUnits.Install.Files
import ProcUnits.Proofs.Host.Changes

/-!
What writing and removing files does to a host.

* `Error.IsRefusal`, `Refused`: the errors of operations on files. There are no others here;
* `alters_writeFile`, `alters_makeDirs`: the locations at which files may be others afterwards;
* `writeFile_ok`: a file that was written is there, with its text and its permission bits;
* `clears_removeFile`, `clears_removeMatching`: what was there before a removal is gone after it,
  and other files are as they were.
-/

namespace ProcUnits.Install

open Host (Attempt FileTree Location OsError)

variable {h h' : Host} {p text dir pattern n : String} {mode : ℕ}

/-- The error is that an operation on files was refused. -/
def Error.IsRefusal (e : Error) : Prop := ∃ path x, e = .io path x

/-- What was done has failed in an operation on files. -/
def Refused {α : Type} (r : Except Error α) : Prop := ∃ e, r = .error e ∧ e.IsRefusal

lemma not_refused_ok {α : Type} (x : α) : ¬ Refused (.ok x) := by
  rintro ⟨e, he, -⟩
  exact absurd he (by simp)

/-! ### One operation -/

lemma ends_onFile {f : FileTree → Except OsError FileTree} {r : Except Error Unit} :
    (onFile p f).Ends h r h'
      ↔ (∃ t, f h.files = .ok t ∧ r = .ok () ∧ h' = { h with files := t })
        ∨ ∃ e, f h.files = .error e ∧ r = .error (.io p e) ∧ h' = h :=
  Attempt.ends_onFiles

lemma onFile_ok {f : FileTree → Except OsError FileTree} (he : (onFile p f).Ends h (.ok ()) h') :
    ∃ t, f h.files = .ok t ∧ h' = { h with files := t } := by
  rcases ends_onFile.mp he with ⟨t, ht, -, hh⟩ | ⟨e, -, hr, -⟩
  · exact ⟨t, ht, hh⟩
  · exact absurd hr (by simp)

/-- What follows an operation on files begins with the operation done, unless that is refused. -/
lemma ends_onFile_bind {α : Type} {f : FileTree → Except OsError FileTree}
    {g : Unit → Attempt Error α} {r : Except Error α} :
    (onFile p f >>= g).Ends h r h' ↔ match f h.files with
      | .ok t => (g ()).Ends { h with files := t } r h'
      | .error x => r = .error (.io p x) ∧ h' = h := by
  rw [Attempt.ends_bind]
  simp only [ends_onFile]
  cases f h.files with
  | ok t =>
      simp only [Except.ok.injEq, reduceCtorEq, exists_eq_left', false_and, exists_false, or_false,
        and_false, false_or, true_and]
      constructor
      · rintro ⟨_, _, rfl, he⟩
        exact he
      · exact fun he => ⟨(), _, rfl, he⟩
  | error x =>
      simp only [reduceCtorEq, Except.error.injEq, false_and, exists_false, false_or, and_false,
        or_false]
      constructor
      · rintro ⟨e, ⟨_, rfl, rfl, rfl⟩, rfl⟩
        exact ⟨rfl, rfl⟩
      · rintro ⟨rfl, rfl⟩
        exact ⟨_, ⟨x, rfl, rfl, rfl⟩, rfl⟩

lemma raises_onFile (p : String) (f : FileTree → Except OsError FileTree) :
    (onFile p f).Raises Error.IsRefusal := by
  intro h e h' he
  rcases ends_onFile.mp he with ⟨t, -, hr, -⟩ | ⟨x, -, hr, -⟩
  · exact absurd hr (by simp)
  · cases hr
    exact ⟨p, x, rfl⟩

/-- An operation on files changes what the tree that comes of it has changed. -/
lemma alters_onFile {removed written : Location → Set Location}
    {f : FileTree → Except OsError FileTree}
    (hf : ∀ t u, f t = .ok u → t.KeepsDirs u ∧ ∀ l, u.file? l = t.file? l
      ∨ (l ∈ removed t.workingDir ∧ u.file? l = none) ∨ l ∈ written t.workingDir) :
    (onFile p f).Alters removed written := by
  intro h r h' he
  rcases ends_onFile.mp he with ⟨t, ht, -, rfl⟩ | ⟨e, -, -, rfl⟩
  · obtain ⟨hk, hl⟩ := hf _ _ ht
    exact .of_files hk hl
  · exact .refl _

/-! ### Writing -/

/-- The locations that the writing of a file changes: its own and that of its draft. -/
def writePlaces (p : String) (w : Location) : Set Location :=
  {l | l = Host.placeFrom w p ∨ l = Host.placeFrom w (draftPath p)}

/-- The name of a draft is one that an entry can have. -/
lemma isEntryName_draft (hn : '/' ∉ n.toList) : Path.IsEntryName ("." ++ n ++ ".tmp") := by
  have hlen : 4 ≤ ("." ++ n ++ ".tmp").toList.length := by
    simp [String.toList_append]
  refine ⟨?_, ?_, ?_, ?_⟩
  · intro h
    simp [h] at hlen
  · intro h
    simp [h] at hlen
  · intro h
    simp [h] at hlen
  · simpa [String.toList_append] using hn

/-- The last name on the way to a draft. -/
lemma getLast?_draft (w : Location) (dir : String) (hn : Path.IsEntryName n) :
    (Host.placeFrom w (draftPath (Path.join dir n))).getLast?
      = some (.text ("." ++ n ++ ".tmp")) := by
  have hdraft := isEntryName_draft hn.slash_not_mem
  rw [draftPath, Path.withFileName, Path.fileName?_join dir hn, Option.isSome_some, if_pos rfl,
    Option.getD_some, Host.placeFrom_join _ _ hdraft, List.getLast?_concat]

lemma alters_writeFile (p text : String) (mode : ℕ) :
    (writeFile p text mode).Alters (writePlaces p) (writePlaces p) := by
  refine .bind (alters_onFile fun t u hu => ?_) fun _ =>
    .bind (alters_onFile fun t u hu => ?_) fun _ =>
    .bind (alters_onFile fun t u hu => ?_) fun _ => Host.alters_emit ..
  · obtain ⟨hk, m, hu⟩ := FileTree.write_eq_ok hu
    refine ⟨hk, fun l => ?_⟩
    rw [hu]
    split_ifs with hl
    · exact Or.inr (Or.inr (Or.inr hl))
    · exact Or.inl rfl
  · obtain ⟨hk, content, old, -, hu⟩ := FileTree.setMode_eq_ok hu
    refine ⟨hk, fun l => ?_⟩
    rw [hu]
    split_ifs with hl
    · exact Or.inr (Or.inr (Or.inr hl))
    · exact Or.inl rfl
  · obtain ⟨hk, -, f, -, hu⟩ := FileTree.move_eq_ok hu
    refine ⟨hk, fun l => ?_⟩
    rw [hu]
    split_ifs with hl hl'
    · exact Or.inr (Or.inr (Or.inl hl))
    · exact Or.inr (Or.inl ⟨Or.inr hl', rfl⟩)
    · exact Or.inl rfl

lemma raises_writeFile (p text : String) (mode : ℕ) :
    (writeFile p text mode).Raises Error.IsRefusal :=
  .bind (raises_onFile ..) fun _ => .bind (raises_onFile ..) fun _ =>
    .bind (raises_onFile ..) fun _ => Attempt.raises_lift _

/-- A tree after a draft was written, got its permission bits and was moved to its place. -/
lemma file?_of_draft {t t₁ t₂ t₃ : FileTree} {draft : String} {content : List UInt8} {m : ℕ}
    (hwrite : t.write draft content m = .ok t₁) (hmode : t₁.setMode draft mode = .ok t₂)
    (hmove : t₂.move draft p = .ok t₃) :
    t₃.file? (t.placeOf p) = some (content, mode) ∧ t₃.locate p = .ok (t.placeOf p) := by
  obtain ⟨hk₁, m', hf₁⟩ := FileTree.write_eq_ok hwrite
  obtain ⟨hk₂, content₂, old, hold, hf₂⟩ := FileTree.setMode_eq_ok hmode
  obtain ⟨hk₃, hl, f, hf, hf₃⟩ := FileTree.move_eq_ok hmove
  rw [hk₁.placeOf_eq, hf₁, if_pos rfl, Option.some.injEq, Prod.mk.injEq] at hold
  rw [hk₂.placeOf_eq, hf₂, if_pos rfl, Option.some.injEq] at hf
  have hplace : t₂.placeOf p = t.placeOf p := (hk₁.trans hk₂).placeOf_eq p
  rw [hplace] at hl hf₃
  refine ⟨?_, hk₃.locate_eq hl⟩
  rw [hf₃, if_pos rfl, ← hf, hold.1]

/-- A file that was written is there, with its text and exactly its permission bits. -/
theorem writeFile_ok (hn : Path.IsEntryName n)
    (hlog : ¬ h.LogsTo (h.files.placeOf (Path.join dir n)))
    (he : (writeFile (Path.join dir n) text mode).Ends h (.ok ()) h') :
    h'.files.file? (h.files.placeOf (Path.join dir n)) = some (Text.Utf8.encode text, mode)
      ∧ h'.files.isFile (Path.join dir n) = true := by
  obtain ⟨_, h₁, hwrite, he₁⟩ := Attempt.ends_bind_ok.mp he
  obtain ⟨_, h₂, hmode, he₂⟩ := Attempt.ends_bind_ok.mp he₁
  obtain ⟨_, h₃, hmove, he₃⟩ := Attempt.ends_bind_ok.mp he₂
  obtain ⟨-, rfl⟩ := Host.ends_emit.mp he₃
  obtain ⟨t₁, ht₁, rfl⟩ := onFile_ok hwrite
  obtain ⟨t₂, ht₂, rfl⟩ := onFile_ok hmode
  obtain ⟨t₃, ht₃, rfl⟩ := onFile_ok hmove
  obtain ⟨hfile, hl⟩ := file?_of_draft ht₁ ht₂ ht₃
  -- the record that ends the writing changes only the log
  have hrecord : Host.Changes _ ∅ ∅ _ := Host.changes_withRecord { h with files := t₃ }
    .debug s!"Wrote {Path.join dir n}"
  have hfile' := (hrecord.file?_eq hlog (by simp) (by simp)).trans hfile
  refine ⟨hfile', (FileTree.isFile_join_iff hn).mpr ⟨⟨_, hrecord.keepsDirs.locate_eq hl⟩, ?_⟩⟩
  have hplace := FileTree.locate_eq (hrecord.keepsDirs.locate_eq hl)
  exact ⟨_, hplace ▸ hfile'⟩

/-! ### Removing a file -/

/-- A removal takes the file away, or there is none, or it is refused. -/
lemma removeFile_ends {r : Except Error Bool} (he : (removeFile p).Ends h r h') :
    (∃ t, h.files.remove p = .ok t ∧ r = .ok true
      ∧ h' = Host.withRecord { h with files := t } .debug s!"Removed {p}")
    ∨ (h.files.remove p = .error .notFound ∧ r = .ok false ∧ h' = h)
    ∨ ∃ x, x ≠ .notFound ∧ h.files.remove p = .error x ∧ r = .error (.io p x) ∧ h' = h := by
  rw [removeFile, Attempt.ends_get_bind] at he
  split at he
  · rename_i t ht
    obtain ⟨e, he, -⟩ | ⟨_, h₁, hmodify, he⟩ := Attempt.ends_bind.mp he
    · exact absurd (Attempt.ends_modify.mp he).1 (by simp)
    · obtain ⟨-, rfl⟩ := Attempt.ends_modify.mp hmodify
      rw [Attempt.ends_lift_bind] at he
      obtain ⟨rfl, rfl⟩ := Attempt.ends_pure.mp he
      exact Or.inl ⟨t, ht, rfl, rfl⟩
  · rename_i hnone
    obtain ⟨rfl, rfl⟩ := Attempt.ends_pure.mp he
    exact Or.inr (Or.inl ⟨hnone, rfl, rfl⟩)
  · rename_i x hne hx
    obtain ⟨rfl, rfl⟩ := Attempt.ends_throw.mp he
    exact Or.inr (Or.inr ⟨x, hne, hx, rfl, rfl⟩)

lemma raises_removeFile (p : String) : (removeFile p).Raises Error.IsRefusal := by
  intro h e h' he
  rcases removeFile_ends he with ⟨t, -, hr, -⟩ | ⟨-, hr, -⟩ | ⟨x, -, -, hr, -⟩
  · exact absurd hr (by simp)
  · exact absurd hr (by simp)
  · cases hr
    exact ⟨p, x, rfl⟩

lemma alters_removeFile (p : String) :
    (removeFile p).Alters (fun w => {Host.placeFrom w p}) fun _ => ∅ := by
  intro h r h' he
  rcases removeFile_ends he with ⟨t, ht, -, rfl⟩ | ⟨-, -, rfl⟩ | ⟨x, -, -, -, rfl⟩
  · obtain ⟨hk, hfile⟩ := FileTree.remove_eq_ok ht
    refine (Host.Changes.of_files hk fun l => ?_).trans (Host.changes_withRecord ..)
    rw [hfile]
    split_ifs with hl
    · exact Or.inr (Or.inl ⟨hl, rfl⟩)
    · exact Or.inl rfl
  · exact .refl _
  · exact .refl _

/-- A file that was there is gone after its removal. -/
lemma clears_removeFile (p : String) :
    (removeFile p).Clears (fun w => {Host.placeFrom w p}) {p} := by
  refine ⟨alters_removeFile p, ?_⟩
  intro h b h' he q hq hfile hlog
  rw [show q = p from hq] at hfile hlog ⊢
  rcases removeFile_ends he with ⟨t, ht, -, rfl⟩ | ⟨hnone, -⟩ | ⟨x, -, -, hr, -⟩
  · have hrecord : Host.Changes _ ∅ ∅ _ :=
      Host.changes_withRecord { h with files := t } .debug s!"Removed {p}"
    rw [hrecord.file?_eq hlog (by simp) (by simp)]
    exact ((FileTree.remove_eq_ok ht).2 _).trans (if_pos rfl)
  · rw [FileTree.isFile_of_remove_eq_error hnone] at hfile
    exact absurd hfile (by simp)
  · exact absurd hr (by simp)

/-! ### Removing matching files -/

lemma mem_matchingNames_iff {ns : List Host.Name} :
    n ∈ matchingNames pattern ns ↔ .text n ∈ ns ∧ Glob.isMatch pattern n = true := by
  rw [matchingNames, List.mem_filter, List.mem_filterMap]
  refine and_congr_left' ⟨?_, fun hn => ⟨_, hn, rfl⟩⟩
  rintro ⟨m, hm, htext⟩
  cases m with
  | text n' =>
      obtain rfl := Option.some.inj htext
      exact hm
  | octets bs hbs => exact absurd htext (by simp [Host.Name.text?])

/-- The files that are found are at the paths of matching names. -/
lemma mem_matchingFiles {t : FileTree} {ps : List String}
    (h : matchingFiles t dir pattern = .ok ps) (hp : p ∈ ps) :
    ∃ n, Glob.isMatch pattern n = true ∧ p = Path.join dir n := by
  rw [matchingFiles] at h
  split at h
  · cases h
    obtain ⟨hmap, -⟩ := List.mem_filter.mp hp
    obtain ⟨n, hn, rfl⟩ := List.mem_map.mp hmap
    exact ⟨n, (mem_matchingNames_iff.mp hn).2, rfl⟩
  · cases h
    exact absurd hp List.not_mem_nil
  · exact absurd h (by simp)

lemma isFile_of_mem_matchingFiles {t : FileTree} {ps : List String}
    (h : matchingFiles t dir pattern = .ok ps) (hp : p ∈ ps) : t.isFile p = true := by
  rw [matchingFiles] at h
  split at h
  · cases h
    exact (List.mem_filter.mp hp).2
  · cases h
    exact absurd hp List.not_mem_nil
  · exact absurd h (by simp)

/-- A directory that is not there has no files. -/
lemma matchingFiles_eq_error {t : FileTree} {x : OsError}
    (h : matchingFiles t dir pattern = .error x) : x ≠ .notFound ∧ t.names dir = .error x := by
  rw [matchingFiles] at h
  split at h
  · cases h
  · cases h
  · rename_i hne hx
    cases h
    exact ⟨hne, hx⟩

/-- All files of matching names are found. -/
lemma join_mem_matchingFiles {t : FileTree} {ps : List String} (hdir : dir ≠ "")
    (hn : Path.IsEntryName n) (h : matchingFiles t dir pattern = .ok ps)
    (hmatch : Glob.isMatch pattern n = true) (hfile : t.isFile (Path.join dir n) = true) :
    Path.join dir n ∈ ps := by
  obtain ⟨ns, hns, hmem⟩ := FileTree.mem_names_of_isFile hdir hn hfile
  rw [matchingFiles, hns] at h
  cases h
  have hn' : n ∈ matchingNames pattern ns := mem_matchingNames_iff.mpr ⟨hmem, hmatch⟩
  exact List.mem_filter.mpr ⟨List.mem_map_of_mem hn', hfile⟩

lemma removeMatching_ends {r : Except Error (List String)}
    (he : (removeMatching dir pattern).Ends h r h') :
    (∃ ps, matchingFiles h.files dir pattern = .ok ps ∧ (ps.filterM removeFile).Ends h r h')
      ∨ ∃ x, x ≠ .notFound ∧ h.files.names dir = .error x ∧ r = .error (.io dir x) ∧ h' = h := by
  rw [removeMatching, Attempt.ends_get_bind] at he
  split at he
  · rename_i x hx
    obtain ⟨rfl, rfl⟩ := Attempt.ends_throw.mp he
    obtain ⟨hne, hx⟩ := matchingFiles_eq_error hx
    exact Or.inr ⟨x, hne, hx, rfl, rfl⟩
  · rename_i ps hps
    exact Or.inl ⟨ps, hps, he⟩

lemma raises_removeMatching (dir pattern : String) :
    (removeMatching dir pattern).Raises Error.IsRefusal := by
  intro h e h' he
  rcases removeMatching_ends he with ⟨ps, -, hend⟩ | ⟨x, -, -, hr, -⟩
  · exact Attempt.raises_filterM raises_removeFile hend
  · cases hr
    exact ⟨dir, x, rfl⟩

/-- A file of a matching name that was there is gone after the removal. The empty path is that of
no directory, and nothing is found there. -/
theorem clears_removeMatching {removed : Location → Set Location}
    (hremoved : ∀ w n, Glob.isMatch pattern n = true →
      Host.placeFrom w (Path.join dir n) ∈ removed w) :
    (removeMatching dir pattern).Clears removed
      {p | ∃ n, dir ≠ "" ∧ Path.IsEntryName n ∧ Glob.isMatch pattern n = true
        ∧ p = Path.join dir n} := by
  have hall : ∀ {t ps}, matchingFiles t dir pattern = .ok ps →
      (ps.filterM removeFile).Clears removed {p | p ∈ ps} := by
    intro t ps hps
    refine Attempt.clears_filterM fun p hp => ?_
    obtain ⟨n, hmatch, rfl⟩ := mem_matchingFiles hps hp
    have hremove := clears_removeFile (Path.join dir n)
    refine ⟨hremove.alters.mono (fun w l hl => ?_) fun w => subset_rfl, hremove.file?_eq_none⟩
    rw [show l = _ from hl]
    exact hremoved w n hmatch
  refine ⟨?_, ?_⟩
  · intro h r h' he
    rcases removeMatching_ends he with ⟨ps, hps, hend⟩ | ⟨x, -, -, -, rfl⟩
    · exact (hall hps).alters hend
    · exact .refl _
  · rintro h removed h' he _ ⟨n, hdir, hn, hmatch, rfl⟩ hfile hlog
    rcases removeMatching_ends he with ⟨ps, hps, hend⟩ | ⟨x, -, -, hr, -⟩
    · have hmem := join_mem_matchingFiles hdir hn hps hmatch hfile
      exact (hall hps).file?_eq_none hend _ hmem hfile hlog
    · exact absurd hr (by simp)

/-! ### Making directories -/

lemma alters_makeDirs (p : String) {removed written : Location → Set Location} :
    (makeDirs p).Alters removed written := by
  refine alters_onFile fun t u hu => ?_
  obtain ⟨hadds, -⟩ := FileTree.makeDirs_eq_ok hu
  exact ⟨hadds.toKeepsDirs, fun l => Or.inl (hadds.file?_eq l)⟩

end ProcUnits.Install
