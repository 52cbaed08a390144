import ProcUnits.Proofs.Install.Files
import ProcUnits.Proofs.Outcome
import ProcUnits.Proofs.Path.Parent

/-!
What the writing of a file leaves behind. Section 6 of the specification asks for an "atomic-enough"
way to write.

* `parts_draftPath`, `locate_of_draft`: the draft of a file lies beside it, under a longer name, so
  that the path of the file leads somewhere if that of the draft does;
* `IsBlocked`: there is no place for a file at its path;
* `HasNew`, `HasMoved`: what a tree is with the draft beside its file, and with the draft moved;
* `writeFile_ends`: a file is written with nothing else changed, or its draft is refused and nothing
  is changed at all, or its place is blocked. Then the draft stays.
-/

namespace ProcUnits.Install

open Host (Attempt FileTree Location)

variable {h h' : Host} {p text n : String} {mode : ℕ} {t : FileTree} {l : Location}

/-! ### The place of a draft -/

/-- The draft lies beside the file under a longer name. If the path is that of a directory, it lies
in there. -/
inductive IsBeside (p d : String) (front : List Path.Part) : Prop
  | inside (hp : Path.parts p = front)
  | file {n : String} (hp : Path.parts p = front ++ [.name n]) (hd : d = "." ++ n ++ ".tmp")

lemma parts_draftPath (p : String) :
    ∃ front d, Path.parts (draftPath p) = front ++ [.name d] ∧ IsBeside p d front := by
  cases hname : Path.fileName? p with
  | none =>
      refine ⟨Path.parts p, "." ++ "" ++ ".tmp", ?_, .inside rfl⟩
      rw [draftPath, hname, Path.withFileName, hname, if_neg (by simp)]
      exact Path.parts_join p (isEntryName_draft (by simp))
  | some n =>
      have hn := isEntryName_draft (Path.isEntryName_of_fileName? hname).slash_not_mem
      refine ⟨Path.parts (Path.parent p), "." ++ n ++ ".tmp", ?_,
        .file (Path.parts_parent hname) rfl⟩
      rw [draftPath, hname]
      exact Path.parts_withFileName hname hn

lemma placeFrom_append {q d : String} {front : List Path.Part} (w : Location)
    (hq : Path.parts q = front ++ [.name d]) :
    Host.placeFrom w q = front.foldl Location.step w ++ [.text d] := by
  rw [Host.placeFrom, hq, List.foldl_append]
  rfl

/-- A file and its draft are never at the same place. -/
lemma placeOf_draftPath_ne (t : FileTree) (p : String) : t.placeOf (draftPath p) ≠ t.placeOf p := by
  obtain ⟨front, d, hdraft, hp⟩ := parts_draftPath p
  rw [FileTree.placeOf, FileTree.placeOf, placeFrom_append _ hdraft]
  cases hp with
  | inside hp =>
      rw [Host.placeFrom, hp]
      simp
  | @file n hp hd =>
      rw [placeFrom_append _ hp, hd]
      intro heq
      have hname := Host.Name.text.inj (List.singleton_inj.mp (List.append_cancel_left heq))
      have hlen := congrArg (·.toList.length) hname
      simp only [String.toList_append, List.length_append] at hlen
      have hdot : ".".toList.length = 1 := rfl
      omega

/-- A character that is no dot and no slash is in the path of the draft if it is in that of the
file. -/
lemma mem_draftPath {c : Char} (hslash : c ≠ '/') (hdot : c ≠ '.') (hc : c ∈ p.toList) :
    c ∈ (draftPath p).toList := by
  obtain ⟨front, d, hdraft, hbeside⟩ := parts_draftPath p
  obtain ⟨m, hm, hc⟩ := (Path.mem_toList_iff hslash hdot).mp hc
  rw [Path.mem_toList_iff hslash hdot, hdraft]
  cases hbeside with
  | inside hp => exact ⟨m, List.mem_append_left _ (hp ▸ hm), hc⟩
  | @file n hp hd =>
      rw [hp, List.mem_append, List.mem_singleton] at hm
      rcases hm with hm | hm
      · exact ⟨m, List.mem_append_left _ hm, hc⟩
      · refine ⟨d, List.mem_append_right _ List.mem_cons_self, ?_⟩
        cases hm
        simp [hd, String.toList_append, hc]

/-- Where a draft has a place, its file has one too: there is a directory for both, and the name of
the file is the shorter one. -/
lemma locate_of_draft (hp : p ≠ "") (h : t.locate (draftPath p) = .ok l) :
    t.locate p = .ok (t.placeOf p) := by
  obtain ⟨front, d, hdraft, hbeside⟩ := parts_draftPath p
  have hnul : '\x00' ∉ p.toList := by
    intro hmem
    rw [FileTree.locate, if_pos (mem_draftPath (by decide) (by decide) hmem)] at h
    cases h
  have hsteps : ∃ k, front.foldlM t.step t.workingDir = .ok k ∧ t.step k (.name d) = .ok l := by
    rw [FileTree.locate] at h
    split_ifs at h
    rw [hdraft, List.foldlM_append, bind_eq_ok_iff] at h
    simpa using h
  obtain ⟨k, hfront, hname⟩ := hsteps
  have hlocate : ∃ m, t.locate p = .ok m := by
    rw [FileTree.locate, if_neg hnul, if_neg (by simpa using hp)]
    cases hbeside with
    | inside hp => exact ⟨k, hp ▸ hfront⟩
    | @file n hp hd =>
        refine ⟨k ++ [.text n], ?_⟩
        -- both names are looked up in the same directory, and the longer one is not too long
        have hdir := FileTree.hasDir_of_step hname (by simp)
        rw [FileTree.step_of_hasDir hdir] at hname
        simp only at hname
        split_ifs at hname with hlong
        have hshort : ¬ FileTree.maxName < n.utf8ByteSize := by
          rw [hd, String.utf8ByteSize_append, String.utf8ByteSize_append] at hlong
          omega
        rw [hp, List.foldlM_append, bind_eq_ok_iff]
        exact ⟨k, hfront, by simp [FileTree.step_of_hasDir hdir, hshort]⟩
  obtain ⟨m, hm⟩ := hlocate
  rw [hm, FileTree.locate_eq hm]

/-! ### From the draft to the file -/

/-- There is no place for a file at the path: it is empty, or leads to a directory, or is written
like that of one. -/
def IsBlocked (t : FileTree) (p : String) : Prop :=
  p = "" ∨ t.HasDir (t.placeOf p) ∨ FileTree.namesDirectory p = true

/-- The second tree is the first one with a file at the path. -/
structure HasNew (t t' : FileTree) (p : String) (content : List UInt8) (mode : ℕ) : Prop where
  keepsDirs : t.KeepsDirs t'
  find_eq : t'.find p = .ok (t.placeOf p, .file content mode)
  get?_eq : ∀ l, l ≠ t.placeOf p → t'.get? l = t.get? l

variable {t₁ t₂ : FileTree} {content : List UInt8}

lemma hasNew_put (hl : t.locate p = .ok (t.placeOf p))
    (hname : FileTree.namesDirectory p = false) (hdir : ¬ t.HasDir (t.placeOf p))
    (content : List UInt8) (mode : ℕ) :
    HasNew t (t.put (t.placeOf p) (.file content mode)) p content mode := by
  have hkeep := FileTree.keepsDirs_put (e := .file content mode) hdir
  refine ⟨hkeep, FileTree.find_of_file (hkeep.locate_eq hl) hname ?_,
    fun l hne => FileTree.get?_put_of_ne _ _ hne⟩
  rw [FileTree.get?_put _ _ (FileTree.ne_nil_of_not_hasDir hdir), if_pos rfl]

/-- A draft that was written gets its permission bits. -/
lemma hasNew_of_write (h : t.write p content mode = .ok t₁) :
    ∃ t₂, t₁.setMode p mode = .ok t₂ ∧ HasNew t t₂ p content mode := by
  obtain ⟨hl, hname⟩ := FileTree.locate_of_write h
  obtain ⟨hdir, old, rfl⟩ := FileTree.write_eq_put h
  have hnew := hasNew_put hl hname hdir content old
  have hset : (t.put (t.placeOf p) (.file content old)).setMode p mode
      = .ok ((t.put (t.placeOf p) (.file content old)).put (t.placeOf p) (.file content mode)) := by
    simp [FileTree.setMode, hnew.find_eq, bind, Except.bind]
  have hnew' := hasNew_put (hnew.keepsDirs.locate_eq hl) hname
    (FileTree.not_hasDir_of_get? (FileTree.find_eq_ok hnew.find_eq).2) content mode
  refine ⟨_, hset, hnew.keepsDirs.trans hnew'.keepsDirs, hnew'.find_eq, fun l hne => ?_⟩
  exact (hnew'.get?_eq l hne).trans (hnew.get?_eq l hne)

/-- The second tree is the first one with a file at the path, and without the draft of it. -/
structure HasMoved (t t' : FileTree) (p : String) (content : List UInt8) (mode : ℕ) : Prop where
  find_eq : t'.find p = .ok (t.placeOf p, .file content mode)
  get?_draft : t'.get? (t.placeOf (draftPath p)) = none
  get?_eq : ∀ l, l ≠ t.placeOf p → l ≠ t.placeOf (draftPath p) → t'.get? l = t.get? l

lemma HasNew.ne_nil (hnew : HasNew t t₁ p content mode) : t.placeOf p ≠ [] :=
  FileTree.ne_nil_of_not_hasDir
    (FileTree.not_hasDir_of_get? (FileTree.find_eq_ok hnew.find_eq).2)

/-- A draft is moved to the place of its file just if that is not blocked. -/
lemma HasNew.move (hnew : HasNew t t₁ (draftPath p) content mode)
    (hlocate : p ≠ "" → t.locate p = .ok (t.placeOf p)) :
    (IsBlocked t p ∧ ∃ x, t₁.move (draftPath p) p = .error x)
      ∨ ¬ IsBlocked t p ∧ ∃ t₂, t₁.move (draftPath p) p = .ok t₂
        ∧ HasMoved t t₂ p content mode := by
  have hplace := hnew.keepsDirs.placeOf_eq p
  have hdir : t₁.HasDir (t.placeOf p) ↔ t.HasDir (t.placeOf p) := by
    rw [FileTree.HasDir, FileTree.HasDir, hnew.get?_eq _ (placeOf_draftPath_ne t p).symm]
  -- the draft lies at another location, so it blocks nothing and frees nothing
  by_cases hblocked : IsBlocked t p
  · refine Or.inl ⟨hblocked, FileTree.move_eq_error hnew.find_eq fun m hm => ?_⟩
    obtain rfl := (FileTree.locate_eq hm).trans hplace
    rcases hblocked with rfl | hblocked | hblocked
    · cases hm
    · exact Or.inl (hdir.mpr hblocked)
    · exact Or.inr hblocked
  · have hfree := hblocked
    simp only [IsBlocked, not_or, Bool.not_eq_true] at hfree
    obtain ⟨hp, hfree, hname⟩ := hfree
    have hmove := FileTree.move_eq_put hnew.find_eq (hnew.keepsDirs.locate_eq (hlocate hp))
      (fun hd => hfree (hdir.mp hd)) hname
    refine Or.inr ⟨hblocked, _, hmove, ?_, ?_, fun l hl hl' => ?_⟩
    · obtain ⟨hk, hl, -⟩ := FileTree.move_eq_ok hmove
      rw [hplace] at hl
      refine FileTree.find_of_file (hk.locate_eq hl) hname ?_
      rw [FileTree.get?_put _ _ (FileTree.ne_nil_of_not_hasDir hfree), if_pos rfl]
    · rw [FileTree.get?_put_of_ne _ _ (placeOf_draftPath_ne t p),
        FileTree.get?_erase _ hnew.ne_nil, if_pos rfl]
    · rw [FileTree.get?_put_of_ne _ _ hl, FileTree.get?_erase_of_ne _ hl', hnew.get?_eq l hl']

/-- A file is written, and nothing else is changed, just if its draft can be written and its place
is not blocked. If the draft is refused, then nothing is changed at all. If the place is blocked,
then the draft stays, and all else is as it was. -/
theorem writeFile_ends {r : Except Error Unit} (he : (writeFile p text mode).Ends h r h') :
    (∃ x, h.files.write (draftPath p) (Text.Utf8.encode text) mode = .error x
        ∧ r = .error (.io (draftPath p) x) ∧ h' = h)
      ∨ (∃ t₁, h.files.write (draftPath p) (Text.Utf8.encode text) mode = .ok t₁)
        ∧ ((IsBlocked h.files p ∧ ∃ x t, r = .error (.io p x) ∧ h' = { h with files := t }
            ∧ HasNew h.files t (draftPath p) (Text.Utf8.encode text) mode)
          ∨ ¬ IsBlocked h.files p ∧ r = .ok () ∧ ∃ t,
            h' = ({ h with files := t } : Host).withRecord .debug s!"Wrote {p}"
            ∧ HasMoved h.files t p (Text.Utf8.encode text) mode) := by
  rw [writeFile, ends_onFile_bind] at he
  cases hwrite : h.files.write (draftPath p) (Text.Utf8.encode text) mode with
  | error x =>
      simp only [hwrite] at he
      exact Or.inl ⟨x, rfl, he⟩
  | ok t₁ =>
      obtain ⟨t₂, hmode, hnew⟩ := hasNew_of_write hwrite
      have hlocate (hp : p ≠ "") := locate_of_draft hp (FileTree.locate_of_write hwrite).1
      simp only [hwrite, ends_onFile_bind, hmode] at he
      refine Or.inr ⟨⟨t₁, rfl⟩, ?_⟩
      rcases hnew.move hlocate with ⟨hblocked, x, hmove⟩ | ⟨hfree, t₃, hmove, hmoved⟩
      · simp only [hmove] at he
        exact Or.inl ⟨hblocked, x, t₂, he.1, he.2, hnew⟩
      · simp only [hmove] at he
        obtain ⟨hr, hh⟩ := Host.ends_emit.mp he
        exact Or.inr ⟨hfree, hr, t₃, hh, hmoved⟩

/-- A host with a directory at the place of a unit. -/
def blockedHost : Host where
  files := { entries := [(["units"], .directory), (["units", "shop_web.conf"], .directory)] }

/-- The unit is refused, and its draft stays, which was not there. -/
theorem writeFile_blocked :
    blockedHost.files.get? ["units", ".shop_web.conf.tmp"] = none
      ∧ ∃ x h', (writeFile "/units/shop_web.conf" "exec serve" unitMode).Ends blockedHost
          (.error (.io "/units/shop_web.conf" x)) h'
        ∧ h'.files.get? ["units", ".shop_web.conf.tmp"]
          = some (.file (Text.Utf8.encode "exec serve") unitMode) := by
  obtain ⟨r, h', he⟩ := Attempt.exists_ends
    (writeFile "/units/shop_web.conf" "exec serve" unitMode) blockedHost
  have hdraft : blockedHost.files.placeOf (draftPath "/units/shop_web.conf")
      = [.text "units", .text ".shop_web.conf.tmp"] := by decide +kernel
  refine ⟨by decide, ?_⟩
  rcases writeFile_ends he with ⟨x, hx, -⟩ | ⟨-, ⟨-, x, t, rfl, rfl, hnew⟩ | ⟨hfree, -⟩⟩
  · have hok : (blockedHost.files.write (draftPath "/units/shop_web.conf")
      (Text.Utf8.encode "exec serve") unitMode).isOk = true := by decide +kernel
    rw [hx] at hok
    cases hok
  · exact ⟨x, _, he, hdraft ▸ (FileTree.find_eq_ok hnew.find_eq).2⟩
  · have hdir : blockedHost.files.HasDir (blockedHost.files.placeOf "/units/shop_web.conf") := by
      rw [FileTree.HasDir]
      decide +kernel
    exact absurd (Or.inr (Or.inl hdir)) hfree

end ProcUnits.Install
