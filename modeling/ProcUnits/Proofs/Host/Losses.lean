import ProcUnits.Proofs.Host.Changes
import ProcUnits.Proofs.Host.Quiet

/-!
What is left of a file tree after files were removed.

* `Host.Loses`: from one host to another the files at some paths have gone. All other entries of the
  tree are as they were, directories among them, but for the file of the log, which may have become
  longer;
* `Loses.trans`: losses one after the other add up;
* `Loses.canRemove`, `Loses.canList`: a loss is no reason to refuse what was not refused before;
* `Attempt.Erases`: an attempt that does its work removes the files at some paths, and does nothing
  else to the tree;
* `Attempt.Returns`: an attempt does its work, whatever went before it.
-/

namespace ProcUnits.Host

variable {ε α β : Type} {h h' h'' : Host} {ps qs : Set String} {l : Location} {p : String}

/-! ### Entries -/

/-- What is at the location on the first host is there on the second one too. A file that the log
is kept in may have more at its end. -/
inductive KeepsAt (h h' : Host) (l : Location) : Prop
  | same (heq : h'.files.get? l = h.files.get? l)
  | longer {content : List UInt8} {mode : ℕ} (more : List UInt8) (hlog : h.LogsTo l)
      (hfile : h.files.get? l = some (.file content mode))
      (hfile' : h'.files.get? l = some (.file (content ++ more) mode))

namespace KeepsAt

lemma trans (hk : h.KeepsAt h' l) (hk' : h'.KeepsAt h'' l) (hlogger : h'.logger = h.logger) :
    h.KeepsAt h'' l := by
  rcases hk with heq | ⟨more, hlog, hfile, hfile'⟩ <;>
    rcases hk' with heq' | ⟨more', hlog', hfile₁, hfile₁'⟩
  · exact .same (heq'.trans heq)
  · rw [LogsTo, hlogger] at hlog'
    exact .longer more' hlog' (heq ▸ hfile₁) hfile₁'
  · exact .longer more hlog hfile (heq'.trans hfile')
  · rw [hfile'] at hfile₁
    cases hfile₁
    exact .longer (more ++ more') hlog hfile (by rw [← List.append_assoc]; exact hfile₁')

lemma get?_eq_none_iff (hk : h.KeepsAt h' l) :
    h'.files.get? l = none ↔ h.files.get? l = none := by
  rcases hk with heq | ⟨more, -, hfile, hfile'⟩
  · rw [heq]
  · simp [hfile, hfile']

lemma hasDir_iff (hk : h.KeepsAt h' l) : h'.files.HasDir l ↔ h.files.HasDir l := by
  rw [FileTree.HasDir, FileTree.HasDir]
  rcases hk with heq | ⟨more, -, hfile, hfile'⟩
  · rw [heq]
  · simp [hfile, hfile']

lemma file?_eq_none_iff (hk : h.KeepsAt h' l) :
    h'.files.file? l = none ↔ h.files.file? l = none := by
  rw [FileTree.file?, FileTree.file?]
  rcases hk with heq | ⟨more, -, hfile, hfile'⟩
  · rw [heq]
  · simp [hfile, hfile']

end KeepsAt

/-! ### From one host to another -/

/-- From the first host to the second the files at these paths went, as far as there were any, and
all else that is in the tree stayed. -/
structure Loses (ps : Set String) (h h' : Host) : Prop where
  facts_eq : h'.toFacts = h.toFacts
  logger_eq : h'.logger = h.logger
  workingDir_eq : h'.files.workingDir = h.files.workingDir
  get?_eq_none : ∀ p ∈ ps, h.files.isFile p = true → h'.files.get? (h.files.placeOf p) = none
  keepsAt : ∀ l, (∀ p ∈ ps, h.files.isFile p = true → l ≠ h.files.placeOf p) → h.KeepsAt h' l

namespace Loses

/-- Nothing goes while the files are the same. -/
lemma of_files_eq (hfacts : h'.toFacts = h.toFacts) (hlogger : h'.logger = h.logger)
    (hfiles : h'.files = h.files) : h.Loses ∅ h' :=
  ⟨hfacts, hlogger, by rw [hfiles], fun _ hp => absurd hp (Set.notMem_empty _),
    fun _ _ => .same (by rw [hfiles])⟩

lemma refl (h : Host) : h.Loses ∅ h := .of_files_eq rfl rfl rfl

/-- Each location keeps what it has, or had a file that is gone. -/
lemma keepsAt_or (hl : h.Loses ps h') (l : Location) :
    h.KeepsAt h' l ∨ ((∃ f, h.files.file? l = some f) ∧ h'.files.get? l = none) := by
  by_cases hlost : ∃ p ∈ ps, h.files.isFile p = true ∧ l = h.files.placeOf p
  · obtain ⟨p, hp, hfile, rfl⟩ := hlost
    exact Or.inr ⟨FileTree.file?_of_isFile hfile, hl.get?_eq_none p hp hfile⟩
  · exact Or.inl (hl.keepsAt l fun p hp hfile heq => hlost ⟨p, hp, hfile, heq⟩)

lemma hasDir_iff (hl : h.Loses ps h') (l : Location) :
    h'.files.HasDir l ↔ h.files.HasDir l := by
  rcases hl.keepsAt_or l with hk | ⟨⟨f, hf⟩, hnone⟩
  · exact hk.hasDir_iff
  · rw [FileTree.HasDir, FileTree.HasDir, hnone]
    refine ⟨fun hdir => absurd hdir (by simp), fun hdir => ?_⟩
    rw [FileTree.HasDir.file?_eq hdir] at hf
    exact absurd hf (by simp)

lemma keepsDirs (hl : h.Loses ps h') : h.files.KeepsDirs h'.files :=
  ⟨hl.workingDir_eq, (hl.hasDir_iff _).mpr⟩

/-- There are no more directories than before. -/
lemma keepsDirs_symm (hl : h.Loses ps h') : h'.files.KeepsDirs h.files :=
  ⟨hl.workingDir_eq.symm, (hl.hasDir_iff _).mp⟩

lemma placeOf_eq (hl : h.Loses ps h') (p : String) : h'.files.placeOf p = h.files.placeOf p :=
  hl.keepsDirs.placeOf_eq p

/-- There are no more files than before. -/
lemma isFile_of_isFile (hl : h.Loses ps h') (hp : h'.files.isFile p = true) :
    h.files.isFile p = true := by
  refine hl.keepsDirs_symm.isFile hp ?_
  obtain ⟨f, hf⟩ := FileTree.file?_of_isFile hp
  rcases hl.keepsAt_or (h'.files.placeOf p) with hk | ⟨⟨f', hf'⟩, -⟩
  · exact fun hnone => absurd (hk.file?_eq_none_iff.mpr hnone) (by simp [hf])
  · simp [hf']

/-- No file is left at the paths. -/
lemma isFile_eq_false (hl : h.Loses ps h') (hp : p ∈ ps) : h'.files.isFile p = false := by
  rw [← Bool.not_eq_true]
  intro hfile
  obtain ⟨f, hf⟩ := FileTree.file?_of_isFile hfile
  have hnone := hl.get?_eq_none p hp (hl.isFile_of_isFile hfile)
  rw [hl.placeOf_eq, FileTree.file?, hnone] at hf
  exact absurd hf (by simp)

/-- What is there stays there if nothing goes. -/
lemma isPresent_of_isPresent (hl : h.Loses ∅ h') (hp : h.files.isPresent p = true) :
    h'.files.isPresent p = true := by
  cases hfind : h.files.find p with
  | error e => simp [FileTree.isPresent, hfind, Except.toOption] at hp
  | ok r =>
      obtain ⟨k, e⟩ := r
      obtain ⟨hlocate, hget⟩ := FileTree.find_eq_ok hfind
      -- a directory stays as it is, a file may have become longer
      cases e with
      | directory =>
          have hdir := FileTree.find_of_hasDir (hl.keepsDirs.locate_eq hlocate)
            (hl.keepsDirs.hasDir hget)
          simp [FileTree.isPresent, hdir, Except.toOption]
      | file content mode =>
          have hfile : h.files.isFile p = true := FileTree.isFile_iff.mpr ⟨k, content, mode, hfind⟩
          have hk := hl.keepsAt (h.files.placeOf p) fun q hq => absurd hq (Set.notMem_empty q)
          obtain ⟨f, hf⟩ := FileTree.file?_of_isFile hfile
          have hne : h'.files.file? (h.files.placeOf p) ≠ none :=
            fun hnone => absurd (hk.file?_eq_none_iff.mp hnone) (by simp [hf])
          obtain ⟨k', content', mode', hfind'⟩ :=
            FileTree.isFile_iff.mp (hl.keepsDirs.isFile hfile hne)
          simp [FileTree.isPresent, hfind', Except.toOption]

/-- The files at the paths count, and not the paths at which there are none. -/
lemma congr (hl : h.Loses ps h') (hpq : ∀ p, h.files.isFile p = true → (p ∈ ps ↔ p ∈ qs)) :
    h.Loses qs h' :=
  ⟨hl.facts_eq, hl.logger_eq, hl.workingDir_eq,
    fun p hp hfile => hl.get?_eq_none p ((hpq p hfile).mpr hp) hfile,
    fun l hne => hl.keepsAt l fun p hp hfile => hne p ((hpq p hfile).mp hp) hfile⟩

/-- What has gone stays away, and what goes later was there still or had gone before. -/
lemma trans (hl : h.Loses ps h') (hl' : h'.Loses qs h'') : h.Loses (ps ∪ qs) h'' := by
  have hstays : ∀ {l}, h'.files.get? l = none → h''.files.get? l = none := by
    intro l hnone
    rcases hl'.keepsAt_or l with hk | ⟨-, hnone'⟩
    · exact hk.get?_eq_none_iff.mpr hnone
    · exact hnone'
  refine ⟨hl'.facts_eq.trans hl.facts_eq, hl'.logger_eq.trans hl.logger_eq,
    hl'.workingDir_eq.trans hl.workingDir_eq, ?_, ?_⟩
  · rintro p (hp | hp) hfile
    · exact hstays (hl.get?_eq_none p hp hfile)
    -- a file at one of the later paths goes in the second step, unless it went in the first one
    rcases hl.keepsAt_or (h.files.placeOf p) with hk | ⟨-, hnone⟩
    · obtain ⟨f, hf⟩ := FileTree.file?_of_isFile hfile
      have hfile' := hl.keepsDirs.isFile hfile
        fun hnone => absurd (hk.file?_eq_none_iff.mp hnone) (by simp [hf])
      rw [← hl.placeOf_eq p]
      exact hl'.get?_eq_none p hp hfile'
    · exact hstays hnone
  · intro l hne
    have hk := hl.keepsAt l fun p hp => hne p (Or.inl hp)
    refine hk.trans (hl'.keepsAt l fun q hq hfile => ?_) hl.logger_eq
    rw [hl.placeOf_eq]
    exact hne q (Or.inr hq) (hl.isFile_of_isFile hfile)

lemma trans_empty (hl : h.Loses ps h') (hl' : h'.Loses ∅ h'') : h.Loses ps h'' :=
  Set.union_empty ps ▸ hl.trans hl'

lemma empty_trans (hl : h.Loses ∅ h') (hl' : h'.Loses ps h'') : h.Loses ps h'' :=
  Set.empty_union ps ▸ hl.trans hl'

/-- If nothing goes, no file changes but that of the log. -/
lemma changes (hl : h.Loses ∅ h') {S T : Set Location} : h.Changes S T h' := by
  refine ⟨hl.facts_eq, hl.logger_eq, hl.keepsDirs, fun l hlog => Or.inl ?_⟩
  rcases hl.keepsAt l fun p hp => absurd hp (Set.notMem_empty p) with heq | ⟨more, hlog', -, -⟩
  · exact FileTree.file?_congr heq
  · exact absurd hlog' hlog

/-! ### What is refused -/

/-- A step of a path that is refused goes on to be, unless a file that was in the way is gone. -/
lemma step_eq_error (hl : h.Loses ps h') {part : Path.Part} {x : OsError}
    (hx : h.files.step l part = .error x) :
    h'.files.step l part = .error x ∨ h'.files.step l part = .error .notFound := by
  have hnone : h'.files.get? l = none → h'.files.step l part = .error .notFound := by
    intro hnone
    cases part <;> simp_all [FileTree.step]
  -- where the entry is gone the answer changes, and then nothing is found
  rcases hl.keepsAt_or l with (heq | ⟨more, -, hfile, hfile'⟩) | ⟨-, hgone⟩
  · refine Or.inl ?_
    unfold FileTree.step at hx ⊢
    rw [heq]
    exact hx
  · refine Or.inl ?_
    cases part <;> simp_all [FileTree.step]
  · exact Or.inr (hnone hgone)

lemma locate_eq_error (hl : h.Loses ps h') {x : OsError} (hx : h.files.locate p = .error x) :
    h'.files.locate p = .error x ∨ h'.files.locate p = .error .notFound := by
  -- the steps in front of the refused one lead where they led, so the induction is over the parts
  have hfold : ∀ (parts : List Path.Part) (k : Location),
      parts.foldlM h.files.step k = .error x → parts.foldlM h'.files.step k = .error x
        ∨ parts.foldlM h'.files.step k = .error .notFound := by
    intro parts
    induction parts with
    | nil => exact fun k hk => absurd hk (by simp [pure, Except.pure])
    | cons part parts ih =>
        intro k hk
        rw [List.foldlM_cons] at hk ⊢
        cases hs : h.files.step k part with
        | error y =>
            rw [hs] at hk
            cases hk
            rcases hl.step_eq_error hs with hs' | hs'
            · exact Or.inl (by rw [hs']; rfl)
            · exact Or.inr (by rw [hs']; rfl)
        | ok k' =>
            rw [hs] at hk
            rw [hl.keepsDirs.step_eq hs]
            exact ih k' hk
  rw [FileTree.locate] at hx ⊢
  split_ifs at hx ⊢ with h₁ h₂
  · exact Or.inl hx
  · exact Or.inl hx
  rw [hl.workingDir_eq]
  exact hfold _ _ hx

/-- What is not found any more has gone, or was not found before. -/
lemma find_eq_error (hl : h.Loses ps h') {x : OsError} (hx : h'.files.find p = .error x) :
    x = .notFound ∨ h.files.find p = .error x := by
  cases hlocate : h.files.locate p with
  | error y =>
      rcases hl.locate_eq_error hlocate with hlocate' | hlocate' <;>
        simp_all [FileTree.find, bind, Except.bind]
  | ok k =>
      have hlocate' := hl.keepsDirs.locate_eq hlocate
      rcases hl.keepsAt_or k with (heq | ⟨more, -, hfile, hfile'⟩) | ⟨-, hgone⟩
      · refine Or.inr ?_
        rw [FileTree.find, hlocate'] at hx
        rw [FileTree.find, hlocate]
        simpa only [bind, Except.bind, heq] using hx
      · refine Or.inr ?_
        simp only [FileTree.find, hlocate, hlocate', hfile, hfile', bind, Except.bind] at hx ⊢
        split_ifs at hx ⊢ <;> simp_all
      · refine Or.inl ?_
        simp only [FileTree.find, hlocate', hgone, bind, Except.bind] at hx
        exact (Except.error.inj hx).symm

/-- What can be removed can be removed later, unless it has gone. -/
lemma canRemove (hl : h.Loses ps h') (hp : h.files.CanRemove p) : h'.files.CanRemove p := by
  intro x hx
  cases hfind : h'.files.find p with
  | error y =>
      simp only [FileTree.remove, hfind, bind, Except.bind] at hx
      cases hx
      rcases hl.find_eq_error hfind with hnone | hfind'
      · exact hnone
      · exact hp x (by simp [FileTree.remove, hfind', bind, Except.bind])
  | ok r =>
      obtain ⟨k, e⟩ := r
      obtain ⟨hlocate, hget⟩ := FileTree.find_eq_ok hfind
      cases e with
      | file content mode => simp [FileTree.remove, hfind, bind, Except.bind] at hx
      | directory =>
          have hdir := FileTree.find_of_hasDir (hl.keepsDirs_symm.locate_eq hlocate)
            (hl.keepsDirs_symm.hasDir hget)
          exact absurd (hp .isDirectory (by simp [FileTree.remove, hdir, bind, Except.bind]))
            (by simp)

lemma canList (hl : h.Loses ps h') (hp : h.files.CanList p) : h'.files.CanList p := by
  intro x hx
  cases hfind : h'.files.find p with
  | error y =>
      simp only [FileTree.names, hfind, bind, Except.bind] at hx
      cases hx
      rcases hl.find_eq_error hfind with hnone | hfind'
      · exact hnone
      · exact hp x (by simp [FileTree.names, hfind', bind, Except.bind])
  | ok r =>
      obtain ⟨k, e⟩ := r
      cases e with
      | directory => simp [FileTree.names, hfind, bind, Except.bind] at hx
      | file content mode =>
          obtain ⟨k', content', mode', hfind'⟩ := FileTree.isFile_iff.mp
            (hl.isFile_of_isFile (FileTree.isFile_iff.mpr ⟨k, content, mode, hfind⟩))
          exact absurd (hp .notDirectory (by simp [FileTree.names, hfind', bind, Except.bind]))
            (by simp)

end Loses

instance isPreorder_loses : IsPreorder Host (Loses ∅) where
  refl := .refl
  trans _ _ _ := .trans_empty

/-! ### Steps -/

/-- A record changes no entry but that of the log. -/
lemma loses_withRecord (h : Host) (level : Level) (message : String) :
    h.Loses ∅ (h.withRecord level message) := by
  rw [withRecord]
  split_ifs
  swap
  · exact .refl h
  rw [withLine]
  split
  · exact .refl h
  · exact .of_files_eq rfl rfl rfl
  · rename_i location hsink
    refine ⟨rfl, rfl, (FileTree.keepsDirs_extend ..).workingDir_eq,
      fun p hp => absurd hp (Set.notMem_empty p), fun l _ => ?_⟩
    -- the record is put at the end of the log, and nowhere else
    by_cases hl : l = location
    swap
    · exact .same (FileTree.get?_extend_of_ne _ _ hl)
    subst hl
    cases hget : h.files.get? l with
    | none => exact .same (by simp [FileTree.extend, hget])
    | some e =>
        cases e with
        | directory => exact .same (by simp [FileTree.extend, hget])
        | file content mode =>
            have hroot := FileTree.ne_nil_of_not_hasDir (FileTree.not_hasDir_of_get? hget)
            refine .longer (Text.Utf8.encode (Log.record h.stamp level message)) hsink hget ?_
            simp [FileTree.extend, hget, FileTree.get?_put _ _ hroot]

/-- A file that is removed is all that goes. -/
lemma loses_of_remove {t : FileTree} (ht : h.files.remove p = .ok t) :
    h.Loses {p} { h with files := t } := by
  obtain ⟨hfile, rfl⟩ := FileTree.remove_eq_erase ht
  have hroot := FileTree.ne_nil_of_not_hasDir (FileTree.not_hasDir_of_isFile hfile)
  refine ⟨rfl, rfl, rfl, ?_, fun l hne => ?_⟩
  · rintro q rfl -
    simp [FileTree.get?_erase _ hroot]
  · by_cases hl : l = []
    · subst hl
      exact .same rfl
    · exact .same ((FileTree.get?_erase _ hl).trans (if_neg (hne p rfl hfile)))

namespace Attempt

lemma loses_emit (level : Level) (message : String) :
    (liftM (emit level message) : Attempt ε Unit).Within (Loses ∅) := by
  intro h r h' he
  obtain ⟨-, rfl⟩ := ends_emit.mp he
  exact loses_withRecord h level message

/-- A command does nothing to the tree. -/
lemma loses_run (c : Command) : (liftM (run c) : Attempt ε Reply).Within (Loses ∅) := by
  intro h r h' he
  obtain ⟨-, rfl⟩ := ends_lift.mp he
  exact .of_files_eq rfl rfl rfl

/-! ### Removals -/

/-- Once the attempt has done its work, the files at the paths are gone, and nothing else is. -/
def Erases (m : Attempt ε α) (ps : Set String) : Prop :=
  ∀ ⦃h a h'⦄, m.Ends h (.ok a) h' → h.Loses ps h'

variable {m : Attempt ε α}

lemma Within.alters (hm : m.Within (Loses ∅)) {removed written : Location → Set Location} :
    m.Alters removed written :=
  fun _ _ _ he => (hm he).changes

lemma Within.erases (hm : m.Within (Loses ∅)) : m.Erases ∅ := fun _ _ _ he => hm he

lemma erases_pure (a : α) : (pure a : Attempt ε α).Erases ∅ := Within.erases (within_pure a)

lemma Erases.bind (hm : m.Erases ps) {f : α → Attempt ε β} (hf : ∀ a, (f a).Erases qs) :
    (m >>= f).Erases (ps ∪ qs) := by
  intro h b h' he
  obtain ⟨a, h₁, hm', hf'⟩ := ends_bind_ok.mp he
  exact (hm hm').trans (hf a hf')

/-- Files that are removed one by one are all gone. -/
lemma erases_filterM {f : String → Attempt ε Bool} (hf : ∀ p, (f p).Erases {p})
    (ps : List String) : (ps.filterM f).Erases {p | p ∈ ps} := by
  induction ps with
  | nil =>
      have hnil : {q : String | q ∈ []} = ∅ := by simp
      rw [hnil]
      exact erases_pure []
  | cons p ps ih =>
      have hcons : {q | q ∈ p :: ps} = {p} ∪ ({q | q ∈ ps} ∪ ∅) := by
        rw [Set.union_empty]
        exact Set.ext fun q => List.mem_cons
      rw [filterM_cons, hcons]
      exact (hf p).bind fun _ => ih.bind fun _ => erases_pure _

/-! ### Removals that are not refused -/

/-- The attempt does its work, whatever files went from the host before. -/
def Returns (m : Attempt ε α) (h : Host) : Prop :=
  ∀ ⦃ps h₁ r h'⦄, h.Loses ps h₁ → m.Ends h₁ r h' → ∃ a, r = .ok a

lemma returns_pure (a : α) : (pure a : Attempt ε α).Returns h :=
  fun _ _ _ _ _ he => ⟨a, (ends_pure.mp he).1⟩

lemma returns_lift (m : Act α) : (liftM m : Attempt ε α).Returns h :=
  fun _ _ _ _ _ he => ⟨_, (ends_lift.mp he).1⟩

lemma Returns.bind (hm : m.Returns h) (hps : m.Erases ps) {f : α → Attempt ε β}
    (hf : ∀ a, (f a).Returns h) : (m >>= f).Returns h := by
  -- what went in the first step is one of the losses that the second one allows for
  intro qs h₁ r h' hl he
  rcases ends_bind.mp he with ⟨e, hm', -⟩ | ⟨a, h₂, hm', hf'⟩
  · obtain ⟨a, ha⟩ := hm hl hm'
    exact absurd ha (by simp)
  · exact hf a (hl.trans (hps hm')) hf'

lemma returns_filterM {f : String → Attempt ε Bool} (hf : ∀ p, (f p).Erases {p})
    {ps : List String} (hps : ∀ p ∈ ps, (f p).Returns h) : (ps.filterM f).Returns h := by
  induction ps with
  | nil => exact returns_pure []
  | cons p ps ih =>
      obtain ⟨hp, hps⟩ := List.forall_mem_cons.mp hps
      rw [filterM_cons]
      exact hp.bind (hf p) fun _ => (ih hps).bind (erases_filterM hf ps) fun _ => returns_pure _

end Attempt

end ProcUnits.Host
