import ProcUnits.Proofs.Converter
import ProcUnits.Proofs.DryStart

/-!
The converter called to replace a service file, with `--in-place` (section C.3 of the
specification).

* `HasVersion`: the file at a path is of a format;
* `quiet_of_error`: a run that fails has made records and nothing else;
* `replaces_of_ok`: a run that does its work has found a legacy file and left one with sections;
* `runConvert_fails`, `reruns_fail`: on a file with sections a run fails, and so do all later ones,
  whatever their settings are and whatever else happens on the host between them;
* `runConvert_inPlace`: so a file is replaced once or not at all.
-/

namespace ProcUnits

open Host (Attempt)

variable {args : CommandLine.Convert} {h h' h'' : Host} {path : String} {version : Version}
  {r : Except Failure (Option String)} {rs : List (Except Failure (Option String))}

/-! ### The format of a file -/

/-- There is a file at the path, and its text is of the format. -/
def HasVersion (h : Host) (path : String) (version : Version) : Prop :=
  ∃ octets mode text, h.files.file? (h.files.placeOf path) = some (octets, mode)
    ∧ Procfile.decode octets = .ok text ∧ Version.detect text = version

/-- A file is of one format. -/
lemma HasVersion.unique {version' : Version} (hfile : HasVersion h path version)
    (hfile' : HasVersion h path version') : version = version' := by
  obtain ⟨octets, mode, text, hoctets, htext, rfl⟩ := hfile
  obtain ⟨octets', mode', text', hoctets', htext', rfl⟩ := hfile'
  rw [hoctets, Option.some.injEq, Prod.mk.injEq] at hoctets'
  rw [hoctets'.1, htext', Except.ok.injEq] at htext
  rw [htext]

/-- The file at the path is the same on both hosts, and on the second one it is not that of the
log. -/
structure SameFile (path : String) (h h' : Host) : Prop where
  file?_eq : h'.files.file? (h'.files.placeOf path) = h.files.file? (h.files.placeOf path)
  not_logsTo : ¬ h'.LogsTo (h'.files.placeOf path)

lemma SameFile.hasVersion_iff (hsame : SameFile path h h') :
    HasVersion h' path version ↔ HasVersion h path version := by
  rw [HasVersion, HasVersion, hsame.file?_eq]

/-- A host without changes to files has the same one at the path. -/
lemma SameFile.of_changes (hlog : ¬ h.LogsTo (h.files.placeOf path)) (hc : h.Changes ∅ ∅ h') :
    SameFile path h h' := by
  have hplace := hc.placeOf_eq path
  refine ⟨?_, fun hl => hlog (hc.logsTo_iff.mp (hplace ▸ hl))⟩
  rw [hplace]
  exact hc.file?_eq hlog (Set.notMem_empty _) (Set.notMem_empty _)

/-! ### Looking at the file -/

lemma alters_load (path : String) (d : Defaults) :
    (Procfile.load path d).Alters (fun _ => ∅) fun _ => ∅ :=
  .bind (Host.alters_emit ..) fun _ => .bind Attempt.alters_get fun _ =>
    .bind (Attempt.alters_liftExcept _) fun _ => .bind (Attempt.alters_liftExcept _) fun _ =>
    .bind (Host.alters_emit ..) fun _ => .bind (Host.alters_emit ..) fun _ =>
    Attempt.alters_liftExcept _

/-- A legacy application comes from a legacy file. -/
lemma hasVersion_of_load {d : Defaults} {a : Application}
    (hlog : ¬ h.LogsTo (h.files.placeOf path)) (he : (Procfile.load path d).Ends h (.ok a) h') :
    HasVersion h path a.version := by
  obtain ⟨text, ⟨octets, hread, htext⟩, ha⟩ := load_ends_ok he
  have hrecord : SameFile path h (h.withRecord .debug s!"Processing file {path}") :=
    .of_changes hlog (Host.changes_withRecord ..)
  obtain ⟨mode, hfile⟩ := Host.FileTree.read_eq_ok hread
  rw [hrecord.file?_eq] at hfile
  exact ⟨octets, mode, text, hfile, htext, (Procfile.version_eq_of_ofText ha).symm⟩

/-! ### One run -/

/-- A run that fails has looked at the file, and has done no more. -/
lemma quiet_of_error {e : Failure} (he : (runConvert args).Ends h (.error e) h') :
    h.Untouched h' ∧ h.Changes ∅ ∅ h' := by
  rcases runConvert_ends he with ⟨-, rfl⟩ | ⟨s, he⟩
  · exact ⟨.refl _, .refl _⟩
  · obtain ⟨r₁, h₁, hload, hrest⟩ := convertUnder_ends he
    have hh : h' = h₁ := by
      rcases hrest with ⟨-, hh⟩ | ⟨a, text, -, -, -, hleave⟩
      · exact hh
      · cases hplace : args.inPlace with
        | true =>
            rcases leave_ends hplace hleave with ⟨-, hh⟩ | ⟨hr, -⟩
            · exact hh
            · cases hr
        | false =>
            rw [leave, if_neg (by simp [hplace])] at hleave
            exact (Attempt.ends_pure.mp hleave).2
    exact hh ▸ ⟨(quiet_load _ _ hload).1, alters_load _ _ hload⟩

/-- A run that does its work has found a legacy file, and has put one with sections in its place. -/
lemma replaces_of_ok (hplace : args.inPlace = true)
    (hlog : ¬ h.LogsTo (h.files.placeOf args.procfile)) {printed : Option String}
    (he : (runConvert args).Ends h (.ok printed) h') :
    printed = none ∧ HasVersion h args.procfile .v1 ∧ HasVersion h' args.procfile .v2
      ∧ ∀ l, ¬ h.LogsTo l → l ≠ h.files.placeOf args.procfile →
        h'.files.get? l = h.files.get? l := by
  obtain ⟨s, he⟩ := runConvert_ends_ok he
  obtain ⟨r₁, h₁, hload, ⟨⟨e, hr⟩, -⟩ | ⟨a, text, rfl, hversion, htext, hleave⟩⟩ :=
    convertUnder_ends he
  · cases hr
  · rcases leave_ends hplace hleave with ⟨⟨e, hr⟩, -⟩ | ⟨hr, files, hfiles, rfl⟩
    · cases hr
    · obtain ⟨hkeep, mode, hfile⟩ := Host.FileTree.write_eq_ok hfiles
      obtain ⟨-, mode', rfl⟩ := Host.FileTree.write_eq_put hfiles
      have hload' := (alters_load _ _).changes hload
      have hplace' := hload'.placeOf_eq args.procfile
      refine ⟨Except.ok.inj hr, hversion ▸ hasVersion_of_load hlog hload, ?_, fun l hl hne => ?_⟩
      · refine ⟨Text.Utf8.encode text, mode, text.toList, ?_, Procfile.decode_encode text,
          Procfile.detect_convert htext⟩
        rw [hkeep.placeOf_eq, hfile, if_pos rfl]
      · refine (Host.FileTree.get?_put_of_ne _ _ (hplace' ▸ hne)).trans ?_
        exact (quiet_load _ _ hload).1.get?_eq l fun hl' => hl (hload'.logsTo_iff.mp hl')

/-- On a file with sections a run fails, and leaves it as it is. -/
lemma runConvert_fails (hfile : HasVersion h args.procfile .v2)
    (hlog : ¬ h.LogsTo (h.files.placeOf args.procfile)) (he : (runConvert args).Ends h r h') :
    (∃ e, r = .error e) ∧ SameFile args.procfile h h' := by
  cases r with
  | error e => exact ⟨⟨e, rfl⟩, .of_changes hlog (quiet_of_error he).2⟩
  | ok printed =>
      obtain ⟨s, he⟩ := runConvert_ends_ok he
      obtain ⟨d, a, doc, h₁, hload, hversion, -⟩ := convertUnder_ends_ok he
      have hlegacy := hasVersion_of_load hlog hload
      rw [hversion] at hlegacy
      exact absurd (hlegacy.unique hfile) (by simp)

/-! ### Later runs -/

/-- Later runs of the converter on the file at a path, with their results. Before each of them
anything may have happened on the host that has left the file alone. -/
inductive Reruns (path : String) : Host → List (Except Failure (Option String)) → Host → Prop
  | nil {h : Host} : Reruns path h [] h
  | cons {h h₀ h₁ h₂ : Host} {args : CommandLine.Convert} {r : Except Failure (Option String)}
      {rs : List (Except Failure (Option String))} (hsame : SameFile path h h₀)
      (hpath : args.procfile = path) (he : (runConvert args).Ends h₀ r h₁)
      (hrest : Reruns path h₁ rs h₂) : Reruns path h (r :: rs) h₂

/-- All later runs on a file with sections fail, and the file stays as it is. -/
lemma reruns_fail (hruns : Reruns path h rs h') (hfile : HasVersion h path .v2) :
    (∀ r ∈ rs, ∃ e, r = .error e)
      ∧ h'.files.file? (h'.files.placeOf path) = h.files.file? (h.files.placeOf path) := by
  induction hruns with
  | nil => exact ⟨by simp, rfl⟩
  | cons hsame hpath he _ ih =>
      subst hpath
      obtain ⟨herror, hkept⟩ :=
        runConvert_fails (hsame.hasVersion_iff.mpr hfile) hsame.not_logsTo he
      obtain ⟨herrors, hlast⟩ := ih (hkept.hasVersion_iff.mpr (hsame.hasVersion_iff.mpr hfile))
      refine ⟨List.forall_mem_cons.mpr ⟨herror, herrors⟩, ?_⟩
      rw [hlast, hkept.file?_eq, hsame.file?_eq]

/-- A service file is replaced once or not at all (section C.3). A run that is to replace it and
fails has changed nothing but the log. One that does its work has found a legacy file and has left
one with sections in its place; all later runs on that one fail, whatever they are given, and it
stays as it is. -/
theorem runConvert_inPlace (hplace : args.inPlace = true)
    (hlog : ¬ h.LogsTo (h.files.placeOf args.procfile)) (he : (runConvert args).Ends h r h') :
    ((∃ e, r = .error e) ∧ ∀ l, ¬ h.LogsTo l → h'.files.get? l = h.files.get? l)
      ∨ (r = .ok none ∧ HasVersion h args.procfile .v1 ∧ HasVersion h' args.procfile .v2
        ∧ (∀ l, ¬ h.LogsTo l → l ≠ h.files.placeOf args.procfile →
          h'.files.get? l = h.files.get? l)
        ∧ ∀ rs h'', Reruns args.procfile h' rs h'' →
          (∀ r ∈ rs, ∃ e, r = .error e)
            ∧ h''.files.file? (h''.files.placeOf args.procfile)
              = h'.files.file? (h'.files.placeOf args.procfile)) := by
  cases r with
  | error e =>
      obtain ⟨huntouched, hchanges⟩ := quiet_of_error he
      exact Or.inl ⟨⟨e, rfl⟩, fun l hl =>
        huntouched.get?_eq l fun hl' => hl (hchanges.logsTo_iff.mp hl')⟩
  | ok printed =>
      obtain ⟨rfl, hlegacy, hsections, hothers⟩ := replaces_of_ok hplace hlog he
      exact Or.inr ⟨rfl, hlegacy, hsections, hothers,
        fun rs h'' hruns => reruns_fail hruns hsections⟩

namespace Converter

/-- The file is replaced by the first run, and a second one fails. -/
theorem replaces_once : ∃ h', (runConvert replacement).Ends host (.ok none) h'
    ∧ HasVersion host replacement.procfile .v1 ∧ HasVersion h' replacement.procfile .v2
    ∧ ∃ e h'', (runConvert replacement).Ends h' (.error e) h''
      ∧ h''.files.file? (h''.files.placeOf replacement.procfile)
        = h'.files.file? (h'.files.placeOf replacement.procfile) := by
  have he : (runConvert replacement).Ends host (.ok none)
      ((runConvert replacement).run.run host).2 := Prod.ext (by decide +kernel) rfl
  have hlog : ¬ host.LogsTo (host.files.placeOf replacement.procfile) := by
    rw [Host.LogsTo]
    decide +kernel
  have hlog' : ¬ ((runConvert replacement).run.run host).2.LogsTo
      (((runConvert replacement).run.run host).2.files.placeOf replacement.procfile) := by
    rw [Host.LogsTo]
    decide +kernel
  rcases runConvert_inPlace rfl hlog he with ⟨⟨e, hr⟩, -⟩ | ⟨-, hlegacy, hsections, -, hruns⟩
  · cases hr
  · obtain ⟨r, h'', hagain⟩ :=
      (runConvert replacement).exists_ends ((runConvert replacement).run.run host).2
    obtain ⟨herrors, hsame⟩ := hruns [r] h'' (.cons ⟨rfl, hlog'⟩ rfl hagain .nil)
    obtain ⟨e, rfl⟩ := herrors r List.mem_cons_self
    exact ⟨_, he, hlegacy, hsections, e, h'', hagain, hsame⟩

end Converter

end ProcUnits
