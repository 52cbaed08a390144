import ProcUnits.Program
import ProcUnits.Proofs.Host.Changes
import ProcUnits.Proofs.Procfile.Declared

/-!
What the converter keeps of a service file (section C.3 of the specification).

* `IsTextOf`: the text of the service file, and `load_ends_ok`: where a loaded application comes
  from;
* `IsLeft`: the text that a run leaves, printed or in the place of the service file;
* `runConvert_ends`, `convertUnder_ends`, `leave_ends`: the steps of a run, and where it gives up;
* `runConvert_names`: the document has a service for each name in the file, and so as many as the
  file has lines for services just if these have different names.
-/

namespace ProcUnits

open Host (Attempt)
open Procfile (Declares serviceLines)
open Yaml (Value)

variable {args : CommandLine.Convert} {h h' : Host} {a : Application} {d : Defaults} {path : String}
  {printed : Option String}

/-! ### The service file -/

lemma read_of_fileBytes {files : Host.FileTree} {octets : List UInt8}
    (he : Procfile.fileBytes files path = .ok octets) : files.read path = .ok octets := by
  unfold Procfile.fileBytes at he
  split at he
  · cases he
  · cases he
  · cases he
  · split_ifs at he
    cases hread : files.read path with
    | error e =>
        rw [hread] at he
        cases he
    | ok read =>
        rw [hread] at he
        cases he
        rfl

/-- The text of the file is what is read once a record of the reading is made. -/
def IsTextOf (h : Host) (path : String) (text : List Char) : Prop :=
  ∃ octets, (h.withRecord .debug s!"Processing file {path}").files.read path = .ok octets
    ∧ Procfile.decode octets = .ok text

/-- The application that is loaded is that of the text of the file. -/
lemma load_ends_ok (he : (Procfile.load path d).Ends h (.ok a) h') :
    ∃ text, IsTextOf h path text
      ∧ Procfile.ofText (Version.detect text) text d = .ok a := by
  rw [Procfile.load, Host.ends_emit_bind, Attempt.ends_get_bind] at he
  simp only [Attempt.ends_bind_ok] at he
  obtain ⟨octets, h₁, hoctets, text, h₂, htext, -, h₃, -, -, h₄, -, ha⟩ := he
  have hfile := (Attempt.ends_liftExcept.mp hoctets).1.symm
  have hdecode := (Attempt.ends_liftExcept.mp htext).1.symm
  exact ⟨text, ⟨octets, read_of_fileBytes hfile, hdecode⟩,
    (Attempt.ends_liftExcept.mp ha).1.symm⟩

/-! ### The result -/

/-- The text is the result of a run: it is printed, or is in the place of the service file. -/
def IsLeft (args : CommandLine.Convert) (text : String) (printed : Option String) (h' : Host) :
    Prop :=
  if args.inPlace then
    printed = none ∧ ∃ mode,
      h'.files.file? (h'.files.placeOf args.procfile) = some (Text.Utf8.encode text, mode)
  else printed = some text

/-- What the converter does with the text of the document. -/
def leave (args : CommandLine.Convert) (text : String) : Attempt Failure (Option String) := do
  if args.inPlace then
    (Host.onFiles (·.write args.procfile (Text.Utf8.encode text) newFileMode)).adapt
      (Failure.unwritable args.procfile)
    pure none
  else pure (some text)

/-- In the place of the service file the text is written once, or nothing happens. -/
lemma leave_ends {text : String} {r : Except Failure (Option String)}
    (hplace : args.inPlace = true) (he : (leave args text).Ends h r h') :
    ((∃ e, r = .error e) ∧ h' = h)
      ∨ r = .ok none ∧ ∃ files, h.files.write args.procfile (Text.Utf8.encode text) newFileMode
          = .ok files ∧ h' = { h with files } := by
  rw [leave, if_pos hplace] at he
  rcases Attempt.ends_bind.mp he with ⟨e, hwrite, rfl⟩ | ⟨_, h₁, hwrite, hnone⟩
  · rcases Attempt.ends_onFiles.mp hwrite with ⟨_, -, hr, -⟩ | ⟨x, -, -, rfl⟩
    · cases hr
    · exact Or.inl ⟨⟨e, rfl⟩, rfl⟩
  · obtain ⟨rfl, rfl⟩ := Attempt.ends_pure.mp hnone
    rcases Attempt.ends_onFiles.mp hwrite with ⟨files, hfiles, -, rfl⟩ | ⟨x, -, hr, -⟩
    · exact Or.inr ⟨rfl, files, hfiles, rfl⟩
    · cases hr

lemma leave_ends_ok {text : String} (he : (leave args text).Ends h (.ok printed) h') :
    IsLeft args text printed h' := by
  rw [IsLeft]
  split_ifs with hplace
  · rcases leave_ends hplace he with ⟨⟨e, hr⟩, -⟩ | ⟨hr, files, hfiles, rfl⟩
    · cases hr
    · obtain ⟨hkeep, mode, hfile⟩ := Host.FileTree.write_eq_ok hfiles
      refine ⟨Except.ok.inj hr, mode, ?_⟩
      rw [hkeep.placeOf_eq, hfile, if_pos rfl]
  · rw [leave, if_neg hplace] at he
    exact Except.ok.inj (Attempt.ends_pure.mp he).1

/-- What the converter does once the settings are there. -/
def convertUnder (args : CommandLine.Convert) (s : Settings) :
    Attempt Failure (Option String) := do
  let a ← (Procfile.load args.procfile (s.defaultsFor args.appName)).adapt Failure.procfile
  if a.version != .v1 then throw .alreadyConverted
  match Procfile.convert a (s.defaultsFor args.appName) with
  | .error e => throw (.procfile e)
  | .ok text => leave args text

/-- A run finds its settings, or does nothing. -/
lemma runConvert_ends {r : Except Failure (Option String)} (he : (runConvert args).Ends h r h') :
    ((∃ e, r = .error e) ∧ h' = h) ∨ ∃ s, (convertUnder args s).Ends h r h' := by
  rw [runConvert] at he
  split at he
  · exact Or.inr ⟨{}, he⟩
  · rw [Attempt.ends_get_bind] at he
    split at he
    · next s _ => exact Or.inr ⟨s, he⟩
    · obtain ⟨hr, rfl⟩ := Attempt.ends_throw_bind.mp he
      exact Or.inl ⟨⟨_, hr⟩, rfl⟩

lemma runConvert_ends_ok (he : (runConvert args).Ends h (.ok printed) h') :
    ∃ s, (convertUnder args s).Ends h (.ok printed) h' := by
  rcases runConvert_ends he with ⟨⟨e, hr⟩, -⟩ | hunder
  · cases hr
  · exact hunder

/-- It leaves the text that a legacy application is converted to, or gives up once it has looked at
the service file. -/
lemma convertUnder_ends {s : Settings} {r : Except Failure (Option String)}
    (he : (convertUnder args s).Ends h r h') :
    ∃ r₁ h₁, (Procfile.load args.procfile (s.defaultsFor args.appName)).Ends h r₁ h₁
      ∧ (((∃ e, r = .error e) ∧ h' = h₁)
        ∨ ∃ a text, r₁ = .ok a ∧ a.version = .v1
          ∧ Procfile.convert a (s.defaultsFor args.appName) = .ok text
          ∧ (leave args text).Ends h₁ r h') := by
  rw [convertUnder] at he
  rcases Attempt.ends_bind.mp he with ⟨e, hload, rfl⟩ | ⟨a, h₁, hload, he⟩
  · obtain ⟨r₁, hload, -⟩ := Attempt.ends_adapt.mp hload
    exact ⟨r₁, h', hload, Or.inl ⟨⟨e, rfl⟩, rfl⟩⟩
  · obtain ⟨r₁, hload, hr⟩ := Attempt.ends_adapt.mp hload
    refine ⟨r₁, h₁, hload, ?_⟩
    cases r₁ with
    | error e => cases hr
    | ok a' =>
        cases hr
        simp only at he
        split_ifs at he with hversion
        · obtain ⟨hr, rfl⟩ := Attempt.ends_throw_bind.mp he
          exact Or.inl ⟨⟨_, hr⟩, rfl⟩
        · split at he
          · obtain ⟨hr, rfl⟩ := Attempt.ends_throw.mp he
            exact Or.inl ⟨⟨_, hr⟩, rfl⟩
          · next text htext => exact Or.inr ⟨a, text, rfl, by simpa using hversion, htext, he⟩

/-- It reads a legacy application, and leaves the text of its document. -/
lemma convertUnder_ends_ok {s : Settings} (he : (convertUnder args s).Ends h (.ok printed) h') :
    ∃ d a doc h₁, (Procfile.load args.procfile d).Ends h (.ok a) h₁ ∧ a.version = .v1
      ∧ Procfile.documentOf a d = .ok doc ∧ IsLeft args (doc.print ++ "\n") printed h' := by
  obtain ⟨r₁, h₁, hload, ⟨⟨e, hr⟩, -⟩ | ⟨a, text, rfl, hversion, htext, hleave⟩⟩ :=
    convertUnder_ends he
  · cases hr
  · have hdoc := Procfile.documentOf_eq (d := s.defaultsFor args.appName) hversion
    rw [Procfile.convert, hdoc] at htext
    cases htext
    exact ⟨_, a, _, h₁, hload, hversion, hdoc, leave_ends_ok hleave⟩

/-! ### The names of the services -/

/-- What a run of the converter leaves is the text of a document that has each name in the service
file once, where it stood last. So it declares the services of all lines, in their order, just if
these have different names. Otherwise it declares fewer services than the file has lines for
them. -/
theorem runConvert_names (he : (runConvert args).Ends h (.ok printed) h') :
    ∃ text ss doc, IsTextOf h args.procfile text
      ∧ List.Forall₂ Declares (serviceLines text) ss
      ∧ IsLeft args (doc.print ++ "\n") printed h'
      ∧ ∀ d, ∃ draft, Procfile.readDocument doc d = .ok draft
        ∧ (Value.load (doc.print ++ "\n").toList = .ok doc →
          Procfile.ofBytes (Text.Utf8.encode (doc.print ++ "\n")) d = .ok (draft.resolve d))
        ∧ draft.app.services.map (·.name) = (ss.map (·.name)).dedup
        ∧ (draft.app.services.map (·.name) = ss.map (·.name) ↔ (ss.map (·.name)).Nodup)
        ∧ (draft.app.services.length = (serviceLines text).length
          ↔ (ss.map (·.name)).Nodup) := by
  obtain ⟨s, he⟩ := runConvert_ends_ok he
  obtain ⟨d, a, doc, h₁, hload, hversion, hdoc, hleft⟩ := convertUnder_ends_ok he
  obtain ⟨text, htext, ha⟩ := load_ends_ok hload
  obtain ⟨ss, hss, hnames⟩ := Procfile.names_of_ofText ha hversion
  refine ⟨text, ss, doc, htext, hss, hleft, fun d' => ?_⟩
  obtain ⟨draft, hdraft, hdeclared, hread⟩ := Procfile.names_of_documentOf hdoc d'
  rw [hnames] at hdeclared
  have hlength : draft.app.services.length = (ss.map (·.name)).dedup.length := by
    rw [← hdeclared, List.length_map]
  have hlines : (serviceLines text).length = (ss.map (·.name)).length := by
    rw [hss.length_eq, List.length_map]
  refine ⟨draft, hdraft, hread, hdeclared, ?_, ?_⟩
  · rw [hdeclared, List.dedup_eq_self]
  · rw [hlength, hlines, (List.dedup_sublist _).length_eq, List.dedup_eq_self]

namespace Converter

/-- The text of a file with two services of one name. -/
def text : String := "web: ./first\nweb: ./second\n"

/-- A host with that file. -/
def host : Host where
  files := { entries := [(["Procfile"], .file (Text.Utf8.encode text) 0o644)] }

/-- The file is to be replaced. -/
def replacement : CommandLine.Convert where
  procfile := "/Procfile"
  appName := "shop"
  inPlace := true

/-- The services that the lines of the file declare. -/
def services : List Service :=
  [{ name := "web", command := "./first" }, { name := "web", command := "./second" }]

/-- The first of the services is lost, and the only text that declared it is overwritten. -/
theorem loses_web : ∃ h' doc, (runConvert replacement).Ends host (.ok none) h'
    ∧ List.Forall₂ Declares (serviceLines text.toList) services
    ∧ IsLeft replacement (doc.print ++ "\n") none h'
    ∧ ∀ d, ∃ draft, Procfile.readDocument doc d = .ok draft
      ∧ draft.app.services.map (·.name) = ["web"] := by
  have he : (runConvert replacement).Ends host (.ok none)
      ((runConvert replacement).run.run host).2 := Prod.ext (by decide +kernel) rfl
  obtain ⟨t, ss, doc, ⟨octets, hread, hdecode⟩, hss, hleft, hnames⟩ := runConvert_names he
  have hfile : (host.withRecord .debug s!"Processing file {replacement.procfile}").files.read
      replacement.procfile = .ok (Text.Utf8.encode text) := by decide +kernel
  have htext : t = text.toList := by
    rw [hfile, Except.ok.injEq] at hread
    rw [← hread, Procfile.decode, Text.Utf8.decode_encode] at hdecode
    exact (Except.ok.inj hdecode).symm
  have hservices : Procfile.readLegacy text.toList = .ok services := by decide +kernel
  have hsame : ss = services := by
    rw [htext, ← Procfile.readLegacy_eq_ok_iff, hservices] at hss
    exact (Except.ok.inj hss).symm
  refine ⟨_, doc, he, Procfile.readLegacy_eq_ok_iff.mp hservices, hleft, fun d => ?_⟩
  obtain ⟨draft, hdraft, -, hdeclared, -⟩ := hnames d
  rw [hsame] at hdeclared
  exact ⟨draft, hdraft, hdeclared⟩

end Converter

end ProcUnits
