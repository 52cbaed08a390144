import ProcUnits.Proofs.Procfile.Conversion
import ProcUnits.Proofs.Procfile.Grammar
import ProcUnits.Proofs.Procfile.Reading

/-!
The services that a converted document declares (section C.3 of the specification).

A document has its services under their names, and a legacy file may have several with one name.

* `lastServices`: the application with the last service of each name;
* `documentOf_lastServices`: that is all that its document has;
* `names_of_documentOf`: so the document is read as an application that has each name once;
* `names_of_ofText`: a legacy application has a service for each line.
-/

namespace ProcUnits.Procfile

open Yaml (Value)

variable {a : Application} {d : Defaults} {doc : Value} {text : List Char} {version : Version}

/-! ### Documents -/

/-- The application with the last of its services of each name. -/
def lastServices (a : Application) : Application :=
  { a with services := Fields.lastBy (·.name) a.services }

lemma names_lastServices (a : Application) :
    (lastServices a).services.map (·.name) = (a.services.map (·.name)).dedup :=
  Fields.map_lastBy ..

lemma nodup_lastServices (a : Application) : ((lastServices a).services.map (·.name)).Nodup := by
  rw [names_lastServices]
  exact List.nodup_dedup _

/-- The others leave nothing in the document. -/
lemma documentOf_lastServices (a : Application) (d : Defaults) :
    documentOf (lastServices a) d = documentOf a d := by
  have hcommands : commandFields (lastServices a).services = commandFields a.services := by
    rw [commandFields_eq (nodup_lastServices a)]
    exact (Fields.foldl_insert_nil a.services).symm
  rw [documentOf, documentOf, hcommands]
  rfl

/-- A document is read, with any defaults, as an application that has each name once. So is its
text, if that is loaded as the document. -/
theorem names_of_documentOf (hdoc : documentOf a d = .ok doc) (d' : Defaults) :
    ∃ draft, readDocument doc d' = .ok draft
      ∧ draft.app.services.map (·.name) = (a.services.map (·.name)).dedup
      ∧ (Value.load (doc.print ++ "\n").toList = .ok doc →
        ofBytes (Text.Utf8.encode (doc.print ++ "\n")) d' = .ok (draft.resolve d')) := by
  have hversion : (lastServices a).version = .v1 := by
    show a.version = .v1
    rw [documentOf] at hdoc
    split at hdoc
    · cases hdoc
    · next hv => exact hv
  rw [← documentOf_lastServices] at hdoc
  have hfields : doc = .map (documentFields (lastServices a) d) := by
    rw [documentOf_eq hversion] at hdoc
    exact (Except.ok.inj hdoc).symm
  refine ⟨convertedDraft (lastServices a) d d', ?_, ?_, fun hload => ?_⟩
  · rw [hfields]
    exact readDocument_documentFields (nodup_lastServices a) d d'
  · rw [← names_lastServices]
    show ((lastServices a).services.map reread).map _ = _
    rw [List.map_map]
    rfl
  · have hloads : LoadsBack (lastServices a) d := by
      intro doc' hdoc'
      rw [hdoc] at hdoc'
      cases hdoc'
      exact hload
    obtain ⟨yaml, hyaml, hread⟩ := ofBytes_convert hversion (nodup_lastServices a) hloads d'
    rw [convert, hdoc] at hyaml
    cases hyaml
    exact hread

/-! ### Legacy files -/

/-- Lines declare what is read from them. -/
lemma readLegacy_eq_ok_iff {ss : List Service} :
    readLegacy text = .ok ss ↔ List.Forall₂ Declares (serviceLines text) ss := by
  simp only [readLegacy, servicesOfLines_eq_mapM, mapM_eq_ok_iff, serviceOfLine_eq_ok_iff]

lemma version_of_readDocument {draft : Draft} (h : readDocument doc d = .ok draft) :
    draft.app.version = .v2 := by
  unfold readDocument at h
  split at h
  · simp only [bind_eq_ok_iff, pure_eq_ok_iff] at h
    obtain ⟨-, -, -, -, -, -, -, -, -, -, -, -, -, -, -, -, rfl⟩ := h
    rfl
  · cases h

/-- An application is of the format that its text is read in. -/
lemma version_eq_of_ofText (h : ofText version text d = .ok a) : a.version = version := by
  cases version with
  | v1 => exact version_of_ofText h
  | v2 =>
      obtain ⟨draft, hdraft, rfl⟩ := ofText_eq_ok h
      obtain ⟨doc, -, hread⟩ := draftOfText_v2_eq_ok hdraft
      exact version_of_readDocument hread

/-- A legacy application has a service for each line, with the name that the line declares. -/
lemma names_of_ofText (h : ofText version text d = .ok a) (hversion : a.version = .v1) :
    ∃ ss, List.Forall₂ Declares (serviceLines text) ss
      ∧ a.services.map (·.name) = ss.map (·.name) := by
  obtain rfl := (version_eq_of_ofText h).symm.trans hversion
  obtain ⟨draft, hdraft, rfl⟩ := ofText_eq_ok h
  obtain ⟨ss, hss, rfl⟩ := draftOfText_v1_eq_ok_iff.mp hdraft
  refine ⟨ss, hss, ?_⟩
  show (ss.map _).map _ = _
  rw [List.map_map]
  rfl

end ProcUnits.Procfile
