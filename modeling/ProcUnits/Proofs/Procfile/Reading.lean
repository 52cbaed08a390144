import Mathlib.Tactic.Common
import ProcUnits.Procfile.Read
import ProcUnits.Proofs.Outcome

/-!
What was read, seen from a reading that ended well.

* `textAt`: the text under a key, which is what reading a text there gives
  (`eq_textAt_of_optional`);
* `optionsOf_workingDir`, `serviceOfEntry_eq_ok`, `readDocument_eq_ok`: where the parts of a
  document's application come from;
* `ofText_eq_ok`: the application of a text, from its draft.
-/

namespace ProcUnits.Procfile

open Yaml (Value)

variable {a : Application} {d : Defaults} {version : Version} {text : List Char} {v : Value}
  {start key : String}

/-! ### Documents -/

/-- The text under a key, if there is one. -/
def textAt (v : Value) (key : String) : Option String := (v.get? key).bind Value.text?

/-- A text that is read is the one under its key. -/
lemma eq_textAt_of_optional {o : Option String} (h : optional textOf start v key = .ok o) :
    o = textAt v key := by
  unfold optional at h
  rw [textAt]
  cases hv : v.get? key with
  | none =>
      rw [hv] at h
      exact (Except.ok.inj h).symm
  | some w =>
      rw [hv] at h
      simp only [textOf] at h
      cases hw : w.text? with
      | none => simp [hw, Except.map] at h
      | some s => simpa [hw, Except.map, eq_comm] using h

/-- The directory among the options is the text under its key. -/
lemma optionsOf_workingDir {o : Options} (h : optionsOf start v = .ok o) :
    o.workingDir = textAt v "working_directory" := by
  simp only [optionsOf, bind_eq_ok_iff, pure_eq_ok_iff] at h
  obtain ⟨dir, hdir, -, -, -, -, -, -, -, -, -, -, -, -, -, -, -, -, -, -, -, -, -, -, rfl⟩ := h
  exact eq_textAt_of_optional hdir

/-- The commands of a service that an entry declares: the main one is scanned, the others are taken
as they are. -/
lemma serviceOfEntry_eq_ok {e : Value × Value} {s : Service} (h : serviceOfEntry e = .ok s) :
    ∃ command, textAt e.2 "command" = some command
      ∧ s.command = (Clause.scan command.toList).command
      ∧ s.pre = textAt e.2 "pre" ∧ s.post = textAt e.2 "post" := by
  unfold serviceOfEntry at h
  split at h
  · cases h
  · next name _ =>
      unfold serviceOf at h
      split at h
      · next es hes =>
          rw [hes]
          simp only [bind_eq_ok_iff] at h
          obtain ⟨o, ho, h⟩ := h
          split at h
          · cases h
          · next command =>
              simp only [bind_eq_ok_iff, pure_eq_ok_iff] at h
              obtain ⟨-, -, pre, hpre, post, hpost, rfl⟩ := h
              exact ⟨command, (eq_textAt_of_optional ho).symm, rfl, eq_textAt_of_optional hpre,
                eq_textAt_of_optional hpost⟩
      · cases h

/-- The directory and the services of an application that a document declares. -/
lemma readDocument_eq_ok {draft : Draft} (h : readDocument v d = .ok draft) :
    ∃ es, v.get? "commands" = some (.map es)
      ∧ draft.shared.workingDir = textAt v "working_directory"
      ∧ draft.app.workingDir = (textAt v "working_directory").getD d.workingDir
      ∧ List.Forall₂ (fun e s => serviceOfEntry e = .ok s) es draft.app.services := by
  unfold readDocument at h
  split at h
  · next es hes =>
      simp only [bind_eq_ok_iff, pure_eq_ok_iff] at h
      obtain ⟨o, ho, ss, hss, dir, hdir, -, -, -, -, -, -, -, -, -, -, rfl⟩ := h
      obtain rfl := eq_textAt_of_optional hdir
      have hshared : o.workingDir = textAt v "working_directory" := optionsOf_workingDir ho
      exact ⟨es, hes, hshared, rfl, mapM_eq_ok_iff.mp hss⟩
  · cases h

/-! ### Texts -/

/-- The application of a text is that of a draft, with its options decided. -/
lemma ofText_eq_ok (h : ofText version text d = .ok a) :
    ∃ draft, draftOfText version text d = .ok draft ∧ draft.resolve d = a := by
  rw [ofText, bind_eq_ok_iff] at h
  simpa only [pure_eq_ok_iff] using h

/-- A document that declares an application is loaded and read. -/
lemma draftOfText_v2_eq_ok {draft : Draft} (h : draftOfText .v2 text d = .ok draft) :
    ∃ doc, Value.load text = .ok doc ∧ readDocument doc d = .ok draft := by
  rw [draftOfText] at h
  split at h
  · next doc hdoc => exact ⟨doc, hdoc, h⟩
  · cases h

end ProcUnits.Procfile
