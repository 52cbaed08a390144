import Mathlib.Tactic.Common
import ProcUnits.Proofs.Path.Resolve
import ProcUnits.Proofs.Procfile.Legacy
import ProcUnits.Proofs.Procfile.Reading
import ProcUnits.Proofs.UnitFile.Alike
import ProcUnits.Validation

/-!
The directory in which a service runs (sections 4.5 and 4.6 of the specification).

The checks take a service's own directory as it is meant in that of the application. Units and
scripts show it as it is written. The two are the same for an absolute directory, and for the
application's own, but not for a relative one.

* `checkedDir`: the directory as the checks take it;
* `valuesOf_serviceTemplate`, `helper_upstart_eq`: the directory in a unit of systemd, and in a
  script of upstart;
* `workingDir_of_unset`: what is left to a service without a directory of its own;
* `workingDir_used_iff`: when the directory that is used is absolute, and when it is the one that
  was checked.
-/

namespace ProcUnits.UnitFile

open ProcUnits.Path (isAbsolute)
open Procfile (ofText textAt)
open Options (setText)

variable {a : Application} {d : Defaults} {m : Application.Member} {version : Version}
  {text : List Char} {t : String}

/-- The directory of a service as the checks take it. -/
def checkedDir (m : Application.Member) : String :=
  match setText m.options.workingDir with
  | some t => Path.resolve m.app.workingDir t
  | none => m.app.workingDir

/-! ### Where the directory is shown -/

/-- The values of the directives with a key. -/
def Template.valuesOf (key : String) (t : Template) : List String :=
  t.filterMap fun
    | .directive k v => if k = key then some v else none
    | .optional k v => if k = key then v else none
    | _ => none

/-- The unit of an instance has one directive for the directory. -/
lemma valuesOf_serviceTemplate (date : String) (i : Instance) :
    (Systemd.serviceTemplate date i).valuesOf "WorkingDirectory" = [i.member.workingDir] := by
  have hrespawn : Template.valuesOf "WorkingDirectory"
      (Systemd.respawnItems i.member.options) = [] := by
    rw [Systemd.respawnItems]
    split_ifs <;> simp [Template.valuesOf]
  have hresources : Template.valuesOf "WorkingDirectory"
      (Systemd.resourceBlock i.member.options) = [] := by
    rw [Systemd.resourceBlock]
    split <;> simp [Template.valuesOf, Systemd.resourceItems]
  simp only [Template.valuesOf] at hrespawn hresources
  simp [Template.valuesOf, Systemd.serviceTemplate, Systemd.killItems, Systemd.limitItems,
    hrespawn, hresources]

/-- A script of upstart ends with a line that changes to the directory and runs the commands. -/
lemma helper_upstart_eq (date : String) (i : Instance) :
    ∃ front, InitSystem.upstart.helper date i
      = front ++ ("cd " ++ i.member.workingDir ++ " && " ++ commandChain i.member ++ "\n") :=
  ⟨_, helper_eq_append "upstart" date true i⟩

/-! ### Where the directory comes from -/

/-- A service without a directory of its own has that of the host, unless its file gives an empty
one to the application. A directory that the file gives to the application is one that it gives to
all services. -/
lemma workingDir_of_unset (h : ofText version text d = .ok a) (hm : m ∈ a.members)
    (hunset : setText m.options.workingDir = none) :
    m.app.workingDir = d.workingDir ∨ m.app.workingDir = "" := by
  obtain ⟨s, hs, rfl⟩ := List.mem_map.mp hm
  cases version with
  | v1 => exact Or.inl (Procfile.workingDir_of_ofText h)
  | v2 =>
      obtain ⟨draft, hdraft, rfl⟩ := Procfile.ofText_eq_ok h
      obtain ⟨doc, -, hread⟩ := Procfile.draftOfText_v2_eq_ok hdraft
      obtain ⟨es, -, hshared, happ, -⟩ := Procfile.readDocument_eq_ok hread
      obtain ⟨s', -, rfl⟩ := List.mem_map.mp hs
      -- the directory of the document is one of the shared options as well
      have hmerged : setText (firstText s'.options.workingDir draft.shared.workingDir) = none :=
        hunset
      rw [Options.setText_firstText, Option.or_eq_none_iff, hshared] at hmerged
      have hdir : draft.app.workingDir = (textAt doc "working_directory").getD d.workingDir := happ
      cases htext : textAt doc "working_directory" with
      | none => exact Or.inl (by rw [← Option.getD_none (a := d.workingDir), ← htext]; exact hdir)
      | some t =>
          rw [htext, Options.setText_some] at hmerged
          have hempty : t = "" := by
            by_contra hne
            simp [hne] at hmerged
          rw [htext, hempty] at hdir
          exact Or.inr hdir

/-! ### Where the directory is the one that was checked -/

/-- Units of systemd and scripts of upstart show the directory of a service as it is written. If the
host's directory is absolute, then the one that is shown is absolute exactly if it is written as an
absolute path, or the service has none of its own and its file gives no empty one to the
application. It is the one that was checked exactly if it is written as an absolute path, or there
is nothing to take it from. -/
theorem workingDir_used_iff (h : ofText version text d = .ok a)
    (hd : isAbsolute d.workingDir = true) (hm : m ∈ a.members) (index : Option Nat)
    (helperDir date : String) :
    (Systemd.serviceTemplate date ⟨m, index, helperDir⟩).valuesOf "WorkingDirectory"
        = [m.workingDir]
    ∧ (∃ front, InitSystem.upstart.helper date ⟨m, index, helperDir⟩
        = front ++ ("cd " ++ m.workingDir ++ " && " ++ commandChain m ++ "\n"))
    ∧ (isAbsolute m.workingDir = true
      ↔ (∀ t ∈ setText m.options.workingDir, isAbsolute t = true)
        ∧ (setText m.options.workingDir = none → m.app.workingDir ≠ ""))
    ∧ (m.workingDir = checkedDir m
      ↔ ∀ t ∈ setText m.options.workingDir, isAbsolute t = true ∨ m.app.workingDir = "") := by
  refine ⟨valuesOf_serviceTemplate date _, helper_upstart_eq date _, ?_⟩
  rw [Application.Member.workingDir, checkedDir]
  cases hown : setText m.options.workingDir with
  | some t =>
      simp only [Option.getD_some, Option.mem_some_iff, forall_eq', reduceCtorEq, false_implies,
        and_true, true_and]
      exact eq_comm.trans Path.resolve_eq_self_iff
  | none =>
      simp only [Option.getD_none, Option.not_mem_none, false_implies, implies_true, true_and,
        forall_const, and_true]
      rcases workingDir_of_unset h hm hown with hdir | hdir
      · have hne : d.workingDir ≠ "" := by
          intro hempty
          rw [hempty] at hd
          exact absurd hd (by decide)
        rw [hdir]
        exact iff_of_true hd hne
      · rw [hdir]
        decide

/-- A host with an absolute directory. -/
def srvDefaults : Defaults where
  name := "shop"
  user := "www"
  group := "www"
  workingDir := "/srv"

/-- A service in a relative directory. -/
def binService : Service where
  name := "web"
  command := "./run"
  options := { workingDir := some "bin" }

/-- The application of that service. -/
def binApplication : Application := .ofDefaults .v1 srvDefaults [binService]

/-- The directory `bin` passes the checks as `/srv/bin`, and the script changes to `bin`, from
wherever it is started. -/
theorem workingDir_used_bin :
    ofText .v1 "web: cd bin && ./run\n".toList srvDefaults = .ok binApplication
    ∧ Validation.validate binApplication = []
    ∧ checkedDir ⟨binApplication, binService⟩ = "/srv/bin"
    ∧ (∃ front, InitSystem.upstart.helper "today" ⟨⟨binApplication, binService⟩, none, "/helpers"⟩
      = front ++ ("cd bin && exec ./run\n"))
    ∧ isAbsolute (Application.Member.workingDir ⟨binApplication, binService⟩) ≠ true
    ∧ Application.Member.workingDir ⟨binApplication, binService⟩
      ≠ checkedDir ⟨binApplication, binService⟩ := by
  have htext : ofText .v1 "web: cd bin && ./run\n".toList srvDefaults = .ok binApplication := by
    decide +kernel
  obtain ⟨-, ⟨front, hfront⟩, habsolute, hchecked⟩ := workingDir_used_iff htext (by decide)
    (List.mem_singleton.mpr rfl) none "/helpers" "today"
  have hown : setText binService.options.workingDir = some "bin" := by decide
  refine ⟨htext, by decide +kernel, by decide +kernel, ⟨front, ?_⟩, fun heq => ?_, fun heq => ?_⟩
  · rw [hfront]
    congr 1
  · exact absurd ((habsolute.mp heq).1 "bin" hown) (by decide)
  · exact absurd (hchecked.mp heq "bin" hown) (by decide)

end ProcUnits.UnitFile
