import Mathlib.Data.List.Infix
import Mathlib.Tactic.Common
import ProcUnits.Proofs.Path.Resolve
import ProcUnits.Proofs.Validation.Names
import ProcUnits.UnitFile.Script

/-!
The files that helper scripts name: the path safety of sections 4.5 and D of the specification, at
the paths that are used.

A service can have a log and a file with variables. The checks look at both as they are meant in the
directory of the service, and the script names them in the same way.

* `isSafePath_iff`: what the check of a path asks, in declarative words;
* `IsSafeFile`: what it is good for, once the path is taken from its directory, and
  `isSafeFile_resolve`: that it is enough;
* `redirection_eq`, `environment_eq`: the paths in a helper script;
* `isSafeFile_of_validate`: all of it, for the services of an application without problems.
-/

namespace ProcUnits

open ProcUnits.Path (isAbsolute normalize)

variable {a : Application} {m : Application.Member} {dir t p : String}

namespace Validation

/-! ### The check of a path -/

lemma rooted_normalize_of_mem_protectedDirs {d : String} (h : d ∈ protectedDirs) :
    (normalize d).rooted = true := by
  have habsolute : ∀ d ∈ protectedDirs, isAbsolute d = true := by decide
  exact Path.rooted_normalize (habsolute d h)

/-- A place that is known is safe if it is neither the root nor in a directory of the system. -/
lemma isSafePlace_iff {place : Path.Place} : isSafePlace place = true
    ↔ (place.rooted = true → place.names ≠ []
      ∧ ∀ d ∈ protectedDirs, ¬ (normalize d).names <+: place.names) := by
  cases hrooted : place.rooted with
  | false => simp [isSafePlace, hrooted]
  | true =>
      have hwithin : ∀ d ∈ protectedDirs, place.isWithin (normalize d) = true
          ↔ (normalize d).names <+: place.names := by
        intro d hd
        rw [Path.Place.isWithin, hrooted, rooted_normalize_of_mem_protectedDirs hd]
        simp
      simp only [isSafePlace, hrooted, Bool.not_true, Bool.false_or, Bool.and_eq_true,
        Bool.not_eq_true', List.isEmpty_eq_false_iff, List.any_eq_false, forall_const]
      exact and_congr_right fun _ => forall₂_congr fun d hd => not_congr (hwithin d hd)

/-- What the check of a path asks. -/
lemma isSafePath_iff : isSafePath dir t = true
    ↔ t ≠ "" ∧ (∀ c ∈ t.toList, isPathChar c = true) ∧ Path.escapes t = false
      ∧ isSafePlace (normalize (Path.resolve dir t)) = true := by
  simp [isSafePath, and_assoc]

/-! ### Paths in their directory -/

/-- The path `p`, which the text `t` means in the directory `dir`, is written with safe characters,
leads neither to the root nor into a directory of the system, and stays in `dir` if `t` is taken
from there. -/
structure IsSafeFile (dir t p : String) : Prop where
  isPathChar : ∀ c ∈ p.toList, isPathChar c = true
  unprotected : isAbsolute p = true → (normalize p).names ≠ []
    ∧ ∀ d ∈ protectedDirs, ¬ (normalize d).names <+: (normalize p).names
  isWithin : isAbsolute t = false → isAbsolute dir = true →
    (normalize p).isWithin (normalize dir) = true

/-- A path that passes its check is safe as it is meant in its directory. -/
theorem isSafeFile_resolve (hdir : ∀ c ∈ dir.toList, isPathChar c = true)
    (h : isSafePath dir t = true) : IsSafeFile dir t (Path.resolve dir t) := by
  obtain ⟨-, hchars, hescapes, hplace⟩ := isSafePath_iff.mp h
  constructor
  case isPathChar =>
    intro c hc
    rcases Path.mem_toList_resolve hc with hmem | rfl | hmem
    · exact hdir c hmem
    · decide
    · exact hchars c hmem
  case unprotected =>
    intro habsolute
    exact isSafePlace_iff.mp hplace (Path.rooted_normalize habsolute)
  case isWithin =>
    intro hrelative habsolute
    have hne : dir ≠ "" := by
      rintro rfl
      exact absurd habsolute (by decide)
    exact Path.isWithin_resolve hne hrelative hescapes

/-- The directory of a service is written with safe characters if that of the application is. -/
lemma isPathChar_workingDir (hdir : ∀ c ∈ m.app.workingDir.toList, isPathChar c = true)
    (h : Passes m) : ∀ c ∈ m.workingDir.toList, isPathChar c = true := by
  rw [Application.Member.workingDir]
  cases hown : Options.setText m.options.workingDir with
  | none => exact hdir
  | some t => exact (isSafePath_iff.mp (h.workingDir t hown)).2.1

end Validation

namespace UnitFile

/-! ### Paths in helper scripts -/

lemma eq_some_of_mem_setText {o : Option String} (h : t ∈ Options.setText o) : o = some t :=
  (Option.filter_eq_some_iff.mp h).1

/-- A log that is set is named as it is meant in the directory of the service. -/
lemma redirection_eq (h : t ∈ Options.setText m.options.logFile) :
    redirection m = " &>>" ++ Path.resolve m.workingDir t := by
  have hset : m.options.isCustomLogEnabled = true := by
    rw [Options.isCustomLogEnabled, Options.isTextSet, Option.mem_def.mp h]
    rfl
  rw [redirection, if_pos hset, Application.Member.logPath?, eq_some_of_mem_setText h]
  rfl

/-- A file with variables that is set is named as it is meant in the directory of the service. -/
lemma environment_eq (h : t ∈ Options.setText m.options.variablesFile) :
    environment m
      = "env " ++ (if m.options.areVariablesSet then m.options.environment.text ++ " " else "")
        ++ ("$(grep -Ev '^\\s*(#|$)' " ++ Path.resolve m.workingDir t
          ++ " 2>/dev/null | xargs) ") := by
  have hset : m.options.isVariablesFileSet = true := by
    rw [Options.isVariablesFileSet, Options.isTextSet, Option.mem_def.mp h]
    rfl
  simp only [environment]
  rw [hset, Bool.or_true, if_pos rfl, Application.Member.variablesPath?, eq_some_of_mem_setText h]
  rfl

open Validation (IsSafeFile)

/-- In an application without problems whose directory is written with safe characters, the log and
the file with variables of each service are safe files, under the paths by which the helper script
names them (sections 4.5 and D). -/
theorem isSafeFile_of_validate (h : Validation.validate a = [])
    (hdir : ∀ c ∈ a.workingDir.toList, Validation.isPathChar c = true) (hm : m ∈ a.members) :
    (∀ t ∈ Options.setText m.options.logFile, ∃ p, m.logPath? = some p
      ∧ redirection m = " &>>" ++ p ∧ IsSafeFile m.workingDir t p)
    ∧ ∀ t ∈ Options.setText m.options.variablesFile, ∃ p, m.variablesPath? = some p
      ∧ (environment m
        = "env " ++ (if m.options.areVariablesSet then m.options.environment.text ++ " " else "")
          ++ ("$(grep -Ev '^\\s*(#|$)' " ++ p ++ " 2>/dev/null | xargs) "))
      ∧ IsSafeFile m.workingDir t p := by
  obtain ⟨s, -, rfl⟩ := List.mem_map.mp hm
  have hpasses := (Validation.validate_eq_nil_iff.mp h).2.1 _ hm
  have hchars := Validation.isPathChar_workingDir hdir hpasses
  constructor
  · intro t ht
    refine ⟨_, ?_, redirection_eq ht, Validation.isSafeFile_resolve hchars (hpasses.logFile t ht)⟩
    rw [Application.Member.logPath?, eq_some_of_mem_setText ht]
    rfl
  · intro t ht
    refine ⟨_, ?_, environment_eq ht,
      Validation.isSafeFile_resolve hchars (hpasses.variablesFile t ht)⟩
    rw [Application.Member.variablesPath?, eq_some_of_mem_setText ht]
    rfl

/-- A service whose directory and files are given in roundabout ways. -/
def windingService : Service where
  name := "web"
  command := "serve"
  options :=
    { workingDir := some "/srv//a/../shop/"
      logFile := some "./log/../out/./web.log"
      variablesFile := some "/opt/env" }

/-- The application of that service. -/
def windingApplication : Application where
  name := "shop"
  user := "www"
  group := "www"
  workingDir := ""
  services := [windingService]
  version := .v2

/-- The log of that service stays in the directory of the service. -/
theorem isSafeFile_winding :
    IsSafeFile "/srv//a/../shop/" "./log/../out/./web.log" "/srv//a/../shop/./log/../out/./web.log"
    ∧ IsSafeFile "/srv//a/../shop/" "/opt/env" "/opt/env"
    ∧ (normalize "/srv//a/../shop/./log/../out/./web.log").isWithin ⟨true, ["srv", "shop"]⟩
      = true := by
  have hvalid : Validation.validate windingApplication = [] := by decide +kernel
  obtain ⟨hlog, hvariables⟩ := isSafeFile_of_validate hvalid (by simp [windingApplication])
    (List.mem_singleton.mpr rfl)
  obtain ⟨p, hp, -, hsafe⟩ := hlog "./log/../out/./web.log" rfl
  obtain ⟨q, hq, -, hsafe'⟩ := hvariables "/opt/env" rfl
  obtain rfl : "/srv//a/../shop/./log/../out/./web.log" = p :=
    Option.some.inj (Eq.trans (by decide +kernel) hp)
  obtain rfl : "/opt/env" = q := Option.some.inj (Eq.trans (by decide +kernel) hq)
  have hplace : normalize "/srv//a/../shop/" = ⟨true, ["srv", "shop"]⟩ := by decide +kernel
  have hwithin := hsafe.isWithin (by decide) (by decide)
  exact ⟨hsafe, hsafe', hplace ▸ hwithin⟩

end UnitFile

end ProcUnits
