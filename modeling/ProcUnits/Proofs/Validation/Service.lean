import Mathlib.Tactic.Common
import ProcUnits.Validation

/-!
What the checks of one service ask of it (section 4.5 of the specification).

* `Passes`: all of it, check by check;
* `serviceProblems_eq_nil_iff`: a service that passes is one without problems.
-/

namespace ProcUnits.Validation

variable {m : Application.Member} {o : Option String} {ok : Bool} {p : Problem}

/-! ### Single checks -/

lemma require_eq_nil_iff : require ok p = [] ↔ ok = true := by
  cases ok <;> simp [require]

lemma requireText_eq_nil_iff {check : String → Bool} {p : String → Problem} :
    requireText o check p = [] ↔ ∀ t ∈ Options.setText o, check t = true := by
  unfold requireText
  cases Options.setText o with
  | none => simp
  | some t => simp [require_eq_nil_iff]

lemma negativeProblems_eq_nil_iff {service : String} {ns : List (String × Int × Int)} :
    negativeProblems service ns = [] ↔ ∀ n ∈ ns, n.2.2 ≤ n.2.1 := by
  simp [negativeProblems, require_eq_nil_iff]

lemma variableProblems_eq_nil_iff {service : String} {e : String × String} :
    variableProblems service e = [] ↔ isVariableName e.1 = true ∧ isSafeValue e.2 = true := by
  rw [variableProblems, List.append_eq_nil_iff, require_eq_nil_iff, require_eq_nil_iff]

/-! ### All checks -/

/-- What is asked of a service. -/
structure Passes (m : Application.Member) : Prop where
  isName : isName m.service.name = true
  workingDir : ∀ t ∈ Options.setText m.options.workingDir, isSafePath m.app.workingDir t = true
  logFile : ∀ t ∈ Options.setText m.options.logFile, isSafePath m.workingDir t = true
  variablesFile : ∀ t ∈ Options.setText m.options.variablesFile, isSafePath m.workingDir t = true
  numbers : ∀ n ∈ numbers m.options ++ resourceNumbers m.options, n.2.2 ≤ n.2.1
  killMode : ∀ t ∈ Options.setText m.options.killMode, killModes.contains t = true
  killSignal : ∀ t ∈ Options.setText m.options.killSignal, isKnownSignal t = true
  reloadSignal : ∀ t ∈ Options.setText m.options.reloadSignal, isKnownSignal t = true
  environment : ∀ e ∈ m.options.environment.entries,
    isVariableName e.1 = true ∧ isSafeValue e.2 = true

/-- A service has no problems just if it is as the checks ask. -/
theorem serviceProblems_eq_nil_iff : serviceProblems m = [] ↔ Passes m := by
  simp only [serviceProblems, pathProblems, List.append_eq_nil_iff, require_eq_nil_iff,
    requireText_eq_nil_iff, negativeProblems_eq_nil_iff, List.flatMap_eq_nil_iff,
    variableProblems_eq_nil_iff]
  constructor
  · rintro ⟨⟨⟨⟨⟨⟨⟨⟨hname, hdir⟩, hlog⟩, hfile⟩, hnumbers⟩, hmode⟩, hkill⟩, hreload⟩, hvariables⟩
    exact ⟨hname, hdir, hlog, hfile, hnumbers, hmode, hkill, hreload, hvariables⟩
  · rintro ⟨hname, hdir, hlog, hfile, hnumbers, hmode, hkill, hreload, hvariables⟩
    exact ⟨⟨⟨⟨⟨⟨⟨⟨hname, hdir⟩, hlog⟩, hfile⟩, hnumbers⟩, hmode⟩, hkill⟩, hreload⟩, hvariables⟩

end ProcUnits.Validation
