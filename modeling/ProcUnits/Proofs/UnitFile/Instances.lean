import Mathlib.Data.List.Basic
import Mathlib.Tactic.Common
import ProcUnits.UnitFile.Instance

/-!
The instances of an application.

* `eq_of_mem_instances`: an instance belongs to a service of the application;
* `instances_of_single`: where no service has several, there is one for each service;
* `not_mem_instanceName`: the name of an instance is that of the service, and digits.
-/

namespace ProcUnits

variable {a : Application} {helperDir : String} {c : Char}

lemma not_mem_repr (hc : c.isDigit = false) (n : ℕ) : c ∉ (Nat.repr n).toList := by
  intro hmem
  have hdigit : c.isDigit = true := by
    refine Nat.isDigit_of_mem_toDigits (b := 10) (n := n) (by decide) (by decide) ?_
    simpa [Nat.repr] using hmem
  rw [hc] at hdigit
  exact absurd hdigit (by decide)

/-- The name of an instance adds digits to that of its service. -/
lemma not_mem_instanceName {name : String} (hc : c.isDigit = false) (hname : c ∉ name.toList)
    (index : Option ℕ) : c ∉ (Options.instanceName name index).toList := by
  cases index with
  | none => exact hname
  | some n =>
      rw [Options.instanceName, String.toList_append, List.mem_append, not_or]
      exact ⟨hname, not_mem_repr hc n⟩

namespace UnitFile

lemma eq_of_mem_instances {i : Instance} (h : i ∈ instances a helperDir) :
    i.helperDir = helperDir ∧ i.member.app = a ∧ i.member.service ∈ a.services := by
  obtain ⟨m, hm, hi⟩ := List.mem_flatMap.mp h
  obtain ⟨s, hs, rfl⟩ := List.mem_map.mp hm
  obtain ⟨index, -, rfl⟩ := List.mem_map.mp hi
  exact ⟨rfl, rfl, hs⟩

/-- Services without several instances have one each. -/
lemma instances_of_single (h : ∀ s ∈ a.services, s.options.instances = [none])
    (helperDir : String) :
    instances a helperDir = a.services.map fun s => ⟨⟨a, s⟩, none, helperDir⟩ := by
  rw [instances, Application.members, List.flatMap_map, List.map_eq_flatMap]
  refine List.flatMap_congr fun s hs => ?_
  change (s.options.instances.map _) = _
  rw [h s hs]
  rfl

end UnitFile

end ProcUnits
