import ProcUnits.Proofs.Install.Runs

/-!
Two applications with the same installer. The files of one are found by the patterns of section 4.7
of the specification, and these may take those of the other one as well.

* `Installer.Spares`: whatever is done with one application, the files of the other one stay as
  they are;
* `spares_of_not_extends`: this holds of applications whose names do not go on from each other
  behind a bar;
* `takes_of_extends`: if one name goes on from the other, the files of the longer name count as
  files of the shorter one, and go with them;
* `spares_or_takes`: both together.
-/

namespace ProcUnits.Install

open Host (Attempt Location)
open UnitFile (stem)
open Validation (isName validate)

namespace Installer

variable {i : Installer} {a b : String} {h h' : Host} {w l : Location}

/-- What is done with the first application changes no file that has a name of the second one in
the two directories, unless it is that of the log. -/
def Spares (i : Installer) (a b : String) : Prop :=
  ∀ ⦃op h r h'⦄, Operation.IsOn a op → (op.attempt i).Ends h r h' →
    ∀ l ∈ i.ownPlaces b h.files.workingDir, ¬ h.LogsTo l → h'.files.file? l = h.files.file? l

/-- The removal of the first application removes all files of the second one. -/
def Takes (i : Installer) (a b : String) : Prop :=
  ∀ ⦃h h'⦄, (i.uninstall a).Ends h (.ok ()) h' → i.Swept b h h'

/-! ### Names apart -/

lemma notMem_filePlaces (hne : a ≠ b) (hab : ¬ Extends a b)
    (hba : ¬ Extends b a) (hl : l ∈ i.ownPlaces b w) : l ∉ i.filePlaces a w := by
  rintro ⟨dir, n, hfile, rfl⟩
  obtain ⟨dir', m, -, hm, heq⟩ := hl
  -- a location is left through its last name, which both applications would have
  obtain rfl : n = m := by simpa using congrArg List.getLast? heq
  exact (extends_of_isNamedAfter hfile.isNamedAfter hm hne).elim hab hba

lemma notMem_writeAllPlaces {os : List Output} (ha : isName a = true) (hb : isName b = true)
    (hne : a ≠ b) (hab : ¬ Extends a b) (hba : ¬ Extends b a) (hos : ∀ o ∈ os, o.IsOf i a)
    (hl : l ∈ i.ownPlaces b w) : l ∉ writeAllPlaces os w := by
  intro hw
  obtain ⟨o, ho, rfl⟩ := eq_place_of_mem_writeAllPlaces ha hos hb hl hw
  obtain ⟨dir, n, hfile, hpath⟩ := hos o ho
  refine notMem_filePlaces hne hab hba hl ?_
  rw [hpath]
  exact placeFrom_mem_filePlaces ha hfile w

/-- Applications spare each other if their names do not go on from each other. -/
theorem spares_of_not_extends (ha : isName a = true) (hb : isName b = true) (hne : a ≠ b)
    (hab : ¬ Extends a b) (hba : ¬ Extends b a) : i.Spares a b := by
  intro op h r h' hop he l hl hlog
  have hfile := notMem_filePlaces hne hab hba hl
  cases op with
  | install date x =>
      obtain ⟨rfl, hx⟩ := hop
      have hc := changes_installation ha (install_ends.mp he)
      have hos : ∀ o ∈ i.outputs date x, o.IsOf i x.name := fun o ho => isOf_of_mem_outputs hx ho
      have hwrite := notMem_writeAllPlaces ha hb hne hab hba hos hl
      exact hc.file?_eq hlog (fun hmem => hmem.elim hfile hwrite) hwrite
  | uninstall name =>
      obtain rfl : name = a := hop
      exact (i.alters_uninstall ha he).file?_eq hlog hfile (Set.notMem_empty l)

/-! ### A name that goes on from another -/

lemma filePaths_subset_of_extends (hb : isName b = true) (hab : Extends a b) :
    i.filePaths b ⊆ i.filePaths a := by
  rintro p ⟨dir, n, hdir, hfile, rfl⟩
  refine ⟨dir, n, hdir, ?_, rfl⟩
  rcases hfile with ⟨hd, hn⟩ | ⟨hd, hn⟩
  · exact Or.inl ⟨hd, IsUnitName.of_extends hb hab hn⟩
  · exact Or.inr ⟨hd, IsScriptName.of_extends hb hab hn⟩

/-- An application whose name goes on from that of another one is removed with it. -/
theorem takes_of_extends (ha : isName a = true) (hb : isName b = true) (hab : Extends a b) :
    i.Takes a b := by
  intro h h' he p hp
  rcases uninstall_ends ha he (not_refused_ok ()) with ⟨⟨e, hr⟩, -⟩ | ⟨-, hswept⟩
  · exact absurd hr (by simp)
  · exact hswept p (filePaths_subset_of_extends hb hab hp)

/-- Two applications spare each other unless the name of one goes on from that of the other. The
one with the longer name is then removed with the other one. -/
theorem spares_or_takes (i : Installer) (ha : isName a = true) (hb : isName b = true)
    (hne : a ≠ b) :
    (¬ Extends a b ∧ ¬ Extends b a → i.Spares a b ∧ i.Spares b a)
      ∧ (Extends a b → i.Takes a b) ∧ (Extends b a → i.Takes b a) :=
  ⟨fun ⟨hab, hba⟩ => ⟨spares_of_not_extends ha hb hne hab hba,
      spares_of_not_extends hb ha hne.symm hba hab⟩,
    takes_of_extends ha hb, takes_of_extends hb ha⟩

/-- A shop whose name goes on from that of the other one. -/
def secondShop : Application := { mailShop with name := "shop_eu" }

/-- A host on which both shops were installed. -/
def shopsHost : Host :=
  (Operation.install "today" secondShop).after shopInstaller
    ((Operation.install "today" mailShop).after shopInstaller
      { files := { entries := [(["units"], .directory)] } })

/-- The second shop goes with the first one. -/
theorem takes_secondShop :
    shopInstaller.Runs { files := { entries := [(["units"], .directory)] } }
        [(.install "today" mailShop, .ok ()), (.install "today" secondShop, .ok ())] shopsHost
      ∧ shopsHost.files.isFile (shopInstaller.appUnitPath "shop_eu") = true
      ∧ ∃ h, (shopInstaller.uninstall "shop").Ends shopsHost (.ok ()) h
        ∧ h.files.file? (shopsHost.files.placeOf (shopInstaller.appUnitPath "shop_eu")) = none := by
  have hrun : shopInstaller.Runs { files := { entries := [(["units"], .directory)] } }
      [(.install "today" mailShop, .ok ()), (.install "today" secondShop, .ok ())] shopsHost :=
    (Runs.nil.step (by decide +kernel)).step (by decide +kernel)
  have hends : ((Operation.uninstall "shop").attempt shopInstaller).Ends shopsHost (.ok ())
      ((Operation.uninstall "shop").after shopInstaller shopsHost) :=
    (Operation.uninstall "shop").ends_after (by decide +kernel)
  have hextends : Extends "shop" "shop_eu" := ⟨"eu", by decide +kernel⟩
  have htakes := (spares_or_takes shopInstaller (by decide +kernel) (by decide +kernel)
    (by decide)).2.1 hextends
  have hfile : shopsHost.files.isFile (shopInstaller.appUnitPath "shop_eu") = true := by
    decide +kernel
  have hlog : ¬ shopsHost.LogsTo
      (shopsHost.files.placeOf (shopInstaller.appUnitPath "shop_eu")) := by
    rw [Host.LogsTo]
    decide +kernel
  refine ⟨hrun, hfile, _, hends, ?_⟩
  exact htakes hends _ ⟨_, _, by decide, shopInstaller.isFileOf_appUnit "shop_eu", rfl⟩ hfile hlog

end Installer

end ProcUnits.Install
