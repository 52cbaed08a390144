import Mathlib.Data.Set.Insert
import ProcUnits.Proofs.Install.Installation
import ProcUnits.Proofs.Install.Progress

/-!
What the removal of an application leaves of a file tree (`Uninstall` in section 4.7 of the
specification).

* `erases_removeFile`, `erases_removeMatching`: a removal that does its work takes away the files it
  is about, and nothing else;
* `Installer.ownPaths`: the paths that the files of an application have, and `erases_sweep`, which
  says that the files at these paths are what is removed. `returns_sweep` says when this is not
  refused;
* `Installer.removalStages`, `follows_removal`: the commands of a removal, with what is left in the
  tree when one of them fails;
* `uninstall_loses`: where the commands do their work and no operation on files is refused, a
  removal does its work, and the tree is the old one without the files of the application.
-/

namespace ProcUnits.Install

open Host (Attempt FileTree Loses Succeeds)
open UnitFile (stem)
open Validation (isName)

variable {dir pattern p : String} {h h' h₁ : Host}

/-! ### Removing files -/

lemma erases_removeFile (p : String) : (removeFile p).Erases {p} := by
  intro h b h' he
  rcases removeFile_ends he with ⟨t, ht, -, rfl⟩ | ⟨hnone, -, rfl⟩ | ⟨x, -, -, hr, -⟩
  · exact (Host.loses_of_remove ht).trans_empty (Host.loses_withRecord ..)
  · refine (Loses.refl h').congr fun q hq => ⟨fun hmem => absurd hmem (Set.notMem_empty q), ?_⟩
    rintro rfl
    rw [FileTree.isFile_of_remove_eq_error hnone] at hq
    exact absurd hq (by simp)
  · exact absurd hr (by simp)

lemma returns_removeFile (hp : h.files.CanRemove p) : (removeFile p).Returns h := by
  intro ps h₁ r h' hl he
  rcases removeFile_ends he with ⟨t, -, rfl, -⟩ | ⟨-, rfl, -⟩ | ⟨x, hne, hx, -⟩
  · exact ⟨_, rfl⟩
  · exact ⟨_, rfl⟩
  · exact absurd (hl.canRemove hp x hx) hne

/-- Nothing is found at the empty path. -/
lemma matchingFiles_empty (t : FileTree) (pattern : String) :
    matchingFiles t "" pattern = .ok [] := by
  rw [matchingFiles, FileTree.names_empty]

/-- The files of matching names are what is removed, if the pattern matches the names `f s`. -/
lemma erases_removeMatching {f : String → String} (dir : String)
    (hmatch : ∀ n, Glob.isMatch pattern n = true ↔ ∃ s, '/' ∉ s.toList ∧ n = f s)
    (hnames : ∀ s, '/' ∉ s.toList → Path.IsEntryName (f s)) :
    (removeMatching dir pattern).Erases
      {p | dir ≠ "" ∧ ∃ s, '/' ∉ s.toList ∧ p = Path.join dir (f s)} := by
  intro h b h' he
  rcases removeMatching_ends he with ⟨ps, hps, he⟩ | ⟨x, -, -, hr, -⟩
  swap
  · exact absurd hr (by simp)
  refine (Attempt.erases_filterM erases_removeFile ps he).congr fun p hfile => ⟨fun hp => ?_, ?_⟩
  · have hdir : dir ≠ "" := by
      rintro rfl
      rw [matchingFiles_empty] at hps
      cases hps
      exact absurd hp List.not_mem_nil
    obtain ⟨n, hn, rfl⟩ := mem_matchingFiles hps hp
    obtain ⟨s, hs, rfl⟩ := (hmatch n).mp hn
    exact ⟨hdir, s, hs, rfl⟩
  · rintro ⟨hdir, s, hs, rfl⟩
    exact join_mem_matchingFiles hdir (hnames s hs) hps ((hmatch _).mpr ⟨s, hs, rfl⟩) hfile

/-- The files that are found can be removed. -/
lemma returns_removeMatching (pattern : String) (hdir : h.files.CanList dir) :
    (removeMatching dir pattern).Returns h := by
  intro ps h₁ r h' hl he
  rcases removeMatching_ends he with ⟨ps, hps, he⟩ | ⟨x, hne, hx, -⟩
  · refine Attempt.returns_filterM erases_removeFile (fun p hp => ?_) (.refl h₁) he
    exact returns_removeFile (FileTree.canRemove_of_isFile (isFile_of_mem_matchingFiles hps hp))
  · exact absurd (hl.canList hdir x hx) hne

namespace Installer

variable {i : Installer} {app : String} {r : Except Error Unit}

/-- The paths at which an application can have files: its unit, units and scripts with further names
behind a bar, and the script that reloads it. The empty path is that of no directory. -/
def ownPaths (i : Installer) (app : String) : Set String :=
  {p | p = i.appUnitPath app
    ∨ (i.unitDir ≠ "" ∧ ∃ s, '/' ∉ s.toList ∧ p = i.unitPath (stem app s))
    ∨ (i.helperDir ≠ "" ∧ ∃ s, '/' ∉ s.toList ∧ p = Path.join i.helperDir (stem app s ++ ".sh"))
    ∨ p = i.reloaderPath app}

lemma erases_units (i : Installer) (happ : isName app = true) :
    (removeMatching i.unitDir (i.unitPattern app)).Erases
      {p | i.unitDir ≠ "" ∧ ∃ s, '/' ∉ s.toList ∧ p = i.unitPath (stem app s)} :=
  erases_removeMatching i.unitDir (fun _ => isMatch_unitPattern_iff i happ)
    fun s hs => IsNamedAfter.isEntryName (Or.inl (Or.inr ⟨s, hs, rfl⟩)) happ

lemma erases_scripts (i : Installer) (happ : isName app = true) :
    (removeMatching i.helperDir (helperPattern app)).Erases {p | i.helperDir ≠ ""
      ∧ ∃ s, '/' ∉ s.toList ∧ p = Path.join i.helperDir (stem app s ++ ".sh")} :=
  erases_removeMatching i.helperDir (fun _ => isMatch_helperPattern_iff happ)
    fun s hs => (IsScriptName.isNamedAfter (Or.inr ⟨s, hs, rfl⟩) i.system).isEntryName happ

/-- The files of the application are what is removed. -/
theorem erases_sweep (i : Installer) (happ : isName app = true) :
    (i.sweep app).Erases (i.ownPaths app) := by
  have hall : (i.sweep app).Erases ({i.appUnitPath app} ∪ (_ ∪ (∅ ∪ (_ ∪
      (∅ ∪ ({i.reloaderPath app} ∪ ∅)))))) :=
    .bind (erases_removeFile _) fun _ => .bind (i.erases_units happ) fun _ =>
    .bind (Attempt.loses_emit ..).erases fun _ => .bind (i.erases_scripts happ) fun _ =>
    .bind (Attempt.loses_emit ..).erases fun _ => .bind (erases_removeFile _) fun _ =>
    Attempt.erases_pure ()
  intro h u h' he
  refine (hall he).congr fun p _ => ?_
  simp only [ownPaths, Set.union_empty, Set.empty_union, Set.mem_union, Set.mem_singleton_iff,
    Set.mem_ofPred_eq]

/-- The unit of the application is a file, so that the units beside it can be found. Whether the
scripts can be found and removed depends on their directory. -/
lemma returns_sweep (happ : isName app = true) (hunit : h.files.isFile (i.appUnitPath app) = true)
    (hscripts : h.files.CanList i.helperDir)
    (hreloader : h.files.CanRemove (i.reloaderPath app)) : (i.sweep app).Returns h := by
  have hn : Path.IsEntryName (i.system.unitName app) :=
    IsNamedAfter.isEntryName (Or.inl (Or.inl rfl)) happ
  have happUnit := returns_removeFile (FileTree.canRemove_of_isFile hunit)
  have hunits := returns_removeMatching (i.unitPattern app) (FileTree.canList_of_isFile hn hunit)
  exact .bind happUnit (erases_removeFile _) fun _ => .bind hunits (i.erases_units happ) fun _ =>
    .bind (Attempt.returns_lift _) (Attempt.loses_emit ..).erases fun _ =>
    .bind (returns_removeMatching _ hscripts) (i.erases_scripts happ) fun _ =>
    .bind (Attempt.returns_lift _) (Attempt.loses_emit ..).erases fun _ =>
    .bind (returns_removeFile hreloader) (erases_removeFile _) fun _ => Attempt.returns_pure ()

/-! ### The removal -/

lemma silent_sweep (i : Installer) (app : String) : IsSilent (i.sweep app) :=
  ⟨.bind (executes_removeFile _) fun _ => .bind (executes_removeMatching ..) fun _ =>
    .bind (Attempt.executes_emit ..) fun _ => .bind (executes_removeMatching ..) fun _ =>
    .bind (Attempt.executes_emit ..) fun _ => .bind (executes_removeFile _) fun _ =>
    Attempt.within_pure (), i.raises_sweep app⟩

/-- The path of a file of the application ends with a name that is a text, wherever it leads. -/
lemma getLast?_of_mem_ownPaths (happ : isName app = true) (hp : p ∈ i.ownPaths app)
    (w : Host.Location) : ∃ n, (Host.placeFrom w p).getLast? = some (.text n) := by
  have hfile : ∃ dir n, i.IsFileOf app dir n ∧ p = Path.join dir n := by
    rcases hp with rfl | ⟨-, s, hs, rfl⟩ | ⟨-, s, hs, rfl⟩ | rfl
    · exact ⟨_, _, i.isFileOf_appUnit app, rfl⟩
    · exact ⟨_, _, Or.inl ⟨rfl, Or.inr ⟨s, hs, rfl⟩⟩, rfl⟩
    · exact ⟨_, _, Or.inr ⟨rfl, Or.inr ⟨s, hs, rfl⟩⟩, rfl⟩
    · exact ⟨_, _, i.isFileOf_reloader app, rfl⟩
  obtain ⟨dir, n, hn, rfl⟩ := hfile
  refine ⟨n, ?_⟩
  rw [Host.placeFrom_join w dir (hn.isNamedAfter.isEntryName happ), List.getLast?_concat]

/-- From the first host to the second the application's files went and nothing else did. -/
structure IsGone (i : Installer) (app : String) (h h' : Host) : Prop where
  loses : h.Loses (i.ownPaths app) h'
  /-- There are none of them any more. -/
  isFile_eq_false : ∀ p ∈ i.ownPaths app, h'.files.isFile p = false
  /-- An entry whose name is no text is none of them, whatever its octets begin and end with. -/
  keepsAt_octets : ∀ dir bs hbs, h.KeepsAt h' (dir ++ [.octets bs hbs])

lemma isGone_of_loses (happ : isName app = true) (hl : h.Loses (i.ownPaths app) h') :
    i.IsGone app h h' := by
  refine ⟨hl, fun p => hl.isFile_eq_false, fun dir bs hbs => ?_⟩
  refine hl.keepsAt _ fun p hp _ heq => ?_
  -- else the last name on the way would be a text and octets of none
  obtain ⟨n, hn⟩ := getLast?_of_mem_ownPaths happ hp h.files.workingDir
  rw [Host.FileTree.placeOf] at heq
  rw [← heq, List.getLast?_concat] at hn
  exact absurd hn (by simp)

/-- The commands of the removal of an application from the host. If the first one fails, the tree is
as it was; if the second one does, the files of the application are gone. -/
def removalStages (i : Installer) (h : Host) (app : String) : List Stage :=
  stages i.system i.autoStart ["disable", i.system.unitName app] (h.Loses ∅)
    ++ stages i.system i.reload ["daemon-reload"] (i.IsGone app h)

lemma erases_removal (i : Installer) (happ : isName app = true) :
    (i.removal app).Erases (i.ownPaths app) := by
  intro h u h' he
  obtain ⟨_, h₁, hwithdraw, he₁⟩ := Attempt.ends_bind_ok.mp he
  obtain ⟨_, h₂, hsweep, hconclude⟩ := Attempt.ends_bind_ok.mp he₁
  exact ((loses_withdraw i app hwithdraw).empty_trans (i.erases_sweep happ hsweep)).trans_empty
    (loses_conclude i _ hconclude)

/-- A removal goes through its stages, whatever records were made before. -/
lemma follows_removal (happ : isName app = true) (hl : h.Loses ∅ h₁)
    (he : (i.removal app).Ends h₁ r h') : Follows h₁ (i.removalStages h app) h' r := by
  refine follows_bind he (follows_withdraw fun _ => hl.empty_trans) fun hwithdraw he₁ => ?_
  have hl₁ := hl.empty_trans (loses_withdraw i app hwithdraw)
  refine (silent_sweep i app).follows_bind he₁ fun hsweep hconclude => ?_
  have hl₂ := hl₁.empty_trans (i.erases_sweep happ hsweep)
  refine follows_conclude (fun h₄ hl₃ => ?_) hconclude
  exact isGone_of_loses happ (hl₂.trans_empty hl₃)

/-- So does the removal of an application that is there. -/
lemma follows_uninstall (happ : isName app = true)
    (hinstalled : i.isInstalled h.files app = true) (hl : h.Loses ∅ h₁)
    (he : (i.uninstall app).Ends h₁ r h') : Follows h₁ (i.removalStages h app) h' r := by
  rcases uninstall_ends_iff.mp he with ⟨hnot, -⟩ | ⟨-, he⟩
  · rw [isInstalled, hl.isPresent_of_isPresent hinstalled] at hnot
    exact absurd hnot (by simp)
  · exact follows_removal happ hl he

lemma erases_uninstall (i : Installer) (happ : isName app = true) :
    (i.uninstall app).Erases (i.ownPaths app) := by
  intro h u h' he
  rcases uninstall_ends_iff.mp he with ⟨-, hr, -⟩ | ⟨-, he⟩
  · exact absurd hr (by simp)
  · exact i.erases_removal happ he

/-- No operation on files is refused in a removal that can find the scripts and remove them. -/
lemma not_refused_uninstall (happ : isName app = true)
    (hunit : h.files.isFile (i.appUnitPath app) = true)
    (hscripts : h.files.CanList i.helperDir)
    (hreloader : h.files.CanRemove (i.reloaderPath app))
    (he : (i.uninstall app).Ends h r h') : ¬ Refused r := by
  rintro ⟨e, rfl, hrefusal⟩
  rcases uninstall_ends_iff.mp he with ⟨-, hr, -⟩ | ⟨-, he⟩
  · obtain rfl := Except.error.inj hr
    obtain ⟨path, x, hio⟩ := hrefusal
    exact absurd hio (by simp)
  rcases Attempt.ends_bind_error.mp he with hwithdraw | ⟨_, h₁, hwithdraw, he₁⟩
  · exact i.raises_withdraw app hwithdraw hrefusal
  -- telling the init system refuses no operation on files, and the sweep can do its work
  rcases Attempt.ends_bind_error.mp he₁ with hsweep | ⟨_, h₂, -, hconclude⟩
  · obtain ⟨u, hu⟩ := returns_sweep happ hunit hscripts hreloader
      (loses_withdraw i app hwithdraw) hsweep
    exact absurd hu (by simp)
  · exact i.raises_conclude _ hconclude hrefusal

/-- Where an application is, its removal takes away the application's files and nothing else, unless
an operation on files is refused (`Uninstall` in section 4.7). None is if the scripts can be found
and removed. The name of the application is all that counts. The names of the files are texts:
entries with other names stay, and the log may get longer. -/
theorem uninstall_loses {a b : Application} (happ : isName a.name = true) (hname : b.name = a.name)
    (hunit : h.files.isFile (i.appUnitPath a.name) = true)
    (hcommands : h.Succeeds ((i.removalStages h a.name).map Stage.command))
    (he : (i.uninstall b.name).Ends h r h') :
    (¬ Refused r → r = .ok () ∧ i.IsGone a.name h h')
      ∧ (h.files.CanList i.helperDir → h.files.CanRemove (i.reloaderPath a.name) →
        ¬ Refused r) := by
  rw [hname] at he
  have hinstalled : i.isInstalled h.files a.name = true := by
    obtain ⟨l, content, mode, hfind⟩ := FileTree.isFile_iff.mp hunit
    simp [isInstalled, FileTree.isPresent, hfind, Except.toOption]
  refine ⟨fun hr => ?_, fun hscripts hreloader =>
    not_refused_uninstall happ hunit hscripts hreloader he⟩
  have hok := ((follows_uninstall happ hinstalled (.refl h) he).eq_ok_iff hr).mpr hcommands
  rw [hok] at he
  exact ⟨hok, isGone_of_loses happ (i.erases_uninstall happ he)⟩

/-- Octets that begin and end as the name of a unit of the shop does, but are those of no text. -/
def oddOctets : List UInt8 := Text.Utf8.encode "shop_" ++ 0xFF :: Text.Utf8.encode ".service"

lemma decode_oddOctets (s : List Char) : Text.Utf8.decode oddOctets ≠ .ok s := by
  have hfault : Text.Utf8.decode oddOctets = .error (.invalid 1 5) := by decide +kernel
  simp [hfault]

/-- A location beside the units of the shop. -/
def oddPlace : Host.Location := [.text "units", .octets oddOctets decode_oddOctets]

/-- What is not a file of the shop, though it lies beside those: a directory that is named like a
unit, files of others, a script among the units, and a file whose name is no text. -/
def foreignEntries : List (Host.Location × Host.Entry) :=
  [(["units"], .directory), (["units", "shop_dir.service"], .directory),
    (["units", "shopping.service"], .file [2] 0o600), (["units", "shop_old.sh"], .file [6] 0o755),
    (oddPlace, .file [5] 0o644), (["scripts"], .directory),
    (["scripts", "shop_old"], .file [4] 0o755)]

/-- A host on which the shop was installed with a service that it does not have any more, beside
what is not the shop's. -/
def oldShopHost : Host where
  files := { entries := (["units", "shop.service"], .file [] 0o644)
    :: (["units", "shop_old.service"], .file [1] 0o644)
    :: (["scripts", "shop_old.sh"], .file [3] 0o755)
    :: (["scripts", "shop-reload.sh"], .file [] 0o755) :: foreignEntries }

/-- The shop is removed without its services being known. -/
theorem uninstall_oldShop : ∃ h, (shopInstaller.uninstall "shop").Ends oldShopHost (.ok ()) h
    ∧ shopInstaller.IsGone "shop" oldShopHost h ∧ h.files.entries = foreignEntries := by
  have hends : (shopInstaller.uninstall "shop").Ends oldShopHost (.ok ())
      ((shopInstaller.uninstall "shop").run.run oldShopHost).2 :=
    Prod.ext (by decide +kernel) rfl
  have hcommands : oldShopHost.Succeeds
      ((shopInstaller.removalStages oldShopHost shop.name).map Stage.command) := by
    rw [Succeeds]
    decide +kernel
  have hscripts : oldShopHost.files.CanList shopInstaller.helperDir :=
    FileTree.canList_of_isFile (n := "shop_old.sh")
      ⟨by decide, by decide, by decide, by decide +kernel⟩ (by decide +kernel)
  have hreloader : oldShopHost.files.CanRemove (shopInstaller.reloaderPath shop.name) :=
    FileTree.canRemove_of_isFile (by decide +kernel)
  have hbare := uninstall_loses (a := shop) (b := { shop with services := [] }) (by decide +kernel)
    rfl (by decide +kernel) hcommands hends
  exact ⟨_, hends, (hbare.1 (hbare.2 hscripts hreloader)).2, by decide +kernel⟩

/-- The same host with a log. -/
def loggedShopHost : Host where
  files := { entries := (["log"], .file [] 0o644) :: oldShopHost.files.entries }
  logger := ⟨.upTo .debug, .file ["log"]⟩

/-- A removal that does its work leaves a file whose name begins and ends as that of a unit of the
application does, but is no text; and the file that the log is kept in does not stay as it was. -/
theorem uninstall_leaves_octets : ∃ h,
    (shopInstaller.uninstall "shop").Ends loggedShopHost (.ok ()) h
      ∧ h.files.file? oddPlace = some ([5], 0o644)
      ∧ h.files.file? ["log"] ≠ loggedShopHost.files.file? ["log"] :=
  ⟨((shopInstaller.uninstall "shop").run.run loggedShopHost).2,
    Prod.ext (by decide +kernel) rfl, by decide +kernel, by decide +kernel⟩

end Installer

end ProcUnits.Install
