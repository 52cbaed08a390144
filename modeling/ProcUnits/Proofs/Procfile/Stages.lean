import Mathlib.Tactic.Common
import ProcUnits.Proofs.Procfile.Legacy
import ProcUnits.Proofs.Procfile.Reading
import ProcUnits.UnitFile.Script
import ProcUnits.Validation

/-!
The commands of a service: before, main and after (section 4.2 of the specification), which its
helper script chains (section 4.6).

A legacy line is refused if one of its pieces is empty, but the pieces are scanned only afterwards,
and a piece of assignments and a redirection leaves no command. A document is asked only whether it
has the main command.

* `Clause.IsBare`: clauses without a command, and `isBlankText_command_scan_iff`: exactly they are
  scanned to a blank one;
* `stageCommands`, `HasStages`: the commands that the stages of a helper script run, and that none
  of them is blank. `carries_stages`: where they stand in the script;
* `stageCommands_of_line`, `stageCommands_of_entry`: where the commands come from;
* `hasStages_iff`: exactly which files declare services all of whose stages run something.
-/

namespace ProcUnits.Procfile

open Text (IsWord cutAtPair isBlankText unwords words)
open Yaml (Value)

variable {a : Application} {d : Defaults} {s : Service} {version : Version}
  {text line : List Char} {ws : List (List Char)} {e : Value × Value}

namespace Clause

/-! ### Clauses without a command -/

/-- Behind its assignments the clause ends, or redirects at once. -/
def IsBare (clause : List Char) : Prop :=
  ∀ w ∈ (split (words clause)).2.head?, ∃ h t, cutAtPair '>' w = some (h, t)
    ∧ isDescriptor h = true

lemma isBlankText_unwords_iff (h : ∀ w ∈ ws, IsWord w) :
    isBlankText (unwords ws) = true ↔ ws = [] := by
  cases ws with
  | nil => simp [unwords, isBlankText]
  | cons w ws =>
      obtain ⟨hne, hblank⟩ := h w List.mem_cons_self
      obtain ⟨c, r, rfl⟩ := List.exists_cons_of_ne_nil hne
      have hc : Text.isBlank c = false := hblank c List.mem_cons_self
      cases ws with
      | nil => simp [unwords, isBlankText, hc]
      | cons v ws => simp [unwords, isBlankText, List.intercalate_cons_cons, hc]

lemma takeBody_eq_nil_iff : (takeBody ws).1 = []
    ↔ ∀ w ∈ ws.head?, ∃ h t, cutAtPair '>' w = some (h, t) ∧ isDescriptor h = true := by
  cases ws with
  | nil => simp [takeBody]
  | cons w ws =>
      simp only [List.head?_cons, Option.mem_some_iff, forall_eq']
      cases hc : cutAtPair '>' w with
      | none => simp [takeBody, hc]
      | some p =>
          obtain ⟨h, t⟩ := p
          simp [takeBody, hc]

/-- A clause is scanned to a blank command just if it has none. -/
theorem isBlankText_command_scan_iff (clause : List Char) :
    isBlankText (scan clause).command.toList = true ↔ IsBare clause := by
  rw [command_scan, String.toList_ofList, isBlankText_unwords_iff (isBody_body clause).isWord]
  exact takeBody_eq_nil_iff

end Clause

/-! ### Stages -/

/-- The commands that the stages of a service run, in their order. -/
def stageCommands (s : Service) : List String := s.pre.toList ++ s.command :: s.post.toList

/-- Each stage of the service runs something. -/
def HasStages (s : Service) : Prop := ∀ c ∈ stageCommands s, isBlankText c.toList = false

/-- A stage of the helper script is its command, with what the service adds in front of it and
behind it. -/
def Carries (stage command : String) : Prop := ∃ front back, stage = front ++ command ++ back

/-- The script has a stage for each of the commands, in their order. -/
lemma carries_stages (m : Application.Member) :
    List.Forall₂ Carries (UnitFile.stages m) (stageCommands m.service) := by
  have hliteral (o : Option String) : List.Forall₂ Carries o.toList o.toList :=
    List.forall₂_same.mpr fun c _ => ⟨"", "", by simp⟩
  have hmain : Carries (UnitFile.mainStage m) m.service.command := ⟨_, _, rfl⟩
  rw [UnitFile.stages, stageCommands, List.append_assoc, List.singleton_append]
  exact List.rel_append (hliteral _) (.cons hmain (hliteral _))

/-! ### Lines -/

/-- The pieces of a line that stand for commands. -/
def commandPieces (line : List Char) : List (List Char) :=
  match labelled? line with
  | none => []
  | some (_, fragment) =>
    (takeChangeDir ((Text.splitAtPair '&' fragment).map Text.trim)).2

/-- The stages that a line declares run what its pieces are scanned to. -/
lemma stageCommands_of_line (h : serviceOfLine line = .ok s) :
    stageCommands s = (commandPieces line).map fun p => (Clause.scan p).command := by
  unfold commandPieces
  unfold serviceOfLine at h
  cases hlabel : labelled? line with
  | none =>
      rw [hlabel] at h
      cases h
  | some labelled =>
      simp only [hlabel] at h ⊢
      split_ifs at h
      split at h
      · cases h
      · next pre main post hstages =>
          obtain rfl := Except.ok.inj h
          rw [(stages?_eq_some_iff.mp hstages).1]
          cases pre <;> cases post <;> rfl

/-! ### Entries -/

/-- The stages that an entry declares run what is written under its keys, the main one what the
command there is scanned to. -/
lemma stageCommands_of_entry (h : serviceOfEntry e = .ok s) :
    stageCommands s = (textAt e.2 "pre").toList
      ++ ((textAt e.2 "command").map fun t => (Clause.scan t.toList).command).toList
      ++ (textAt e.2 "post").toList := by
  obtain ⟨command, hcommand, hmain, hpre, hpost⟩ := serviceOfEntry_eq_ok h
  simp [stageCommands, hcommand, hmain, hpre, hpost]

/-- The entry has a command behind the decorations of its main one, and what it runs before and
after is not blank. -/
structure EntryHasStages (v : Value) : Prop where
  command : ∀ t ∈ textAt v "command", ¬ Clause.IsBare t.toList
  pre : ∀ t ∈ textAt v "pre", isBlankText t.toList = false
  post : ∀ t ∈ textAt v "post", isBlankText t.toList = false

lemma hasStages_iff_of_entry (h : serviceOfEntry e = .ok s) :
    HasStages s ↔ EntryHasStages e.2 := by
  have hcommand :
      (∀ c ∈ ((textAt e.2 "command").map fun t => (Clause.scan t.toList).command).toList,
        isBlankText c.toList = false) ↔ ∀ t ∈ textAt e.2 "command", ¬ Clause.IsBare t.toList := by
    cases textAt e.2 "command" with
    | none => simp
    | some t => simp [← Clause.isBlankText_command_scan_iff]
  have hliteral (key : String) : (∀ c ∈ (textAt e.2 key).toList, isBlankText c.toList = false)
      ↔ ∀ t ∈ textAt e.2 key, isBlankText t.toList = false := by
    simp
  rw [HasStages, stageCommands_of_entry h, List.forall_mem_append, List.forall_mem_append, hcommand,
    hliteral, hliteral]
  constructor
  · rintro ⟨⟨hpre, hmain⟩, hpost⟩
    exact ⟨hmain, hpre, hpost⟩
  · rintro ⟨hmain, hpre, hpost⟩
    exact ⟨⟨hpre, hmain⟩, hpost⟩

/-! ### Files -/

/-- No stage of a service that the file declares is without a command. -/
def FileHasStages : Version → List Char → Prop
  | .v1, text => ∀ line ∈ serviceLines text, ∀ p ∈ commandPieces line, ¬ Clause.IsBare p
  | .v2, text => ∀ doc es, Value.load text = .ok doc → doc.get? "commands" = some (.map es) →
    ∀ e ∈ es, EntryHasStages e.2

lemma hasStages_iff_of_line (h : serviceOfLine line = .ok s) :
    HasStages s ↔ ∀ p ∈ commandPieces line, ¬ Clause.IsBare p := by
  rw [HasStages, stageCommands_of_line h, List.forall_mem_map]
  refine forall₂_congr fun p _ => ?_
  rw [← Clause.isBlankText_command_scan_iff, Bool.not_eq_true]

/-- What holds of one list elementwise just if another thing holds of a second list. -/
lemma forall_mem_iff_of_forall₂ {α β : Type} {R : α → β → Prop} {P : α → Prop} {Q : β → Prop}
    {xs : List α} {ys : List β} (h : List.Forall₂ R xs ys) (hR : ∀ x y, R x y → (Q y ↔ P x)) :
    (∀ y ∈ ys, Q y) ↔ ∀ x ∈ xs, P x := by
  induction h with
  | nil => simp
  | cons hxy _ ih => simp only [List.forall_mem_cons, hR _ _ hxy, ih]

/-- Between the signs of the chain in a helper script stand the commands of its service. None of
them is blank exactly if the file has a command in each of its stages: behind assignments and in
front of a redirection where a clause is scanned. -/
theorem hasStages_iff (h : ofText version text d = .ok a) :
    (∀ m ∈ a.members, UnitFile.commandChain m = " && ".intercalate (UnitFile.stages m)
      ∧ List.Forall₂ Carries (UnitFile.stages m) (stageCommands m.service))
    ∧ ((∀ s ∈ a.services, HasStages s) ↔ FileHasStages version text) := by
  refine ⟨fun m _ => ⟨rfl, carries_stages m⟩, ?_⟩
  obtain ⟨draft, hdraft, rfl⟩ := ofText_eq_ok h
  have hresolved : (∀ s ∈ (draft.resolve d).services, HasStages s)
      ↔ ∀ s ∈ draft.app.services, HasStages s := List.forall_mem_map
  rw [hresolved]
  cases version with
  | v1 =>
      simp only [draftOfText, bind_eq_ok_iff, pure_eq_ok_iff, readLegacy] at hdraft
      obtain ⟨ss, hss, rfl⟩ := hdraft
      rw [servicesOfLines_eq_mapM, mapM_eq_ok_iff] at hss
      exact forall_mem_iff_of_forall₂ hss fun _ _ => hasStages_iff_of_line
  | v2 =>
      obtain ⟨doc, hload, hread⟩ := draftOfText_v2_eq_ok hdraft
      obtain ⟨es, hes, -, -, hss⟩ := readDocument_eq_ok hread
      rw [forall_mem_iff_of_forall₂ hss fun _ _ => hasStages_iff_of_entry]
      constructor
      · intro hstages doc' es' hload' hes'
        obtain rfl := Except.ok.inj (hload.symm.trans hload')
        obtain rfl := Value.map.inj (Option.some.inj (hes.symm.trans hes'))
        exact hstages
      · intro hfile
        exact hfile doc es hload hes

/-- A host with a directory. -/
def stageDefaults : Defaults where
  name := "shop"
  user := "www"
  group := "www"
  workingDir := "/srv"

/-- A service that runs nothing before its command, where a stage is given for it. -/
def bareService : Service where
  name := "web"
  command := "./run"
  pre := some ""

/-- The application of that service. -/
def bareApplication : Application := .ofDefaults .v1 stageDefaults [bareService]

/-- A clause that only redirects is read as a stage without a command, which passes all checks. The
chain then starts with the sign between two commands. -/
theorem hasStages_bare :
    ofText .v1 "web: >> pre.log && ./run\n".toList stageDefaults = .ok bareApplication
    ∧ Validation.validate bareApplication = [] ∧ ¬ HasStages bareService
    ∧ UnitFile.commandChain ⟨bareApplication, bareService⟩ = " && exec ./run" := by
  have htext : ofText .v1 "web: >> pre.log && ./run\n".toList stageDefaults
      = .ok bareApplication := by decide +kernel
  refine ⟨htext, by decide +kernel, fun hstages => ?_, by decide +kernel⟩
  have hfile := (hasStages_iff htext).2.mp fun s hs => by rwa [List.mem_singleton.mp hs]
  have hbare : Clause.IsBare ">> pre.log".toList :=
    (Clause.isBlankText_command_scan_iff _).mp (by decide +kernel)
  exact hfile "web: >> pre.log && ./run".toList (by decide +kernel) ">> pre.log".toList
    (by decide +kernel) hbare

end ProcUnits.Procfile
