import ProcUnits.Proofs.UnitFile.Emission

/-!
The names of units in the unit of an application, and in the script that reloads it (section 4.6 of
the specification).

* `groupNames`: the groups of names that lines are made of; `wantsLines_eq` says that they are, and
  `flatten_groupNames` that no name is lost, added or moved;
* `filter_lines_appTemplate`: the lines of the unit that want other units;
* `wantedNames`, `reloadedNames`: the names as they are read in the texts; `wantedNames_wantsLines`
  and `reloadedNames_reloadHelper` say that these are the names that were written, if there are no
  spaces in them.
-/

namespace ProcUnits.UnitFile

open Systemd (extension groupsFrom maxWantsLine unitName wantsKey wantsLines)
open Template (Item)
open Text (splitAt)

variable {a : Application} {date : String} {g ns : List String}

/-! ### Groups of names -/

/-- Names with a space between each two. -/
def joined (ns : List String) : String := " ".intercalate ns

lemma toList_joined (ns : List String) :
    (joined ns).toList = [' '].intercalate (ns.map String.toList) :=
  String.toList_intercalate ..

lemma joined_concat (hg : g ≠ []) (n : String) : joined (g ++ [n]) = joined g ++ " " ++ n := by
  rw [joined, String.intercalate_append_of_ne_nil hg (by simp), String.intercalate_singleton]
  rfl

lemma isEmpty_joined (hg : ∀ n ∈ g, n ≠ "") : (joined g).isEmpty = true ↔ g = [] := by
  rw [String.isEmpty_iff, ← String.toList_inj, toList_joined]
  constructor
  · intro hempty
    by_contra hne
    have hpieces : ∀ l ∈ g.map String.toList, l ≠ [] := by
      rintro _ hl
      obtain ⟨n, hn, rfl⟩ := List.mem_map.mp hl
      exact fun hnil => hg n hn (String.toList_eq_nil_iff.mp hnil)
    exact intercalate_ne_nil [' '] hpieces (by simpa using hne) hempty
  · rintro rfl
    rfl

/-- The groups that names are written in, the first one starting with `g`. -/
def groupNames (g : List String) : List String → List (List String)
  | [] => if g = [] then [] else [g]
  | n :: ns =>
    if g = [] then groupNames [n] ns
    else if maxWantsLine
        < wantsKey.utf8ByteSize + (joined g).utf8ByteSize + 1 + n.utf8ByteSize then
      g :: groupNames [n] ns
    else groupNames (g ++ [n]) ns

/-- The texts of groups are made of these groups, as long as no name is empty. -/
lemma groupsFrom_joined (hg : ∀ n ∈ g, n ≠ "") (hns : ∀ n ∈ ns, n ≠ "") :
    groupsFrom (joined g) ns = (groupNames g ns).map joined := by
  induction ns generalizing g with
  | nil =>
      rw [groupsFrom, groupNames]
      simp only [isEmpty_joined hg]
      split_ifs <;> rfl
  | cons n ns ih =>
      obtain ⟨hn, hns⟩ := List.forall_mem_cons.mp hns
      have hsingle : groupsFrom n ns = (groupNames [n] ns).map joined :=
        ih (g := [n]) (by simpa using hn) hns
      rw [groupsFrom, groupNames]
      simp only [isEmpty_joined hg]
      split_ifs with hnil hlong
      · exact hsingle
      · rw [hsingle, List.map_cons]
      · rw [← joined_concat hnil]
        exact ih (List.forall_mem_append.mpr ⟨hg, by simpa using hn⟩) hns

lemma flatten_groupNames (g ns : List String) : (groupNames g ns).flatten = g ++ ns := by
  induction ns generalizing g with
  | nil =>
      rw [groupNames]
      split_ifs with hnil <;> simp [hnil]
  | cons n ns ih =>
      rw [groupNames]
      split_ifs with hnil
      · rw [ih, hnil]
        rfl
      · rw [List.flatten_cons, ih]
        rfl
      · rw [ih, List.append_assoc]
        rfl

lemma ne_nil_of_mem_groupNames {h : List String} (hh : h ∈ groupNames g ns) : h ≠ [] := by
  induction ns generalizing g with
  | nil =>
      rw [groupNames] at hh
      split_ifs at hh with hnil
      · exact absurd hh List.not_mem_nil
      · rwa [List.mem_singleton.mp hh]
  | cons n ns ih =>
      rw [groupNames] at hh
      split_ifs at hh with hnil
      · exact ih hh
      · rcases List.mem_cons.mp hh with rfl | hh
        · exact hnil
        · exact ih hh
      · exact ih hh

/-! ### Names of units -/

/-- The name of a unit without its extension. -/
def bareName (n : String) : String :=
  String.ofList (n.toList.take (n.toList.length - extension.toList.length))

@[simp]
lemma bareName_unitName (s : String) : bareName (unitName s) = s := by
  rw [bareName, unitName, String.toList_append, List.length_append, Nat.add_sub_cancel,
    List.take_left, String.ofList_toList]

/-- The name of a unit is never empty. -/
lemma units_ne_empty (a : Application) : ∀ n ∈ (stems a).map unitName, n ≠ "" := by
  intro n hn
  obtain ⟨s, -, rfl⟩ := List.mem_map.mp hn
  rw [ne_eq, ← String.toList_eq_nil_iff, unitName, String.toList_append]
  exact List.append_ne_nil_of_right_ne_nil _ (by decide)

/-- The lines that name the instances are made of groups of their names. -/
lemma wantsLines_eq (a : Application) : ∃ gs : List (List String), gs.flatten = stems a
    ∧ (∀ g ∈ gs, g ≠ []) ∧ wantsLines a = gs.map fun g => wantsKey ++ joined (g.map unitName) := by
  have hnames := units_ne_empty a
  have hgroups := flatten_groupNames [] ((stems a).map unitName)
  refine ⟨(groupNames [] ((stems a).map unitName)).map (List.map bareName), ?_, ?_, ?_⟩
  · rw [← List.map_flatten, hgroups]
    simp [Function.comp_def]
  · rintro _ hmem
    obtain ⟨g, hg, rfl⟩ := List.mem_map.mp hmem
    simpa using ne_nil_of_mem_groupNames hg
  · rw [wantsLines, show "" = joined [] from rfl, groupsFrom_joined (by simp) hnames, List.map_map,
      List.map_map]
    refine List.map_congr_left fun g hg => ?_
    have hunits : (g.map bareName).map unitName = g := by
      rw [List.map_map, List.map_congr_left fun n hn => ?_, List.map_id]
      -- each name of a group is that of a unit
      have hn : n ∈ (stems a).map unitName := by
        rw [← List.nil_append ((stems a).map unitName), ← hgroups]
        exact List.mem_flatten_of_mem hg hn
      obtain ⟨s, -, rfl⟩ := List.mem_map.mp hn
      exact congrArg unitName (bareName_unitName s)
    rw [Function.comp_apply, Function.comp_apply, hunits]

/-! ### The unit of an application -/

/-- How a line starts that wants units. -/
def wantsMark : Mark := .start wantsKey

/-- The line of an item does not have the mark, whatever its value is. -/
def Template.Item.Lacks (m : Mark) : Item → Prop
  | .block => True
  | .line s => m.isOn s.toList = false
  | .directive k _ => m.isApart (.start (k ++ "=")) = true
  | .optional k _ => m.isApart (.start (k ++ "=")) = true

lemma filter_lines_eq_nil {m : Mark} {t : Template} (h : ∀ item ∈ t, item.Lacks m) :
    t.lines.filter (fun l => m.isOn l.toList) = [] := by
  refine List.filter_eq_nil_iff.mpr fun l hl => ?_
  obtain ⟨item, hitem, hline⟩ := List.mem_filterMap.mp hl
  have hlacks := h item hitem
  rw [Bool.not_eq_true]
  cases item with
  | block => simp [Item.line?] at hline
  | line s =>
      obtain rfl : s = l := by simpa [Item.line?] using hline
      exact hlacks
  | directive k v =>
      obtain rfl : Template.directiveLine k v = l := by simpa [Item.line?] using hline
      exact Mark.isOn_line_of_isApart hlacks v
  | optional k u =>
      obtain ⟨v, -, rfl⟩ := Option.map_eq_some_iff.mp hline
      exact Mark.isOn_line_of_isApart hlacks v

/-- The line that wants the units of other applications, on which this one depends. -/
def dependencyWants (a : Application) : List String :=
  if a.hasDependencies && !a.strongDependencies then
    [wantsKey ++ joined (a.depends.map unitName)]
  else []

lemma filter_dependencyItems (a : Application) :
    (Template.lines (Systemd.dependencyItems a)).filter (fun l => wantsMark.isOn l.toList)
      = dependencyWants a := by
  rw [Systemd.dependencyItems, dependencyWants]
  cases a.hasDependencies with
  | false => rfl
  | true =>
      cases a.strongDependencies with
      | true =>
          -- strong dependencies are required and not wanted
          refine filter_lines_eq_nil ?_
          simp only [if_true, List.forall_mem_cons, List.not_mem_nil, Item.Lacks, false_implies,
            implies_true, and_true]
          decide
      | false =>
          have hwants :
              wantsMark.isOn (wantsKey ++ joined (a.depends.map unitName)).toList = true :=
            Mark.isOn_line wantsMark _
          have hafter : wantsMark.isOn
              (Template.directiveLine "After" (joined (a.depends.map unitName))).toList = false :=
            Mark.isOn_line_of_isApart (n := .start ("After" ++ "=")) (by decide) _
          change List.filter _ [wantsKey ++ joined (a.depends.map unitName),
            Template.directiveLine "After" (joined (a.depends.map unitName))] = [_]
          rw [List.filter_cons_of_pos (by exact hwants),
            List.filter_cons_of_neg (by simp [hafter]), List.filter_nil]

/-- The unit of an application wants the units of its instances. Besides these it wants only those
of other applications that it names as dependencies. -/
lemma filter_lines_appTemplate (date : String) (a : Application) :
    (Systemd.appTemplate date a).lines.filter (fun l => wantsMark.isOn l.toList)
      = dependencyWants a ++ wantsLines a := by
  -- no other line can start with the key, whatever the texts in it are
  have hfirst : wantsMark.isOn (header "unit" "systemd" date a).toList = false := by
    rw [header_eq]
    exact Mark.isOn_line_of_isApart (n := .start "# This unit generated ") (by decide) _
  have hdevice : ∀ item ∈ Systemd.deviceItems a, item.Lacks wantsMark := by
    rw [Systemd.deviceItems]
    cases a.startDevice with
    | none => simp
    | some d =>
        simp only [List.forall_mem_cons, List.not_mem_nil, Item.Lacks, false_implies,
          implies_true, and_true]
        decide
  have hlines (ls : List String) : Template.lines (ls.map .line) = ls := by
    rw [Template.lines, List.filterMap_map]
    exact List.filterMap_some
  have hwants : (wantsLines a).filter (fun l => wantsMark.isOn l.toList) = wantsLines a := by
    refine List.filter_eq_self.mpr fun l hl => ?_
    obtain ⟨names, -, rfl⟩ := List.mem_map.mp hl
    exact Mark.isOn_line wantsMark names
  have happend (t u : Template) : Template.lines (t ++ u) = Template.lines t ++ Template.lines u :=
    List.filterMap_append
  have hblock (t : Template) : Template.lines (.block :: t) = Template.lines t := rfl
  simp only [Systemd.appTemplate, happend, List.filter_append, filter_lines_eq_nil hdevice,
    filter_dependencyItems, hblock, hlines, hwants]
  rw [filter_lines_eq_nil, filter_lines_eq_nil, List.append_nil, List.append_nil, List.nil_append]
  · simp only [List.forall_mem_cons, List.not_mem_nil, Item.Lacks, false_implies, implies_true,
      and_true]
    decide
  · simp only [List.forall_mem_cons, List.not_mem_nil, Item.Lacks, false_implies, implies_true,
      and_true, hfirst]
    decide

/-! ### Reading the names -/

/-- The names of units in words with a space between each two. -/
def namesIn (l : List Char) : List String :=
  (splitAt ' ' l).map fun w => bareName (String.ofList w)

/-- The names in lines that want units. -/
def wantedNames (ls : List String) : List String :=
  ls.flatMap fun l => namesIn (l.toList.drop wantsKey.length)

/-- The words of a text behind the last one that is the mark. -/
def wordsBehind (mark : List Char) (s : List Char) : List (List Char) :=
  ((splitAt ' ' s).reverse.takeWhile (· ≠ mark)).reverse

/-- The names of units that a script reloads. -/
def reloadedNames (script : String) : List String :=
  (wordsBehind "reload-or-restart".toList script.toList.dropLast).map fun w =>
    bareName (String.ofList w)

/-- Neither the application nor a service of it has a space in its name. -/
structure HasPlainNames (a : Application) : Prop where
  app : ' ' ∉ a.name.toList
  service : ∀ s ∈ a.services, ' ' ∉ s.name.toList

lemma HasPlainNames.stems (h : HasPlainNames a) {s : String} (hs : s ∈ stems a) :
    ' ' ∉ (unitName s).toList := by
  obtain ⟨service, hservice, hs⟩ := List.mem_flatMap.mp hs
  obtain ⟨n, hn, rfl⟩ := List.mem_map.mp hs
  obtain ⟨index, -, rfl⟩ := List.mem_map.mp hn
  have hname := not_mem_instanceName (by decide) (h.service service hservice) index
  simp [unitName, extension, stem, h.app, hname]

/-- Names without spaces are the words that they are written in. -/
lemma splitAt_joined (hne : ns ≠ []) (h : ∀ n ∈ ns, ' ' ∉ n.toList) :
    splitAt ' ' (joined ns).toList = ns.map String.toList := by
  rw [toList_joined]
  refine (Text.splitAt_intercalate_iff (by simpa using hne)).mpr ?_
  rintro _ hw
  obtain ⟨n, hn, rfl⟩ := List.mem_map.mp hw
  exact h n hn

lemma map_bareName_units (ss : List String) :
    ((ss.map unitName).map String.toList).map (fun w => bareName (String.ofList w)) = ss := by
  simp [Function.comp_def]

/-- The names that an application's unit wants are read as they were written. -/
lemma wantedNames_wantsLines (h : HasPlainNames a) : wantedNames (wantsLines a) = stems a := by
  obtain ⟨gs, hgs, hne, hlines⟩ := wantsLines_eq a
  have hread : ∀ g ∈ gs, namesIn ((wantsKey ++ joined (g.map unitName)).toList.drop wantsKey.length)
      = g := by
    intro g hg
    have hspace : ∀ n ∈ g.map unitName, ' ' ∉ n.toList := by
      rintro _ hn
      obtain ⟨s, hs, rfl⟩ := List.mem_map.mp hn
      exact h.stems (hgs ▸ List.mem_flatten_of_mem hg hs)
    rw [String.toList_append, ← String.length_toList, List.drop_left, namesIn,
      splitAt_joined (by simpa using hne g hg) hspace, map_bareName_units]
  rw [wantedNames, hlines, List.flatMap_map, List.flatMap_congr hread, List.flatMap_id', hgs]

/-- The script that reloads an application ends with the command for that. -/
lemma reloadHelper_eq (h : a.isReloadSignalSet = true) (date : String) :
    ∃ front, Systemd.reloadHelper date a = some (front
      ++ ("systemctl reload-or-restart " ++ joined ((stems a).map unitName)) ++ "\n") := by
  have hblocks (x y z : String) : Template.renderBlocks [[x], [y], [z]]
      = (x ++ "\n\n" ++ y ++ "\n\n") ++ z ++ "\n" := by
    simp [Template.renderBlocks, String.append_assoc]
  rw [Systemd.reloadHelper, if_pos h]
  exact ⟨_, congrArg some (hblocks "#!/bin/bash" (header "helper" "systemd" date a) _)⟩

/-- An application with a service has a unit for it. -/
lemma stems_ne_nil {s : Service} (hs : s ∈ a.services) : stems a ≠ [] := by
  have hlength : s.options.instances.length ≠ 0 := by
    rw [Options.instances_length]
    split_ifs <;> omega
  obtain ⟨index, hindex⟩ := List.exists_mem_of_length_pos (Nat.pos_of_ne_zero hlength)
  refine List.ne_nil_of_mem (a := stem a.name (Options.instanceName s.name index)) ?_
  exact List.mem_flatMap.mpr ⟨s, hs, List.mem_map_of_mem (List.mem_map_of_mem hindex)⟩

lemma wordsBehind_append {mark s : List Char} (hmark : ' ' ∉ mark) {t : List Char}
    (ht : mark ∉ splitAt ' ' t) :
    wordsBehind mark (s ++ ' ' :: (mark ++ ' ' :: t)) = splitAt ' ' t := by
  have hne : ∀ w ∈ (splitAt ' ' t).reverse, decide (w ≠ mark) = true := by
    intro w hw
    simpa using fun heq : w = mark => ht (heq ▸ List.mem_reverse.mp hw)
  rw [wordsBehind, Text.splitAt_append, Text.splitAt_append, Text.splitAt_of_not_mem hmark,
    List.reverse_append, List.reverse_append, List.reverse_singleton, List.append_assoc,
    List.takeWhile_append_of_pos hne, List.singleton_append,
    List.takeWhile_cons_of_neg (by simp), List.append_nil, List.reverse_reverse]

/-- The names that the script reloads are read as they were written. -/
lemma reloadedNames_reloadHelper (h : HasPlainNames a) {script : String}
    (hscript : Systemd.reloadHelper date a = some script) : reloadedNames script = stems a := by
  have hreload : a.isReloadSignalSet = true := by
    by_contra hnot
    rw [Systemd.reloadHelper, if_neg hnot] at hscript
    exact absurd hscript (by simp)
  obtain ⟨s, hs, -⟩ := List.any_eq_true.mp hreload
  obtain ⟨front, hfront⟩ := reloadHelper_eq hreload date
  obtain rfl := Option.some.inj (hfront.symm.trans hscript)
  have hspace : ∀ n ∈ (stems a).map unitName, ' ' ∉ n.toList := by
    rintro _ hn
    obtain ⟨s, hs, rfl⟩ := List.mem_map.mp hn
    exact h.stems hs
  have hwords : splitAt ' ' (joined ((stems a).map unitName)).toList
      = ((stems a).map unitName).map String.toList :=
    splitAt_joined (by simpa using stems_ne_nil hs) hspace
  -- no name is the word in front of the names, as it ends with the extension
  have hmark : "reload-or-restart".toList
      ∉ splitAt ' ' (joined ((stems a).map unitName)).toList := by
    rw [hwords]
    intro hmem
    obtain ⟨_, hn, heq⟩ := List.mem_map.mp hmem
    obtain ⟨s, -, rfl⟩ := List.mem_map.mp hn
    have hlast := congrArg List.getLast? heq
    rw [unitName, String.toList_append, List.getLast?_append_of_ne_nil _ (by decide)] at hlast
    exact absurd hlast (by decide)
  have htext : (front ++ ("systemctl reload-or-restart "
      ++ joined ((stems a).map unitName)) ++ "\n").toList.dropLast
      = (front.toList ++ "systemctl".toList) ++ ' ' :: ("reload-or-restart".toList
        ++ ' ' :: (joined ((stems a).map unitName)).toList) := by
    rw [String.toList_append, show "\n".toList = ['\n'] from rfl, List.dropLast_concat]
    simp [String.toList_append]
  rw [reloadedNames, htext, wordsBehind_append (by decide) hmark, hwords, map_bareName_units]

end ProcUnits.UnitFile
