import ProcUnits.Proofs.UnitFile.Instances
import ProcUnits.Proofs.UnitFile.Lines
import ProcUnits.Proofs.Validation.Breaks
import ProcUnits.Proofs.Validation.Names
import ProcUnits.UnitFile.InitSystem

/-!
The lines in the units of instances under systemd (section 4.6 of the specification).

A value that holds a line feed would add lines of its own to a unit. Nearly all values are checked
before, or made of checked ones; the texts among the resource controls are not.

* `Template.Item.Unbroken`: an item that adds one line at most;
* `Instance.OneLine`: the texts that a unit shows, those resource controls apart, hold no line feed;
  `IsPlain.oneLine` says so of the instances of an application without problems;
* `unbroken_serviceTemplate_iff`: then the items of a unit are such just if the resource controls
  hold no line feed;
* `SameSet`, `serviceTemplate_outline_eq`: the keys of the lines follow from which options are set;
* `serviceUnit_lines`: both together, of the text of a unit.
-/

namespace ProcUnits.UnitFile

open Template (Item)

variable {a b : Application} {o p : Options} {i j : Instance} {date date' dir dir' : String}

/-! ### Texts without line feeds -/

lemma break_not_mem_numberText (n : Int) : '\n' ∉ (Systemd.numberText n).toList := by
  cases n with
  | ofNat m => exact not_mem_repr (by decide) m
  | negSucc m =>
      have htext : Systemd.numberText (Int.negSucc m) = "-" ++ Nat.repr (m + 1) := rfl
      rw [htext, String.toList_append, List.mem_append, not_or]
      exact ⟨by decide, not_mem_repr (by decide) _⟩

lemma break_not_mem_signalName {s : String} (h : '\n' ∉ s.toList) :
    '\n' ∉ (Systemd.signalName s).toList := by
  have hupper : '\n' ∉ s.toList.map Char.toUpper := fun hmem =>
    h (Validation.break_mem_map_toUpper.mp hmem)
  rw [Systemd.signalName]
  split_ifs
  · rwa [String.toList_ofList]
  · simpa using hupper

lemma break_not_mem_join {dir n : String} (hdir : '\n' ∉ dir.toList) (hn : '\n' ∉ n.toList) :
    '\n' ∉ (Path.join dir n).toList := by
  rw [Path.join]
  split_ifs <;> simp [hdir, hn]

/-- The line that the item adds, if it adds one, holds no line feed. -/
def Template.Item.Unbroken (item : Item) : Prop := ∀ l ∈ item.line?, '\n' ∉ l.toList

namespace Template.Item.Unbroken

variable {k s v : String} {u : Option String}

lemma block : Item.Unbroken .block := by
  simp [Item.Unbroken, Item.line?]

lemma line_iff : Item.Unbroken (.line s) ↔ '\n' ∉ s.toList := by
  simp [Item.Unbroken, Item.line?]

lemma directive_iff (hk : '\n' ∉ k.toList) : Item.Unbroken (.directive k v) ↔ '\n' ∉ v.toList := by
  simp [Item.Unbroken, Item.line?, Template.directiveLine, hk]

lemma optional_iff (hk : '\n' ∉ k.toList) :
    Item.Unbroken (.optional k u) ↔ ∀ s ∈ u, '\n' ∉ s.toList := by
  cases u <;> simp [Item.Unbroken, Item.line?, Template.directiveLine, hk]

end Template.Item.Unbroken

/-! ### Instances -/

/-- No text that the unit of the instance shows holds a line feed, the resource controls apart. -/
structure Instance.OneLine (i : Instance) (date : String) : Prop where
  date : '\n' ∉ date.toList
  app : '\n' ∉ i.member.app.name.toList
  user : '\n' ∉ i.member.app.user.toList
  group : '\n' ∉ i.member.app.group.toList
  workingDir : '\n' ∉ i.member.workingDir.toList
  service : '\n' ∉ i.member.service.name.toList
  helperDir : '\n' ∉ i.helperDir.toList
  killMode : ∀ s ∈ Options.setText i.member.options.killMode, '\n' ∉ s.toList
  killSignal : ∀ s ∈ Options.setText i.member.options.killSignal, '\n' ∉ s.toList
  reloadSignal : ∀ s ∈ Options.setText i.member.options.reloadSignal, '\n' ∉ s.toList

namespace Instance.OneLine

lemma name (h : i.OneLine date) : '\n' ∉ i.name.toList :=
  not_mem_instanceName (by decide) h.service _

lemma consoleLog (h : i.OneLine date) : '\n' ∉ i.consoleLog.toList := by
  simp [Instance.consoleLog, logDir, h.app, h.name]

lemma helperPath (h : i.OneLine date) : '\n' ∉ i.helperPath.toList := by
  refine break_not_mem_join h.helperDir ?_
  simp [Instance.stem, UnitFile.stem, h.app, h.name]

end Instance.OneLine

/-! ### Lines of instances -/

/-- The texts among the resource controls. -/
def controlTexts (r : Resources) : List (Option String) :=
  [r.cpuAffinity, r.memoryLow, r.memoryHigh, r.memoryMax, r.memorySwapMax, r.ioDeviceWeight,
    r.ioReadBandwidthMax, r.ioWriteBandwidthMax, r.ioReadIopsMax, r.ioWriteIopsMax,
    r.ipAddressAllow, r.ipAddressDeny]

/-- None of the texts among the resource controls holds a line feed. -/
def ControlsUnbroken (o : Options) : Prop :=
  ∀ r ∈ o.resources, ∀ u ∈ controlTexts r, ∀ s ∈ u, '\n' ∉ s.toList

lemma break_not_mem_numberIf (set : Bool) (n : Int) :
    ∀ s ∈ Systemd.numberIf set n, '\n' ∉ s.toList := by
  intro s hs
  rw [Systemd.numberIf] at hs
  split_ifs at hs
  · obtain rfl : Systemd.numberText n = s := by simpa using hs
    exact break_not_mem_numberText n
  · simp at hs

lemma forall_mem_map_iff {α β : Type} {u : Option α} {f : α → β} {P : β → Prop} :
    (∀ y ∈ u.map f, P y) ↔ ∀ x ∈ u, P (f x) := by
  cases u <;> simp

lemma unbroken_killItems (h : i.OneLine date) :
    ∀ item ∈ Systemd.killItems i.member.options, item.Unbroken := by
  have hsignal : ∀ s ∈ Options.setText i.member.options.killSignal,
      '\n' ∉ (Systemd.signalName s).toList := fun s hs =>
    break_not_mem_signalName (h.killSignal s hs)
  simp (disch := decide) only [Systemd.killItems, List.forall_mem_cons, List.not_mem_nil,
    Item.Unbroken.optional_iff, forall_mem_map_iff, false_implies, implies_true, and_true]
  exact ⟨h.killMode, hsignal, break_not_mem_numberIf _ _⟩

lemma unbroken_respawnItems (o : Options) : ∀ item ∈ Systemd.respawnItems o, item.Unbroken := by
  rw [Systemd.respawnItems]
  split_ifs
  · simp (disch := decide) only [List.forall_mem_cons, List.not_mem_nil,
      Item.Unbroken.optional_iff, Item.Unbroken.directive_iff, false_implies, implies_true,
      and_true]
    exact ⟨by decide, break_not_mem_numberIf _ _, break_not_mem_numberIf _ _,
      break_not_mem_numberIf _ _⟩
  · simp

lemma break_not_mem_memoryText {unlimited : String} (h : '\n' ∉ unlimited.toList) (n : Int) :
    '\n' ∉ (Systemd.memoryText unlimited n).toList := by
  rw [Systemd.memoryText]
  split_ifs
  · exact h
  · exact break_not_mem_numberText n

lemma unbroken_limitItems (o : Options) : ∀ item ∈ Systemd.limitItems o, item.Unbroken := by
  simp (disch := decide) only [Systemd.limitItems, List.forall_mem_cons, List.not_mem_nil,
    Item.Unbroken.optional_iff, false_implies, implies_true, and_true]
  refine ⟨break_not_mem_numberIf _ _, break_not_mem_numberIf _ _, ?_⟩
  split_ifs
  · simpa using break_not_mem_memoryText (by decide) _
  · simp

/-- Of the resource controls only the texts can hold line feeds. -/
lemma unbroken_resourceBlock_iff (o : Options) :
    (∀ item ∈ Systemd.resourceBlock o, item.Unbroken) ↔ ControlsUnbroken o := by
  have hpercent (n : Int) : '\n' ∉ (Systemd.numberText n ++ "%").toList := by
    rw [String.toList_append, List.mem_append, not_or]
    exact ⟨break_not_mem_numberText n, by decide⟩
  -- numbers are digits and a sign, so only the texts are left
  rw [Systemd.resourceBlock, ControlsUnbroken]
  cases o.resources with
  | none => simp
  | some r =>
      simp (disch := decide) only [Systemd.resourceItems, controlTexts, List.forall_mem_cons,
        List.not_mem_nil, Item.Unbroken.block, Item.Unbroken.optional_iff, forall_mem_map_iff,
        break_not_mem_numberText, hpercent, not_false_eq_true, false_implies, implies_true,
        and_true, true_and, Option.mem_some_iff, forall_eq']

/-! ### Units -/

lemma break_not_mem_header {generator : String} (hgenerator : '\n' ∉ generator.toList)
    (hname : '\n' ∉ a.name.toList) (hdate : '\n' ∉ date.toList) :
    '\n' ∉ (header "unit" generator date a).toList := by
  simp only [header, toString]
  simp [hgenerator, hname, hdate]

/-- The unit of an instance has items that add one line at most just if no resource control is
broken. -/
lemma unbroken_serviceTemplate_iff (h : i.OneLine date) :
    (∀ item ∈ Systemd.serviceTemplate date i, item.Unbroken)
      ↔ ControlsUnbroken i.member.options := by
  have hreload : ∀ s ∈ Options.setText i.member.options.reloadSignal,
      '\n' ∉ ("/bin/kill -" ++ Systemd.signalName s ++ " $MAINPID").toList := by
    intro s hs
    simp [break_not_mem_signalName (h.reloadSignal s hs)]
  have hheader : '\n' ∉ (header "unit" "systemd" date i.member.app).toList :=
    break_not_mem_header (by decide) h.app h.date
  simp (disch := decide) only [Systemd.serviceTemplate, List.forall_mem_append,
    List.forall_mem_cons, List.not_mem_nil, Item.Unbroken.block, Item.Unbroken.line_iff,
    Item.Unbroken.directive_iff, Item.Unbroken.optional_iff, forall_mem_map_iff,
    iff_true_intro (unbroken_killItems h), iff_true_intro (unbroken_respawnItems _),
    iff_true_intro (unbroken_limitItems _), iff_true_intro hreload, unbroken_resourceBlock_iff,
    false_implies, implies_true, and_true, true_and]
  simp [Systemd.unitName, Systemd.extension, hheader, h.app, h.name, h.workingDir, h.helperPath,
    h.consoleLog, h.user, h.group]

/-- The application has no problems, and what its checks leave out holds no line feed. -/
structure IsPlain (a : Application) (helperDir date : String) : Prop where
  validate_eq : Validation.validate a = []
  user : '\n' ∉ a.user.toList
  group : '\n' ∉ a.group.toList
  workingDir : '\n' ∉ a.workingDir.toList
  helperDir : '\n' ∉ helperDir.toList
  date : '\n' ∉ date.toList

/-- The checks keep line feeds out of all other texts of such an application. -/
lemma IsPlain.oneLine (ha : IsPlain a dir date) (hi : i ∈ instances a dir) : i.OneLine date := by
  obtain ⟨hdir, happ, hservice⟩ := eq_of_mem_instances hi
  have hmember : i.member = ⟨a, i.member.service⟩ := by rw [← happ]
  have hpasses : Validation.Passes i.member := by
    rw [hmember]
    exact (Validation.validate_eq_nil_iff.mp ha.validate_eq).2.1 _ (List.mem_map_of_mem hservice)
  have hworkingDir : '\n' ∉ i.member.workingDir.toList := by
    rw [Application.Member.workingDir]
    cases hown : Options.setText i.member.options.workingDir with
    | none =>
        rw [happ]
        exact ha.workingDir
    | some t => exact Validation.break_not_mem_of_isSafePath (hpasses.workingDir t hown)
  exact {
    date := ha.date
    app := happ ▸ Validation.break_not_mem_of_isName (Validation.isName_of_validate ha.validate_eq)
    user := happ ▸ ha.user
    group := happ ▸ ha.group
    workingDir := hworkingDir
    service := Validation.break_not_mem_of_isName hpasses.isName
    helperDir := hdir ▸ ha.helperDir
    killMode := fun s hs => Validation.break_not_mem_of_mem_killModes (hpasses.killMode s hs)
    killSignal := fun s hs =>
      Validation.break_not_mem_of_isKnownSignal (hpasses.killSignal s hs)
    reloadSignal := fun s hs =>
      Validation.break_not_mem_of_isKnownSignal (hpasses.reloadSignal s hs) }

/-! ### Keys -/

/-- Which resource controls are set. -/
def controlsSet (r : Resources) : List Bool :=
  [r.cpuWeight.isSome, r.startupCpuWeight.isSome, r.cpuQuota.isSome, r.cpuAffinity.isSome,
    r.memoryLow.isSome, r.memoryHigh.isSome, r.memoryMax.isSome, r.memorySwapMax.isSome,
    r.tasksMax.isSome, r.ioWeight.isSome, r.startupIoWeight.isSome, r.ioDeviceWeight.isSome,
    r.ioReadBandwidthMax.isSome, r.ioWriteBandwidthMax.isSome, r.ioReadIopsMax.isSome,
    r.ioWriteIopsMax.isSome, r.ipAddressAllow.isSome, r.ipAddressDeny.isSome]

/-- The same options are set, among those that a unit shows. -/
structure SameSet (o p : Options) : Prop where
  killMode : o.isKillModeSet = p.isKillModeSet
  killSignal : o.isKillSignalSet = p.isKillSignalSet
  killTimeout : o.isKillTimeoutSet = p.isKillTimeoutSet
  reloadSignal : o.isReloadSignalSet = p.isReloadSignalSet
  respawn : o.isRespawnEnabled = p.isRespawnEnabled
  respawnDelay : o.isRespawnDelaySet = p.isRespawnDelaySet
  respawnInterval : 0 < o.respawn.interval ↔ 0 < p.respawn.interval
  respawnCount : 0 < o.respawn.count ↔ 0 < p.respawn.count
  fileLimit : o.isFileLimitSet = p.isFileLimitSet
  processLimit : o.isProcessLimitSet = p.isProcessLimitSet
  memoryLimit : o.isMemoryLimitSet = p.isMemoryLimitSet
  controls : o.resources.map controlsSet = p.resources.map controlsSet

namespace SameSet

lemma isSome_numberIf (set : Bool) (n : Int) : (Systemd.numberIf set n).isSome = set := by
  cases set <;> rfl

lemma killItems_outline_eq (h : SameSet o p) :
    (Systemd.killItems o).map Item.outline = (Systemd.killItems p).map Item.outline := by
  have hmode := h.killMode
  have hsignal := h.killSignal
  simp only [Options.isKillModeSet, Options.isKillSignalSet, Options.isTextSet] at hmode hsignal
  simp (disch := decide) only [Systemd.killItems, List.map_cons, List.map_nil,
    Item.outline_optional, Option.isSome_map, isSome_numberIf, hmode, hsignal, h.killTimeout]

lemma respawnItems_outline_eq (h : SameSet o p) :
    (Systemd.respawnItems o).map Item.outline = (Systemd.respawnItems p).map Item.outline := by
  rw [Systemd.respawnItems, Systemd.respawnItems, ← h.respawn]
  split_ifs
  · simp (disch := decide) only [List.map_cons, List.map_nil, Item.outline_directive,
      Item.outline_optional, isSome_numberIf, h.respawnDelay, h.respawnInterval, h.respawnCount]
  · rfl

lemma limitItems_outline_eq (h : SameSet o p) :
    (Systemd.limitItems o).map Item.outline = (Systemd.limitItems p).map Item.outline := by
  have hmemory (set : Bool) (v : String) :
      (if set = true then some v else none).isSome = set := by
    cases set <;> rfl
  simp (disch := decide) only [Systemd.limitItems, List.map_cons, List.map_nil,
    Item.outline_optional, isSome_numberIf, hmemory, h.fileLimit, h.processLimit, h.memoryLimit]

lemma resourceBlock_outline_eq (h : SameSet o p) :
    (Systemd.resourceBlock o).map Item.outline = (Systemd.resourceBlock p).map Item.outline := by
  have hcontrols := h.controls
  rw [Systemd.resourceBlock, Systemd.resourceBlock]
  cases ho : o.resources with
  | none =>
      rw [ho] at hcontrols
      rw [Option.map_eq_none_iff.mp hcontrols.symm]
  | some r =>
      rw [ho] at hcontrols
      obtain ⟨q, hq, hset⟩ := Option.map_eq_some_iff.mp hcontrols.symm
      simp only [controlsSet, List.cons.injEq, and_true] at hset
      rw [hq]
      simp (disch := decide) only [Systemd.resourceItems, List.map_cons, List.map_nil,
        Item.outline_optional, Option.isSome_map, hset]

end SameSet

lemma keyOf_header (kind generator date : String) (a : Application) :
    keyOf (header kind generator date a).toList = none := by
  simp only [header, toString]
  simp [keyOf]

/-- What the items of a unit add to its keys depends on which options are set, and on nothing
else. -/
lemma serviceTemplate_outline_eq (h : SameSet i.member.options j.member.options)
    (date date' : String) :
    (Systemd.serviceTemplate date i).map Item.outline
      = (Systemd.serviceTemplate date' j).map Item.outline := by
  have hreload := h.reloadSignal
  simp only [Options.isReloadSignalSet, Options.isTextSet] at hreload
  simp (disch := decide) only [Systemd.serviceTemplate, List.map_append, List.map_cons,
    List.map_nil, Item.outline_block, Item.outline_line, Item.outline_directive,
    Item.outline_optional, Option.isSome_map, keyOf_header, h.killItems_outline_eq,
    h.respawnItems_outline_eq, h.limitItems_outline_eq, h.resourceBlock_outline_eq, hreload]

/-- The keys of the lines of a text. -/
def keysOf (s : String) : List (Option (List Char)) := (linesOf s).map keyOf

/-- The unit of an instance has the lines that it is meant to have just if no text among the
resource controls holds a line feed. -/
lemma linesOf_serviceUnit_iff (ha : IsPlain a dir date) (hi : i ∈ instances a dir) :
    linesOf (InitSystem.systemd.serviceUnit date i)
        = (Systemd.serviceTemplate date i).written.map String.toList
      ↔ ControlsUnbroken i.member.options := by
  have hne : (Systemd.serviceTemplate date i).lines ≠ [] := List.cons_ne_nil _ _
  rw [InitSystem.serviceUnit, Template.linesOf_render_iff hne,
    ← unbroken_serviceTemplate_iff (ha.oneLine hi), Template.lines, List.forall_mem_filterMap]
  exact Iff.rfl

/-- The unit of an instance has the lines that it is meant to have, and no others, exactly if no
text among the resource controls of the service holds a line feed: the checks keep all other options
from that. Where it is so, the number of lines and the key of each line depend only on which options
are set. -/
theorem serviceUnit_lines (ha : IsPlain a dir date) (hi : i ∈ instances a dir)
    (hb : IsPlain b dir' date') (hj : j ∈ instances b dir') :
    (linesOf (InitSystem.systemd.serviceUnit date i)
        = (Systemd.serviceTemplate date i).written.map String.toList
      ↔ ControlsUnbroken i.member.options)
    ∧ (ControlsUnbroken i.member.options → ControlsUnbroken j.member.options →
      SameSet i.member.options j.member.options →
        keysOf (InitSystem.systemd.serviceUnit date i)
          = keysOf (InitSystem.systemd.serviceUnit date' j)) := by
  refine ⟨linesOf_serviceUnit_iff ha hi, fun hunbroken hunbroken' hset => ?_⟩
  rw [keysOf, keysOf, (linesOf_serviceUnit_iff ha hi).mpr hunbroken,
    (linesOf_serviceUnit_iff hb hj).mpr hunbroken']
  exact Template.keys_eq_of_outline_eq (serviceTemplate_outline_eq hset date date')

/-- A service with a limit on its memory. -/
def limitedService (limit : String) : Service where
  name := "web"
  command := "serve"
  options := { resources := some { memoryMax := some limit } }

/-- An application of that service. -/
def limitedApplication (limit : String) : Application where
  name := "shop"
  user := "www"
  group := "www"
  workingDir := "/srv"
  services := [limitedService limit]
  version := .v2

/-- The instance of that application. -/
def limitedInstance (limit : String) : Instance where
  member := ⟨limitedApplication limit, limitedService limit⟩
  index := none
  helperDir := "/helpers"

lemma mem_instances_limited (limit : String) :
    limitedInstance limit ∈ instances (limitedApplication limit) "/helpers" :=
  List.mem_singleton.mpr rfl

lemma isPlain_limited {limit : String}
    (h : Validation.validate (limitedApplication limit) = []) :
    IsPlain (limitedApplication limit) "/helpers" "today" :=
  ⟨h, by simp [limitedApplication], by simp [limitedApplication], by simp [limitedApplication],
    by decide, by decide⟩

lemma controlsUnbroken_limited {limit : String} :
    ControlsUnbroken (limitedInstance limit).member.options ↔ '\n' ∉ limit.toList := by
  simp [ControlsUnbroken, controlTexts, limitedInstance, limitedService]

/-- The units of two limits have the same keys. A limit in two lines passes the checks, and its unit
has a line that is not meant to be there. -/
theorem serviceUnit_lines_limited :
    keysOf (InitSystem.systemd.serviceUnit "today" (limitedInstance "1G"))
      = keysOf (InitSystem.systemd.serviceUnit "today" (limitedInstance "512M"))
    ∧ linesOf (InitSystem.systemd.serviceUnit "today"
        (limitedInstance "1G\nExecStartPre=/bin/sh -c id"))
      ≠ (Systemd.serviceTemplate "today"
        (limitedInstance "1G\nExecStartPre=/bin/sh -c id")).written.map String.toList := by
  have hsmall : IsPlain (limitedApplication "512M") "/helpers" "today" :=
    isPlain_limited (by decide +kernel)
  constructor
  · refine (serviceUnit_lines (isPlain_limited (by decide +kernel)) (mem_instances_limited "1G")
      hsmall (mem_instances_limited "512M")).2 ?_ ?_ ?_
    · exact controlsUnbroken_limited.mpr (by decide)
    · exact controlsUnbroken_limited.mpr (by decide)
    · exact ⟨rfl, rfl, rfl, rfl, rfl, rfl, Iff.rfl, Iff.rfl, rfl, rfl, rfl, rfl⟩
  · intro hlines
    have hunbroken := (serviceUnit_lines (isPlain_limited (by decide +kernel))
      (mem_instances_limited "1G\nExecStartPre=/bin/sh -c id") hsmall
      (mem_instances_limited "512M")).1.mp hlines
    exact controlsUnbroken_limited.mp hunbroken (by decide)

end ProcUnits.UnitFile
