import ProcUnits.Proofs.Resolution
import ProcUnits.Proofs.UnitFile.Directives

/-!
Which lines of a unit hang on options. An option that is not set leaves no line (section 4.6 of the
specification, and the zero emission of section 8).

* `Mark`: what a line is known by, and `Row`: a line that is there if it has a value;
* `filter_lines`: if no other line can have the mark of a row, then the lines with that mark are the
  line of that row, or there is none;
* `InitSystem.optionRows`: the lines that hang on options, each with its value if its option is set;
* `Systemd.lines_serviceTemplate`, `Upstart.lines_serviceTemplate`: a unit has these, beside the
  lines it always has;
* `serviceUnit_optionRows`: so each line is there exactly once if its option is set, and not at all
  otherwise, as long as no text in the unit holds a line feed.
-/

namespace ProcUnits.UnitFile

open Systemd (numberText signalName)
open Template (Item)

variable {o : Options} {i : Instance} {date : String}

/-! ### Marked lines -/

/-- What a line is known by: the whole of it, or how it starts. -/
inductive Mark where
  | whole (text : String)
  | start (text : String)
  deriving DecidableEq, Repr

namespace Mark

variable {m n : Mark}

/-- The line has the mark. -/
def isOn : Mark → List Char → Bool
  | whole s, l => l == s.toList
  | start s, l => s.toList.isPrefixOf l

/-- The line with the mark and a value. There is but one line that is known as a whole. -/
def line : Mark → String → String
  | whole s, _ => s
  | start s, v => s ++ v

/-- No line that is made with the second mark has the first one. -/
def isApart : Mark → Mark → Bool
  | whole s, whole t => s != t
  | whole s, start t => !t.toList.isPrefixOf s.toList
  | start s, whole t => !s.toList.isPrefixOf t.toList
  | start s, start t => !s.toList.isPrefixOf t.toList && !t.toList.isPrefixOf s.toList

lemma isOn_line (m : Mark) (v : String) : m.isOn (m.line v).toList = true := by
  cases m with
  | whole s => exact beq_self_eq_true _
  | start s =>
      rw [isOn, line, List.isPrefixOf_iff_prefix, String.toList_append]
      exact List.prefix_append _ _

lemma isOn_line_of_isApart (h : m.isApart n = true) (v : String) :
    m.isOn (n.line v).toList = false := by
  rw [Bool.eq_false_iff]
  intro hon
  cases m <;> cases n <;>
    simp only [isOn, line, isApart, List.isPrefixOf_iff_prefix, String.toList_append, bne_iff_ne,
      beq_iff_eq, Bool.and_eq_true, Bool.not_eq_true', Bool.eq_false_iff, ne_eq] at h hon
  case whole.whole s t => exact h (String.toList_inj.mp hon).symm
  case whole.start s t => exact h (hon ▸ List.prefix_append _ _)
  case start.whole s t => exact h hon
  case start.start s t =>
    exact (List.prefix_or_prefix_of_prefix hon (List.prefix_append _ _)).elim h.1 h.2

lemma isApart_self (m : Mark) : m.isApart m = false := by
  rw [Bool.eq_false_iff]
  intro hapart
  have hon := isOn_line_of_isApart hapart ""
  rw [isOn_line] at hon
  exact Bool.noConfusion hon

/-- Of these marks only the mark itself can be on a line with it, and it is there once. -/
def OnlyIn (m : Mark) (ms : List Mark) : Prop := ms.filter (fun n => !m.isApart n) = [m]

instance (m : Mark) (ms : List Mark) : Decidable (m.OnlyIn ms) :=
  inferInstanceAs (Decidable (ms.filter _ = [m]))

end Mark

/-- A line that is there if it has a value. -/
structure Row where
  mark : Mark
  value : Option String
  deriving DecidableEq, Repr

namespace Row

/-- A line that is known as a whole. -/
def whole (s : String) (set : Bool) : Row := ⟨.whole s, if set then some "" else none⟩

/-- A line that starts with a text. -/
def start (s : String) (value : Option String) : Row := ⟨.start s, value⟩

/-- The line `key=value`. -/
def directive (key : String) (value : Option String) : Row := start (key ++ "=") value

@[simp]
lemma mark_whole (s : String) (set : Bool) : (whole s set).mark = .whole s := rfl

@[simp]
lemma mark_start (s : String) (value : Option String) : (start s value).mark = .start s := rfl

@[simp]
lemma mark_directive (key : String) (value : Option String) :
    (directive key value).mark = .start (key ++ "=") := rfl

/-- The line of the row, if it is there. -/
def line? (r : Row) : Option String := r.value.map r.mark.line

/-- The lines of rows. -/
def lines (rs : List Row) : List String := rs.filterMap line?

lemma lines_append (rs qs : List Row) : lines (rs ++ qs) = lines rs ++ lines qs :=
  List.filterMap_append

/-- Rows with other marks add no line with this one. -/
lemma filter_lines_eq (m : Mark) (rs : List Row) :
    (lines rs).filter (fun l => m.isOn l.toList)
      = (lines (rs.filter fun r => !m.isApart r.mark)).filter fun l => m.isOn l.toList := by
  induction rs with
  | nil => rfl
  | cons r rs ih =>
      have hcons (r : Row) (rs : List Row) : lines (r :: rs) = r.line?.toList ++ lines rs := by
        rw [lines, List.filterMap_cons]
        cases r.line? <;> rfl
      rw [hcons, List.filter_append, ih]
      cases hapart : m.isApart r.mark with
      | false =>
          rw [List.filter_cons_of_pos (by simp [hapart]), hcons, List.filter_append]
      | true =>
          have hnone : r.line?.toList.filter (fun l => m.isOn l.toList) = [] := by
            rw [line?]
            cases r.value with
            | none => rfl
            | some v => simp [Mark.isOn_line_of_isApart hapart v]
          rw [List.filter_cons_of_neg (by simp [hapart]), hnone, List.nil_append]

/-- If no other row can have the mark of this one, then the lines with its mark are its own. -/
lemma filter_lines {rs : List Row} {r : Row} (hr : r ∈ rs)
    (honly : r.mark.OnlyIn (rs.map mark)) :
    (lines rs).filter (fun l => r.mark.isOn l.toList) = r.line?.toList := by
  rw [Mark.OnlyIn, List.filter_map] at honly
  obtain ⟨q, hq, -⟩ := List.map_eq_singleton_iff.mp honly
  have hmem : r ∈ rs.filter ((fun n => !r.mark.isApart n) ∘ mark) :=
    List.mem_filter.mpr ⟨hr, by simp [Mark.isApart_self]⟩
  obtain rfl : r = q := List.mem_singleton.mp (hq ▸ hmem)
  rw [filter_lines_eq, show rs.filter (fun q => !r.mark.isApart q.mark) = [r] from hq]
  cases hvalue : r.value with
  | none => simp [lines, line?, hvalue]
  | some v => simp [lines, line?, hvalue, Mark.isOn_line]

end Row

/-! ### Lines that hang on options -/

/-- A value that is there if the condition holds. -/
def given (set : Bool) (value : Option String) : Option String := if set then value else none

/-- A text is given where it is set. -/
lemma given_isTextSet (u : Option String) : given (Options.isTextSet u) u = Options.setText u := by
  cases u with
  | none => rfl
  | some s =>
      rw [given, Options.isTextSet, Options.setText_some]
      split_ifs <;> simp_all

lemma given_map (set : Bool) (u : Option String) (f : String → String) :
    given set (u.map f) = (given set u).map f := by
  cases set <;> rfl

/-- What the first line of a unit says. -/
def headerText (generator date : String) (a : Application) : String :=
  date ++ " by init-exporter/" ++ generator ++ " for " ++ a.name ++ " application"

lemma header_eq (generator date : String) (a : Application) :
    header "unit" generator date a = "# This unit generated " ++ headerText generator date a := by
  simp [header, headerText, toString, ← String.toList_inj]

namespace Systemd

/-- How the instance is killed. -/
def killRows (o : Options) : List Row :=
  [.directive "KillMode" (given o.isKillModeSet o.killMode),
    .directive "KillSignal" (given o.isKillSignalSet (o.killSignal.map signalName)),
    .directive "TimeoutStopSec" (given o.isKillTimeoutSet (some (numberText o.killTimeout)))]

/-- Whether and how the instance is started again. -/
def respawnRows (o : Options) : List Row :=
  [.directive "Restart" (given o.isRespawnEnabled (some "on-failure")),
    .directive "RestartSec"
      (given (o.isRespawnEnabled && o.isRespawnDelaySet) (some (numberText o.respawn.delay))),
    .directive "StartLimitInterval"
      (given (o.isRespawnEnabled && 0 < o.respawn.interval)
        (some (numberText o.respawn.interval))),
    .directive "StartLimitBurst"
      (given (o.isRespawnEnabled && 0 < o.respawn.count) (some (numberText o.respawn.count)))]

/-- The limits on the instance. -/
def limitRows (o : Options) : List Row :=
  [.directive "LimitNOFILE" (given o.isFileLimitSet (some (numberText o.limits.files))),
    .directive "LimitNPROC" (given o.isProcessLimitSet (some (numberText o.limits.processes))),
    .directive "LimitMEMLOCK"
      (given o.isMemoryLimitSet
        (some (if o.limits.lockedMemory = -1 then "infinity"
          else numberText o.limits.lockedMemory)))]

/-- The resource controls of the instance. -/
def controlRows (r : Option Resources) : List Row :=
  [.directive "CPUWeight" (r.bind (·.cpuWeight.map numberText)),
    .directive "StartupCPUWeight" (r.bind (·.startupCpuWeight.map numberText)),
    .directive "CPUQuota" (r.bind (·.cpuQuota.map fun n => numberText n ++ "%")),
    .directive "CPUAffinity" (r.bind (·.cpuAffinity)),
    .directive "MemoryLow" (r.bind (·.memoryLow)),
    .directive "MemoryHigh" (r.bind (·.memoryHigh)),
    .directive "MemoryMax" (r.bind (·.memoryMax)),
    .directive "MemorySwapMax" (r.bind (·.memorySwapMax)),
    .directive "TasksMax" (r.bind (·.tasksMax.map numberText)),
    .directive "IOWeight" (r.bind (·.ioWeight.map numberText)),
    .directive "StartupIOWeight" (r.bind (·.startupIoWeight.map numberText)),
    .directive "IODeviceWeight" (r.bind (·.ioDeviceWeight)),
    .directive "IOReadBandwidthMax" (r.bind (·.ioReadBandwidthMax)),
    .directive "IOWriteBandwidthMax" (r.bind (·.ioWriteBandwidthMax)),
    .directive "IOReadIOPSMax" (r.bind (·.ioReadIopsMax)),
    .directive "IOWriteIOPSMax" (r.bind (·.ioWriteIopsMax)),
    .directive "IPAddressAllow" (r.bind (·.ipAddressAllow)),
    .directive "IPAddressDeny" (r.bind (·.ipAddressDeny))]

/-- How the instance is reloaded. -/
def reloadRow (o : Options) : Row :=
  .directive "ExecReload" (given o.isReloadSignalSet
    (o.reloadSignal.map fun s => "/bin/kill -" ++ signalName s ++ " $MAINPID"))

/-- All lines of a unit that hang on options. -/
def optionRows (o : Options) : List Row :=
  killRows o ++ respawnRows o ++ limitRows o ++ controlRows o.resources ++ [reloadRow o]

/-- The lines that come before those in every unit. -/
def firstRows (date : String) (i : Instance) : List Row :=
  [.start "# This unit generated " (some (headerText "systemd" date i.member.app)),
    .whole "[Unit]" true,
    .directive "Description"
      (some ("Unit for " ++ i.name ++ " service (part of " ++ i.member.app.name
        ++ " application)")),
    .directive "PartOf" (some (unitName i.member.app.name)),
    .whole "[Service]" true,
    .directive "Type" (some "simple")]

/-- The lines that come after those in every unit. -/
def lastRows (i : Instance) : List Row :=
  [.directive "ExecStartPre" (some ("/bin/touch " ++ i.consoleLog)),
    .directive "ExecStartPre" (some ("/bin/chown " ++ i.member.app.user ++ " " ++ i.consoleLog)),
    .directive "ExecStartPre" (some ("/bin/chgrp " ++ i.member.app.group ++ " " ++ i.consoleLog)),
    .directive "ExecStartPre" (some ("/bin/chmod g+w " ++ i.consoleLog)),
    .directive "User" (some i.member.app.user),
    .directive "Group" (some i.member.app.group),
    .directive "WorkingDirectory" (some i.member.workingDir),
    .directive "ExecStart"
      (some ("/bin/sh -c '/bin/bash " ++ i.helperPath ++ " &>>" ++ i.consoleLog ++ "'"))]

/-- All lines of a unit. -/
def rows (date : String) (i : Instance) : List Row :=
  firstRows date i
    ++ (killRows i.member.options ++ respawnRows i.member.options ++ limitRows i.member.options
      ++ controlRows i.member.options.resources)
    ++ lastRows i ++ [reloadRow i.member.options]

lemma lines_kill (o : Options) :
    (killItems o).filterMap Item.line? = Row.lines (killRows o) := by
  rw [killItems, ← given_isTextSet, ← given_isTextSet, ← given_map]
  rfl

lemma lines_respawn (o : Options) :
    (respawnItems o).filterMap Item.line? = Row.lines (respawnRows o) := by
  rw [respawnItems, respawnRows]
  cases o.isRespawnEnabled <;> rfl

lemma lines_limits (o : Options) :
    (limitItems o).filterMap Item.line? = Row.lines (limitRows o) := rfl

lemma lines_controls (o : Options) :
    (resourceBlock o).filterMap Item.line? = Row.lines (controlRows o.resources) := by
  rw [resourceBlock]
  cases o.resources <;> rfl

lemma lines_reload (o : Options) :
    [Item.optional "ExecReload" ((Options.setText o.reloadSignal).map fun s =>
        "/bin/kill -" ++ signalName s ++ " $MAINPID")].filterMap Item.line?
      = Row.lines [reloadRow o] := by
  rw [← given_isTextSet, ← given_map]
  rfl

/-- The lines of a unit are those of its rows. -/
lemma lines_serviceTemplate (date : String) (i : Instance) :
    (serviceTemplate date i).lines = Row.lines (rows date i) := by
  simp only [rows, Row.lines_append, ← lines_kill, ← lines_respawn, ← lines_limits,
    ← lines_controls, ← lines_reload]
  simp only [serviceTemplate, Template.lines, List.filterMap_append, List.append_assoc, header_eq]
  rfl

end Systemd

namespace Upstart

/-- A limit, soft and hard. -/
def twice (v : String) : String := v ++ " " ++ v

/-- Whether and how the instance is started again. -/
def respawnRows (o : Options) : List Row :=
  [.whole "respawn" o.isRespawnEnabled,
    .start "respawn limit "
      (given (o.isRespawnEnabled && o.isRespawnLimitSet)
        (some (numberText o.respawn.count ++ " " ++ numberText o.respawn.interval))),
    .start "post-stop exec sleep "
      (given (o.isRespawnEnabled && o.isRespawnDelaySet) (some (numberText o.respawn.delay)))]

/-- How the instance is killed and reloaded. -/
def killRows (o : Options) : List Row :=
  [.start "kill timeout " (given o.isKillTimeoutSet (some (numberText o.killTimeout))),
    .start "kill signal " (given o.isKillSignalSet o.killSignal),
    .start "reload signal " (given o.isReloadSignalSet o.reloadSignal)]

/-- The limits on the instance. -/
def limitRows (o : Options) : List Row :=
  [.start "limit nofile " (given o.isFileLimitSet (some (twice (numberText o.limits.files)))),
    .start "limit nproc "
      (given o.isProcessLimitSet (some (twice (numberText o.limits.processes)))),
    .start "limit memlock "
      (given o.isMemoryLimitSet
        (some (twice (if o.limits.lockedMemory = -1 then "unlimited"
          else numberText o.limits.lockedMemory))))]

/-- All lines of a job that hang on options. -/
def optionRows (o : Options) : List Row := respawnRows o ++ killRows o ++ limitRows o

/-- The lines that come before those in every job. -/
def firstRows (date : String) (i : Instance) : List Row :=
  [.start "# This unit generated " (some (headerText "upstart" date i.member.app)),
    .start "start on starting " (some i.member.app.name),
    .start "stop on stopping " (some i.member.app.name)]

/-- The lines that come after those in every job. -/
def lastRows (i : Instance) : List Row :=
  [.whole "script" true,
    .start "  touch " (some i.consoleLog),
    .start "  chown " (some (i.member.app.user ++ " " ++ i.consoleLog)),
    .start "  chgrp " (some (i.member.app.group ++ " " ++ i.consoleLog)),
    .start "  chmod g+w " (some i.consoleLog),
    .start "  exec sudo -u "
      (some (i.member.app.user ++ " /bin/bash " ++ i.helperPath ++ " &>>" ++ i.consoleLog)),
    .whole "end script" true]

/-- All lines of a job. -/
def rows (date : String) (i : Instance) : List Row :=
  firstRows date i ++ optionRows i.member.options ++ lastRows i

lemma lines_lineIf (set : Bool) (s v : String) :
    (lineIf set (s ++ v)).filterMap Item.line? = Row.lines [.start s (given set (some v))] := by
  cases set <;> rfl

lemma lines_lineFor (s : String) (u : Option String) :
    (lineFor s u).filterMap Item.line?
      = Row.lines [.start s (given (Options.isTextSet u) u)] := by
  rw [lineFor, given_isTextSet]
  cases Options.setText u <;> rfl

lemma lines_respawn (o : Options) :
    (respawnItems o).filterMap Item.line? = Row.lines (respawnRows o) := by
  rw [respawnItems, respawnRows]
  cases o.isRespawnEnabled with
  | false => rfl
  | true =>
      have hlimit : "respawn limit " ++ numberText o.respawn.count ++ " "
          ++ numberText o.respawn.interval
          = "respawn limit "
            ++ (numberText o.respawn.count ++ " " ++ numberText o.respawn.interval) := by
        simp only [String.append_assoc]
      rw [hlimit, if_pos rfl, List.cons_append, ← List.singleton_append, List.filterMap_append,
        List.filterMap_append, lines_lineIf, lines_lineIf, ← Row.lines_append]
      rfl

lemma lines_kill (o : Options) :
    (killItems o).filterMap Item.line? = Row.lines (killRows o) := by
  rw [killItems, List.filterMap_append, List.filterMap_append, lines_lineIf, lines_lineFor,
    lines_lineFor, ← Row.lines_append, ← Row.lines_append]
  rfl

lemma limitLine_eq (name v : String) : limitLine name v = ("limit " ++ name ++ " ") ++ twice v := by
  simp [limitLine, twice, String.append_assoc]

lemma lines_limits (o : Options) :
    (limitItems o).filterMap Item.line? = Row.lines (limitRows o) := by
  rw [limitItems, limitLine_eq, limitLine_eq, limitLine_eq, List.filterMap_append,
    List.filterMap_append, lines_lineIf, lines_lineIf, lines_lineIf, ← Row.lines_append,
    ← Row.lines_append]
  rfl

/-- The lines of a job are those of its rows. -/
lemma lines_serviceTemplate (date : String) (i : Instance) :
    (serviceTemplate date i).lines = Row.lines (rows date i) := by
  simp only [rows, optionRows, Row.lines_append, ← lines_kill, ← lines_respawn, ← lines_limits]
  simp only [serviceTemplate, Template.lines, List.filterMap_append, List.append_assoc, header_eq,
    String.append_assoc, firstRows, lastRows]
  rfl

end Upstart

namespace InitSystem

/-- The lines of a unit that hang on options. -/
def optionRows : InitSystem → Options → List Row
  | systemd => Systemd.optionRows
  | upstart => Upstart.optionRows

/-- All lines of a unit. -/
def rows : InitSystem → String → Instance → List Row
  | systemd => Systemd.rows
  | upstart => Upstart.rows

lemma mem_rows {system : InitSystem} {r : Row} (h : r ∈ system.optionRows i.member.options) :
    r ∈ system.rows date i := by
  cases system with
  | systemd =>
      rw [optionRows, Systemd.optionRows, List.mem_append] at h
      rw [rows, Systemd.rows, List.mem_append, List.mem_append, List.mem_append]
      exact h.elim (fun h => Or.inl (Or.inl (Or.inr h))) Or.inr
  | upstart => exact List.mem_append_left _ (List.mem_append_right _ h)

/-- Units differ in the values of their rows, but not in the marks. -/
lemma map_mark_rows (system : InitSystem) (date : String) (i : Instance) :
    (system.rows date i).map Row.mark
      = (system.rows "" (limitedInstance "")).map Row.mark := by
  cases system with
  | systemd =>
      simp only [rows, Systemd.rows, Systemd.firstRows, Systemd.killRows, Systemd.respawnRows,
        Systemd.limitRows, Systemd.controlRows, Systemd.lastRows, Systemd.reloadRow,
        List.map_append, List.map_cons, List.map_nil, Row.mark_start, Row.mark_whole,
        Row.mark_directive]
  | upstart =>
      simp only [rows, Upstart.rows, Upstart.optionRows, Upstart.firstRows, Upstart.killRows,
        Upstart.respawnRows, Upstart.limitRows, Upstart.lastRows, List.map_append, List.map_cons,
        List.map_nil, Row.mark_start, Row.mark_whole]

/-- The mark of a row that hangs on an option is on no line of another row, and on no empty line
either. -/
lemma onlyIn_marks {system : InitSystem} {r : Row}
    (h : r ∈ system.optionRows i.member.options) (date : String) :
    r.mark.isOn [] = false ∧ r.mark.OnlyIn ((system.rows date i).map Row.mark) := by
  -- the marks are fixed texts, so that one instance decides about all of them
  have hclosed : ∀ m ∈ (system.optionRows {}).map Row.mark, m.isOn [] = false
      ∧ m.OnlyIn ((system.rows "" (limitedInstance "")).map Row.mark) := by
    cases system <;> decide +kernel
  have hoptions : (system.optionRows i.member.options).map Row.mark
      = (system.optionRows {}).map Row.mark := by
    cases system <;> rfl
  rw [map_mark_rows]
  exact hclosed _ (hoptions ▸ List.mem_map_of_mem h)

end InitSystem

/-! ### Units -/

lemma unbroken_lineIf {set : Bool} {l : String} (h : '\n' ∉ l.toList) :
    ∀ item ∈ Upstart.lineIf set l, item.Unbroken := by
  cases set with
  | false => simp [Upstart.lineIf]
  | true => simpa [Upstart.lineIf] using Item.Unbroken.line_iff.mpr h

lemma unbroken_lineFor {l : String} {u : Option String} (hl : '\n' ∉ l.toList)
    (h : ∀ s ∈ Options.setText u, '\n' ∉ s.toList) :
    ∀ item ∈ Upstart.lineFor l u, item.Unbroken := by
  intro item hitem
  obtain ⟨s, hs, rfl⟩ := List.mem_map.mp hitem
  rw [Item.Unbroken.line_iff, String.toList_append, List.mem_append, not_or]
  exact ⟨hl, h s (Option.mem_toList.mp hs)⟩

namespace Upstart

lemma unbroken_respawnItems (o : Options) : ∀ item ∈ respawnItems o, item.Unbroken := by
  rw [respawnItems]
  split_ifs
  · rw [List.cons_append, List.forall_mem_cons, List.forall_mem_append]
    refine ⟨Item.Unbroken.line_iff.mpr (by decide), unbroken_lineIf ?_, unbroken_lineIf ?_⟩ <;>
      simp [break_not_mem_numberText]
  · simp

lemma unbroken_killItems (h : i.OneLine date) :
    ∀ item ∈ killItems i.member.options, item.Unbroken := by
  rw [killItems, List.forall_mem_append, List.forall_mem_append]
  refine ⟨⟨unbroken_lineIf ?_, unbroken_lineFor (by decide) h.killSignal⟩,
    unbroken_lineFor (by decide) h.reloadSignal⟩
  simp [break_not_mem_numberText]

lemma unbroken_limitItems (o : Options) : ∀ item ∈ limitItems o, item.Unbroken := by
  rw [limitItems, List.forall_mem_append, List.forall_mem_append]
  refine ⟨⟨unbroken_lineIf ?_, unbroken_lineIf ?_⟩, unbroken_lineIf ?_⟩ <;>
    simp [limitLine, break_not_mem_numberText, break_not_mem_memoryText]

lemma unbroken_serviceTemplate (h : i.OneLine date) :
    ∀ item ∈ serviceTemplate date i, item.Unbroken := by
  have hheader : '\n' ∉ (header "unit" "upstart" date i.member.app).toList :=
    break_not_mem_header (by decide) h.app h.date
  simp only [serviceTemplate, List.forall_mem_append, List.forall_mem_cons, List.not_mem_nil,
    Item.Unbroken.block, Item.Unbroken.line_iff, iff_true_intro (unbroken_respawnItems _),
    iff_true_intro (unbroken_killItems h), iff_true_intro (unbroken_limitItems _),
    false_implies, implies_true, and_true, true_and]
  simp [hheader, h.app, h.user, h.group, h.consoleLog, h.helperPath]

end Upstart

/-- The lines of a text that fit are those among the lines of its template. -/
lemma filter_linesOf_render {t : Template} {p : List Char → Bool} (hempty : p [] = false)
    (hne : t.lines ≠ []) (h : ∀ item ∈ t, item.Unbroken) :
    (linesOf t.render).filter p = (t.lines.filter fun l => p l.toList).map String.toList := by
  have hlines : ∀ l ∈ t.lines, '\n' ∉ l.toList := List.forall_mem_filterMap.mpr h
  rw [(Template.linesOf_render_iff hne).mpr hlines, List.filter_map,
    ← Template.filter_written (by simpa using hempty)]
  rfl

/-- The lines of a text with a mark. -/
def linesWith (m : Mark) (s : String) : List String :=
  ((linesOf s).filter m.isOn).map String.ofList

/-- Among the lines of a unit whose texts have one line each, those with a mark are found among its
rows. -/
lemma linesWith_serviceUnit (h : i.OneLine date) (hcontrols : ControlsUnbroken i.member.options)
    (system : InitSystem) {m : Mark} (hempty : m.isOn [] = false) :
    linesWith m (system.serviceUnit date i)
      = (Row.lines (system.rows date i)).filter fun l => m.isOn l.toList := by
  have hback (ls : List String) : (ls.map String.toList).map String.ofList = ls := by
    simp [Function.comp_def]
  cases system with
  | systemd =>
      have hne : (Systemd.serviceTemplate date i).lines ≠ [] := List.cons_ne_nil _ _
      have hunbroken := (unbroken_serviceTemplate_iff h).mpr hcontrols
      rw [linesWith, InitSystem.serviceUnit, filter_linesOf_render hempty hne hunbroken, hback,
        Systemd.lines_serviceTemplate, InitSystem.rows]
  | upstart =>
      have hne : (Upstart.serviceTemplate date i).lines ≠ [] := List.cons_ne_nil _ _
      have hunbroken := Upstart.unbroken_serviceTemplate h
      rw [linesWith, InitSystem.serviceUnit, filter_linesOf_render hempty hne hunbroken, hback,
        Upstart.lines_serviceTemplate, InitSystem.rows]

/-- In every unit whose texts have one line each, a line that hangs on an option is there exactly
once, with the value of the option, if the option is set, and not at all otherwise (the zero
emission of section 8). -/
theorem serviceUnit_optionRows (h : i.OneLine date) (hcontrols : ControlsUnbroken i.member.options)
    (system : InitSystem) :
    ∀ r ∈ system.optionRows i.member.options,
      linesWith r.mark (system.serviceUnit date i) = r.line?.toList := by
  intro r hr
  obtain ⟨hempty, honly⟩ := InitSystem.onlyIn_marks hr date
  rw [linesWith_serviceUnit h hcontrols system hempty,
    Row.filter_lines (InitSystem.mem_rows hr) honly]

/-- An instance with a signal, a limit on restarts that lacks one of its numbers, and no limit on
locked memory. -/
def signalledInstance : Instance where
  member :=
    { app := limitedApplication "1G"
      service :=
        { name := "web"
          command := "serve"
          options :=
            { killSignal := some "term"
              respawn := { enabled := some true, interval := 10 }
              limits := { lockedMemory := -1 }
              resources := some { cpuQuota := some 50 } } } }
  index := none
  helperDir := "/helpers"

lemma oneLine_signalledInstance : signalledInstance.OneLine "today" := by
  constructor <;> decide +kernel

lemma controlsUnbroken_signalledInstance :
    ControlsUnbroken signalledInstance.member.options := by
  simp [ControlsUnbroken, controlTexts, signalledInstance]

/-- The signal gets its full name in the one unit and keeps its own in the other. The limit on
restarts is written only where one number is enough. -/
theorem serviceUnit_optionRows_signalled :
    linesWith (.start "KillSignal=") (InitSystem.systemd.serviceUnit "today" signalledInstance)
        = ["KillSignal=SIGTERM"]
    ∧ linesWith (.start "StartLimitInterval=")
        (InitSystem.systemd.serviceUnit "today" signalledInstance) = ["StartLimitInterval=10"]
    ∧ linesWith (.start "StartLimitBurst=")
        (InitSystem.systemd.serviceUnit "today" signalledInstance) = []
    ∧ linesWith (.start "LimitMEMLOCK=")
        (InitSystem.systemd.serviceUnit "today" signalledInstance) = ["LimitMEMLOCK=infinity"]
    ∧ linesWith (.start "CPUQuota=")
        (InitSystem.systemd.serviceUnit "today" signalledInstance) = ["CPUQuota=50%"]
    ∧ linesWith (.start "kill signal ")
        (InitSystem.upstart.serviceUnit "today" signalledInstance) = ["kill signal term"]
    ∧ linesWith (.start "respawn limit ")
        (InitSystem.upstart.serviceUnit "today" signalledInstance) = []
    ∧ linesWith (.start "limit memlock ")
        (InitSystem.upstart.serviceUnit "today" signalledInstance)
        = ["limit memlock unlimited unlimited"] := by
  have hrows := serviceUnit_optionRows oneLine_signalledInstance
    controlsUnbroken_signalledInstance
  refine ⟨?_, ?_, ?_, ?_, ?_, ?_, ?_, ?_⟩
  · exact hrows .systemd (.directive "KillSignal" (some "SIGTERM")) (by decide +kernel)
  · exact hrows .systemd (.directive "StartLimitInterval" (some "10")) (by decide +kernel)
  · exact hrows .systemd (.directive "StartLimitBurst" none) (by decide +kernel)
  · exact hrows .systemd (.directive "LimitMEMLOCK" (some "infinity")) (by decide +kernel)
  · exact hrows .systemd (.directive "CPUQuota" (some "50%")) (by decide +kernel)
  · exact hrows .upstart (.start "kill signal " (some "term")) (by decide +kernel)
  · exact hrows .upstart (.start "respawn limit " none) (by decide +kernel)
  · exact hrows .upstart (.start "limit memlock " (some "unlimited unlimited")) (by decide +kernel)

end ProcUnits.UnitFile
