import ProcUnits.Proofs.UnitFile.Blocks
import ProcUnits.Proofs.UnitFile.Instances
import ProcUnits.UnitFile.InitSystem

/-!
The instances of a service that has several (section 4.6 of the specification, and the invariant of
section 8).

They are numbered from 1, and a number gets into the files that stand for an instance through its
name alone: the unit has the name in the lines that describe the instance, prepare its log and start
its helper script, and everything around these lines is the same for all numbers. That is read off
the templates before they are rendered, as a text could show a number by accident as well.

* `Frame`: a list around three places, and `Frame.exists_written`: the lines of a template around
  such places do not depend on what is filled in;
* `systemd_serviceTemplate_eq`, `upstart_serviceTemplate_eq`: the template of a unit is a frame that
  knows the service only, with three parts that know the name of the instance;
* `splitAt_append_of_not_mem`: where a text goes on behind a line feed;
* `serviceUnit_numbered`: the instances of a service, their helper scripts and the lines of their
  units.
-/

namespace ProcUnits.UnitFile

open Template (Item directiveLine writtenFrom)
open Text (splitAt)

variable {a : Application} {s : Service} {dir date name : String}

/-! ### Names and paths -/

/-- The instances of a service that has several: there is one for each number up to the count. -/
def numbered (a : Application) (s : Service) (dir : String) : List Instance :=
  (List.range s.options.count.toNat).map fun k => ⟨⟨a, s⟩, some (k + 1), dir⟩

lemma instancesOf_eq_numbered (h : 0 < s.options.count) :
    instancesOf dir ⟨a, s⟩ = numbered a s dir := by
  have hmulti : s.options.isMultiInstance = true := by simpa [Options.isMultiInstance] using h
  rw [instancesOf, Options.instances, if_pos hmulti, List.map_map]
  rfl

/-- The file for what an instance of this name prints. -/
def logOf (a : Application) (name : String) : String :=
  "/var/log/" ++ a.name ++ "/" ++ name ++ ".log"

/-- The path of a name in a directory starts with the path of what the name starts with. -/
lemma join_append {n : String} (hn : n ≠ "") (r : String) :
    Path.join dir (n ++ r) = Path.join dir n ++ r := by
  have habsolute : Path.isAbsolute (n ++ r) = Path.isAbsolute n := by
    rw [Path.isAbsolute, Path.isAbsolute, String.toList_append,
      List.head?_append_of_ne_nil _ (by simpa using hn)]
  rw [Path.join, Path.join, habsolute]
  split_ifs <;> simp only [String.append_assoc]

lemma helperPath_eq (i : Instance) : i.helperPath
    = Path.join i.helperDir (i.member.app.name ++ "_") ++ (i.name ++ ".sh") := by
  have hne : i.member.app.name ++ "_" ≠ "" := by simp
  rw [← join_append hne]
  simp only [Instance.helperPath, Instance.stem, stem, String.append_assoc]

/-! ### The lines that name an instance -/

namespace InitSystem

/-- The line of a unit that describes the instance. Jobs of upstart have none. -/
def descriptionLines (a : Application) (name : String) : InitSystem → List String
  | systemd => [directiveLine "Description"
      ("Unit for " ++ name ++ " service (part of " ++ a.name ++ " application)")]
  | upstart => []

/-- The lines that prepare the log of the instance. -/
def logLines (a : Application) (name : String) : InitSystem → List String
  | systemd =>
      [directiveLine "ExecStartPre" ("/bin/touch " ++ logOf a name),
        directiveLine "ExecStartPre" ("/bin/chown " ++ a.user ++ " " ++ logOf a name),
        directiveLine "ExecStartPre" ("/bin/chgrp " ++ a.group ++ " " ++ logOf a name),
        directiveLine "ExecStartPre" ("/bin/chmod g+w " ++ logOf a name)]
  | upstart =>
      ["  touch " ++ logOf a name, "  chown " ++ a.user ++ " " ++ logOf a name,
        "  chgrp " ++ a.group ++ " " ++ logOf a name, "  chmod g+w " ++ logOf a name]

/-- The line that starts the helper script, up to the name of the instance in its path. -/
def startFront (a : Application) (dir : String) : InitSystem → String
  | systemd => directiveLine "ExecStart" ("/bin/sh -c '/bin/bash " ++ Path.join dir (a.name ++ "_"))
  | upstart => "  exec sudo -u " ++ a.user ++ " /bin/bash " ++ Path.join dir (a.name ++ "_")

/-- The rest of that line. -/
def startBack (a : Application) (name : String) : InitSystem → String
  | systemd => name ++ ".sh" ++ " &>>" ++ logOf a name ++ "'"
  | upstart => name ++ ".sh" ++ " &>>" ++ logOf a name

/-- What the unit of an instance is made of. -/
def serviceTemplate (system : InitSystem) (date : String) (i : Instance) : Template :=
  match system with
  | systemd => Systemd.serviceTemplate date i
  | upstart => Upstart.serviceTemplate date i

lemma serviceUnit_eq_render (system : InitSystem) (date : String) (i : Instance) :
    system.serviceUnit date i = (system.serviceTemplate date i).render := by
  cases system <;> rfl

end InitSystem

/-! ### The lines around them -/

/-- A list around three places. -/
structure Frame (α : Type) where
  first : List α
  second : List α
  third : List α
  last : List α

namespace Frame

/-- The list with something at each of the places. -/
def fill {α : Type} (f : Frame α) (xs ys zs : List α) : List α :=
  f.first ++ (xs ++ (f.second ++ (ys ++ (f.third ++ (zs ++ f.last)))))

lemma fill_congr {α : Type} (f : Frame α) {xs ys zs xs' ys' zs' : List α} (hx : xs = xs')
    (hy : ys = ys') (hz : zs = zs') : f.fill xs ys zs = f.fill xs' ys' zs' := by
  rw [hx, hy, hz]

/-- There are items, and each of them adds a line. -/
def AreLines (t : Template) : Prop :=
  t.isEmpty = false ∧ t.all (fun i => i.line?.isSome) = true

lemma exists_front (spot : Template.Spot) (t : Template) : ∃ front : List String,
    ∀ us : Template, AreLines us → ∀ u : Template,
      writtenFrom spot (t ++ (us ++ u)) = front ++ (us.lines ++ writtenFrom .line u) := by
  obtain ⟨front, hfront⟩ := Template.exists_writtenFrom spot t
  refine ⟨front, fun us h u => ?_⟩
  have hne : us ≠ [] := fun hnil => by simp [AreLines, hnil] at h
  rw [hfront us hne (List.all_eq_true.mp h.2), List.append_assoc]

/-- Whatever lines stand at the places, the ones that are written around them are the same. -/
lemma exists_written (f : Frame Item) : ∃ g : Frame String, ∀ ls ms ns : Template,
    AreLines ls → AreLines ms → AreLines ns →
      Template.written (f.fill ls ms ns) = g.fill ls.lines ms.lines ns.lines := by
  obtain ⟨first, hfirst⟩ := exists_front .top f.first
  obtain ⟨second, hsecond⟩ := exists_front .line f.second
  obtain ⟨third, hthird⟩ := exists_front .line f.third
  refine ⟨⟨first, second, third, writtenFrom .line f.last⟩, fun ls ms ns hls hms hns => ?_⟩
  rw [Template.written_eq, fill, hfirst ls hls, hsecond ms hms, hthird ns hns, fill]

/-- The unit of an instance under systemd, around the lines that name it. -/
def systemd (date : String) (m : Application.Member) : Frame Item where
  first := [.line (header "unit" "systemd" date m.app), .block, .line "[Unit]", .block]
  second :=
    [.directive "PartOf" (Systemd.unitName m.app.name), .block, .line "[Service]",
        .directive "Type" "simple"]
      ++ .block :: Systemd.killItems m.options ++ .block :: Systemd.respawnItems m.options
      ++ .block :: Systemd.limitItems m.options ++ Systemd.resourceBlock m.options ++ [.block]
  third :=
    [.block, .directive "User" m.app.user, .directive "Group" m.app.group,
      .directive "WorkingDirectory" m.workingDir]
  last :=
    [.optional "ExecReload"
      ((Options.setText m.options.reloadSignal).map fun s =>
        "/bin/kill -" ++ Systemd.signalName s ++ " $MAINPID")]

/-- The job of an instance under upstart, with its header at the first place. -/
def upstart (m : Application.Member) : Frame Item where
  first := []
  second :=
    [.block, .line ("start on starting " ++ m.app.name), .line ("stop on stopping " ++ m.app.name)]
      ++ .block :: Upstart.respawnItems m.options ++ .block :: Upstart.killItems m.options
      ++ .block :: Upstart.limitItems m.options ++ [.block, .line "script"]
  third := []
  last := [.line "end script"]

end Frame

lemma systemd_serviceTemplate_eq (date : String) (i : Instance) :
    Systemd.serviceTemplate date i = (Frame.systemd date i.member).fill
      [.directive "Description"
        ("Unit for " ++ i.name ++ " service (part of " ++ i.member.app.name ++ " application)")]
      [.directive "ExecStartPre" ("/bin/touch " ++ i.consoleLog),
        .directive "ExecStartPre" ("/bin/chown " ++ i.member.app.user ++ " " ++ i.consoleLog),
        .directive "ExecStartPre" ("/bin/chgrp " ++ i.member.app.group ++ " " ++ i.consoleLog),
        .directive "ExecStartPre" ("/bin/chmod g+w " ++ i.consoleLog)]
      [.directive "ExecStart"
        ("/bin/sh -c '/bin/bash " ++ i.helperPath ++ " &>>" ++ i.consoleLog ++ "'")] := by
  simp only [Systemd.serviceTemplate, Frame.fill, Frame.systemd, List.append_assoc,
    List.cons_append, List.nil_append]

lemma upstart_serviceTemplate_eq (date : String) (i : Instance) :
    Upstart.serviceTemplate date i = (Frame.upstart i.member).fill
      [.line (header "unit" "upstart" date i.member.app)]
      [.line ("  touch " ++ i.consoleLog),
        .line ("  chown " ++ i.member.app.user ++ " " ++ i.consoleLog),
        .line ("  chgrp " ++ i.member.app.group ++ " " ++ i.consoleLog),
        .line ("  chmod g+w " ++ i.consoleLog)]
      [.line ("  exec sudo -u " ++ i.member.app.user ++ " /bin/bash " ++ i.helperPath ++ " &>>"
        ++ i.consoleLog)] := by
  simp only [Upstart.serviceTemplate, Frame.fill, Frame.upstart, List.append_assoc,
    List.cons_append, List.nil_append]

/-- A line is taken apart inside a text that it shows, for `startFront` and `startBack`. -/
lemma line_append (p q r s t : String) : p ++ (q ++ r) ++ s ++ t = p ++ q ++ (r ++ s ++ t) := by
  simp only [String.append_assoc]

lemma directiveLine_append (key p q r s t u : String) :
    directiveLine key (p ++ (q ++ r) ++ s ++ t ++ u)
      = directiveLine key (p ++ q) ++ (r ++ s ++ t ++ u) := by
  simp only [directiveLine, String.append_assoc]

/-- The instances of a service have units with the same lines around those that name them. -/
lemma exists_written_eq (system : InitSystem) (date dir : String) (m : Application.Member) :
    ∃ frame : Frame String, ∀ i : Instance, i.member = m → i.helperDir = dir →
      (system.serviceTemplate date i).written
        = frame.fill (system.descriptionLines m.app i.name) (system.logLines m.app i.name)
          [system.startFront m.app dir ++ system.startBack m.app i.name] := by
  -- the name is where the number shows: in the path of the script and in that of the log
  have hpath {i : Instance} (hm : i.member = m) (hdir : i.helperDir = dir) :
      i.helperPath = Path.join dir (m.app.name ++ "_") ++ (i.name ++ ".sh") := by
    rw [helperPath_eq, hm, hdir]
  have hlog {i : Instance} (hm : i.member = m) : i.consoleLog = logOf m.app i.name := by
    rw [← hm]
    rfl
  cases system with
  | systemd =>
      obtain ⟨frame, hframe⟩ := (Frame.systemd date m).exists_written
      refine ⟨frame, fun i hm hdir => ?_⟩
      change (Systemd.serviceTemplate date i).written = _
      rw [systemd_serviceTemplate_eq, hm, hframe _ _ _ ⟨rfl, rfl⟩ ⟨rfl, rfl⟩ ⟨rfl, rfl⟩,
        hpath hm hdir, hlog hm]
      exact congrArg (frame.fill _ _ [·]) (directiveLine_append ..)
  | upstart =>
      obtain ⟨frame, hframe⟩ := (Frame.upstart m).exists_written
      refine ⟨⟨[], frame.first ++ header "unit" "upstart" date m.app :: frame.second, frame.third,
        frame.last⟩, fun i hm hdir => ?_⟩
      change (Upstart.serviceTemplate date i).written = _
      rw [upstart_serviceTemplate_eq, hm, hframe _ _ _ ⟨rfl, rfl⟩ ⟨rfl, rfl⟩ ⟨rfl, rfl⟩,
        hpath hm hdir, hlog hm, line_append, Frame.fill, Frame.fill, List.append_assoc]
      rfl

/-! ### Texts -/

/-- The part of a text behind its last line feed. -/
def lastLine (s : List Char) : List Char := (splitAt '\n' s).getLastD []

lemma lastLine_of_not_mem {s : List Char} (h : '\n' ∉ s) : lastLine s = s := by
  rw [lastLine, Text.splitAt_of_not_mem h]
  rfl

/-- A text without line feeds goes on with the last line of the text in front of it. -/
lemma splitAt_append_of_not_mem {t : List Char} (ht : '\n' ∉ t) (s : List Char) :
    splitAt '\n' (s ++ t) = (splitAt '\n' s).dropLast ++ [lastLine s ++ t] := by
  induction s using Text.pieces_induction (d := '\n') with
  | last p hp =>
      have hpt : '\n' ∉ p ++ t := by simp [hp, ht]
      rw [lastLine_of_not_mem hp, Text.splitAt_of_not_mem hp, Text.splitAt_of_not_mem hpt]
      rfl
  | cons p s hp ih =>
      have hsplit : splitAt '\n' (p ++ '\n' :: s) = p :: splitAt '\n' s := by
        rw [Text.splitAt_append, Text.splitAt_of_not_mem hp]
        rfl
      obtain ⟨q, qs, hqs⟩ := List.exists_cons_of_ne_nil (Text.splitAt_ne_nil (d := '\n') s)
      have hlast : lastLine (p ++ '\n' :: s) = lastLine s := by
        rw [lastLine, lastLine, hsplit, hqs]
        rfl
      rw [List.append_assoc, List.cons_append, Text.splitAt_append, Text.splitAt_of_not_mem hp, ih,
        hsplit, hlast, List.dropLast_cons_of_ne_nil (Text.splitAt_ne_nil s)]
      rfl

/-- The texts that lines with the name of an instance show hold no line feed. -/
structure HasOneLineNames (a : Application) (s : Service) : Prop where
  app : '\n' ∉ a.name.toList
  user : '\n' ∉ a.user.toList
  group : '\n' ∉ a.group.toList
  service : '\n' ∉ s.name.toList

namespace HasOneLineNames

lemma logOf (h : HasOneLineNames a s) (hname : '\n' ∉ name.toList) :
    '\n' ∉ (UnitFile.logOf a name).toList := by
  simp [UnitFile.logOf, h.app, hname]

lemma descriptionLines (h : HasOneLineNames a s) (hname : '\n' ∉ name.toList)
    (system : InitSystem) : ∀ l ∈ system.descriptionLines a name, '\n' ∉ l.toList := by
  cases system <;> simp [InitSystem.descriptionLines, directiveLine, h.app, hname]

lemma logLines (h : HasOneLineNames a s) (hname : '\n' ∉ name.toList)
    (system : InitSystem) : ∀ l ∈ system.logLines a name, '\n' ∉ l.toList := by
  cases system <;>
    simp [InitSystem.logLines, directiveLine, h.user, h.group, h.logOf hname]

lemma startBack (h : HasOneLineNames a s) (hname : '\n' ∉ name.toList)
    (system : InitSystem) : '\n' ∉ (system.startBack a name).toList := by
  cases system <;> simp [InitSystem.startBack, hname, h.logOf hname]

end HasOneLineNames

lemma flatMap_toList_of_not_mem {ls : List String} (h : ∀ l ∈ ls, '\n' ∉ l.toList) :
    (ls.flatMap fun l => splitAt '\n' l.toList) = ls.map String.toList := by
  rw [← Text.flatMap_splitAt_of_not_mem (List.forall_mem_map.mpr h), List.flatMap_map]

/-- The lines of the unit of an instance, with those that name it at their places. -/
lemma exists_linesOf_eq (h : HasOneLineNames a s) (system : InitSystem) (date dir : String) :
    ∃ frame : Frame (List Char), ∀ i ∈ numbered a s dir,
      linesOf (system.serviceUnit date i)
        = frame.fill ((system.descriptionLines a i.name).map String.toList)
          ((system.logLines a i.name).map String.toList)
          [lastLine (system.startFront a dir).toList ++ (system.startBack a i.name).toList] := by
  obtain ⟨frame, hframe⟩ := exists_written_eq system date dir ⟨a, s⟩
  let lines (ls : List String) : List (List Char) := ls.flatMap fun l => splitAt '\n' l.toList
  refine ⟨⟨lines frame.first, lines frame.second,
    lines frame.third ++ (splitAt '\n' (system.startFront a dir).toList).dropLast,
    lines frame.last⟩, fun i hi => ?_⟩
  obtain ⟨k, -, rfl⟩ := List.mem_map.mp hi
  set i : Instance := ⟨⟨a, s⟩, some (k + 1), dir⟩
  have hname : '\n' ∉ i.name.toList := not_mem_instanceName (by decide) h.service _
  -- the directory of the scripts may hold a line feed, and then the line is cut in front of the
  -- name
  have hstart : lines [system.startFront a dir ++ system.startBack a i.name]
      = (splitAt '\n' (system.startFront a dir).toList).dropLast
        ++ [lastLine (system.startFront a dir).toList ++ (system.startBack a i.name).toList] := by
    simp only [lines, List.flatMap_singleton, String.toList_append]
    exact splitAt_append_of_not_mem (h.startBack hname system) _
  have hne : (system.serviceTemplate date i).lines ≠ [] := by
    cases system <;> exact List.cons_ne_nil _ _
  have happend (ls ms : List String) : lines (ls ++ ms) = lines ls ++ lines ms :=
    List.flatMap_append
  rw [InitSystem.serviceUnit_eq_render, Template.linesOf_render_eq_flatMap hne,
    hframe i rfl rfl]
  change lines _ = _
  simp only [Frame.fill, happend, hstart, List.append_assoc,
    ← flatMap_toList_of_not_mem (h.descriptionLines hname system),
    ← flatMap_toList_of_not_mem (h.logLines hname system)]
  rfl

/-- The helper scripts of instances show nothing of the number. -/
lemma helper_eq_of_member_eq {i j : Instance} (h : i.member = j.member) (system : InitSystem)
    (date : String) : system.helper date i = system.helper date j := by
  cases system <;> simp only [InitSystem.helper, helper, h]

/-- A service with a count has as many instances, numbered from 1 in their order, and they stand
together between those of the services before it and behind it (the invariant of section 8). Their
helper scripts are the same, and their units have the same lines but for the description, the lines
that prepare the log and the one that starts the helper script. In these it is only the names of the
instances that differ. A line feed in the path of the helper scripts would break the last one in
front of the name. -/
theorem serviceUnit_numbered {front back : List Service} (hs : a.services = front ++ s :: back)
    (hcount : 0 < s.options.count) (h : HasOneLineNames a s) (system : InitSystem)
    (date dir : String) :
    instances a dir
        = (front.map (Application.Member.mk a)).flatMap (instancesOf dir)
          ++ (List.range s.options.count.toNat).map (fun k => ⟨⟨a, s⟩, some (k + 1), dir⟩)
          ++ (back.map (Application.Member.mk a)).flatMap (instancesOf dir)
      ∧ (∀ i ∈ numbered a s dir, ∀ j ∈ numbered a s dir,
        system.helper date i = system.helper date j
          ∧ (linesOf (system.serviceUnit date i)).length
            = (linesOf (system.serviceUnit date j)).length)
      ∧ ∃ frame : Frame (List Char), ∀ i ∈ numbered a s dir,
        linesOf (system.serviceUnit date i)
          = frame.fill ((system.descriptionLines a i.name).map String.toList)
            ((system.logLines a i.name).map String.toList)
            [lastLine (system.startFront a dir).toList ++ (system.startBack a i.name).toList] := by
  obtain ⟨frame, hlines⟩ := exists_linesOf_eq h system date dir
  refine ⟨?_, fun i hi j hj => ⟨?_, ?_⟩, frame, hlines⟩
  · rw [instances, Application.members, hs, List.map_append, List.map_cons, List.flatMap_append,
      List.flatMap_cons, instancesOf_eq_numbered hcount, List.append_assoc]
    rfl
  · obtain ⟨k, -, rfl⟩ := List.mem_map.mp hi
    obtain ⟨l, -, rfl⟩ := List.mem_map.mp hj
    exact helper_eq_of_member_eq rfl system date
  · rw [hlines i hi, hlines j hj]
    cases system <;> simp [Frame.fill, InitSystem.descriptionLines, InitSystem.logLines]

/-- A service with two instances, run in a directory that is called like one of them. -/
def workers : Service where
  name := "worker"
  command := "work"
  options := { workingDir := some "/srv/worker1", count := 2 }

/-- The application of that service. -/
def workersApplication : Application where
  name := "shop"
  user := "www"
  group := "www"
  workingDir := "/srv"
  services := [workers]
  version := .v2

/-- An instance of that service. -/
def worker (number : ℕ) : Instance := ⟨⟨workersApplication, workers⟩, some number, "/helpers"⟩

/-- The units of both instances have the line with the name of the directory, and they differ in six
other lines. -/
theorem serviceUnit_numbered_workers :
    instances workersApplication "/helpers" = [worker 1, worker 2]
    ∧ InitSystem.systemd.helper "today" (worker 1) = InitSystem.systemd.helper "today" (worker 2)
    ∧ ∃ frame : Frame (List Char),
      linesOf (InitSystem.systemd.serviceUnit "today" (worker 1)) = frame.fill
        (["Description=Unit for worker1 service (part of shop application)"].map String.toList)
        (["ExecStartPre=/bin/touch /var/log/shop/worker1.log",
          "ExecStartPre=/bin/chown www /var/log/shop/worker1.log",
          "ExecStartPre=/bin/chgrp www /var/log/shop/worker1.log",
          "ExecStartPre=/bin/chmod g+w /var/log/shop/worker1.log"].map String.toList)
        [("ExecStart=/bin/sh -c '/bin/bash /helpers/shop_worker1.sh"
          ++ " &>>/var/log/shop/worker1.log'").toList]
      ∧ linesOf (InitSystem.systemd.serviceUnit "today" (worker 2)) = frame.fill
        (["Description=Unit for worker2 service (part of shop application)"].map String.toList)
        (["ExecStartPre=/bin/touch /var/log/shop/worker2.log",
          "ExecStartPre=/bin/chown www /var/log/shop/worker2.log",
          "ExecStartPre=/bin/chgrp www /var/log/shop/worker2.log",
          "ExecStartPre=/bin/chmod g+w /var/log/shop/worker2.log"].map String.toList)
        [("ExecStart=/bin/sh -c '/bin/bash /helpers/shop_worker2.sh"
          ++ " &>>/var/log/shop/worker2.log'").toList] := by
  have hnames : HasOneLineNames workersApplication workers := by constructor <;> decide
  have hworkers : numbered workersApplication workers "/helpers" = [worker 1, worker 2] := rfl
  have hservices : workersApplication.services = [] ++ workers :: [] := rfl
  obtain ⟨hinstances, halike, frame, hlines⟩ :=
    serviceUnit_numbered hservices (by decide) hnames .systemd "today" "/helpers"
  rw [hworkers] at halike hlines
  refine ⟨hinstances, (halike _ (by simp) _ (by simp)).1, frame, ?_, ?_⟩
  · exact (hlines (worker 1) (by simp)).trans
      (frame.fill_congr (congrArg _ (by decide +kernel)) (congrArg _ (by decide +kernel))
        (by decide +kernel))
  · exact (hlines (worker 2) (by simp)).trans
      (frame.fill_congr (congrArg _ (by decide +kernel)) (congrArg _ (by decide +kernel))
        (by decide +kernel))

end ProcUnits.UnitFile
