import ProcUnits.Install.Installer
import ProcUnits.Proofs.Install.Control
import ProcUnits.Proofs.Install.Files

/-!
How far an attempt has come that runs commands.

* `Stage`: a command that an attempt runs, with what is true of the host if the attempt ends there
  because the command fails;
* `Follows`: an attempt has gone through stages. It ended well with all commands run, or with the
  first command that failed, or before the next command in an operation on files;
* `Follows.append_error`, `Follows.trans`, `follows_bind`: the stages of an attempt are those of its
  steps, one after the other;
* `executes_onFile` and the lemmas beside it: operations on files run no commands;
* `Installer.follows_withdraw`, `follows_announce`, `follows_conclude`: the stages in which the init
  system is told of an application. Upstart is told nothing;
* `raises_tell`: what is told is never refused as an operation on files is.
-/

namespace ProcUnits.Install

open Host (Attempt Command FileTree Level Loses OsError Reply Executes Succeeds)
open UnitFile (InitSystem)

variable {α β : Type} {app dir p pattern text : String} {mode : ℕ} {h h' h₁ : Host} {c : Command}

/-! ### Stages -/

/-- A command, and what is true of the host if it fails. -/
structure Stage where
  command : Command
  Leaves : Host → Prop

/-- An attempt that began on the host `h` has gone through the stages in their order. It ended with
this result, on the host `h'`. -/
inductive Follows (h : Host) (ss : List Stage) (h' : Host) : Except Error α → Prop
  /-- All commands have done their work. -/
  | ok (a : α) (hran : h.Executes (ss.map Stage.command) h')
      (hall : h.Succeeds (ss.map Stage.command)) : Follows h ss h' (.ok a)
  /-- The command of the stage `s` is the first one that failed, and the last one that was run. -/
  | failed (front : List Stage) (s : Stage) (back : List Stage) (reply : Reply)
      (hss : ss = front ++ s :: back) (hran : h.Executes ((front ++ [s]).map Stage.command) h')
      (hfront : h.Succeeds (front.map Stage.command))
      (hreply : reply = h.answer (h.history.length + front.length) s.command)
      (hfails : reply.isSuccess = false) (hleaves : s.Leaves h') :
      Follows h ss h' (.error (failure s.command reply))
  /-- An operation on files was refused before the next command. -/
  | refused (front back : List Stage) (e : Error) (hss : ss = front ++ back)
      (hran : h.Executes (front.map Stage.command) h')
      (hfront : h.Succeeds (front.map Stage.command)) (he : e.IsRefusal) :
      Follows h ss h' (.error e)

namespace Follows

variable {ss ts : List Stage}

/-- The stages behind an error are not reached. -/
lemma append_error {e : Error} (hf : Follows (α := α) h ss h' (.error e)) (ts : List Stage) :
    Follows (α := β) h (ss ++ ts) h' (.error e) := by
  cases hf with
  | failed front s back reply hss hran hfront hreply hfails hleaves =>
      refine .failed front s (back ++ ts) reply ?_ hran hfront hreply hfails hleaves
      rw [hss, List.append_assoc, List.cons_append]
  | refused front back _ hss hran hfront he =>
      refine .refused front (back ++ ts) e ?_ hran hfront he
      rw [hss, List.append_assoc]

/-- Once all commands of some stages have done their work, the next stages follow. -/
lemma trans {a : α} {r : Except Error β} (hf : Follows h ss h₁ (.ok a))
    (hf' : Follows h₁ ts h' r) : Follows h (ss ++ ts) h' r := by
  cases hf with
  | ok _ hran hall =>
  -- the commands of the first part are all run, so the second one says where it ended
  cases hf' with
  | ok b hran' hall' =>
      refine .ok b ?_ ?_
      · rw [List.map_append]
        exact hran.trans hran'
      · rw [List.map_append, Host.succeeds_append_iff hran]
        exact ⟨hall, hall'⟩
  | failed front s back reply hss hran' hfront hreply hfails hleaves =>
      refine .failed (ss ++ front) s back reply ?_ ?_ ?_ ?_ hfails hleaves
      · rw [hss, List.append_assoc]
      · rw [List.append_assoc, List.map_append]
        exact hran.trans hran'
      · rw [List.map_append, Host.succeeds_append_iff hran]
        exact ⟨hall, hfront⟩
      · rw [hreply, hran.answer_eq, hran.length_history, List.length_map, List.length_append,
          Nat.add_assoc]
  | refused front back e hss hran' hfront he =>
      refine .refused (ss ++ front) back e ?_ ?_ ?_ he
      · rw [hss, List.append_assoc]
      · rw [List.map_append]
        exact hran.trans hran'
      · rw [List.map_append, Host.succeeds_append_iff hran]
        exact ⟨hall, hfront⟩

/-- Unless an operation on files is refused, an attempt ends well just if no command fails. -/
lemma eq_ok_iff {r : Except Error Unit} (hf : Follows h ss h' r) (hr : ¬ Refused r) :
    r = .ok () ↔ h.Succeeds (ss.map Stage.command) := by
  cases hf with
  | ok _ _ hall => exact ⟨fun _ => hall, fun _ => rfl⟩
  | failed front s back reply hss hran hfront hreply hfails hleaves =>
      refine ⟨fun hok => absurd hok (by simp), fun hall => ?_⟩
      rw [hss, List.map_append, List.map_cons] at hall
      have hdone := Host.isSuccess_of_succeeds hall
      rw [List.length_map, ← hreply, hfails] at hdone
      exact absurd hdone (by simp)
  | refused front back e hss hran hfront he => exact absurd ⟨e, rfl, he⟩ hr

/-- Without stages no command is run. -/
lemma executes_nil {r : Except Error α} (hf : Follows h [] h' r) : h.Executes [] h' := by
  cases hf with
  | ok _ hran _ => exact hran
  | failed front s back reply hss _ _ _ _ _ => exact absurd hss (by simp)
  | refused front back e hss hran _ _ =>
      rw [(List.append_eq_nil_iff.mp hss.symm).1] at hran
      exact hran

end Follows

variable {ss ts : List Stage} {m : Attempt Error α}

/-- The stages of an attempt are those of its steps, one after the other. -/
lemma follows_bind {f : α → Attempt Error β} {r : Except Error β} (he : (m >>= f).Ends h r h')
    (hm : ∀ {r₀ h₀}, m.Ends h r₀ h₀ → Follows h ss h₀ r₀)
    (hf : ∀ {a h₁}, m.Ends h (.ok a) h₁ → (f a).Ends h₁ r h' → Follows h₁ ts h' r) :
    Follows h (ss ++ ts) h' r := by
  rcases Attempt.ends_bind.mp he with ⟨e, hm', rfl⟩ | ⟨a, h₁, hm', hf'⟩
  · exact (hm hm').append_error ts
  · exact (hm hm').trans (hf hm' hf')

/-! ### Operations on files -/

/-- The attempt runs no commands, and fails in operations on files only. -/
structure IsSilent (m : Attempt Error α) : Prop where
  executes : m.Within (Executes [])
  raises : m.Raises Error.IsRefusal

/-- Such an attempt has no stages. -/
lemma IsSilent.follows {r : Except Error α} (hm : IsSilent m) (he : m.Ends h r h') :
    Follows h [] h' r := by
  cases r with
  | ok a => exact .ok a (hm.executes he) (Host.succeeds_nil h)
  | error e => exact .refused [] [] e rfl (hm.executes he) (Host.succeeds_nil h) (hm.raises he)

/-- A silent step in front of others adds no stages to theirs. -/
lemma IsSilent.follows_bind (hm : IsSilent m) {f : α → Attempt Error β} {r : Except Error β}
    (he : (m >>= f).Ends h r h')
    (hf : ∀ {a h₁}, m.Ends h (.ok a) h₁ → (f a).Ends h₁ r h' → Follows h₁ ts h' r) :
    Follows h ts h' r :=
  Install.follows_bind he hm.follows hf

/-- Neither does one behind them. -/
lemma follows_bind_silent {f : α → Attempt Error β} {r : Except Error β} (hf : ∀ a, IsSilent (f a))
    (he : (m >>= f).Ends h r h') (hm : ∀ {r₀ h₀}, m.Ends h r₀ h₀ → Follows h ss h₀ r₀) :
    Follows h ss h' r :=
  List.append_nil ss ▸ follows_bind he hm fun _ => (hf _).follows

lemma silent_pure (a : α) : IsSilent (pure a) :=
  ⟨Attempt.within_pure a, Attempt.raises_pure a⟩

lemma silent_emit (level : Level) (message : String) : IsSilent (Host.emit level message) :=
  ⟨Attempt.executes_emit level message, Attempt.raises_lift _⟩

lemma executes_onFile (p : String) (f : FileTree → Except OsError FileTree) :
    (onFile p f).Within (Executes []) := by
  intro h r h' he
  rcases ends_onFile.mp he with ⟨t, -, -, rfl⟩ | ⟨e, -, -, rfl⟩
  · exact Host.executes_files h t
  · exact .refl h'

lemma executes_writeFile (p text : String) (mode : ℕ) :
    (writeFile p text mode).Within (Executes []) :=
  .bind (executes_onFile ..) fun _ => .bind (executes_onFile ..) fun _ =>
    .bind (executes_onFile ..) fun _ => Attempt.executes_emit ..

lemma executes_removeFile (p : String) : (removeFile p).Within (Executes []) := by
  intro h r h' he
  rcases removeFile_ends he with ⟨t, -, -, rfl⟩ | ⟨-, -, rfl⟩ | ⟨x, -, -, -, rfl⟩
  · exact (Host.executes_files h t).trans (Host.executes_withRecord ..)
  · exact .refl h'
  · exact .refl h'

lemma executes_removeMatching (dir pattern : String) :
    (removeMatching dir pattern).Within (Executes []) := by
  intro h r h' he
  rcases removeMatching_ends he with ⟨ps, -, he⟩ | ⟨x, -, -, -, rfl⟩
  · exact Attempt.within_filterM executes_removeFile he
  · exact .refl h'

/-! ### Commands -/

/-- A command that has to do its work is a stage. -/
lemma follows_runChecked {L : Host → Prop} {r : Except Error Host.Outcome}
    (hL : ∀ h', h.Loses ∅ h' → L h') (he : (runChecked c).Ends h r h') :
    Follows h [⟨c, L⟩] h' r := by
  obtain ⟨hran, hloses, -, rfl⟩ := runChecked_ends he
  rcases outcomeOf_cases c (h.answer h.history.length c) with ⟨hsuccess, o, ho⟩ | ⟨hfails, ho⟩ <;>
    rw [ho]
  · refine .ok o hran fun e he => ?_
    obtain rfl := List.mem_singleton.mp he
    exact hsuccess
  · exact .failed [] ⟨c, L⟩ [] _ rfl hran (Host.succeeds_nil h) rfl hfails (hL h' hloses)

/-! ### Telling the init system -/

/-- The stage in which the init system is told something, if that is wished. -/
def stages (system : InitSystem) (wished : Bool) (args : List String) (L : Host → Prop) :
    List Stage :=
  match system, wished with
  | .systemd, true => [⟨⟨"systemctl", args⟩, L⟩]
  | _, _ => []

variable {system : InitSystem} {args : List String} {wished : Bool} {L : Host → Prop}
  {r : Except Error Unit}

/-- What is told if that is wished is a stage. The records that are made besides are none. -/
lemma follows_tell {q q' : Attempt Error Unit} (hq : IsSilent q) (hq' : IsSilent q')
    (hL : ∀ h', h.Loses ∅ h' → L h')
    (he : Attempt.Ends (if wished = true then do tell system args; q else q') h r h') :
    Follows h (stages system wished args L) h' r := by
  cases wished with
  | false =>
      have hnil : stages system false args L = [] := by cases system <;> rfl
      rw [hnil]
      exact hq'.follows he
  | true =>
      rw [if_pos rfl] at he
      refine follows_bind_silent (fun _ => hq) he fun he' => ?_
      cases system with
      | systemd =>
          exact follows_bind_silent (fun _ => silent_pure ()) he' (follows_runChecked hL)
      | upstart => exact (silent_pure ()).follows he'

lemma not_isRefusal_failure (c : Command) (reply : Reply) : ¬ (failure c reply).IsRefusal := by
  rintro ⟨path, x, hio⟩
  cases reply <;> cases hio

/-- To tell something is no operation on files. -/
lemma raises_tell (system : InitSystem) (args : List String) :
    (tell system args).Raises fun e => ¬ e.IsRefusal := by
  cases system with
  | upstart => exact Attempt.raises_pure ()
  | systemd =>
      refine .bind (fun h e h' he => ?_) fun _ => Attempt.raises_pure ()
      obtain ⟨-, -, -, hr⟩ := runChecked_ends he
      rcases outcomeOf_cases _ _ with ⟨-, o, ho⟩ | ⟨-, ho⟩
      · exact absurd (hr.trans ho) (by simp)
      · obtain rfl := Except.error.inj (hr.trans ho)
        exact not_isRefusal_failure _ _

namespace Installer

variable {i : Installer} {message : String}

lemma raises_withdraw (i : Installer) (app : String) :
    (i.withdraw app).Raises fun e => ¬ e.IsRefusal := by
  rw [withdraw, disable_eq]
  split_ifs
  · exact .bind (raises_tell ..) fun _ => Attempt.raises_lift _
  · exact Attempt.raises_pure ()

lemma raises_conclude (i : Installer) (message : String) :
    (i.conclude message).Raises fun e => ¬ e.IsRefusal := by
  rw [conclude, reloadUnits_eq]
  split_ifs
  · exact .bind (raises_tell ..) fun _ => Attempt.raises_lift _
  · exact Attempt.raises_lift _

/-- An application that is withdrawn is disabled. -/
lemma follows_withdraw (hL : ∀ h', h.Loses ∅ h' → L h') (he : (i.withdraw app).Ends h r h') :
    Follows h (stages i.system i.autoStart ["disable", i.system.unitName app] L) h' r := by
  rw [withdraw, disable_eq] at he
  exact follows_tell (silent_emit ..) (silent_pure ()) hL he

lemma follows_announce (hL : ∀ h', h.Loses ∅ h' → L h') (he : (i.announce app).Ends h r h') :
    Follows h (stages i.system i.autoStart ["enable", i.system.unitName app] L) h' r := by
  rw [announce, enable_eq] at he
  exact follows_tell (silent_emit ..) (silent_pure ()) hL he

lemma follows_conclude (hL : ∀ h', h.Loses ∅ h' → L h')
    (he : (i.conclude message).Ends h r h') :
    Follows h (stages i.system i.reload ["daemon-reload"] L) h' r := by
  rw [conclude, reloadUnits_eq] at he
  exact follows_tell (silent_emit ..) (silent_emit ..) hL he

end Installer

end ProcUnits.Install
