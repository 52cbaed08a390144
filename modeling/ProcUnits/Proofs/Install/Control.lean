import ProcUnits.Install.Control
import ProcUnits.Proofs.Host.History
import ProcUnits.Proofs.Host.Losses

/-!
The control of the init system by commands (section 4.6 of the specification).

* `runChecked_ends`: a command that has to do its work ends an attempt if it does not (`outcomeOf`);
* `loses_runChecked` and the lemmas beside it: the control does nothing to the file tree, however
  its commands end;
* `tell`: what systemd is told. Upstart is told nothing;
* `asks_checkSupport`: upstart is asked for its version at most, and only if that matters.
-/

namespace ProcUnits.Install

open Host (Attempt Command Executes Level Loses Outcome Reply)
open UnitFile (InitSystem)

variable {a : Application} {c : Command} {h h' : Host}

/-! ### Commands -/

/-- The error of a failed command. -/
def failure (c : Command) : Reply → Error
  | .refused reason => .notStarted c.text reason
  | .finished o => .commandFailed c.text o.status (complaint o)

/-- What a command that has to do its work ends with. -/
def outcomeOf (c : Command) : Reply → Except Error Outcome
  | .refused reason => .error (failure c (.refused reason))
  | .finished o => if o.isSuccess then .ok o else .error (failure c (.finished o))

lemma outcomeOf_cases (c : Command) (reply : Reply) :
    (reply.isSuccess = true ∧ ∃ o, outcomeOf c reply = .ok o)
      ∨ (reply.isSuccess = false ∧ outcomeOf c reply = .error (failure c reply)) := by
  cases reply with
  | refused reason => exact Or.inr ⟨rfl, rfl⟩
  | finished o =>
      rw [outcomeOf]
      split_ifs with hsuccess
      · exact Or.inl ⟨hsuccess, o, rfl⟩
      · exact Or.inr ⟨Bool.not_eq_true _ ▸ hsuccess, rfl⟩

lemma upstart_withRecord (h : Host) (level : Level) (message : String) :
    (h.withRecord level message).upstart = h.upstart := by
  rw [Host.withRecord]
  split_ifs
  · rw [Host.withLine]
    split <;> rfl
  · rfl

/-- A command does nothing to the tree and to what is known of upstart. It ends an attempt if it
fails. -/
lemma runChecked_ends {r : Except Error Outcome} (he : (runChecked c).Ends h r h') :
    h.Executes [c] h' ∧ h.Loses ∅ h' ∧ h'.upstart = h.upstart
      ∧ r = outcomeOf c (h.answer h.history.length c) := by
  rw [runChecked, Host.ends_emit_bind] at he
  have hrecord := Host.executes_withRecord h .debug s!"Executing {c.text}"
  rcases Attempt.ends_bind.mp he with ⟨e, hrun, -⟩ | ⟨reply, h₁, hrun, he₁⟩
  · exact absurd (Attempt.ends_run.mp hrun).1 (by simp)
  have hran := hrecord.trans (Attempt.executes_run hrun)
  have hloses := (Host.loses_withRecord ..).trans_empty (Attempt.loses_run c hrun)
  obtain ⟨hreply, hafter⟩ := Attempt.ends_run.mp hrun
  have hsame : h₁.upstart = h.upstart := by
    rw [hafter]
    exact upstart_withRecord ..
  rw [hrecord.answer_eq, hrecord.length_history, List.length_nil, Nat.add_zero] at hreply
  rw [← Except.ok.inj hreply]
  cases reply with
  | refused reason =>
      obtain ⟨rfl, rfl⟩ := Attempt.ends_throw.mp he₁
      exact ⟨hran, hloses, hsame, rfl⟩
  | finished o =>
      rw [outcomeOf]
      simp only at he₁
      split_ifs at he₁ ⊢ with hsuccess
      · obtain ⟨rfl, rfl⟩ := Attempt.ends_pure.mp he₁
        exact ⟨hran, hloses, hsame, rfl⟩
      · obtain ⟨rfl, rfl⟩ := Attempt.ends_throw.mp he₁
        exact ⟨hran, hloses, hsame, rfl⟩

lemma loses_runChecked (c : Command) : (runChecked c).Within (Loses ∅) :=
  fun _ _ _ he => (runChecked_ends he).2.1

/-! ### Upstart -/

lemma loses_upstartRelease : upstartRelease.Within (Loses ∅) := by
  refine .bind Attempt.within_get fun h => ?_
  split
  · exact Attempt.within_pure _
  · refine .bind (loses_runChecked _) fun o => ?_
    split
    · exact Attempt.within_throw _
    · refine .bind (Attempt.loses_emit ..) fun _ => .bind ?_ fun _ => Attempt.within_pure _
      exact Attempt.within_modify fun h => .of_files_eq rfl rfl rfl

lemma loses_checkSupport (system : InitSystem) (a : Application) :
    (checkSupport system a).Within (Loses ∅) := by
  cases system with
  | systemd => exact Attempt.within_pure ()
  | upstart =>
      refine Attempt.within_ite ?_ (Attempt.within_pure ())
      exact loses_upstartRelease.bind fun v =>
        Attempt.within_ite (Attempt.within_throw _) (Attempt.within_pure ())

/-- Upstart is asked for its version if that is not known. -/
lemma asks_upstartRelease {r : Except Error UnitFile.Upstart.Release}
    (he : upstartRelease.Ends h r h') :
    h.Executes (if h.upstart.isNone then [releaseQuery] else []) h' := by
  rw [upstartRelease, Attempt.ends_get_bind] at he
  cases hknown : h.upstart with
  | some v =>
      rw [hknown] at he
      show h.Executes [] h'
      exact Attempt.within_pure _ he
  | none =>
      rw [hknown] at he
      rcases Attempt.ends_bind.mp he with ⟨e, hrun, -⟩ | ⟨o, h₁, hrun, he₁⟩
      · exact (runChecked_ends hrun).1
      refine (runChecked_ends hrun).1.trans ?_
      split at he₁
      · exact Attempt.within_throw _ he₁
      · refine Attempt.Within.bind (Attempt.executes_emit ..) (fun _ => .bind ?_ ?_) he₁
        · exact Attempt.within_modify fun h => .of_history_eq rfl rfl
        · exact fun _ => Attempt.within_pure _

/-- Upstart is asked for its version if an application needs a signal and the version is not
known. -/
lemma asks_checkSupport {r : Except Error Unit} (he : (checkSupport .upstart a).Ends h r h') :
    h.Executes (if a.isReloadSignalSet && h.upstart.isNone then [releaseQuery] else []) h' := by
  rw [checkSupport] at he
  cases hset : a.isReloadSignalSet with
  | false =>
      rw [hset, if_neg Bool.false_ne_true] at he
      show h.Executes [] h'
      exact Attempt.within_pure () he
  | true =>
      rw [hset, if_pos rfl] at he
      rw [Bool.true_and]
      rcases Attempt.ends_bind.mp he with ⟨e, hrelease, -⟩ | ⟨v, h₁, hrelease, he₁⟩
      · exact asks_upstartRelease hrelease
      rw [← List.append_nil (ite ..)]
      refine (asks_upstartRelease hrelease).trans (Attempt.within_ite ?_ ?_ he₁)
      · exact Attempt.within_throw _
      · exact Attempt.within_pure ()

/-! ### Systemd -/

/-- Tells systemd something. Upstart is told nothing. -/
def tell (system : InitSystem) (args : List String) : Attempt Error Unit :=
  match system with
  | .systemd => systemctl args
  | .upstart => pure ()

lemma enable_eq (system : InitSystem) (app : String) :
    enable system app = tell system ["enable", system.unitName app] := by
  cases system <;> rfl

lemma disable_eq (system : InitSystem) (app : String) :
    disable system app = tell system ["disable", system.unitName app] := by
  cases system <;> rfl

lemma reloadUnits_eq (system : InitSystem) :
    reloadUnits system = tell system ["daemon-reload"] := by
  cases system <;> rfl

lemma loses_tell (system : InitSystem) (args : List String) :
    (tell system args).Within (Loses ∅) := by
  cases system with
  | systemd => exact .bind (loses_runChecked _) fun _ => Attempt.within_pure ()
  | upstart => exact Attempt.within_pure ()

end ProcUnits.Install
