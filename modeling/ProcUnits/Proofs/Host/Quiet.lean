import ProcUnits.Proofs.Host.Attempt
import ProcUnits.Proofs.Host.FileTree

/-!
Steps that leave a host alone.

* `Host.Untouched`: from one host to another nothing has changed in the file tree but the file of
  the log, and no command was run;
* `Attempt.IsQuiet`: an attempt that does no more than to make records in the log that is open;
* `logger_eq_ok`: what it means to open a log;
* `quiet_emit`, `IsQuiet.bind` and the lemmas beside them: how this is seen of an attempt.
-/

namespace ProcUnits.Host

variable {ε ε' α β : Type} {h h' h'' : Host} {l m : Location}

/-- No command was run, and all entries of the file tree are as before, but for the file that is now
that of the log. -/
structure Untouched (h h' : Host) : Prop where
  history_eq : h'.history = h.history
  get?_eq : ∀ l, h'.logger.sink ≠ .file l → h'.files.get? l = h.files.get? l

lemma Untouched.refl (h : Host) : h.Untouched h := ⟨rfl, fun _ _ => rfl⟩

/-! ### Single steps -/

lemma FileTree.get?_extend_of_ne (t : FileTree) (octets : List UInt8) (hm : m ≠ l) :
    (t.extend l octets).get? m = t.get? m := by
  rw [FileTree.extend]
  split
  · exact FileTree.get?_put_of_ne _ _ hm
  · rfl

/-- A record is made in the log only. -/
lemma untouched_withRecord (h : Host) (level : Level) (message : String) :
    h.Untouched (h.withRecord level message) ∧ (h.withRecord level message).logger = h.logger := by
  rw [withRecord]
  split_ifs
  · rw [withLine]
    split
    · exact ⟨.refl h, rfl⟩
    · exact ⟨⟨rfl, fun _ _ => rfl⟩, rfl⟩
    · rename_i location hsink
      refine ⟨⟨rfl, fun l hl => FileTree.get?_extend_of_ne _ _ fun heq => hl ?_⟩, rfl⟩
      rw [heq]
      exact hsink
  · exact ⟨.refl h, rfl⟩

/-- Opening a log touches the file of the log only, and that is there afterwards. -/
lemma logger_eq_ok {c : Log.Config} {t u : FileTree} {logger : Log.Logger}
    (h : c.logger t = .ok (logger, u)) :
    t.KeepsDirs u ∧ (∀ l, logger.sink ≠ .file l → u.get? l = t.get? l)
      ∧ ∀ l, logger.sink = .file l → u.file? l ≠ none := by
  rw [Log.Config.logger] at h
  split at h
  · cases h
    exact ⟨.refl t, fun _ _ => rfl, fun _ hl => absurd hl (by simp)⟩
  · cases h
    exact ⟨.refl t, fun _ _ => rfl, fun _ hl => absurd hl (by simp)⟩
  · rename_i path _ _
    cases hopen : t.openEnd path c.mode with
    | error e => simp [hopen, bind, Except.bind] at h
    | ok opened =>
        obtain ⟨location, u'⟩ := opened
        rw [hopen] at h
        cases h
        obtain ⟨hdir, content, mode, rfl⟩ := FileTree.openEnd_eq_ok hopen
        refine ⟨FileTree.keepsDirs_put hdir, fun l hl => ?_, fun l hl => ?_⟩
        · exact FileTree.get?_put_of_ne _ _ fun heq => hl (by rw [heq])
        · cases hl
          rw [FileTree.file?_put hdir, if_pos rfl]
          simp

/-! ### Attempts -/

namespace Attempt

/-- The attempt makes records in the log that is open, and does nothing else. -/
def IsQuiet (m : Attempt ε α) : Prop :=
  ∀ ⦃h r h'⦄, m.Ends h r h' → h.Untouched h' ∧ h'.logger = h.logger

variable {m : Attempt ε α}

instance isPreorder_untouched :
    IsPreorder Host fun h h' => h.Untouched h' ∧ h'.logger = h.logger where
  refl h := ⟨.refl h, rfl⟩
  trans := by
    rintro h₀ h₁ h₂ ⟨⟨hhistory, hget⟩, hlogger⟩ ⟨⟨hhistory', hget'⟩, hlogger'⟩
    refine ⟨⟨hhistory'.trans hhistory, fun l hl => (hget' l hl).trans (hget l ?_)⟩,
      hlogger'.trans hlogger⟩
    rw [← hlogger']
    exact hl

lemma quiet_pure (a : α) : (pure a : Attempt ε α).IsQuiet :=
  within_pure a

lemma quiet_throw (e : ε) : (throw e : Attempt ε α).IsQuiet :=
  within_throw e

lemma quiet_get : (get : Attempt ε Host).IsQuiet :=
  within_get

lemma quiet_liftExcept (x : Except ε α) : (liftM x : Attempt ε α).IsQuiet :=
  within_liftExcept x

lemma quiet_emit (level : Level) (message : String) :
    (liftM (emit level message) : Attempt ε Unit).IsQuiet := by
  intro h r h' he
  obtain ⟨-, rfl⟩ := ends_lift.mp he
  exact untouched_withRecord h level message

lemma IsQuiet.bind (hm : m.IsQuiet) {f : α → Attempt ε β} (hf : ∀ a, (f a).IsQuiet) :
    (m >>= f).IsQuiet :=
  Within.bind hm hf

lemma quiet_ite {p : Prop} [Decidable p] {m' : Attempt ε α} (hm : m.IsQuiet) (hm' : m'.IsQuiet) :
    (if p then m else m').IsQuiet :=
  within_ite hm hm'

lemma IsQuiet.adapt (hm : m.IsQuiet) (f : ε → ε') : IsQuiet (m.adapt f) := by
  intro h r h' he
  obtain ⟨r₀, hm', -⟩ := ends_adapt.mp he
  exact hm hm'

lemma quiet_currentUserId : (liftM currentUserId : Attempt ε ℕ).IsQuiet := by
  rw [currentUserId, liftM_bind]
  refine .bind (quiet_emit ..) fun _ => ?_
  rw [liftM_bind]
  refine .bind quiet_get fun h => ?_
  rw [liftM_pure]
  exact quiet_pure _

/-- Asking for the current user makes records. -/
lemma quiet_currentUser : (liftM currentUser : Attempt ε String).IsQuiet := by
  rw [currentUser, liftM_bind]
  refine .bind quiet_currentUserId fun id => ?_
  rw [liftM_bind]
  refine .bind (quiet_emit ..) fun _ => ?_
  rw [liftM_bind]
  refine .bind quiet_get fun h => ?_
  split
  · rw [liftM_bind]
    refine .bind (quiet_emit ..) fun _ => ?_
    rw [liftM_pure]
    exact quiet_pure _
  · rw [liftM_bind]
    refine .bind quiet_currentUserId fun id => ?_
    rw [liftM_pure]
    exact quiet_pure _

end Attempt

end ProcUnits.Host
