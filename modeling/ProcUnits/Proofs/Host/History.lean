import ProcUnits.Proofs.Host.Changes
import ProcUnits.Proofs.Host.Quiet

/-!
The commands that are run on a host.

* `Host.transcript`: commands with their replies, when they are run one after the other from now on;
* `Host.Executes`: from one host to another just these commands were run, in this order;
* `Executes.trans`, `Executes.transcript_append`: what is run after other commands is numbered on
  behind them;
* `Host.Succeeds`: all of the commands do their work.
-/

namespace ProcUnits.Host

variable {ε α : Type} {h h' h'' : Host} {c : Command} {cs ds : List Command}

/-- The command has done its work. -/
def Reply.isSuccess : Reply → Bool
  | .finished o => o.isSuccess
  | .refused _ => false

/-- The commands with their replies, when the first one is the `n`-th of all. -/
def Facts.replies (f : Facts) (n : ℕ) : List Command → List (Command × Reply)
  | [] => []
  | c :: cs => (c, f.answer n c) :: f.replies (n + 1) cs

lemma Facts.replies_append (f : Facts) (n : ℕ) (cs ds : List Command) :
    f.replies n (cs ++ ds) = f.replies n cs ++ f.replies (n + cs.length) ds := by
  induction cs generalizing n with
  | nil => rfl
  | cons c cs ih =>
      rw [List.cons_append, replies, ih, replies, List.length_cons, Nat.add_right_comm]
      rfl

lemma Facts.length_replies (f : Facts) (n : ℕ) (cs : List Command) :
    (f.replies n cs).length = cs.length := by
  induction cs generalizing n with
  | nil => rfl
  | cons c cs ih => rw [replies, List.length_cons, List.length_cons, ih]

/-- The commands with their replies, when they are the next ones on this host. -/
def transcript (h : Host) (cs : List Command) : List (Command × Reply) :=
  h.toFacts.replies h.history.length cs

/-- From the first host to the second just these commands were run, in this order. -/
structure Executes (cs : List Command) (h h' : Host) : Prop where
  facts_eq : h'.toFacts = h.toFacts
  history_eq : h'.history = h.history ++ h.transcript cs

namespace Executes

/-- No command is run while the history is the same. -/
lemma of_history_eq (hfacts : h'.toFacts = h.toFacts) (hhistory : h'.history = h.history) :
    h.Executes [] h' :=
  ⟨hfacts, hhistory.trans (List.append_nil _).symm⟩

lemma refl (h : Host) : h.Executes [] h := .of_history_eq rfl rfl

lemma answer_eq (hran : h.Executes cs h') (n : ℕ) (c : Command) :
    h'.answer n c = h.answer n c := by
  rw [hran.facts_eq]

lemma length_history (hran : h.Executes cs h') :
    h'.history.length = h.history.length + cs.length := by
  rw [hran.history_eq, List.length_append, transcript, Facts.length_replies]

lemma transcript_append (hran : h.Executes cs h') (ds : List Command) :
    h.transcript (cs ++ ds) = h.transcript cs ++ h'.transcript ds := by
  rw [transcript, Facts.replies_append, ← hran.length_history, ← hran.facts_eq]
  exact congrArg (· ++ _) (by rw [transcript, hran.facts_eq])

lemma trans (hran : h.Executes cs h') (hran' : h'.Executes ds h'') :
    h.Executes (cs ++ ds) h'' := by
  refine ⟨hran'.facts_eq.trans hran.facts_eq, ?_⟩
  rw [hran'.history_eq, hran.history_eq, hran.transcript_append, List.append_assoc]

end Executes

instance isPreorder_executes : IsPreorder Host (Executes []) where
  refl := .refl
  trans _ _ _ hran hran' := hran.trans hran'

/-! ### Success -/

/-- All the commands do their work, when they are the next ones on this host. -/
def Succeeds (h : Host) (cs : List Command) : Prop :=
  ∀ e ∈ h.transcript cs, e.2.isSuccess = true

lemma succeeds_nil (h : Host) : h.Succeeds [] := fun _ he => absurd he List.not_mem_nil

lemma succeeds_append_iff (hran : h.Executes cs h') :
    h.Succeeds (cs ++ ds) ↔ h.Succeeds cs ∧ h'.Succeeds ds := by
  rw [Succeeds, hran.transcript_append, List.forall_mem_append]
  rfl

lemma isSuccess_of_succeeds (hall : h.Succeeds (cs ++ c :: ds)) :
    (h.answer (h.history.length + cs.length) c).isSuccess = true := by
  refine hall (c, h.answer (h.history.length + cs.length) c) ?_
  rw [transcript, Facts.replies_append]
  exact List.mem_append_right _ List.mem_cons_self

/-! ### Steps -/

/-- A record is no command. -/
lemma executes_withRecord (h : Host) (level : Level) (message : String) :
    h.Executes [] (h.withRecord level message) :=
  .of_history_eq (changes_withRecord (S := ∅) (T := ∅) h level message).facts_eq
    (untouched_withRecord h level message).1.history_eq

/-- Neither is a change of the files. -/
lemma executes_files (h : Host) (t : FileTree) : h.Executes [] { h with files := t } :=
  .of_history_eq rfl rfl

namespace Attempt

lemma executes_emit (level : Level) (message : String) :
    (liftM (emit level message) : Attempt ε Unit).Within (Executes []) := by
  intro h r h' he
  obtain ⟨-, rfl⟩ := ends_emit.mp he
  exact executes_withRecord h level message

lemma ends_run {r : Except ε Reply} : (liftM (run c) : Attempt ε Reply).Ends h r h'
    ↔ r = .ok (h.answer h.history.length c)
      ∧ h' = { h with history := h.history ++ [(c, h.answer h.history.length c)] } :=
  ends_lift

lemma executes_run {r : Except ε Reply} (he : (liftM (run c) : Attempt ε Reply).Ends h r h') :
    h.Executes [c] h' := by
  obtain ⟨-, rfl⟩ := ends_run.mp he
  exact ⟨rfl, rfl⟩

end Attempt

end ProcUnits.Host
