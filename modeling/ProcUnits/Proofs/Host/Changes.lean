import Mathlib.Data.Set.Basic
import ProcUnits.Proofs.Host.Attempt
import ProcUnits.Proofs.Host.FileTree

/-!
What a step on a host leaves as it was.

* `Host.Changes`: from one host to another, files of one set of locations may have gone and files
  of another set may be others; all other files are as they were, up to what the log has taken
  down;
* `Attempt.Alters`: an attempt changes no more than that, whatever it ends with. The lemmas beside
  it carry this from the steps of an attempt to the whole;
* `Attempt.Clears`: an attempt that does its work removes the files at some paths;
* `alters_emit`: a record changes nothing but the log.
-/

namespace ProcUnits.Host

variable {ε ε' α β : Type} {h h' h'' : Host} {S S' T T' : Set Location}

/-! ### The log -/

/-- The log is kept in the file at the location. -/
def LogsTo (h : Host) (l : Location) : Prop := h.logger.sink = .file l

/-- More octets at the end of a file make no other change. -/
lemma FileTree.keepsDirs_extend (t : FileTree) (l : Location) (octets : List UInt8) :
    t.KeepsDirs (t.extend l octets) := by
  rw [FileTree.extend]
  split
  · rename_i content mode hfile
    refine FileTree.keepsDirs_put ?_
    rw [FileTree.HasDir, hfile]
    simp
  · exact .refl t

lemma FileTree.file?_extend_of_ne (t : FileTree) {l m : Location} (octets : List UInt8)
    (hm : m ≠ l) : (t.extend l octets).file? m = t.file? m := by
  rw [FileTree.extend]
  split
  · rename_i content mode hfile
    rw [FileTree.file?_put (by rw [FileTree.HasDir, hfile]; simp), if_neg hm]
  · rfl

/-! ### From one host to another -/

/-- From the first host to the second, files at `removed` may have gone and files at `written` may
be others. What never changes, and directories, stay as they are, and so does every other file
but that of the log. -/
structure Changes (h : Host) (removed written : Set Location) (h' : Host) : Prop where
  facts_eq : h'.toFacts = h.toFacts
  logger_eq : h'.logger = h.logger
  keepsDirs : h.files.KeepsDirs h'.files
  file?_or : ∀ l, ¬ h.LogsTo l → h'.files.file? l = h.files.file? l
    ∨ (l ∈ removed ∧ h'.files.file? l = none) ∨ l ∈ written

namespace Changes

lemma refl (h : Host) : h.Changes S T h :=
  ⟨rfl, rfl, .refl _, fun _ _ => Or.inl rfl⟩

lemma logsTo_iff (hc : h.Changes S T h') {l : Location} : h'.LogsTo l ↔ h.LogsTo l := by
  rw [LogsTo, LogsTo, hc.logger_eq]

lemma trans (hc : h.Changes S T h') (hc' : h'.Changes S T h'') : h.Changes S T h'' := by
  refine ⟨hc'.facts_eq.trans hc.facts_eq, hc'.logger_eq.trans hc.logger_eq,
    hc.keepsDirs.trans hc'.keepsDirs, fun l hl => ?_⟩
  rcases hc'.file?_or l (fun hl' => hl (hc.logsTo_iff.mp hl')) with heq' | hgone | hwritten
  · rw [heq']
    exact hc.file?_or l hl
  · exact Or.inr (Or.inl hgone)
  · exact Or.inr (Or.inr hwritten)

lemma mono (hc : h.Changes S T h') (hS : S ⊆ S') (hT : T ⊆ T') : h.Changes S' T' h' := by
  refine ⟨hc.facts_eq, hc.logger_eq, hc.keepsDirs, fun l hl => ?_⟩
  rcases hc.file?_or l hl with heq | ⟨hmem, hgone⟩ | hwritten
  · exact Or.inl heq
  · exact Or.inr (Or.inl ⟨hS hmem, hgone⟩)
  · exact Or.inr (Or.inr (hT hwritten))

/-- Other files are all that is changed. -/
lemma of_files {t : FileTree} (hk : h.files.KeepsDirs t)
    (hf : ∀ l, t.file? l = h.files.file? l ∨ (l ∈ S ∧ t.file? l = none) ∨ l ∈ T) :
    h.Changes S T { h with files := t } :=
  ⟨rfl, rfl, hk, fun l _ => hf l⟩

/-- A file at neither of the sets is as it was. -/
lemma file?_eq (hc : h.Changes S T h') {l : Location} (hl : ¬ h.LogsTo l) (hS : l ∉ S)
    (hT : l ∉ T) : h'.files.file? l = h.files.file? l := by
  rcases hc.file?_or l hl with heq | ⟨hmem, -⟩ | hwritten
  · exact heq
  · exact absurd hmem hS
  · exact absurd hwritten hT

/-- No file is new that was not written. -/
lemma file?_eq_none (hc : h.Changes S T h') {l : Location} (hl : ¬ h.LogsTo l) (hT : l ∉ T)
    (hnone : h.files.file? l = none) : h'.files.file? l = none := by
  rcases hc.file?_or l hl with heq | ⟨-, hgone⟩ | hwritten
  · rw [heq, hnone]
  · exact hgone
  · exact absurd hwritten hT

lemma workingDir_eq (hc : h.Changes S T h') : h'.files.workingDir = h.files.workingDir :=
  hc.keepsDirs.workingDir_eq

lemma placeOf_eq (hc : h.Changes S T h') (p : String) :
    h'.files.placeOf p = h.files.placeOf p :=
  hc.keepsDirs.placeOf_eq p

lemma date_eq (hc : h.Changes S T h') : h'.date = h.date :=
  congrArg Facts.date hc.facts_eq

end Changes

/-! ### Attempts -/

namespace Attempt

/-- The attempt changes files of the two sets only, which may depend on where relative paths
start. -/
def Alters (m : Attempt ε α) (removed written : Location → Set Location) : Prop :=
  ∀ ⦃h r h'⦄, m.Ends h r h' →
    h.Changes (removed h.files.workingDir) (written h.files.workingDir) h'

variable {removed removed' written written' : Location → Set Location} {m : Attempt ε α}

lemma Alters.changes {r : Except ε α} (hm : m.Alters (fun _ => S) fun _ => T)
    (he : m.Ends h r h') : h.Changes S T h' :=
  hm he

lemma Alters.mono (hm : m.Alters removed written) (hr : ∀ w, removed w ⊆ removed' w)
    (hw : ∀ w, written w ⊆ written' w) : m.Alters removed' written' :=
  fun _ _ _ he => (hm he).mono (hr _) (hw _)

/-- One change after another one is a change of the same files. -/
instance isPreorder_changes (removed written : Location → Set Location) :
    IsPreorder Host fun h h' =>
      h.Changes (removed h.files.workingDir) (written h.files.workingDir) h' where
  refl h := .refl h
  trans h₀ h₁ h₂ hc hc' := by
    rw [hc.workingDir_eq] at hc'
    exact hc.trans hc'

lemma alters_pure (a : α) : (pure a : Attempt ε α).Alters removed written :=
  within_pure a

lemma alters_get : (get : Attempt ε Host).Alters removed written :=
  within_get

lemma alters_liftExcept (x : Except ε α) : (liftM x : Attempt ε α).Alters removed written :=
  within_liftExcept x

lemma Alters.bind (hm : m.Alters removed written) {f : α → Attempt ε β}
    (hf : ∀ a, (f a).Alters removed written) : (m >>= f).Alters removed written :=
  Within.bind hm hf

lemma alters_ite {p : Prop} [Decidable p] {m' : Attempt ε α} (hm : m.Alters removed written)
    (hm' : m'.Alters removed written) : (if p then m else m').Alters removed written :=
  within_ite hm hm'

lemma alters_forM {xs : List α} {f : α → Attempt ε PUnit}
    (hf : ∀ x ∈ xs, (f x).Alters removed written) : (xs.forM f).Alters removed written :=
  within_forM hf

/-! ### Removals -/

/-- The attempt removes files only, and once it has done its work each file is gone that was at
one of the paths before. -/
structure Clears (m : Attempt ε α) (removed : Location → Set Location) (ps : Set String) :
    Prop where
  alters : m.Alters removed fun _ => ∅
  file?_eq_none : ∀ ⦃h a h'⦄, m.Ends h (.ok a) h' → ∀ p ∈ ps, h.files.isFile p = true →
    ¬ h.LogsTo (h.files.placeOf p) → h'.files.file? (h.files.placeOf p) = none

variable {ps qs : Set String} {f : α → Attempt ε β}

lemma Alters.clears (hm : m.Alters removed fun _ => ∅) : m.Clears removed ∅ :=
  ⟨hm, fun _ _ _ _ _ hp => absurd hp (Set.notMem_empty _)⟩

lemma Clears.mono (hm : m.Clears removed ps) (h : qs ⊆ ps) : m.Clears removed qs :=
  ⟨hm.alters, fun _ _ _ he p hp => hm.file?_eq_none he p (h hp)⟩

/-- What is removed by one step stays away, and what is removed by a later one was there still, or
had gone before. -/
lemma Clears.bind (hm : m.Clears removed ps) (hf : ∀ a, (f a).Clears removed qs) :
    (m >>= f).Clears removed (ps ∪ qs) := by
  refine ⟨hm.alters.bind fun a => (hf a).alters, ?_⟩
  intro h b h' he p hp hfile hlog
  obtain ⟨a, h₁, he₁, he₂⟩ := ends_bind_ok.mp he
  have hc := hm.alters he₁
  have hlog₁ : ¬ h₁.LogsTo (h.files.placeOf p) := fun hl => hlog (hc.logsTo_iff.mp hl)
  have hstays : h₁.files.file? (h.files.placeOf p) = none →
      h'.files.file? (h.files.placeOf p) = none :=
    fun hgone => ((hf a).alters he₂).file?_eq_none hlog₁ (Set.notMem_empty _) hgone
  rcases hp with hp | hp
  · exact hstays (hm.file?_eq_none he₁ p hp hfile hlog)
  · by_cases hgone : h₁.files.file? (h.files.placeOf p) = none
    · exact hstays hgone
    · rw [← hc.placeOf_eq p] at hlog₁ ⊢
      exact (hf a).file?_eq_none he₂ p hp (hc.keepsDirs.isFile hfile hgone) hlog₁

/-- All files are removed that are removed one by one. -/
lemma clears_filterM {ps : List String} {f : String → Attempt ε Bool}
    (hf : ∀ p ∈ ps, (f p).Clears removed {p}) : (ps.filterM f).Clears removed {p | p ∈ ps} := by
  induction ps with
  | nil => exact (alters_pure []).clears.mono fun p hp => absurd hp List.not_mem_nil
  | cons q ps ih =>
      obtain ⟨hq, hf⟩ := List.forall_mem_cons.mp hf
      rw [filterM_cons]
      refine Clears.mono (hq.bind fun _ => (ih hf).bind fun _ => (alters_pure _).clears)
        fun p hp => ?_
      rcases List.mem_cons.mp hp with rfl | hp
      · exact Or.inl rfl
      · exact Or.inr (Or.inl hp)

end Attempt

/-! ### Records -/

/-- A record changes nothing but the log. -/
lemma changes_withRecord (h : Host) (level : Level) (message : String) :
    h.Changes S T (h.withRecord level message) := by
  rw [withRecord]
  split_ifs
  · rw [withLine]
    split
    · exact .refl h
    · exact ⟨rfl, rfl, .refl _, fun _ _ => Or.inl rfl⟩
    · rename_i location hsink
      refine ⟨rfl, rfl, FileTree.keepsDirs_extend .., fun l hl => Or.inl ?_⟩
      refine FileTree.file?_extend_of_ne _ _ fun heq => hl ?_
      rw [LogsTo, hsink, heq]
  · exact .refl h

lemma ends_emit {level : Level} {message : String} {r : Except ε Unit} :
    (liftM (emit level message) : Attempt ε Unit).Ends h r h'
      ↔ r = .ok () ∧ h' = h.withRecord level message :=
  Attempt.ends_lift

/-- What follows a record begins with the record made. -/
lemma ends_emit_bind {level : Level} {message : String} {f : Unit → Attempt ε α}
    {r : Except ε α} : ((liftM (emit level message) : Attempt ε Unit) >>= f).Ends h r h'
      ↔ (f ()).Ends (h.withRecord level message) r h' :=
  Attempt.ends_lift_bind

lemma alters_emit (level : Level) (message : String) {removed written : Location → Set Location} :
    (liftM (emit level message) : Attempt ε Unit).Alters removed written := by
  intro h r h' he
  obtain ⟨-, rfl⟩ := ends_emit.mp he
  exact changes_withRecord h level message

end ProcUnits.Host
