import Mathlib.Tactic.Common
import ProcUnits.Procfile.Clause
import ProcUnits.Proofs.Text.Split
import ProcUnits.Proofs.Text.Words

/-!
Scanning a command that a scan has found, as a command of a document is (section 4.3 of the
specification).

A second scan finds no redirection, and it finds no assignment either unless the command starts
with the word `env`. That word the first scan leaves where it stands behind other assignments.

* `assignment?_eq_some_iff`: the words that assign something, and `takeAssignments_map_append`,
  `takeAssignments_words`: they are taken as far as they stand in front;
* `IsBody`: what the words of a scanned command have in common;
* `isBody_body`, `words_command`: they are the words of the command and have that in common;
* `log_scan_ne`: a log that a scan finds has a name;
* `scan_command_of_not_announces`: then a second scan changes nothing;
* `log_scan_command`, `command_scan_command_ne`: what it does to a command with `env` in front.
-/

namespace ProcUnits.Procfile.Clause

open Text (IsWord cutAt cutAtPair unwords words)

variable {s w v h t : List Char} {ws : List (List Char)}

/-- The command starts with the word that announces assignments. -/
def Announces (command : String) : Prop :=
  (words command.toList).head? = some ['e', 'n', 'v']

instance (command : String) : Decidable (Announces command) :=
  inferInstanceAs (Decidable (_ = _))

/-! ### Assignments -/

/-- The name of a variable as the scan takes it: something without a `=`. -/
def IsKey (name : String) : Prop := name ≠ "" ∧ '=' ∉ name.toList

/-- The word `name=value`. -/
def assignmentWord (e : String × String) : List Char := (Variables.assignment e).toList

lemma assignmentWord_eq (e : String × String) :
    assignmentWord e = e.1.toList ++ '=' :: e.2.toList := by
  simp [assignmentWord, Variables.assignment, String.toList_append]

/-- A word assigns what its parts around the first `=` say, if there is a name. -/
theorem assignment?_eq_some_iff {e : String × String} :
    assignment? w = some e ↔ IsKey e.1 ∧ w = assignmentWord e := by
  rw [assignmentWord_eq]
  constructor
  · intro ha
    unfold assignment? at ha
    split at ha
    · cases ha
    · next k v hk hc =>
        obtain rfl := Option.some.inj ha
        refine ⟨⟨fun hempty => hk (String.ofList_eq_empty_iff.mp hempty), ?_⟩, ?_⟩
        · simpa using Text.not_mem_of_cutAt hc
        · simpa using Text.append_of_cutAt hc
    · cases ha
  · rintro ⟨⟨hne, hmem⟩, rfl⟩
    have hlist : e.1.toList ≠ [] := by simpa using hne
    unfold assignment?
    rw [Text.cutAt_append_cons hmem]
    split
    · next heq => exact absurd (Prod.mk.inj (Option.some.inj heq)).1 hlist
    · next heq =>
        obtain ⟨rfl, rfl⟩ := Prod.mk.inj (Option.some.inj heq)
        simp
    · next heq => cases heq

/-- The word assigns something to a variable. -/
def IsAssignment (w : List Char) : Prop := ∃ e, IsKey e.1 ∧ w = assignmentWord e

lemma assignment?_eq_none_iff : assignment? w = none ↔ ¬ IsAssignment w := by
  rw [IsAssignment, Option.eq_none_iff_forall_ne_some, not_exists]
  exact forall_congr' fun e => not_congr assignment?_eq_some_iff

/-- A word that is no assignment has none as its front part. -/
lemma assignment?_of_append (ha : assignment? (w ++ v) = none) : assignment? w = none := by
  cases hc : cutAt '=' w with
  | none => simp [assignment?, hc]
  | some p =>
      obtain ⟨k, r⟩ := p
      simp only [assignment?, Text.cutAt_append hc] at ha
      simp only [assignment?, hc]
      cases k with
      | nil => rfl
      | cons c k => simp at ha

/-- Assignments in front are taken, up to the first other word. -/
lemma takeAssignments_map_append {es : List (String × String)} (hes : ∀ e ∈ es, IsKey e.1)
    (hws : ∀ w ∈ ws.head?, assignment? w = none) :
    takeAssignments (es.map assignmentWord ++ ws) = (es, ws) := by
  induction es with
  | nil =>
      cases ws with
      | nil => rfl
      | cons w ws => rw [List.map_nil, List.nil_append, takeAssignments, hws w rfl]
  | cons e es ih =>
      obtain ⟨he, hes⟩ := List.forall_mem_cons.mp hes
      rw [List.map_cons, List.cons_append, takeAssignments,
        assignment?_eq_some_iff.mpr ⟨he, rfl⟩, ih hes]

/-- What is taken are the assignments at the front. -/
lemma takeAssignments_words (ws : List (List Char)) :
    ws = (takeAssignments ws).1.map assignmentWord ++ (takeAssignments ws).2
    ∧ ∀ e ∈ (takeAssignments ws).1, IsKey e.1 := by
  fun_induction takeAssignments ws with
  | case1 => simp
  | case2 w ws e he ih =>
      obtain ⟨hkey, hword⟩ := assignment?_eq_some_iff.mp he
      refine ⟨?_, List.forall_mem_cons.mpr ⟨hkey, ih.2⟩⟩
      rw [List.map_cons, List.cons_append, ← hword, ← ih.1]
  | case3 w ws hw => simp

lemma assignment?_of_head?_takeAssignments (hw : w ∈ (takeAssignments ws).2.head?) :
    assignment? w = none := by
  fun_induction takeAssignments ws with
  | case1 => simp at hw
  | case2 v ws a ha ih => exact ih hw
  | case3 v ws ha =>
      obtain rfl : v = w := by simpa using hw
      exact ha

/-- No assignment is left in front. -/
lemma assignment?_of_head?_split (hw : w ∈ (split ws).2.head?) : assignment? w = none := by
  fun_cases split ws with
  | case1 => simp [split] at hw
  | case2 rest => exact assignment?_of_head?_takeAssignments (by simpa [split] using hw)
  | case3 v rest hv hmem =>
      have hw' : w ∈ (takeAssignments (v :: rest)).2.head? := by simpa [split, hv, hmem] using hw
      exact assignment?_of_head?_takeAssignments hw'
  | case4 v rest hv hmem =>
      obtain rfl : v = w := by simpa [split, hv, hmem] using hw
      rw [assignment?, Text.cutAt_of_not_mem hmem]

lemma mem_of_mem_takeAssignments (hw : w ∈ (takeAssignments ws).2) : w ∈ ws := by
  obtain ⟨taken, htaken⟩ := takeAssignments_append ws
  rw [htaken]
  exact List.mem_append_right taken hw

lemma mem_of_mem_split (hw : w ∈ (split ws).2) : w ∈ ws := by
  fun_cases split ws with
  | case1 => simp [split] at hw
  | case2 rest =>
      exact List.mem_cons_of_mem _ (mem_of_mem_takeAssignments (by simpa [split] using hw))
  | case3 v rest hv hmem =>
      exact mem_of_mem_takeAssignments (by simpa [split, hv, hmem] using hw)
  | case4 v rest hv hmem => simpa [split, hv, hmem] using hw

/-! ### Commands -/

/-- Words as a scan leaves them: none redirects, and the first one assigns nothing. -/
structure IsBody (ws : List (List Char)) : Prop where
  isWord : ∀ w ∈ ws, IsWord w
  cutAtPair_eq : ∀ w ∈ ws, cutAtPair '>' w = none
  assignment?_eq : ∀ w ∈ ws.head?, assignment? w = none

/-- The words of the command that a scan finds. -/
def body (s : List Char) : List (List Char) := (takeBody (split (words s)).2).1

/-- What stands before a redirection is a word, or nothing is left of it. -/
lemma isWord_of_cutAtPair (hw : IsWord w) (hc : cutAtPair '>' w = some (h, t))
    (hd : isDescriptor h = false) : IsWord h := by
  refine ⟨?_, fun c hmem => hw.2 c ?_⟩
  · rintro rfl
    exact absurd hd (by decide)
  · rw [Text.append_of_cutAtPair hc]
    exact List.mem_append_left _ hmem

/-- No word of a command redirects. -/
lemma plain_takeBody (hws : ∀ w ∈ ws, IsWord w) :
    ∀ v ∈ (takeBody ws).1, IsWord v ∧ cutAtPair '>' v = none := by
  fun_induction takeBody ws with
  | case1 => simp
  | case2 w ws h t hc =>
      have hw := hws w List.mem_cons_self
      by_cases hd : isDescriptor h = true
      · simp [hd]
      · have hh := isWord_of_cutAtPair hw hc (by simpa using hd)
        simpa [hd] using ⟨hh, Text.cutAtPair_of_cutAtPair hc⟩
  | case3 w ws hc ih =>
      obtain ⟨hw, hws⟩ := List.forall_mem_cons.mp hws
      exact List.forall_mem_cons.mpr ⟨⟨hw, hc⟩, ih hws⟩

lemma isBody_takeBody (hws : ∀ w ∈ ws, IsWord w) (ha : ∀ w ∈ ws.head?, assignment? w = none) :
    IsBody (takeBody ws).1 := by
  have hplain := plain_takeBody hws
  refine ⟨fun v hv => (hplain v hv).1, fun v hv => (hplain v hv).2, fun v hv => ?_⟩
  clear hplain
  fun_cases takeBody ws with
  | case1 => simp [takeBody] at hv
  | case2 w ws h t hc =>
      -- if the part in front of the sign assigned something, the whole word would
      have hw := ha w (by simp)
      rw [Text.append_of_cutAtPair hc] at hw
      simp only [takeBody, hc] at hv
      split_ifs at hv
      · simp at hv
      · obtain rfl : h = v := by simpa using hv
        exact assignment?_of_append hw
  | case3 w ws hc =>
      simp only [takeBody, hc, List.head?_cons] at hv
      exact ha v (by simpa using hv)

/-- The words of a scanned command are as a scan leaves them. -/
theorem isBody_body (s : List Char) : IsBody (body s) :=
  isBody_takeBody (fun _ hw => Text.isWord_of_mem_words (mem_of_mem_split hw))
    fun _ hw => assignment?_of_head?_split hw

lemma ofWords_eq (ws : List (List Char)) :
    ofWords ws =
      { command := String.ofList (unwords (takeBody (split ws).2).1)
        log := (takeBody (split ws).2).2.map String.ofList
        environment := Variables.ofList (split ws).1 } := rfl

lemma command_scan (s : List Char) : (scan s).command = String.ofList (unwords (body s)) := rfl

/-- The words of the command that a scan finds are read back from its text. -/
theorem words_command (s : List Char) : words (scan s).command.toList = body s := by
  rw [command_scan, String.toList_ofList, Text.words_unwords (isBody_body s).isWord]

/-! ### Logs -/

lemma ne_nil_of_takeBody (hws : ∀ w ∈ ws, IsWord w) (hlog : (takeBody ws).2 = some t) :
    t ≠ [] := by
  fun_induction takeBody ws with
  | case1 => simp at hlog
  | case2 w ws h t' hc =>
      simp only at hlog
      split_ifs at hlog with ht
      · exact (hws t (List.mem_cons_of_mem w (List.mem_of_head? hlog))).1
      · rintro rfl
        simp [Option.some.inj hlog] at ht
  | case3 w ws hc ih => exact ih (List.forall_mem_cons.mp hws).2 hlog

/-- The log that a scan finds has a name. -/
theorem log_scan_ne (s : List Char) : (scan s).log ≠ some "" := by
  intro hlog
  rw [scan, ofWords_eq, Option.map_eq_some_iff] at hlog
  obtain ⟨t, ht, hempty⟩ := hlog
  refine ne_nil_of_takeBody (fun w hw => ?_) ht (String.ofList_eq_empty_iff.mp hempty)
  exact Text.isWord_of_mem_words (mem_of_mem_split hw)

/-! ### The second scan -/

lemma takeBody_eq_self (hws : ∀ w ∈ ws, cutAtPair '>' w = none) : takeBody ws = (ws, none) := by
  induction ws with
  | nil => rfl
  | cons w ws ih =>
      obtain ⟨hw, hws⟩ := List.forall_mem_cons.mp hws
      simp [takeBody, hw, ih hws]

lemma split_of_head?_ne (hws : IsBody ws) (henv : ws.head? ≠ some ['e', 'n', 'v']) :
    split ws = ([], ws) := by
  cases ws with
  | nil => rfl
  | cons w ws =>
      rw [split, if_neg (by simpa using henv)]
      split_ifs
      · rw [takeAssignments, hws.assignment?_eq w rfl]
      · rfl

/-- A second scan finds no redirection. -/
theorem log_scan_command (s : List Char) : (scan (scan s).command.toList).log = none := by
  have hplain : takeBody (split (body s)).2 = ((split (body s)).2, none) :=
    takeBody_eq_self fun w hw => (isBody_body s).cutAtPair_eq w (mem_of_mem_split hw)
  rw [scan, words_command, ofWords_eq, hplain]
  rfl

/-- A second scan changes nothing if the command does not start with `env`. -/
theorem scan_command_of_not_announces (henv : ¬ Announces (scan s).command) :
    scan (scan s).command.toList
      = { command := (scan s).command, log := none, environment := .empty } := by
  rw [Announces, words_command] at henv
  rw [scan, words_command, ofWords_eq, split_of_head?_ne (isBody_body s) henv,
    takeBody_eq_self (isBody_body s).cutAtPair_eq]
  rfl

/-- A second scan takes the word `env` away from the front of the command. -/
theorem command_scan_command_ne (henv : Announces (scan s).command) :
    (scan (scan s).command.toList).command ≠ (scan s).command := by
  rw [Announces, words_command] at henv
  obtain ⟨rest, hbody⟩ : ∃ rest, body s = ['e', 'n', 'v'] :: rest := by
    cases hb : body s with
    | nil => simp [hb] at henv
    | cons w rest => exact ⟨rest, by rw [hb] at henv; simpa using henv⟩
  have hsplit : (split (body s)).2 = (takeAssignments rest).2 := by simp [hbody, split]
  have hplain : takeBody (split (body s)).2 = ((split (body s)).2, none) :=
    takeBody_eq_self fun w hw => (isBody_body s).cutAtPair_eq w (mem_of_mem_split hw)
  intro heq
  have hwords : words (scan (scan s).command.toList).command.toList = (takeAssignments rest).2 := by
    rw [words_command, body, words_command, hplain, hsplit]
  rw [heq, words_command, hbody] at hwords
  obtain ⟨taken, htaken⟩ := takeAssignments_append rest
  have hlength := congrArg List.length htaken
  rw [List.length_append, ← hwords, List.length_cons] at hlength
  omega

end ProcUnits.Procfile.Clause
