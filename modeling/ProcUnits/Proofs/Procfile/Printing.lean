import ProcUnits.Proofs.Procfile.Account
import ProcUnits.Proofs.Variables

/-!
Scanning undoes printing (section 4.2 of the specification): the parts of a clause, written one
after the other with any blanks between them, are scanned to what they were.

* `Decorated`: a command with assignments in front of it and a log behind it, and `Decorated.words`
  what it is written as;
* `Decorated.IsPrintable`: the parts can be told apart;
* `scan_of_spaced`: they are read back.
-/

namespace ProcUnits.Procfile.Clause

open Text (IsWord Spaced isBlank)

variable {s : List Char}

/-- A command, what is assigned for it and where its output goes. -/
structure Decorated where
  assignments : List (String × String)
  body : List String
  log : Option String

namespace Decorated

variable {d : Decorated}

/-- The words that are written for the parts. -/
def words (d : Decorated) : List (List Char) :=
  ['e', 'n', 'v'] :: d.assignments.map assignmentWord ++ d.body.map String.toList
    ++ match d.log with
      | none => []
      | some t => [['>', '>'], t.toList]

/-- The parts are written as words that can be told apart. Names are different, the command starts
with no assignment and no word of it redirects. -/
structure IsPrintable (d : Decorated) : Prop where
  names_nodup : (d.assignments.map Prod.fst).Nodup
  name : ∀ e ∈ d.assignments, IsWord e.1.toList ∧ '=' ∉ e.1.toList
  value : ∀ e ∈ d.assignments, ∀ c ∈ e.2.toList, isBlank c = false
  body_isWord : ∀ w ∈ d.body, IsWord w.toList
  body_plain : ∀ w ∈ d.body, ¬ ['>', '>'] <:+: w.toList
  body_head : ∀ w ∈ d.body.head?, ¬ IsAssignment w.toList
  log_isWord : ∀ t ∈ d.log, IsWord t.toList

/-- The account of the words. -/
def account (d : Decorated) : Account where
  announced := true
  assignments := d.assignments
  body := d.body.map String.toList
  redirection := match d.log with
    | none => .none
    | some t => .apart [] t.toList
  trailing := []

lemma words_eq (d : Decorated) : d.words = d.account.lead ++ d.account.rest := by
  cases hlog : d.log <;>
    simp [words, account, Account.lead, Account.rest, Redirection.words, hlog]

namespace IsPrintable

lemma isKey (hd : d.IsPrintable) : ∀ e ∈ d.assignments, IsKey e.1 := fun e he =>
  ⟨fun hempty => (hd.name e he).1.1 (by simp [hempty]), (hd.name e he).2⟩

lemma isWord_assignmentWord (hd : d.IsPrintable) {e : String × String} (he : e ∈ d.assignments) :
    IsWord (assignmentWord e) := by
  obtain ⟨⟨-, hname⟩, -⟩ := hd.name e he
  rw [assignmentWord_eq]
  refine ⟨by simp, fun c hc => ?_⟩
  rw [List.mem_append, List.mem_cons] at hc
  rcases hc with hc | rfl | hc
  · exact hname c hc
  · decide
  · exact hd.value e he c hc

lemma isWord_words (hd : d.IsPrintable) : ∀ w ∈ d.words, IsWord w := by
  intro w hw
  rw [words, List.mem_append, List.mem_append, List.mem_cons] at hw
  rcases hw with ((rfl | hw) | hw) | hw
  · decide
  · obtain ⟨e, he, rfl⟩ := List.mem_map.mp hw
    exact hd.isWord_assignmentWord he
  · obtain ⟨v, hv, rfl⟩ := List.mem_map.mp hw
    exact hd.body_isWord v hv
  · cases hlog : d.log with
    | none => simp [hlog] at hw
    | some t =>
        rw [hlog, List.mem_cons, List.mem_singleton] at hw
        rcases hw with rfl | rfl
        · decide
        · exact hd.log_isWord t hlog

lemma isParted (hd : d.IsPrintable) :
    Account.IsParted d.account.body d.account.redirection d.account.trailing where
  body_plain := by simpa [account] using hd.body_plain
  front_plain := by
    cases hlog : d.log <;> simp [account, hlog, Redirection.front?, Text.pair_infix_cons_iff]
  target_ne := by
    cases hlog : d.log with
    | none => simp [account, hlog, Redirection.target?]
    | some t => simpa [account, hlog, Redirection.target?] using (hd.log_isWord t hlog).1
  trailing_eq _ := rfl

lemma assignment?_head (hd : d.IsPrintable) :
    ∀ w ∈ d.account.rest.head?, assignment? w = none := by
  intro w hw
  cases hbody : d.body with
  | nil =>
      -- the sign of the redirection assigns nothing
      cases hlog : d.log with
      | none => simp [account, Account.rest, hbody, hlog, Redirection.words] at hw
      | some t =>
          obtain rfl : ['>', '>'] = w := by
            simpa [account, Account.rest, hbody, hlog, Redirection.words] using hw
          decide
  | cons v vs =>
      obtain rfl : v.toList = w := by simpa [account, Account.rest, hbody] using hw
      exact assignment?_eq_none_iff.mpr (hd.body_head v (by simp [hbody]))

end IsPrintable

end Decorated

/-- The parts of a clause are read back, with whatever blanks they are written (section 4.2). -/
theorem scan_of_spaced {d : Decorated} (hd : d.IsPrintable) (hs : Spaced d.words s) :
    (scan s).environment.entries.Perm d.assignments
    ∧ (scan s).command = " ".intercalate d.body ∧ (scan s).log = d.log := by
  have hscan : scan s = d.account.clause := by
    rw [scan, Text.words_of_spaced hs hd.isWord_words, d.words_eq]
    exact ofWords_eq_clause rfl hd.isKey hd.isParted hd.assignment?_head
  rw [hscan]
  refine ⟨Variables.entries_ofList_perm hd.names_nodup, ?_, ?_⟩
  · have hkept : d.account.redirection.kept = [] := by
      cases hlog : d.log <;> simp [Decorated.account, hlog, Redirection.kept, Redirection.front?,
        isDescriptor]
    rw [← String.toList_inj, String.toList_intercalate, Account.clause, hkept]
    simp [Decorated.account, Text.unwords]
  · cases hlog : d.log <;>
      simp [Account.clause, Decorated.account, hlog, Redirection.target?]

/-- A command with two variables and a log. -/
def decoratedRun : Decorated where
  assignments := [("FOO", "1"), ("URL", "x?a=b")]
  body := ["./run", "B=2"]
  log := some "run.log"

lemma isPrintable_decoratedRun : decoratedRun.IsPrintable where
  names_nodup := by decide +kernel
  name := by decide +kernel
  value := by simp [decoratedRun, isBlank]
  body_isWord := by decide +kernel
  body_plain := by simp only [← Text.cutAtPair_eq_none_iff]; decide +kernel
  body_head := by simp only [← assignment?_eq_none_iff]; decide +kernel
  log_isWord := by decide +kernel

/-- The parts in a text with tabs and several spaces. -/
lemma spaced_decoratedRun :
    Spaced decoratedRun.words "env\tFOO=1  URL=x?a=b ./run \tB=2 >>\trun.log".toList := by
  have htext : "env\tFOO=1  URL=x?a=b ./run \tB=2 >>\trun.log".toList
      = ['e', 'n', 'v'] ++ ['\t'] ++ (assignmentWord ("FOO", "1") ++ [' ', ' ']
        ++ (assignmentWord ("URL", "x?a=b") ++ [' '] ++ ("./run".toList ++ [' ', '\t']
        ++ ("B=2".toList ++ [' '] ++ (['>', '>'] ++ ['\t'] ++ "run.log".toList))))) := by
    decide +kernel
  rw [htext]
  refine .cons ?_ ?_ (.cons ?_ ?_ (.cons ?_ ?_ (.cons ?_ ?_ (.cons ?_ ?_ (.cons ?_ ?_
    (.single _)))))) <;> simp [isBlank]

/-- Other words of the form of assignments stay in the command, and the log is read behind it. -/
theorem scan_of_spaced_run :
    decoratedRun.IsPrintable
    ∧ Spaced decoratedRun.words "env\tFOO=1  URL=x?a=b ./run \tB=2 >>\trun.log".toList
    ∧ (scan "env\tFOO=1  URL=x?a=b ./run \tB=2 >>\trun.log".toList).command = "./run B=2"
    ∧ (scan "env\tFOO=1  URL=x?a=b ./run \tB=2 >>\trun.log".toList).log = some "run.log" := by
  obtain ⟨-, hcommand, hlog⟩ := scan_of_spaced isPrintable_decoratedRun spaced_decoratedRun
  exact ⟨isPrintable_decoratedRun, spaced_decoratedRun, hcommand, hlog⟩

end ProcUnits.Procfile.Clause
