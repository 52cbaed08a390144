import Mathlib.Tactic.Common
import ProcUnits.Proofs.Procfile.Clause
import ProcUnits.Proofs.Procfile.Reading

/-!
What becomes of the words of a clause, which section 4.2 of the specification has "scanned
token-by-token".

An account of a clause parts its words into those that announce and make assignments, those of the
command, a redirection, and those behind it. It is complete if only words are lost that say nothing:
an announcement that assignments follow, and duplications of descriptors behind the redirection.

* `Redirection`, `Account`: the parts, with the words they are written as and the clause they make;
* `Account.IsOf`, `Account.IsComplete`: an account of words that make a clause, and one that loses
  nothing;
* `takeRedirection`: how the words behind the assignments are parted, and `takeRedirection_append`,
  `takeRedirection_words`: in this way only;
* `account`: the account that the scan keeps, and `account_isOf`: it is one;
* `ofWords_eq_clause`: words that start with `env` make the clause of their account;
* `exists_isComplete_iff`: if there is any complete account, that one is;
* `scan_accounts`: exactly which clauses lose nothing, and where the chain signs of a document's
  command are.
-/

namespace ProcUnits.Procfile.Clause

open Text (IsWord cutAtPair unwords words)
open Yaml (Value)

variable {w h t : List Char} {ws : List (List Char)}

/-! ### Accounts -/

/-- A redirection to a log, as it is written. -/
inductive Redirection where
  | none
  /-- The word `front>>target`. -/
  | attached (front target : List Char)
  /-- The words `front>>` and `target`. -/
  | apart (front target : List Char)
  /-- The word `front>>` with nothing behind it. -/
  | dangling (front : List Char)
  deriving DecidableEq

namespace Redirection

/-- The words that the redirection is written as. -/
def words : Redirection → List (List Char)
  | .none => []
  | .attached f t => [f ++ '>' :: '>' :: t]
  | .apart f t => [f ++ ['>', '>'], t]
  | .dangling f => [f ++ ['>', '>']]

/-- What stands in front of the sign in its word. -/
def front? : Redirection → Option (List Char)
  | .none => Option.none
  | .attached f _ | .apart f _ | .dangling f => some f

/-- What of the redirection is a word of the command: that in front of the sign, unless it names a
descriptor. -/
def kept (r : Redirection) : List (List Char) :=
  match r.front? with
  | some f => if isDescriptor f then [] else [f]
  | Option.none => []

/-- The log. -/
def target? : Redirection → Option (List Char)
  | .attached _ t | .apart _ t => some t
  | .none | .dangling _ => Option.none

end Redirection

/-- The words of a clause in their parts. -/
structure Account where
  /-- The word `env` stands in front of the assignments. -/
  announced : Bool
  assignments : List (String × String)
  body : List (List Char)
  redirection : Redirection
  /-- The words behind the redirection. -/
  trailing : List (List Char)
  deriving DecidableEq

/-- The word is a duplication of a descriptor, such as `2>&1`, or closes one. -/
def isDuplication (w : List Char) : Bool :=
  match w.dropWhile Char.isDigit with
  | sign :: '&' :: n =>
    (sign == '>' || sign == '<') && (n == ['-'] || (n != [] && n.all Char.isDigit))
  | _ => false

namespace Account

/-- The words in front of the command. -/
def lead (l : Account) : List (List Char) :=
  (if l.announced then [['e', 'n', 'v']] else []) ++ l.assignments.map assignmentWord

/-- The words from the command on. -/
def rest (l : Account) : List (List Char) := l.body ++ (l.redirection.words ++ l.trailing)

/-- The clause that the parts make. -/
def clause (l : Account) : Clause where
  command := String.ofList (unwords (l.body ++ l.redirection.kept))
  log := l.redirection.target?.map String.ofList
  environment := Variables.ofList l.assignments

/-- The parts from the command on are what they are taken for: the sign of the redirection is the
first one, its target is not empty, and nothing is behind it without a target. -/
structure IsParted (body : List (List Char)) (r : Redirection) (trailing : List (List Char)) :
    Prop where
  body_plain : ∀ w ∈ body, ¬ ['>', '>'] <:+: w
  front_plain : ∀ f ∈ r.front?, ¬ ['>', '>'] <:+: f ++ ['>']
  target_ne : ∀ t ∈ r.target?, t ≠ []
  trailing_eq : r.target? = none → trailing = []

/-- The words, in the parts of the account, make the clause. -/
structure IsOf (l : Account) (ws : List (List Char)) (c : Clause) : Prop where
  words_eq : l.lead ++ l.rest = ws
  clause_eq : l.clause = c
  isKey : ∀ e ∈ l.assignments, IsKey e.1
  isParted : IsParted l.body l.redirection l.trailing

/-- No word is lost but those that may be: an announcement of assignments that follow, and
duplications of descriptors behind a redirection. -/
structure IsComplete (l : Account) : Prop where
  assigns : l.announced = true → l.assignments ≠ []
  keeps : ∀ e ∈ l.assignments, l.clause.environment.get? e.1 = some e.2
  redirects : ∀ f, l.redirection ≠ .dangling f
  duplicates : ∀ w ∈ l.trailing, isDuplication w = true

instance (l : Account) : Decidable l.IsComplete :=
  decidable_of_iff ((l.announced = true → l.assignments ≠ [])
      ∧ (∀ e ∈ l.assignments, l.clause.environment.get? e.1 = some e.2)
      ∧ (l.redirection.front?.isSome → l.redirection.target?.isSome)
      ∧ ∀ w ∈ l.trailing, isDuplication w = true) <| by
    constructor
    · rintro ⟨hassigns, hkeeps, hredirects, hduplicates⟩
      refine ⟨hassigns, hkeeps, fun f hf => ?_, hduplicates⟩
      simp [hf, Redirection.front?, Redirection.target?] at hredirects
    · rintro ⟨hassigns, hkeeps, hredirects, hduplicates⟩
      refine ⟨hassigns, hkeeps, fun hfront => ?_, hduplicates⟩
      cases hr : l.redirection with
      | none => simp [hr, Redirection.front?] at hfront
      | attached f t => rfl
      | apart f t => rfl
      | dangling f => exact absurd hr (hredirects f)

end Account

/-! ### From the command on -/

/-- The words up to the redirection, the redirection, and the words behind it. -/
def takeRedirection : List (List Char) → List (List Char) × Redirection × List (List Char)
  | [] => ([], .none, [])
  | w :: ws =>
    match cutAtPair '>' w with
    | some (f, []) =>
      match ws with
      | [] => ([], .dangling f, [])
      | t :: ws => ([], .apart f t, ws)
    | some (f, t) => ([], .attached f t, ws)
    | none => (w :: (takeRedirection ws).1, (takeRedirection ws).2)

/-- The parts of the words are found again. -/
lemma takeRedirection_append {body trailing : List (List Char)} {r : Redirection}
    (hp : Account.IsParted body r trailing) :
    takeRedirection (body ++ (r.words ++ trailing)) = (body, r, trailing) := by
  obtain ⟨hbody, hfront, htarget, htrailing⟩ := hp
  -- no word of the command has the sign, so that the first word with it opens the redirection
  induction body with
  | cons w body ih =>
      obtain ⟨hw, hbody⟩ := List.forall_mem_cons.mp hbody
      rw [List.cons_append, takeRedirection, Text.cutAtPair_eq_none_iff.mpr hw, ih hbody]
  | nil =>
      rw [List.nil_append]
      cases r with
      | none => rw [htrailing rfl]; rfl
      | attached f t =>
          obtain ⟨c, t, rfl⟩ := List.exists_cons_of_ne_nil (htarget t rfl)
          simp [Redirection.words, takeRedirection, Text.cutAtPair_append (hfront f rfl)]
      | apart f t =>
          simp [Redirection.words, takeRedirection, Text.cutAtPair_append (hfront f rfl)]
      | dangling f =>
          simp [Redirection.words, takeRedirection, Text.cutAtPair_append (hfront f rfl),
            htrailing rfl]

/-- The words are those of the parts. -/
lemma takeRedirection_words (ws : List (List Char)) :
    ws = (takeRedirection ws).1
      ++ ((takeRedirection ws).2.1.words ++ (takeRedirection ws).2.2) := by
  fun_induction takeRedirection ws with
  | case1 => rfl
  | case2 w f hc => simp [Redirection.words, Text.append_of_cutAtPair hc]
  | case3 w f hc t ws => simp [Redirection.words, Text.append_of_cutAtPair hc]
  | case4 w ws f t ht hc => simp [Redirection.words, Text.append_of_cutAtPair hc]
  | case5 w ws hc ih => rw [List.cons_append, ← ih]

/-- The parts are what they are taken for. -/
lemma isParted_takeRedirection (hws : ∀ w ∈ ws, IsWord w) :
    Account.IsParted (takeRedirection ws).1 (takeRedirection ws).2.1 (takeRedirection ws).2.2 := by
  fun_induction takeRedirection ws with
  | case1 =>
      exact ⟨by simp, by simp [Redirection.front?], by simp [Redirection.target?], fun _ => rfl⟩
  | case2 w f hc =>
      have hfront := Text.not_infix_of_cutAtPair hc
      exact ⟨by simp, by simpa [Redirection.front?], by simp [Redirection.target?], fun _ => rfl⟩
  | case3 w f hc t ws =>
      have hfront := Text.not_infix_of_cutAtPair hc
      -- the target is a word of the clause, and no word is empty
      have htarget := (hws t (by simp)).1
      exact ⟨by simp, by simpa [Redirection.front?], by simpa [Redirection.target?], nofun⟩
  | case4 w ws f t ht hc =>
      have hfront := Text.not_infix_of_cutAtPair hc
      exact ⟨by simp, by simpa [Redirection.front?], by simpa [Redirection.target?], nofun⟩
  | case5 w ws hc ih =>
      obtain ⟨hbody, hfront, htarget, htrailing⟩ := ih fun v hv => hws v (List.mem_cons_of_mem w hv)
      have hw : ¬ ['>', '>'] <:+: w := Text.cutAtPair_eq_none_iff.mp hc
      exact ⟨List.forall_mem_cons.mpr ⟨hw, hbody⟩, hfront, htarget, htrailing⟩

/-- The scan takes the words of the command and the log from the same parts. -/
lemma takeBody_eq (ws : List (List Char)) :
    takeBody ws = ((takeRedirection ws).1 ++ (takeRedirection ws).2.1.kept,
      (takeRedirection ws).2.1.target?) := by
  fun_induction takeRedirection ws with
  | case1 => rfl
  | case2 w f hc => simp [takeBody, hc, Redirection.kept, Redirection.front?, Redirection.target?]
  | case3 w f hc t ws =>
      simp [takeBody, hc, Redirection.kept, Redirection.front?, Redirection.target?]
  | case4 w ws f t ht hc =>
      have hne : t.isEmpty = false := List.isEmpty_eq_false_iff.mpr ht
      simp [takeBody, hc, hne, Redirection.kept, Redirection.front?, Redirection.target?]
  | case5 w ws hc ih => simp [takeBody, hc, ih]

/-! ### The account of a scan -/

/-- The parts of the words as the scan takes them. -/
def account (ws : List (List Char)) : Account where
  announced := ws.head? = some ['e', 'n', 'v']
  assignments := (split ws).1
  body := (takeRedirection (split ws).2).1
  redirection := (takeRedirection (split ws).2).2.1
  trailing := (takeRedirection (split ws).2).2.2

lemma rest_account (ws : List (List Char)) : (account ws).rest = (split ws).2 :=
  (takeRedirection_words _).symm

/-- In front of the command are the announcement and the assignments. -/
lemma lead_account (ws : List (List Char)) :
    (account ws).lead ++ (split ws).2 = ws ∧ ∀ e ∈ (account ws).assignments, IsKey e.1 := by
  fun_cases split ws with
  | case1 => simp [Account.lead, account, split]
  | case2 rest =>
      obtain ⟨hrest, hkey⟩ := takeAssignments_words rest
      simpa [Account.lead, account, split, ← hrest] using hkey
  | case3 w rest hw hmem =>
      obtain ⟨hrest, hkey⟩ := takeAssignments_words (w :: rest)
      simpa [Account.lead, account, split, hw, hmem, ← hrest] using hkey
  | case4 w rest hw hmem => simp [Account.lead, account, split, hw, hmem]

/-- The scan makes its clause of these parts, and no word is in none of them. -/
theorem account_isOf (hws : ∀ w ∈ ws, IsWord w) : (account ws).IsOf ws (ofWords ws) where
  words_eq := by rw [rest_account, (lead_account ws).1]
  clause_eq := by
    rw [ofWords_eq, takeBody_eq]
    rfl
  isKey := (lead_account ws).2
  isParted := isParted_takeRedirection fun _ hw => hws _ (mem_of_mem_split hw)

variable {l : Account} {c : Clause}

/-- Announced assignments, and parts behind them that start with none, are found by the scan. -/
theorem ofWords_eq_clause (hannounced : l.announced = true) (hkey : ∀ e ∈ l.assignments, IsKey e.1)
    (hparted : Account.IsParted l.body l.redirection l.trailing)
    (hhead : ∀ w ∈ l.rest.head?, assignment? w = none) : ofWords (l.lead ++ l.rest) = l.clause := by
  have hsplit : split (l.lead ++ l.rest) = (l.assignments, l.rest) := by
    rw [Account.lead, hannounced]
    exact takeAssignments_map_append hkey hhead
  have hbody : takeBody l.rest = (l.body ++ l.redirection.kept, l.redirection.target?) := by
    rw [takeBody_eq, Account.rest, takeRedirection_append hparted]
  rw [ofWords_eq, hsplit, hbody]
  rfl

/-! ### Complete accounts -/

/-- The word `env` assigns nothing. -/
lemma not_isAssignment_env : ¬ IsAssignment ['e', 'n', 'v'] :=
  assignment?_eq_none_iff.mp (by decide)

namespace Account

/-- The words in front of the command assign something, but for the first one, which may announce
that. -/
lemma mem_lead (hkey : ∀ e ∈ l.assignments, IsKey e.1) (hw : w ∈ l.lead) :
    IsAssignment w ∨ (w = ['e', 'n', 'v'] ∧ l.announced = true) := by
  rw [lead, List.mem_append] at hw
  rcases hw with hw | hw
  · split_ifs at hw with hannounced
    · exact Or.inr ⟨List.mem_singleton.mp hw, hannounced⟩
    · simp at hw
  · obtain ⟨e, he, rfl⟩ := List.mem_map.mp hw
    exact Or.inl ⟨e, hkey e he, rfl⟩

/-- There is an announcement just if the first word in front of the command is one. -/
lemma announced_iff (hkey : ∀ e ∈ l.assignments, IsKey e.1) :
    l.announced = true ↔ l.lead.head? = some ['e', 'n', 'v'] := by
  constructor
  · intro hannounced
    simp [lead, hannounced]
  · intro hhead
    have hmem := List.mem_of_mem_head? hhead
    exact ((mem_lead hkey hmem).resolve_left not_isAssignment_env).2

lemma mem_tail_lead (hkey : ∀ e ∈ l.assignments, IsKey e.1) (hw : w ∈ l.lead.tail) :
    IsAssignment w := by
  have hmem : w ∈ l.assignments.map assignmentWord := by
    rw [lead] at hw
    split_ifs at hw with hannounced
    · exact hw
    · exact List.mem_of_mem_tail hw
  obtain ⟨e, he, rfl⟩ := List.mem_map.mp hmem
  exact ⟨e, hkey e he, rfl⟩

/-- Only the first word in front of the command is an announcement. -/
lemma front_eq_nil_of_lead_eq {front back : List (List Char)}
    (hkey : ∀ e ∈ l.assignments, IsKey e.1) (hlead : l.lead = front ++ ['e', 'n', 'v'] :: back) :
    front = [] := by
  cases front with
  | nil => rfl
  | cons v front =>
      have htail : ['e', 'n', 'v'] ∈ l.lead.tail := by simp [hlead]
      exact absurd (mem_tail_lead hkey htail) not_isAssignment_env

lemma lead_eq_nil_iff : l.lead = [] ↔ l.announced = false ∧ l.assignments = [] := by
  cases hannounced : l.announced <;> simp [lead, hannounced]

/-- The words in front of the command are an announcement and assignments in one way. -/
lemma eq_of_lead_eq {l' : Account} (hkey : ∀ e ∈ l.assignments, IsKey e.1)
    (hkey' : ∀ e ∈ l'.assignments, IsKey e.1) (hlead : l.lead = l'.lead) :
    l.announced = l'.announced ∧ l.assignments = l'.assignments := by
  have hannounced : l.announced = l'.announced := by
    rw [Bool.eq_iff_iff, announced_iff hkey, announced_iff hkey', hlead]
  rw [lead, lead, hannounced, List.append_cancel_left_eq] at hlead
  have htaken {es : List (String × String)} (hes : ∀ e ∈ es, IsKey e.1) :
      takeAssignments (es.map assignmentWord ++ []) = (es, []) :=
    takeAssignments_map_append hes nofun
  -- both lists are what the reader takes from the same words
  have heq := htaken hkey
  rw [hlead, htaken hkey'] at heq
  exact ⟨hannounced, (Prod.mk.inj heq).1.symm⟩

namespace IsOf

/-- The words from the command on fall into the parts of the account in one way. -/
lemma takeRedirection_rest (hl : l.IsOf ws c) :
    takeRedirection l.rest = (l.body, l.redirection, l.trailing) :=
  takeRedirection_append hl.isParted

lemma takeBody_rest (hl : l.IsOf ws c) :
    takeBody l.rest = (l.body ++ l.redirection.kept, l.redirection.target?) := by
  rw [takeBody_eq, hl.takeRedirection_rest]

/-- The words of the command are read back from the clause. -/
lemma words_command (hl : l.IsOf ws c) (hws : ∀ w ∈ ws, IsWord w) :
    words c.command.toList = l.body ++ l.redirection.kept := by
  have hrest : ∀ w ∈ l.rest, IsWord w := fun w hw =>
    hws w (hl.words_eq ▸ List.mem_append_right _ hw)
  have hplain := plain_takeBody hrest
  rw [hl.takeBody_rest] at hplain
  rw [← hl.clause_eq, clause, String.toList_ofList, Text.words_unwords fun w hw => (hplain w hw).1]

/-- The log is read back from the clause. -/
lemma log_eq (hl : l.IsOf ws c) : c.log = l.redirection.target?.map String.ofList := by
  rw [← hl.clause_eq]
  rfl

end IsOf

end Account

/-- A duplication does not redirect. -/
lemma not_infix_of_isDuplication (hw : isDuplication w = true) : ¬ ['>', '>'] <:+: w := by
  have hdigits {n : List Char} (hn : ∀ c ∈ n, c.isDigit = true) : n.count '>' = 0 :=
    List.count_eq_zero.mpr fun hmem => absurd (hn _ hmem) (by decide)
  unfold isDuplication at hw
  split at hw
  · next sign n hdrop =>
      simp only [Bool.and_eq_true, Bool.or_eq_true, List.all_eq_true] at hw
      have hn : n.count '>' = 0 := by
        rcases hw.2 with hclose | ⟨-, hn⟩
        · rw [eq_of_beq hclose]
          rfl
        · exact hdigits hn
      have hfront : (w.takeWhile Char.isDigit).count '>' = 0 :=
        hdigits (List.all_eq_true.mp List.all_takeWhile)
      -- a duplication has one sign and a redirection has two
      intro hpair
      have hcount : w.count '>' ≤ 1 := by
        rw [← List.takeWhile_append_dropWhile (p := Char.isDigit) (l := w), hdrop,
          List.count_append, hfront, List.count_cons, List.count_cons, hn]
        split_ifs <;> simp_all
      have htwo : 2 ≤ w.count '>' := hpair.sublist.count_le '>'
      omega
  · cases hw

/-- A redirection with a target starts with the word that has the sign, and the target is not that
word itself. -/
lemma words_of_target {r : Redirection} (ht : r.target? = some t) :
    ∃ y ys, r.words = y :: ys ∧ ['>', '>'] <:+: y ∧ (t = y → t ∈ ys) := by
  cases r with
  | none => cases ht
  | attached f u =>
      obtain rfl := Option.some.inj ht
      refine ⟨_, _, rfl, ⟨f, u, by simp⟩, fun heq => ?_⟩
      -- the target is shorter than the word that it is a part of
      have hlength := congrArg List.length heq
      simp at hlength
      omega
  | apart f u =>
      obtain rfl := Option.some.inj ht
      exact ⟨_, _, rfl, ⟨f, [], by simp⟩, fun _ => List.mem_singleton.mpr rfl⟩
  | dangling f => cases ht

/-- Behind a word that redirects are the words behind the redirection, after a target of its own. -/
lemma takeRedirection_cons_eq {a : List Char} {body trailing : List (List Char)} {r : Redirection}
    (hpair : ['>', '>'] <:+: a) (hparts : takeRedirection (a :: ws) = (body, r, trailing))
    (hr : ∀ f, r ≠ .dangling f) :
    ∃ t, r.target? = some t ∧ (ws = trailing ∨ ws = t :: trailing) := by
  unfold takeRedirection at hparts
  split at hparts
  · split at hparts <;> simp only [Prod.mk.injEq] at hparts <;> obtain ⟨-, rfl, rfl⟩ := hparts
    · exact absurd rfl (hr _)
    · exact ⟨_, rfl, Or.inr rfl⟩
  · simp only [Prod.mk.injEq] at hparts
    obtain ⟨-, rfl, rfl⟩ := hparts
    exact ⟨_, rfl, Or.inl rfl⟩
  · next hc => exact absurd hpair (Text.cutAtPair_eq_none_iff.mp hc)

/-- What is in front of the command of an account is not longer than what the scan takes. -/
lemma eq_nil_of_lead_eq_append {back : List (List Char)} (hl : l.IsOf ws c)
    (hlead : l.lead = (account ws).lead ++ back) (hrest : (account ws).rest = back ++ l.rest) :
    back = [] := by
  cases back with
  | nil => rfl
  | cons a back =>
      -- the scan leaves no assignment in front of the command
      have hhead : a ∈ (split ws).2.head? := by
        rw [← rest_account, hrest]
        rfl
      have hassign : ¬ IsAssignment a :=
        assignment?_eq_none_iff.mp (assignment?_of_head?_split hhead)
      have hmem : a ∈ l.lead := by simp [hlead]
      obtain hassign' | ⟨rfl, -⟩ := Account.mem_lead hl.isKey hmem
      · exact absurd hassign' hassign
      · -- an announcement at the front is one for the scan as well
        have hfront := Account.front_eq_nil_of_lead_eq hl.isKey hlead
        have hws := (lead_account ws).1
        rw [hfront, ← rest_account, hrest, List.nil_append] at hws
        have hannounced : (account ws).announced = true := by simp [account, ← hws]
        rw [Account.lead_eq_nil_iff, hannounced] at hfront
        exact absurd hfront.1 (by decide)

/-- A map that something is assigned in is not empty. -/
lemma eq_nil_of_ofList_eq_empty {es : List (String × String)}
    (h : Variables.ofList es = .empty) : es = [] := by
  obtain rfl | ⟨es, e, rfl⟩ := List.eq_nil_or_concat es
  · rfl
  · have hvalue : (Variables.ofList (es.concat e)).get? e.1 = some e.2 := by
      rw [Variables.ofList, List.concat_eq_append, List.foldl_append, List.foldl_cons,
        List.foldl_nil, Variables.get?_insert, if_pos rfl]
    rw [h] at hvalue
    cases hvalue

/-- The command of a scan starts with no assignment. -/
lemma isBody_account (hws : ∀ w ∈ ws, IsWord w) :
    IsBody ((account ws).body ++ (account ws).redirection.kept) := by
  have hhead : ∀ w ∈ (split ws).2.head?, assignment? w = none := fun _ =>
    assignment?_of_head?_split
  have hbody := isBody_takeBody (fun w hw => hws w (mem_of_mem_split hw)) hhead
  rwa [takeBody_eq] at hbody

section Shorter

variable {a : List Char} {back : List (List Char)}

/-- Words that the scan takes in front of the command are not in the command of an account. -/
lemma infix_of_lead_account_eq_append (hws : ∀ w ∈ ws, IsWord w) (hl : l.IsOf ws (ofWords ws))
    (hlead : (account ws).lead = l.lead ++ a :: back)
    (hrest : l.rest = a :: (back ++ (account ws).rest)) : ['>', '>'] <:+: a := by
  have hr := account_isOf hws
  have hcommand : l.body ++ l.redirection.kept
      = (account ws).body ++ (account ws).redirection.kept :=
    (hl.words_command hws).symm.trans (hr.words_command hws)
  by_contra hpair
  have hparts := hl.takeRedirection_rest
  rw [hrest, takeRedirection, Text.cutAtPair_eq_none_iff.mpr hpair] at hparts
  obtain ⟨hbody, hredirection⟩ := Prod.mk.inj hparts
  -- a word of the command: it assigns nothing, so it is the announcement
  have hassign : ¬ IsAssignment a := by
    refine assignment?_eq_none_iff.mp ((isBody_account hws).assignment?_eq a ?_)
    rw [← hcommand, ← hbody]
    rfl
  have hmem : a ∈ (account ws).lead := by simp [hlead]
  obtain ⟨rfl, -⟩ := (Account.mem_lead hr.isKey hmem).resolve_left hassign
  have hfront := Account.front_eq_nil_of_lead_eq hr.isKey hlead
  -- nothing is assigned, and the command that is left is longer than that of the scan
  have hl_nil : l.assignments = [] := (Account.lead_eq_nil_iff.mp hfront).2
  have hr_nil : (account ws).assignments = [] := by
    refine eq_nil_of_ofList_eq_empty ?_
    have henvironment := congrArg Clause.environment (hr.clause_eq.trans hl.clause_eq.symm)
    rw [Account.clause, Account.clause, hl_nil] at henvironment
    exact henvironment
  have hback : back = [] := by
    rw [hfront, List.nil_append, Account.lead, hr_nil] at hlead
    split_ifs at hlead
    · exact (List.cons.inj hlead).2.symm
    · cases hlead
  subst hback
  rw [List.nil_append, hr.takeRedirection_rest] at hbody hredirection
  rw [← hbody, (Prod.mk.inj hredirection).1] at hcommand
  have hlength := congrArg List.length hcommand
  simp at hlength

/-- Words that the scan takes in front of the command do not redirect in a complete account. -/
lemma not_infix_of_lead_account_eq_append (hws : ∀ w ∈ ws, IsWord w)
    (hl : l.IsOf ws (ofWords ws)) (hcomplete : l.IsComplete)
    (hrest : l.rest = a :: (back ++ (account ws).rest)) : ¬ ['>', '>'] <:+: a := by
  have hr := account_isOf hws
  have hlog : l.redirection.target? = (account ws).redirection.target? :=
    Option.map_injective (fun _ _ => String.ofList_inj.mp) (hl.log_eq.symm.trans hr.log_eq)
  have htrailing : ∀ w ∈ l.trailing, ¬ ['>', '>'] <:+: w := fun w hw =>
    not_infix_of_isDuplication (hcomplete.duplicates w hw)
  intro hpair
  have hparts := hl.takeRedirection_rest
  rw [hrest] at hparts
  obtain ⟨t, ht, hvs⟩ := takeRedirection_cons_eq hpair hparts hcomplete.redirects
  -- the scan redirects as well, and the word by which it does so is left over in the account
  obtain ⟨y, ys, hy, hypair, hty⟩ := words_of_target (hlog ▸ ht)
  rw [Account.rest, hy, ← List.append_assoc] at hvs
  rcases hvs with hvs | hvs
  · exact htrailing y (by simp [← hvs]) hypair
  · cases hfront : back ++ (account ws).body with
    | nil =>
        rw [hfront] at hvs
        obtain ⟨rfl, hys⟩ := List.cons.inj hvs
        exact htrailing y (hys ▸ List.mem_append_left _ (hty rfl)) hypair
    | cons b bs =>
        rw [hfront] at hvs
        exact htrailing y (by simp [← (List.cons.inj hvs).2]) hypair

end Shorter

/-- In a complete account the command starts where it does in the scan. -/
lemma lead_account_eq (hws : ∀ w ∈ ws, IsWord w) (hl : l.IsOf ws (ofWords ws))
    (hcomplete : l.IsComplete) :
    (account ws).lead = l.lead ∧ (account ws).rest = l.rest := by
  have hwords := (account_isOf hws).words_eq.trans hl.words_eq.symm
  -- the same words are parted twice, so what is in front is longer in one of the accounts
  obtain ⟨back, hlead, hrest⟩ | ⟨back, hlead, hrest⟩ := List.append_eq_append_iff.mp hwords
  · obtain rfl := eq_nil_of_lead_eq_append hl hlead hrest
    exact ⟨by simpa using hlead.symm, hrest⟩
  · cases back with
    | nil => exact ⟨by simpa using hlead, hrest.symm⟩
    | cons a back =>
        have hpair := infix_of_lead_account_eq_append hws hl hlead hrest
        exact absurd hpair (not_infix_of_lead_account_eq_append hws hl hcomplete hrest)

/-- If any complete account makes the clause that the scan makes, the account of the scan is
complete. -/
theorem exists_isComplete_iff (hws : ∀ w ∈ ws, IsWord w) :
    (∃ l : Account, l.IsOf ws (ofWords ws) ∧ l.IsComplete) ↔ (account ws).IsComplete := by
  constructor
  · rintro ⟨l, hl, hcomplete⟩
    obtain ⟨hlead, hrest⟩ := lead_account_eq hws hl hcomplete
    -- from the command on both accounts part the same words, which is possible in one way
    have hparts := (account_isOf hws).takeRedirection_rest
    rw [hrest, hl.takeRedirection_rest, Prod.mk.injEq, Prod.mk.injEq] at hparts
    obtain ⟨-, hredirection, htrailing⟩ := hparts
    obtain ⟨hannounced, hassignments⟩ :=
      Account.eq_of_lead_eq (account_isOf hws).isKey hl.isKey hlead
    have hclause : (account ws).clause = l.clause :=
      (account_isOf hws).clause_eq.trans hl.clause_eq.symm
    refine ⟨?_, ?_, hredirection ▸ hcomplete.redirects, htrailing ▸ hcomplete.duplicates⟩
    · rw [hannounced, hassignments]
      exact hcomplete.assigns
    · rw [hassignments, hclause]
      exact hcomplete.keeps
  · intro hcomplete
    exact ⟨account ws, account_isOf hws, hcomplete⟩

/-! ### Chain signs -/

/-- The signs between stages of a command. -/
def chainSigns (ws : List (List Char)) : Nat := ws.count ['&', '&']

lemma chainSigns_append (vs ws : List (List Char)) :
    chainSigns (vs ++ ws) = chainSigns vs + chainSigns ws := List.count_append

/-- No chain sign stands in front of the command. -/
lemma chainSigns_lead (hkey : ∀ e ∈ l.assignments, IsKey e.1) : chainSigns l.lead = 0 := by
  refine List.count_eq_zero.mpr fun hmem => ?_
  obtain hassign | ⟨hannounce, -⟩ := Account.mem_lead hkey hmem
  · exact absurd hassign (assignment?_eq_none_iff.mp (by decide))
  · exact absurd hannounce (by decide)

/-- Where the chain signs of the words are. -/
lemma chainSigns_eq (hl : l.IsOf ws c) : chainSigns ws
    = chainSigns l.body + chainSigns l.redirection.words + chainSigns l.trailing := by
  rw [← hl.words_eq, chainSigns_append, chainSigns_lead hl.isKey, Account.rest, chainSigns_append,
    chainSigns_append]
  omega

lemma chainSigns_trailing (hcomplete : l.IsComplete) : chainSigns l.trailing = 0 :=
  List.count_eq_zero.mpr fun hmem => absurd (hcomplete.duplicates _ hmem) (by decide)

/-- Every word of a clause is announcement, assignment, command, redirection, or behind that. The
scan has a place for all of them, that is there is a complete account of its clause, exactly if the
word `env` announces something, no variable is assigned another value later on, the redirection has
a target, and only duplications of descriptors are behind it.

In the command of a document the stages are kept of which the chain sign is in front of the
redirection. The others are lost; in a complete account there are none behind the target. -/
theorem scan_accounts (s : List Char) :
    (account (words s)).IsOf (words s) (scan s)
    ∧ ((∃ l : Account, l.IsOf (words s) (scan s) ∧ l.IsComplete)
      ↔ (account (words s)).IsComplete)
    ∧ ∀ (e : Value × Value) (service : Service), serviceOfEntry e = .ok service →
      textAt e.2 "command" = some (String.ofList s) →
      words service.command.toList
        = (account (words s)).body ++ (account (words s)).redirection.kept
      ∧ chainSigns (words s) = chainSigns (account (words s)).body
        + chainSigns (account (words s)).redirection.words
        + chainSigns (account (words s)).trailing
      ∧ ((account (words s)).IsComplete → chainSigns (account (words s)).trailing = 0) := by
  have hws : ∀ w ∈ words s, IsWord w := fun _ => Text.isWord_of_mem_words
  have haccount := account_isOf hws
  refine ⟨haccount, exists_isComplete_iff hws, fun e service he htext => ?_⟩
  obtain ⟨command, hcommand, hmain, -, -⟩ := serviceOfEntry_eq_ok he
  obtain rfl : command = String.ofList s := Option.some.inj (hcommand.symm.trans htext)
  rw [hmain, String.toList_ofList]
  exact ⟨haccount.words_command hws, chainSigns_eq haccount, chainSigns_trailing⟩

/-- An entry of a document whose command goes on behind its redirection. -/
def chainedEntry : Value × Value :=
  (.str "web", .map [(.str "command", .str "./run >> run.log && ./after")])

/-- The service that is read from it. -/
def chainedService : Service where
  name := "web"
  command := "./run"
  options := { logFile := some "run.log" }

/-- The stage behind the redirection is lost. -/
theorem scan_loses_stage :
    serviceOfEntry chainedEntry = .ok chainedService
    ∧ (¬ ∃ l : Account, l.IsOf (words "./run >> run.log && ./after".toList)
        (scan "./run >> run.log && ./after".toList) ∧ l.IsComplete)
    ∧ words chainedService.command.toList = ["./run".toList]
    ∧ chainSigns (words "./run >> run.log && ./after".toList) = 1
    ∧ ¬ (account (words "env -i ./run".toList)).IsComplete
    ∧ ¬ (account (words "env A=1 A=2 ./run".toList)).IsComplete
    ∧ (account (words "env A=1 ./run 2>> run.log 2>&1".toList)).IsComplete := by
  have hentry : serviceOfEntry chainedEntry = .ok chainedService := by decide +kernel
  have htext : textAt chainedEntry.2 "command"
      = some (String.ofList "./run >> run.log && ./after".toList) := by decide +kernel
  obtain ⟨-, hcomplete, hsigns⟩ := scan_accounts "./run >> run.log && ./after".toList
  obtain ⟨hcommand, hcount, -⟩ := hsigns chainedEntry chainedService hentry htext
  refine ⟨hentry, fun hl => ?_, ?_, ?_, by decide +kernel, by decide +kernel, by decide +kernel⟩
  · exact absurd (hcomplete.mp hl) (by decide +kernel)
  · rw [hcommand]
    decide +kernel
  · rw [hcount]
    decide +kernel

end ProcUnits.Procfile.Clause
