import ProcUnits.Proofs.Procfile.Grammar
import ProcUnits.Proofs.Text.Retabbed

/-!
Legacy lines in which spaces and tabs stand for each other. Section 4.2 of the specification makes
no difference between them.

Such lines have the same label and as many pieces, with the same words in each piece. Where they are
not read alike one of them has a tab behind `cd`: the reader asks for a space there, and takes the
piece for a command.

* `linePieces`: the pieces behind the label of a line, and `linePieces_retabbed`: those of such
  lines differ in no more than the lines do;
* `serviceOfLine_eq_ok_iff_pieces`: what a line is read as, by its pieces;
* `Declaration.Retabbed`: the parts of such lines, and `Declaration.Retabbed.service_eq`: they
  declare the same service;
* `LosesDir`, `losesDir_iff`: a tab behind `cd`, and that nothing else keeps a piece from changing
  the directory;
* `serviceOfLine_of_retabbed`, `not_sameOutcome`: what lines are read as if both or none changes the
  directory, and if one of them does;
* `serviceOfLine_retabbed_iff`: when such lines are read alike.
-/

namespace ProcUnits.Procfile

open Text (IsWord Retabbed isBlank trim)

variable {line line' label fragment p q : List Char} {ps qs : List (List Char)} {s : Service}

/-! ### Pieces -/

/-- The pieces behind the label of a line. -/
def linePieces (line : List Char) : List (List Char) :=
  match labelled? line with
  | some (_, fragment) => piecesOf fragment
  | none => []

/-- The first piece of the line changes the directory. -/
def ChangesDir (line : List Char) : Prop := ∃ p ∈ (linePieces line).head?, IsChangeDir p

/-- No blank stands in the directory that the line names, if it names one. -/
def HasPlainDir (line : List Char) : Prop :=
  ∀ p ∈ (linePieces line).head?, IsChangeDir p → ∀ c ∈ trim (p.drop 2), isBlank c = false

/-- In the first line a space stands behind `cd`, where in the second one there is a tab. -/
def LosesDir (line line' : List Char) : Prop :=
  ∃ p ∈ (linePieces line).head?, ∃ q ∈ (linePieces line').head?,
    "cd ".toList <+: p ∧ "cd\t".toList <+: q

lemma linePieces_eq (h : labelled? line = some (label, fragment)) :
    linePieces line = piecesOf fragment := by
  rw [linePieces, h]

lemma exists_labelled? (h : linePieces line ≠ []) :
    ∃ label fragment, labelled? line = some (label, fragment) := by
  cases hlabel : labelled? line with
  | none => simp [linePieces, hlabel] at h
  | some labelled => exact ⟨labelled.1, labelled.2, rfl⟩

/-- The lines have the same label. -/
lemma labelled?_retabbed (h : Retabbed line line')
    (hlabel : labelled? line = some (label, fragment)) :
    ∃ fragment', labelled? line' = some (label, fragment') ∧ Retabbed fragment fragment' := by
  rw [labelled?] at hlabel
  split at hlabel
  · cases hlabel
  · next lab rest hcut =>
      simp only at hlabel
      split_ifs at hlabel with hbad
      cases hlabel
      obtain ⟨lab', rest', hcut', hlab, hrest⟩ := h.cutAt (by decide) hcut
      have hblank : ∀ c ∈ label, isBlank c = false := by
        simp only [Bool.or_eq_true, not_or, List.any_eq_true, not_exists, not_and,
          Bool.not_eq_true] at hbad
        exact hbad.1.2
      obtain rfl := hlab.eq_of_blankless hblank
      refine ⟨Text.trimStart rest', ?_, hrest.trimStart⟩
      have hempty : (Text.trimStart rest').isEmpty = (Text.trimStart rest).isEmpty := by
        rw [Bool.eq_iff_iff, List.isEmpty_iff, List.isEmpty_iff]
        exact hrest.trimStart.eq_nil_iff.symm
      rw [labelled?, hcut']
      simp only [hempty, if_neg hbad]

lemma piecesOf_retabbed {fragment' : List Char} (h : Retabbed fragment fragment') :
    List.Forall₂ Retabbed (piecesOf fragment) (piecesOf fragment') := by
  rw [piecesOf, piecesOf, List.forall₂_map_left_iff, List.forall₂_map_right_iff]
  exact (h.splitAtPair (by decide)).imp fun _ _ hp => hp.trim

lemma linePieces_retabbed (h : Retabbed line line') :
    List.Forall₂ Retabbed (linePieces line) (linePieces line') := by
  cases hlabel : labelled? line with
  | some labelled =>
      obtain ⟨label, fragment⟩ := labelled
      obtain ⟨fragment', hlabel', hfragment⟩ := labelled?_retabbed h hlabel
      rw [linePieces_eq hlabel, linePieces_eq hlabel']
      exact piecesOf_retabbed hfragment
  | none =>
      cases hlabel' : labelled? line' with
      | some labelled =>
          obtain ⟨label, fragment⟩ := labelled
          obtain ⟨fragment', hsome, -⟩ := labelled?_retabbed h.symm hlabel'
          rw [hlabel] at hsome
          cases hsome
      | none =>
          rw [linePieces, linePieces, hlabel, hlabel']
          exact .nil

lemma nil_mem_iff (h : List.Forall₂ Retabbed ps qs) : [] ∈ ps ↔ [] ∈ qs := by
  induction h with
  | nil => rfl
  | @cons p q ps qs hp _ ih =>
      rw [List.mem_cons, List.mem_cons, ih, eq_comm, hp.eq_nil_iff, eq_comm]

/-! ### The piece that changes the directory -/

lemma ne_nil_of_isChangeDir (h : IsChangeDir p) : p ≠ [] := by
  rintro rfl
  rcases h with h | h
  · exact absurd h (by decide)
  · exact absurd (List.eq_nil_of_prefix_nil h) (by decide)

/-- The piece that changes the directory is the first one. -/
lemma isChangeDir_head {x : Declaration} (hpieces : linePieces line = x.pieces)
    (hcd : ChangesDir line) (hp : p ∈ x.changeDir) :
    p ∈ (linePieces line).head? ∧ IsChangeDir p := by
  have hhead : (linePieces line).head? = some p := by
    rw [hpieces, Declaration.pieces, show x.changeDir = some p from hp]
    rfl
  obtain ⟨q, hq, hdir⟩ := hcd
  obtain rfl : p = q := Option.some.inj (hhead.symm.trans hq)
  exact ⟨hhead, hdir⟩

lemma head?_retabbed (h : Retabbed line line') (hp : p ∈ (linePieces line).head?) :
    ∃ q ∈ (linePieces line').head?, Retabbed p q := by
  have hps := linePieces_retabbed h
  cases hpieces : linePieces line with
  | nil => simp [hpieces] at hp
  | cons p' ps =>
      obtain rfl : p' = p := by simpa [hpieces] using hp
      rw [hpieces] at hps
      obtain ⟨q, qs, hpq, -, hqs⟩ := List.forall₂_cons_left_iff.mp hps
      exact ⟨q, by rw [hqs]; rfl, hpq⟩

lemma not_isChangeDir_of_tab (h : "cd\t".toList <+: p) : ¬ IsChangeDir p := by
  obtain ⟨r, rfl⟩ := h
  rintro (h | h)
  · exact absurd (congrArg List.length h) (by simp)
  · simp at h

/-- A piece stops changing the directory when a tab comes in the place of its first space. -/
lemma losesDir_iff (h : Retabbed line line') :
    LosesDir line line' ↔ ChangesDir line ∧ ¬ ChangesDir line' := by
  constructor
  · rintro ⟨p, hp, q, hq, hspace, htab⟩
    refine ⟨⟨p, hp, Or.inr hspace⟩, ?_⟩
    rintro ⟨q', hq', hcd⟩
    obtain rfl : q = q' := Option.some.inj (hq.symm.trans hq')
    exact not_isChangeDir_of_tab htab hcd
  · rintro ⟨⟨p, hp, hcd⟩, hcd'⟩
    obtain ⟨q, hq, hpq⟩ := head?_retabbed h hp
    have hnot : ¬ IsChangeDir q := fun hq' => hcd' ⟨q, hq, hq'⟩
    rcases hcd with rfl | hspace
    · have hword : IsWord "cd".toList := by decide
      exact absurd (Or.inl (hpq.eq_of_blankless hword.2).symm) hnot
    · refine ⟨p, hp, q, hq, hspace, ?_⟩
      obtain ⟨r, rfl⟩ := hspace
      -- the letters are the same in both pieces, so the space is what a tab stands for
      obtain _ | ⟨hc, _ | ⟨hd, _ | ⟨hx, hr⟩⟩⟩ := hpq
      obtain rfl := hc.eq_of_not_isSpacing (by decide)
      obtain rfl := hd.eq_of_not_isSpacing (by decide)
      rcases hx with rfl | ⟨-, rfl | rfl⟩
      · exact absurd (Or.inr ⟨_, rfl⟩) hnot
      · exact absurd (Or.inr ⟨_, rfl⟩) hnot
      · exact ⟨_, rfl⟩

/-- A line is read as what its pieces declare. -/
lemma serviceOfLine_eq_ok_iff_pieces : serviceOfLine line = .ok s
    ↔ ∃ fragment, ∃ x : Declaration, labelled? line = some (x.label, fragment)
      ∧ linePieces line = x.pieces ∧ (x.changeDir.isSome = true ↔ ChangesDir line)
      ∧ [] ∉ linePieces line ∧ (x.post.isSome = true → x.pre.isSome = true)
      ∧ x.service = s := by
  cases hlabel : labelled? line with
  | none =>
      rw [serviceOfLine, hlabel]
      simp
  | some labelled =>
      obtain ⟨label, fragment⟩ := labelled
      have heq := linePieces_eq hlabel
      rw [serviceOfLine_of_labelled? hlabel, ← heq]
      constructor
      · rintro ⟨x, rfl, hpieces, hcd, hfirst, hstages, hpost, hs⟩
        refine ⟨fragment, x, rfl, hpieces, ?_, ?_, hpost, hs⟩
        · rw [ChangesDir, hpieces, Declaration.pieces]
          cases hc : x.changeDir with
          | none => simpa [hc] using hfirst hc
          | some p => simpa [hc] using hcd p hc
        · rw [hpieces, Declaration.pieces, List.mem_append, not_or]
          exact ⟨fun hmem => ne_nil_of_isChangeDir (hcd [] (by simpa using hmem)) rfl,
            fun hmem => hstages [] hmem rfl⟩
      · rintro ⟨fragment', x, hsome, hpieces, hcd, hnil, hpost, hs⟩
        obtain ⟨rfl, rfl⟩ := Prod.mk.inj (Option.some.inj hsome)
        refine ⟨x, rfl, hpieces, fun p hp => ?_, fun hc p hp hdir => ?_, fun p hp => ?_, hpost, hs⟩
        · exact (isChangeDir_head hpieces (hcd.mp (Option.isSome_of_mem hp)) hp).2
        · have hhead : p ∈ (linePieces line).head? := by
            rwa [hpieces, Declaration.pieces, hc]
          simp [hc, show ChangesDir line from ⟨p, hhead, hdir⟩] at hcd
        · rintro rfl
          rw [hpieces] at hnil
          exact hnil (List.mem_append_right _ hp)

/-! ### Declarations -/

/-- What stands at the front of a list as an option does so in a related list. -/
lemma forall₂_toList_append {α : Type} {R : α → α → Prop} {o : Option α} {xs ys : List α}
    (h : List.Forall₂ R (o.toList ++ xs) ys) :
    ∃ o' ys', ys = Option.toList o' ++ ys' ∧ Option.Rel R o o' ∧ List.Forall₂ R xs ys' := by
  cases o with
  | none => exact ⟨none, ys, rfl, .none, h⟩
  | some a =>
      obtain _ | ⟨hab, hxs⟩ := h
      exact ⟨some _, _, rfl, .some hab, hxs⟩

lemma isSome_eq_of_rel {α : Type} {R : α → α → Prop} {o o' : Option α} (h : Option.Rel R o o') :
    o.isSome = o'.isSome := by
  cases h <;> rfl

namespace Declaration

variable {x y : Declaration}

/-- The parts are written with other spaces and tabs. -/
structure Retabbed (x y : Declaration) : Prop where
  label : x.label = y.label
  changeDir : Option.Rel Text.Retabbed x.changeDir y.changeDir
  pre : Option.Rel Text.Retabbed x.pre y.pre
  main : Text.Retabbed x.main y.main
  post : Option.Rel Text.Retabbed x.post y.post

/-- Pieces like those of a declaration are the pieces of one like it. -/
lemma exists_retabbed (h : List.Forall₂ Text.Retabbed x.pieces ps) :
    ∃ y : Declaration, ps = y.pieces ∧ x.Retabbed y := by
  rw [pieces, stages] at h
  obtain ⟨changeDir, qs, rfl, hcd, hqs⟩ := forall₂_toList_append h
  obtain ⟨pre, rs, rfl, hpre, hrs⟩ := forall₂_toList_append hqs
  obtain _ | ⟨hmain, hpost⟩ := hrs
  rw [← List.append_nil x.post.toList] at hpost
  obtain ⟨post, _, rfl, hpost', hnil⟩ := forall₂_toList_append hpost
  obtain rfl := List.forall₂_nil_left_iff.mp hnil
  rw [List.append_nil]
  exact ⟨⟨x.label, changeDir, pre, _, post⟩, rfl, rfl, hcd, hpre, hmain, hpost'⟩

/-- Commands have the same words. -/
lemma map_command_eq {o o' : Option (List Char)} (h : Option.Rel Text.Retabbed o o') :
    o.map (fun p => (Clause.scan p).command) = o'.map fun p => (Clause.scan p).command := by
  cases h with
  | none => rfl
  | some h => rw [Option.map_some, Option.map_some, Clause.scan_congr h.words_eq]

/-- A directory is the same unless there is a blank in it. -/
lemma map_directory_eq {o o' : Option (List Char)} (h : Option.Rel Text.Retabbed o o')
    (hdir : ∀ p ∈ o, ∀ c ∈ trim (p.drop 2), isBlank c = false) :
    o.map (fun p => trim (p.drop 2)) = o'.map fun p => trim (p.drop 2) := by
  cases h with
  | none => rfl
  | some h =>
      have hsame := Text.Retabbed.trim (List.forall₂_drop 2 h)
      rw [Option.map_some, Option.map_some, hsame.eq_of_blankless (hdir _ rfl)]

/-- They declare the same service. -/
lemma Retabbed.service_eq (h : x.Retabbed y)
    (hdir : ∀ p ∈ x.changeDir, ∀ c ∈ trim (p.drop 2), isBlank c = false) :
    x.service = y.service := by
  rw [service, service, workingDir, workingDir, h.label, map_directory_eq h.changeDir hdir,
    map_command_eq h.pre, map_command_eq h.post, Clause.scan_congr h.main.words_eq]

/-- A service shows how many commands were declared. -/
lemma length_stages (x : Declaration) : x.stages.length
    = x.service.pre.isSome.toNat + 1 + x.service.post.isSome.toNat := by
  obtain ⟨label, changeDir, pre, main, post⟩ := x
  cases pre <;> cases post <;> rfl

lemma length_pieces (x : Declaration) :
    x.pieces.length = x.changeDir.isSome.toNat + x.stages.length := by
  rw [pieces, List.length_append]
  cases x.changeDir <;> rfl

/-- One to three pieces are the commands of a declaration, with or without a piece in front. -/
lemma exists_stages_eq (label : List Char) (c : Option (List Char)) (hne : ps ≠ [])
    (hlength : ps.length ≤ 3) : ∃ x : Declaration, x.label = label ∧ x.changeDir = c
      ∧ x.stages = ps ∧ (x.post.isSome = true → x.pre.isSome = true) := by
  match ps, hne, hlength with
  | [main], _, _ => exact ⟨⟨label, c, none, main, none⟩, rfl, rfl, rfl, by simp⟩
  | [pre, main], _, _ => exact ⟨⟨label, c, some pre, main, none⟩, rfl, rfl, rfl, by simp⟩
  | [pre, main, post], _, _ =>
      exact ⟨⟨label, c, some pre, main, some post⟩, rfl, rfl, rfl, by simp⟩
  | _ :: _ :: _ :: _ :: _, _, h => exact absurd h (by simp)

end Declaration

/-! ### Lines -/

/-- A line that is read has no empty piece, and not more than four pieces. -/
lemma pieces_of_serviceOfLine (h : serviceOfLine line = .ok s) :
    [] ∉ linePieces line ∧ (linePieces line).length ≤ 4 := by
  obtain ⟨fragment, x, -, hpieces, -, hnil, -, rfl⟩ := serviceOfLine_eq_ok_iff_pieces.mp h
  refine ⟨hnil, ?_⟩
  have hcd := Bool.toNat_le x.changeDir.isSome
  have hpre := Bool.toNat_le x.service.pre.isSome
  have hpost := Bool.toNat_le x.service.post.isSome
  rw [hpieces, x.length_pieces, x.length_stages]
  omega

/-- Lines of which both or none changes the directory are read as the same service. -/
lemma serviceOfLine_of_retabbed (h : Retabbed line line')
    (hcd : ChangesDir line ↔ ChangesDir line') (hdir : HasPlainDir line)
    (hs : serviceOfLine line = .ok s) : serviceOfLine line' = .ok s := by
  obtain ⟨fragment, x, hlabel, hpieces, hx, hnil, hpost, rfl⟩ :=
    serviceOfLine_eq_ok_iff_pieces.mp hs
  obtain ⟨fragment', hlabel', -⟩ := labelled?_retabbed h hlabel
  have hps := linePieces_retabbed h
  obtain ⟨y, hy, hxy⟩ := Declaration.exists_retabbed (hpieces ▸ hps)
  have hblankless : ∀ p ∈ x.changeDir, ∀ c ∈ trim (p.drop 2), isBlank c = false := by
    intro p hp
    obtain ⟨hhead, hchange⟩ := isChangeDir_head hpieces (hx.mp (Option.isSome_of_mem hp)) hp
    exact hdir p hhead hchange
  refine serviceOfLine_eq_ok_iff_pieces.mpr ⟨fragment', y, hxy.label ▸ hlabel', hy, ?_,
    (nil_mem_iff hps).not.mp hnil, ?_, (hxy.service_eq hblankless).symm⟩
  · rw [← hcd, ← hx, isSome_eq_of_rel hxy.changeDir]
  · rwa [← isSome_eq_of_rel hxy.post, ← isSome_eq_of_rel hxy.pre]

/-- The directories are the same, so there is no blank in either or in both. -/
lemma HasPlainDir.retabbed (hdir : HasPlainDir line) (h : Retabbed line line')
    (hcd : ChangesDir line ↔ ChangesDir line') : HasPlainDir line' := by
  intro q hq hqcd
  obtain ⟨p, hp, hqp⟩ := head?_retabbed h.symm hq
  obtain ⟨p', hp', hpcd⟩ := hcd.mpr ⟨q, hq, hqcd⟩
  obtain rfl : p = p' := Option.some.inj (hp.symm.trans hp')
  have hplain := hdir p hp hpcd
  have hsame := Text.Retabbed.trim (List.forall₂_drop 2 hqp.symm)
  rwa [hsame.eq_of_blankless hplain] at hplain

/-- A line with one to three commands is read if no piece is empty. -/
lemma exists_serviceOfLine (hlabel : labelled? line = some (label, fragment))
    (c : Option (List Char)) (hpieces : linePieces line = c.toList ++ ps)
    (hcd : c.isSome = true ↔ ChangesDir line) (hnil : [] ∉ linePieces line) (hne : ps ≠ [])
    (hlength : ps.length ≤ 3) : ∃ s, serviceOfLine line = .ok s := by
  obtain ⟨x, rfl, rfl, rfl, hpost⟩ := Declaration.exists_stages_eq label c hne hlength
  exact ⟨x.service,
    serviceOfLine_eq_ok_iff_pieces.mpr ⟨fragment, x, hlabel, hpieces, hcd, hnil, hpost, rfl⟩⟩

/-- A line that changes the directory is not read as one that does not. -/
lemma not_sameOutcome (h : Retabbed line line') (hcd : ChangesDir line)
    (hcd' : ¬ ChangesDir line') (hnil : [] ∉ linePieces line)
    (hlength : (linePieces line).length ≤ 4) :
    ¬ SameOutcome Eq (serviceOfLine line) (serviceOfLine line') := by
  rw [sameOutcome_eq_iff]
  intro hsame
  have hps := linePieces_retabbed h
  obtain ⟨p, ps, hpieces⟩ : ∃ p ps, linePieces line = p :: ps := by
    obtain ⟨p, hp, -⟩ := hcd
    exact ⟨p, _, (List.cons_head?_tail hp).symm⟩
  obtain ⟨q, qs, -, hqs, hpieces'⟩ := List.forall₂_cons_left_iff.mp (hpieces ▸ hps)
  obtain ⟨label, fragment, hlabel⟩ := exists_labelled? (hpieces ▸ List.cons_ne_nil p ps)
  obtain ⟨fragment', hlabel', -⟩ := labelled?_retabbed h hlabel
  -- one of them is read, as the other one has a piece more or less that is a command
  obtain ⟨s, hs, hs'⟩ : ∃ s, serviceOfLine line = .ok s ∧ serviceOfLine line' = .ok s := by
    by_cases hfew : ps.length ≤ 2
    · have hlength' : (q :: qs).length ≤ 3 := by
        rw [List.length_cons, ← hqs.length_eq]
        omega
      obtain ⟨s, hs⟩ := exists_serviceOfLine hlabel' none hpieces' (by simpa using hcd')
        ((nil_mem_iff hps).not.mp hnil) (List.cons_ne_nil q qs) hlength'
      exact ⟨s, (hsame s).mpr hs, hs⟩
    · rw [hpieces, List.length_cons] at hlength
      have hne : ps ≠ [] := by
        rintro rfl
        simp at hfew
      obtain ⟨s, hs⟩ := exists_serviceOfLine hlabel (some p) hpieces (by simpa using hcd) hnil hne
        (by omega)
      exact ⟨s, hs, (hsame s).mp hs⟩
  obtain ⟨_, x, -, hx, hxcd, -, -, rfl⟩ := serviceOfLine_eq_ok_iff_pieces.mp hs
  obtain ⟨_, y, -, hy, hycd, -, -, hservice⟩ := serviceOfLine_eq_ok_iff_pieces.mp hs'
  -- one service has the same commands on both lines, but one line has a piece more
  have hlengths := hps.length_eq
  have hxdir : x.changeDir.isSome = true := hxcd.mpr hcd
  have hydir : y.changeDir.isSome = false := Bool.eq_false_iff.mpr (hycd.not.mpr hcd')
  rw [hx, hy, x.length_pieces, y.length_pieces, x.length_stages, y.length_stages, hservice, hxdir,
    hydir] at hlengths
  simp at hlengths

/-- Lines that differ in spaces and tabs alone, of which the first names no directory with a blank
in it, are both not read or read as the same service, unless it is a tab that stands behind `cd` in
one of them and a space in the other. Then one line has a command more than the other, and the
outcome is the same only if both are not read, as some piece is empty or there are too many. -/
theorem serviceOfLine_retabbed_iff (h : Retabbed line line') (hdir : HasPlainDir line) :
    SameOutcome Eq (serviceOfLine line) (serviceOfLine line')
      ↔ (¬ LosesDir line line' ∧ ¬ LosesDir line' line)
        ∨ [] ∈ linePieces line ∨ 4 < (linePieces line).length := by
  have hps := linePieces_retabbed h
  rw [losesDir_iff h, losesDir_iff h.symm]
  constructor
  · intro hsame
    -- otherwise one line changes the directory, the other one does not, and neither is too long
    by_contra hno
    simp only [not_or, not_lt] at hno
    obtain ⟨hloses, hnil, hlength⟩ := hno
    by_cases hcd : ChangesDir line
    · by_cases hcd' : ChangesDir line'
      · exact hloses ⟨fun hl => hl.2 hcd', fun hl => hl.2 hcd⟩
      · exact not_sameOutcome h hcd hcd' hnil hlength hsame
    · by_cases hcd' : ChangesDir line'
      · refine not_sameOutcome h.symm hcd' hcd ((nil_mem_iff hps).not.mp hnil)
          (hps.length_eq ▸ hlength) ?_
        exact sameOutcome_eq_iff.mpr fun s => (sameOutcome_eq_iff.mp hsame s).symm
      · exact hloses ⟨fun hl => hcd hl.1, fun hl => hcd' hl.1⟩
  · intro hcases
    rw [sameOutcome_eq_iff]
    intro s
    rcases hcases with ⟨hloses, hloses'⟩ | hfail
    · have hcd : ChangesDir line ↔ ChangesDir line' := by tauto
      exact ⟨serviceOfLine_of_retabbed h hcd hdir,
        serviceOfLine_of_retabbed h.symm hcd.symm (hdir.retabbed h hcd)⟩
    · refine iff_of_false (fun hs => ?_) fun hs => ?_
      · obtain ⟨hnil, hlength⟩ := pieces_of_serviceOfLine hs
        exact hfail.elim hnil hlength.not_gt
      · obtain ⟨hnil, hlength⟩ := pieces_of_serviceOfLine hs
        rw [← nil_mem_iff hps] at hnil
        rw [← hps.length_eq] at hlength
        exact hfail.elim hnil hlength.not_gt

/-- A line with a tab behind `cd`. -/
def tabbed : List Char := "web: cd\t/srv/web && ./run".toList

/-- The same line with a space there. -/
def spaced : List Char := "web: cd /srv/web && ./run".toList

/-- With a space the directory is that of the service, with a tab it is not. -/
theorem serviceOfLine_retabbed_cd :
    ¬ SameOutcome Eq (serviceOfLine spaced) (serviceOfLine tabbed) := by
  have h : Retabbed spaced tabbed := by decide
  have hpieces : linePieces spaced = ["cd /srv/web".toList, "./run".toList] := by
    decide +kernel
  have hpieces' : linePieces tabbed = ["cd\t/srv/web".toList, "./run".toList] := by
    decide +kernel
  have hdir : HasPlainDir spaced := by
    intro p hp _
    obtain rfl : "cd /srv/web".toList = p := by simpa [hpieces] using hp
    have hword : IsWord (trim ("cd /srv/web".toList.drop 2)) := by decide +kernel
    exact hword.2
  rw [serviceOfLine_retabbed_iff h hdir, hpieces]
  rintro (⟨hno, -⟩ | hnil | hlength)
  · exact hno ⟨_, by rw [hpieces]; rfl, _, by rw [hpieces']; rfl, by decide, by decide⟩
  · exact absurd hnil (by decide)
  · simp at hlength

end ProcUnits.Procfile
