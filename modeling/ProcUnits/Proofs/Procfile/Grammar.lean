import ProcUnits.Procfile.Read
import ProcUnits.Proofs.Outcome
import ProcUnits.Proofs.Procfile.Legacy
import ProcUnits.Proofs.Text.Trim

/-!
The grammar of the legacy format (section 4.2 of the specification).

A line is a label, a colon, and pieces with `&&` between each two: perhaps one that changes the
directory, then one to three that are commands. What is read and what the grammar says meet at the
parts of a line.

* `Declaration`, `Declaration.IsOn`: the parts, and that a line is made of them;
* `Declaration.service`: the service that they declare;
* `serviceOfLine_eq_ok_iff`: a line is read as a service just if it is made of parts that declare
  it;
* `readLegacy_grammar`: which texts are read, what is read from them, and which error ends the
  reading of the others.
-/

namespace ProcUnits.Procfile

open Text (AllBlank PairPieces isBlank splitAt splitAtPair trim)

variable {line label fragment p dir : List Char} {ps : List (List Char)} {s : Service}
  {text : List Char} {d : Defaults} {draft : Draft} {e : Error}

/-! ### The parts of a line -/

/-- The parts of a line, as they are written. -/
structure Declaration where
  label : List Char
  /-- The piece that changes the directory. -/
  changeDir : Option (List Char)
  pre : Option (List Char)
  main : List Char
  post : Option (List Char)

/-- The piece is the word `cd`, or that word with a space behind it in front of something. -/
def IsChangeDir (p : List Char) : Prop := p = "cd".toList ∨ "cd ".toList <+: p

namespace Declaration

/-- The pieces that are commands. -/
def stages (x : Declaration) : List (List Char) := x.pre.toList ++ x.main :: x.post.toList

/-- All pieces. -/
def pieces (x : Declaration) : List (List Char) := x.changeDir.toList ++ x.stages

/-- The line is made of these parts. -/
structure IsOn (x : Declaration) (line : List Char) : Prop where
  label_ne : x.label ≠ []
  label_plain : ∀ c ∈ x.label, c ≠ ':' ∧ isBlank c = false
  /-- Behind the colon and blanks stands a text whose pieces, without the blanks at their ends, are
  those of the declaration. -/
  line_eq : ∃ blanks fragment written, AllBlank blanks ∧ fragment ≠ []
    ∧ line = x.label ++ ':' :: (blanks ++ fragment)
    ∧ PairPieces '&' fragment written ∧ written.map trim = x.pieces
  isChangeDir : ∀ p ∈ x.changeDir, IsChangeDir p
  not_isChangeDir : x.changeDir = none → ∀ p ∈ x.stages.head?, ¬ IsChangeDir p
  stages_ne : ∀ p ∈ x.stages, p ≠ []
  /-- Of two commands the second one is the main one. -/
  pre_of_post : x.post.isSome = true → x.pre.isSome = true

/-- The directory that the service is run in, if one is named behind `cd`. -/
def workingDir (x : Declaration) : Option String :=
  ((x.changeDir.map fun p => trim (p.drop 2)).filter (· ≠ [])).map String.ofList

/-- The service that is declared. Only its main command has variables and a log. -/
def service (x : Declaration) : Service where
  name := String.ofList x.label
  command := (Clause.scan x.main).command
  pre := x.pre.map fun p => (Clause.scan p).command
  post := x.post.map fun p => (Clause.scan p).command
  options :=
    { workingDir := x.workingDir
      logFile := (Clause.scan x.main).log
      environment := (Clause.scan x.main).environment }

end Declaration

/-- The line declares a service. -/
def Declares (line : List Char) (s : Service) : Prop :=
  ∃ x : Declaration, x.IsOn line ∧ x.service = s

/-! ### Labels -/

/-- The pieces behind a label, as the reader takes them. -/
def piecesOf (fragment : List Char) : List (List Char) := (splitAtPair '&' fragment).map trim

/-- A label is read with the text behind it if there is one. -/
lemma labelled?_eq_some (h : labelled? line = some (label, fragment)) :
    label ≠ [] ∧ (∀ c ∈ label, c ≠ ':' ∧ isBlank c = false) ∧ fragment ≠ []
      ∧ ∃ blanks, AllBlank blanks ∧ line = label ++ ':' :: (blanks ++ fragment) := by
  rw [labelled?] at h
  split at h
  · cases h
  · next label' rest hcut =>
      simp only at h
      split_ifs at h with hbad
      cases h
      simp only [Bool.or_eq_true, not_or, List.isEmpty_iff, List.any_eq_true, not_exists, not_and,
        Bool.not_eq_true] at hbad
      obtain ⟨⟨hne, hblank⟩, hfragment⟩ := hbad
      refine ⟨hne, fun c hc => ⟨?_, hblank c hc⟩, hfragment, rest.takeWhile isBlank,
        fun c hc => List.mem_takeWhile_imp hc, ?_⟩
      · rintro rfl
        exact Text.not_mem_of_cutAt hcut hc
      · rw [Text.trimStart, List.takeWhile_append_dropWhile]
        exact Text.append_of_cutAt hcut

/-- However many of the blanks behind the colon count to them, the pieces are the same. -/
lemma labelled?_of_append {blanks : List Char} (hne : label ≠ [])
    (hplain : ∀ c ∈ label, c ≠ ':' ∧ isBlank c = false) (hblanks : AllBlank blanks)
    (hpieces : piecesOf fragment ≠ [[]]) :
    ∃ fragment', labelled? (label ++ ':' :: (blanks ++ fragment)) = some (label, fragment')
      ∧ piecesOf fragment' = piecesOf fragment := by
  -- blanks in front of the pieces are trimmed off the first one
  have hsame : piecesOf (Text.trimStart fragment) = piecesOf fragment := by
    conv_rhs => rw [← List.takeWhile_append_dropWhile (p := isBlank) (l := fragment)]
    exact (Text.map_trim_splitAtPair (by decide) (fun c hc => List.mem_takeWhile_imp hc) _).symm
  refine ⟨Text.trimStart fragment, ?_, hsame⟩
  have hcolon : ':' ∉ label := fun hmem => (hplain _ hmem).1 rfl
  have hany : label.any isBlank = false := by
    rw [← Bool.not_eq_true, List.any_eq_true]
    rintro ⟨c, hc, hblank⟩
    rw [(hplain c hc).2] at hblank
    exact absurd hblank (by decide)
  have hfragment : Text.trimStart fragment ≠ [] := by
    intro hnil
    rw [hnil] at hsame
    exact hpieces hsame.symm
  rw [labelled?, Text.cutAt_append_cons hcolon]
  simp [Text.trimStart_append hblanks, hne, hany, hfragment]

/-! ### The piece that changes the directory -/

lemma changeDir?_eq_some_iff :
    changeDir? p = some dir ↔ IsChangeDir p ∧ trim (p.drop 2) = dir := by
  rw [IsChangeDir]
  unfold changeDir?
  split
  · simp [trim, Text.trimStart, Text.trimEnd, eq_comm]
  · next r =>
      have hblank : AllBlank [' '] := by simp [AllBlank, isBlank]
      have htrim : trim (' ' :: r) = trim r := Text.trim_append_left hblank r
      simp [htrim]
  · next hcd hspace =>
      simp only [reduceCtorEq, false_iff, not_and]
      rintro (rfl | ⟨r, rfl⟩)
      · exact absurd rfl hcd
      · exact absurd rfl (hspace r)

lemma changeDir?_eq_none_iff : changeDir? p = none ↔ ¬ IsChangeDir p := by
  rw [← not_iff_not, not_not, ← ne_eq, Option.ne_none_iff_exists']
  simp [changeDir?_eq_some_iff]

lemma takeChangeDir_eq_iff {dir : Option (List Char)} {rest : List (List Char)} :
    takeChangeDir ps = (dir, rest) ↔ ∃ c : Option (List Char), ps = c.toList ++ rest
      ∧ (∀ p ∈ c, IsChangeDir p) ∧ (c = none → ∀ p ∈ rest.head?, ¬ IsChangeDir p)
      ∧ c.map (fun p => trim (p.drop 2)) = dir := by
  constructor
  · intro h
    cases ps with
    | nil =>
        cases h
        exact ⟨none, rfl, by simp, by simp, rfl⟩
    | cons p ps =>
        rw [takeChangeDir] at h
        split at h
        · next hdir =>
            cases h
            obtain ⟨hcd, rfl⟩ := changeDir?_eq_some_iff.mp hdir
            exact ⟨some p, rfl, by simpa using hcd, by simp, rfl⟩
        · next hnone =>
            cases h
            exact ⟨none, rfl, by simp, by simpa using changeDir?_eq_none_iff.mp hnone, rfl⟩
  · rintro ⟨c, rfl, hcd, hrest, rfl⟩
    cases c with
    | some p =>
        have hdir := changeDir?_eq_some_iff.mpr ⟨hcd p rfl, rfl⟩
        simp [takeChangeDir, hdir]
    | none =>
        cases rest with
        | nil => rfl
        | cons p ps =>
            have hnone := changeDir?_eq_none_iff.mpr (hrest rfl p rfl)
            simp [takeChangeDir, hnone]

/-! ### Lines -/

/-- What is read from a line whose label and pieces are known. -/
lemma serviceOfLine_of_labelled? (h : labelled? line = some (label, fragment)) :
    serviceOfLine line = .ok s ↔ ∃ x : Declaration, x.label = label ∧ piecesOf fragment = x.pieces
      ∧ (∀ p ∈ x.changeDir, IsChangeDir p)
      ∧ (x.changeDir = none → ∀ p ∈ x.stages.head?, ¬ IsChangeDir p)
      ∧ (∀ p ∈ x.stages, p ≠ []) ∧ (x.post.isSome = true → x.pre.isSome = true)
      ∧ x.service = s := by
  obtain ⟨dir, rest, htake⟩ : ∃ dir rest, takeChangeDir (piecesOf fragment) = (dir, rest) :=
    ⟨_, _, rfl⟩
  have htake' := htake
  rw [piecesOf] at htake'
  simp only [serviceOfLine, h, htake']
  constructor
  · intro hok
    -- each test that the line passes is one of the conditions on its parts
    split_ifs at hok with hnil hempty
    split at hok
    · cases hok
    · next pre main post hstages =>
        obtain ⟨c, hpieces, hcd, hfirst, rfl⟩ := takeChangeDir_eq_iff.mp htake
        obtain ⟨hrest, hpost⟩ := stages?_eq_some_iff.mp hstages
        refine ⟨⟨label, c, pre, main, post⟩, rfl, ?_, hcd, ?_, ?_, hpost, Except.ok.inj hok⟩
        · rw [hpieces, hrest]
          rfl
        · rw [hrest] at hfirst
          exact hfirst
        · rw [hrest] at hempty
          simp only [List.any_eq_true, List.isEmpty_iff, not_exists, not_and] at hempty
          exact hempty
  · rintro ⟨x, rfl, hpieces, hcd, hfirst, hne, hpost, rfl⟩
    have hx : takeChangeDir (piecesOf fragment)
        = (x.changeDir.map fun p => trim (p.drop 2), x.stages) :=
      takeChangeDir_eq_iff.mpr ⟨x.changeDir, hpieces, hcd, hfirst, rfl⟩
    obtain ⟨rfl, rfl⟩ := Prod.mk.inj (htake.symm.trans hx)
    have hnil : x.stages.isEmpty = false := by simp [Declaration.stages]
    have hempty : x.stages.any List.isEmpty = false := by
      rw [← Bool.not_eq_true, List.any_eq_true]
      rintro ⟨p, hp, hempty⟩
      exact hne p hp (List.isEmpty_iff.mp hempty)
    have hstages : stages? x.stages = some (x.pre, x.main, x.post) :=
      stages?_eq_some_iff.mpr ⟨rfl, hpost⟩
    simp only [hnil, hempty, hstages, Bool.false_eq_true, if_false]
    rfl

/-- A line is read as the service that its parts declare, and is not read if it has no such
parts. -/
theorem serviceOfLine_eq_ok_iff : serviceOfLine line = .ok s ↔ Declares line s := by
  constructor
  · intro h
    cases hlabel : labelled? line with
    | none =>
        rw [serviceOfLine, hlabel] at h
        cases h
    | some labelled =>
        obtain ⟨label, fragment⟩ := labelled
        obtain ⟨hne, hplain, hfragment, blanks, hblanks, rfl⟩ := labelled?_eq_some hlabel
        obtain ⟨x, rfl, hpieces, hcd, hfirst, hstages, hpost, hs⟩ :=
          (serviceOfLine_of_labelled? hlabel).mp h
        refine ⟨x, ⟨hne, hplain, ⟨blanks, fragment, _, hblanks, hfragment, rfl,
          Text.pairPieces_splitAtPair fragment, hpieces⟩, hcd, hfirst, hstages, hpost⟩, hs⟩
  · rintro ⟨x, hx, hs⟩
    obtain ⟨blanks, fragment, written, hblanks, -, rfl, hwritten, hpieces⟩ := hx.line_eq
    rw [← Text.pairPieces_iff.mp hwritten] at hpieces
    -- blanks alone are one piece, which is no command and changes no directory
    have hsome : piecesOf fragment ≠ [[]] := by
      intro hblank
      rw [piecesOf, hpieces, Declaration.pieces] at hblank
      cases hc : x.changeDir with
      | none =>
          rw [hc, Option.toList_none, List.nil_append] at hblank
          exact hx.stages_ne [] (hblank ▸ List.mem_cons_self) rfl
      | some p =>
          rw [hc] at hblank
          have hlength := congrArg List.length hblank
          simp [Declaration.stages] at hlength
    obtain ⟨fragment', hlabel, hsame⟩ :=
      labelled?_of_append hx.label_ne hx.label_plain hblanks hsome
    exact (serviceOfLine_of_labelled? hlabel).mpr ⟨x, rfl, hsame.trans hpieces, hx.isChangeDir,
      hx.not_isChangeDir, hx.stages_ne, hx.pre_of_post, hs⟩

/-! ### Texts -/

/-- The lines that declare services are the pieces between line feeds, without the blanks at their
ends, unless they are empty or start with `#`. A carriage return at the end of a line is such a
blank. -/
lemma serviceLines_eq (text : List Char) : serviceLines text
    = ((splitAt '\n' text).map trim).filter fun l => l ≠ [] ∧ l.head? ≠ some '#' := by
  obtain ⟨rest, hrest, heq⟩ := Text.map_trim_splitAt_break text
  have hfilter : rest.filter (fun l => l ≠ [] ∧ l.head? ≠ some '#') = [] := by
    obtain rfl | rfl := hrest <;> rfl
  rw [heq, List.filter_append, hfilter, List.append_nil, serviceLines]
  refine List.filter_congr fun l _ => ?_
  cases l with
  | nil => rfl
  | cons c l => simp [isSkipped, Bool.beq_eq_decide_eq]

lemma draftOfText_v1_eq_ok_iff :
    draftOfText .v1 text d = .ok draft
      ↔ ∃ ss, List.Forall₂ Declares (serviceLines text) ss
        ∧ draft = { app := .ofDefaults .v1 d ss } := by
  simp only [draftOfText, readLegacy, bind_eq_ok_iff, pure_eq_ok_iff, servicesOfLines_eq_mapM,
    mapM_eq_ok_iff, serviceOfLine_eq_ok_iff]
  exact exists_congr fun ss => and_congr_right fun _ => eq_comm

lemma draftOfText_v1_eq_error_iff :
    draftOfText .v1 text d = .error e
      ↔ ∃ front l back, serviceLines text = front ++ l :: back
        ∧ (∀ m ∈ front, ∃ s, Declares m s) ∧ serviceOfLine l = .error e := by
  rw [draftOfText, bind_eq_error_iff]
  simp only [readLegacy, servicesOfLines_eq_mapM, mapM_eq_error_iff, serviceOfLine_eq_ok_iff]
  simp [pure, Except.pure]

/-- Which texts are read in the legacy format: those of which each line is made of the parts of a
declaration, lines that are empty or start with `#` left out (section 4.2). Then there is a service
for each line, in the order of the lines. Otherwise the error is that of the first line that is not
so made. -/
theorem readLegacy_grammar (text : List Char) (d : Defaults) :
    (serviceLines text
        = ((splitAt '\n' text).map trim).filter fun l => l ≠ [] ∧ l.head? ≠ some '#')
      ∧ ((∃ draft, draftOfText .v1 text d = .ok draft)
        ↔ ∀ l ∈ serviceLines text, ∃ s, Declares l s)
      ∧ (∀ draft, draftOfText .v1 text d = .ok draft
        ↔ ∃ ss, List.Forall₂ Declares (serviceLines text) ss
          ∧ draft = { app := .ofDefaults .v1 d ss })
      ∧ ∀ e, draftOfText .v1 text d = .error e
        ↔ ∃ front l back, serviceLines text = front ++ l :: back
          ∧ (∀ m ∈ front, ∃ s, Declares m s) ∧ (¬ ∃ s, Declares l s)
          ∧ serviceOfLine l = .error e := by
  refine ⟨serviceLines_eq text, ?_, fun draft => draftOfText_v1_eq_ok_iff, fun e => ?_⟩
  · rw [← exists_forall₂_iff]
    simp only [draftOfText_v1_eq_ok_iff]
    exact ⟨fun ⟨_, ss, hss, _⟩ => ⟨ss, hss⟩, fun ⟨ss, hss⟩ => ⟨_, ss, hss, rfl⟩⟩
  · rw [draftOfText_v1_eq_error_iff]
    refine exists_congr fun front => exists_congr fun l => exists_congr fun back => ?_
    refine and_congr_right fun _ => and_congr_right fun _ => ⟨fun he => ⟨?_, he⟩, And.right⟩
    rintro ⟨s, hs⟩
    rw [serviceOfLine_eq_ok_iff.mpr hs] at he
    cases he

end ProcUnits.Procfile
