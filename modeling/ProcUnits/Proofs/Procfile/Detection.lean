import ProcUnits.Procfile.Version
import ProcUnits.Proofs.Procfile.Grammar

/-!
Which legacy files are taken for documents by the rule of section 4.1 of the specification.

The format is looked for in the text, across the ends of lines. In a text whose lines all have
labels, what is found is a line.

* `IsVersionLine`: the line is the label `version` with `2` behind it;
* `isVersionMark_append_iff`: where a line can be read in the legacy format, only all of it is such
  a mark;
* `detect_iff_exists`: so the mark is looked for line by line, by induction over the lines;
* `detect_eq_v2_iff`: a legacy file is taken for a document just if it has such a line.
-/

namespace ProcUnits.Procfile

open Text (AllBlank isBlank splitAt trim trimStart)

variable {text line label fragment p s : List Char} {ss : List Service} {w r : List Char}

/-! ### The line of the version -/

/-- The line is the label `version` with nothing but `2` behind its colon. -/
def IsVersionLine (line : List Char) : Prop :=
  ∃ blanks, AllBlank blanks ∧ line = "version".toList ++ ':' :: (blanks ++ ['2'])

/-- What follows the colon of a line starts without a blank. -/
lemma isBlank_head_of_labelled? (h : labelled? line = some (label, fragment)) :
    ∀ c ∈ fragment.head?, isBlank c = false := by
  rw [labelled?] at h
  split at h
  · cases h
  · simp only at h
    split_ifs at h
    cases h
    intro c hc
    have hnot := List.head?_dropWhile_not isBlank ‹_›
    rw [← trimStart, show (trimStart _).head? = some c from hc] at hnot
    simpa using hnot

lemma isVersionLine_iff (h : labelled? line = some (label, fragment)) :
    IsVersionLine line ↔ label = "version".toList ∧ fragment = ['2'] := by
  constructor
  · rintro ⟨blanks, hblanks, rfl⟩
    have hcolon : ':' ∉ "version".toList := by decide
    rw [labelled?, Text.cutAt_append_cons hcolon] at h
    simp only [Text.trimStart_append hblanks] at h
    cases h
    exact ⟨rfl, rfl⟩
  · rintro ⟨rfl, rfl⟩
    obtain ⟨-, -, -, blanks, hblanks, rfl⟩ := labelled?_eq_some h
    exact ⟨blanks, hblanks, rfl⟩

/-! ### The mark -/

lemma afterWord_eq_some_iff : afterWord w s = some r ↔ s = w ++ r := by
  induction w generalizing s with
  | nil => simp [afterWord]
  | cons c w ih =>
      cases s with
      | nil => simp [afterWord]
      | cons e s =>
          rw [afterWord, List.cons_append, List.cons.injEq]
          split_ifs with hc
          · rw [ih, and_iff_right hc.symm]
          · simp [Ne.symm hc]

/-- A mark is the word, the number and the end of a line, with nothing but blanks between them. -/
lemma isVersionMark_iff : isVersionMark s = true
    ↔ ∃ r r', trimStart s = "version".toList ++ ':' :: r ∧ trimStart r = '2' :: r'
      ∧ followsLine r' = true := by
  have hword (r : List Char) :
      "version:".toList ++ r = "version".toList ++ ':' :: r := rfl
  unfold isVersionMark
  split
  · next hnone =>
      refine iff_of_false (by simp) ?_
      rintro ⟨r, r', hr, -⟩
      rw [← hword, ← afterWord_eq_some_iff, hnone] at hr
      cases hr
  · next r hr =>
      rw [afterWord_eq_some_iff, hword] at hr
      simp only [hr, List.append_cancel_left_eq, List.cons.injEq, true_and]
      split
      · next r' hnumber =>
          constructor
          · exact fun hline => ⟨r, r', rfl, hnumber, hline⟩
          · rintro ⟨_, r'', rfl, hnumber', hline⟩
            rw [hnumber] at hnumber'
            cases hnumber'
            exact hline
      · next hnone =>
          refine iff_of_false (by simp) ?_
          rintro ⟨_, r', rfl, hnumber, -⟩
          exact hnone r' hnumber

/-- Blanks in front of a mark do not matter. -/
lemma isVersionMark_append (hp : AllBlank p) (s : List Char) :
    isVersionMark (p ++ s) = isVersionMark s := by
  rw [isVersionMark, Text.trimStart_append hp, isVersionMark]

/-- There are only blanks up to a break. -/
lemma followsLine_append_iff (hp : '\n' ∉ p) (hs : ∀ c ∈ s.head?, c = '\n') :
    followsLine (p ++ s) = true ↔ AllBlank p := by
  induction p with
  | nil =>
      cases s with
      | nil => simp [followsLine, AllBlank]
      | cons c s => simp [followsLine, AllBlank, hs c rfl]
  | cons c p ih =>
      rw [List.mem_cons, not_or] at hp
      have hc : (c == '\n') = false := by simpa using Ne.symm hp.1
      rw [List.cons_append, followsLine, hc, Bool.false_or, Bool.and_eq_true, ih hp.2]
      exact (List.forall_mem_cons (p := fun c => isBlank c = true)).symm

/-! ### Lines -/

/-- The line can be read: it is empty, starts with `#`, or has a label and something behind it. -/
def IsReadable (line : List Char) : Prop :=
  line = [] ∨ line.head? = some '#' ∨ (labelled? line).isSome = true

/-- A line that has a label, with all its blanks. In front of the label and of what follows it there
are no others. -/
lemma parts_of_labelled? (h : labelled? (trim p) = some (label, fragment)) :
    ∃ blanks back, AllBlank back ∧ ':' ∉ label
      ∧ (∀ s, trimStart (p ++ s) = label ++ ':' :: (blanks ++ (fragment ++ (back ++ s))))
      ∧ (∀ s, trimStart (blanks ++ (fragment ++ s)) = fragment ++ s)
      ∧ (∀ c ∈ fragment.getLast?, isBlank c = false) ∧ ('\n' ∉ p → '\n' ∉ fragment ++ back) := by
  obtain ⟨htrimmed, front, back, hfront, hback, hparts⟩ := Text.trim_eq_iff.mp (Eq.refl (trim p))
  obtain ⟨hne, hplain, hfragment, blanks, hblanks, hline⟩ := labelled?_eq_some h
  rw [hline] at hparts htrimmed
  refine ⟨blanks, back, hback, fun hmem => (hplain _ hmem).1 rfl, fun s => ?_, fun s => ?_, ?_,
    fun hp hmem => hp ?_⟩
  · have hhead : ∀ c ∈ label.head?, isBlank c = false :=
      fun c hc => (hplain c (List.mem_of_mem_head? hc)).2
    rw [hparts, List.append_assoc, List.append_assoc, Text.trimStart_append hfront,
      List.append_assoc, Text.trimStart_append_of_head? hne hhead]
    simp only [List.cons_append, List.append_assoc]
  · rw [Text.trimStart_append hblanks,
      Text.trimStart_append_of_head? hfragment (isBlank_head_of_labelled? h)]
  · have hlast := htrimmed.last
    rwa [List.getLast?_append_of_ne_nil _ (List.cons_ne_nil _ _),
      List.getLast?_cons_of_ne_nil (by simp [hfragment]),
      List.getLast?_append_of_ne_nil _ hfragment] at hlast
  · rw [hparts]
    simp only [List.mem_append, List.mem_cons] at hmem ⊢
    tauto

/-- The mark is the whole of a line that has a label. -/
lemma isVersionMark_of_labelled? (hp : '\n' ∉ p) (hs : ∀ c ∈ s.head?, c = '\n')
    (h : labelled? (trim p) = some (label, fragment)) :
    isVersionMark (p ++ s) = true ↔ label = "version".toList ∧ fragment = ['2'] := by
  obtain ⟨-, -, hfragment, -⟩ := labelled?_eq_some h
  obtain ⟨blanks, back, hback, hlabel, hstart, hnumber, hlast, hbreak⟩ := parts_of_labelled? h
  have hbreak := hbreak hp
  rw [isVersionMark_iff, hstart]
  constructor
  · rintro ⟨r, r', hword, hr, hfollows⟩
    -- the label goes up to its first colon, and so does the word
    have hcut := congrArg (Text.cutAt ':') hword
    rw [Text.cutAt_append_cons hlabel, Text.cutAt_append_cons (by decide)] at hcut
    cases hcut
    rw [hnumber] at hr
    obtain ⟨c, cs, rfl⟩ := List.exists_cons_of_ne_nil hfragment
    obtain ⟨rfl, rfl⟩ := List.cons.inj hr
    change followsLine (cs ++ (back ++ s)) = true at hfollows
    rw [← List.append_assoc, followsLine_append_iff _ hs, Text.allBlank_append_iff] at hfollows
    · -- the fragment does not end with a blank
      obtain rfl | ⟨cs, d, rfl⟩ := cs.eq_nil_or_concat'
      · exact ⟨rfl, rfl⟩
      · have hblank := hfollows.1 d (List.mem_append_right _ (List.mem_singleton_self d))
        rw [hlast d (by rw [← List.cons_append, List.getLast?_concat]; rfl)] at hblank
        cases hblank
    · exact fun hmem => hbreak (List.mem_cons_of_mem _ hmem)
  · rintro ⟨rfl, rfl⟩
    refine ⟨_, back ++ s, rfl, hnumber _, ?_⟩
    rw [followsLine_append_iff (fun hmem => hbreak (List.mem_append_right _ hmem)) hs]
    exact hback

/-- Where a line can be read, the mark is all of it, or stands behind it if there is nothing
on it. -/
lemma isVersionMark_append_iff (hp : '\n' ∉ p) (hs : ∀ c ∈ s.head?, c = '\n')
    (hread : IsReadable (trim p)) :
    isVersionMark (p ++ s) = true
      ↔ IsVersionLine (trim p) ∨ (trim p = [] ∧ isVersionMark s = true) := by
  obtain ⟨htrimmed, front, back, hfront, hback, hparts⟩ := Text.trim_eq_iff.mp (Eq.refl (trim p))
  rcases hread with hnil | hcomment | hlabel
  · -- there are only blanks on the line
    have hempty : ¬ IsVersionLine [] := by
      rintro ⟨blanks, -, hline⟩
      cases hline
    rw [hnil, List.append_nil] at hparts
    have hblank : AllBlank p := hparts ▸ Text.allBlank_append_iff.mpr ⟨hfront, hback⟩
    rw [isVersionMark_append hblank, hnil]
    simp [hempty]
  · -- neither the mark nor such a line starts with `#`
    obtain ⟨cs, hline⟩ := List.head?_eq_some_iff.mp hcomment
    rw [hline] at hparts ⊢
    have hmark : ¬ isVersionMark (p ++ s) = true := by
      rw [hparts, List.append_assoc, List.append_assoc, isVersionMark_append hfront,
        isVersionMark_iff]
      rintro ⟨r, r', hword, -⟩
      rw [List.cons_append, trimStart, List.dropWhile_cons_of_neg (by decide)] at hword
      cases hword
    refine iff_of_false hmark ?_
    rintro (⟨blanks, -, hline⟩ | ⟨hline, -⟩) <;> cases hline
  · obtain ⟨⟨label, fragment⟩, hlabel⟩ := Option.isSome_iff_exists.mp hlabel
    have hne : trim p ≠ [] := by
      intro hnil
      rw [hnil] at hlabel
      cases hlabel
    rw [isVersionMark_of_labelled? hp hs hlabel, isVersionLine_iff hlabel]
    simp [hne]

/-! ### Texts -/

/-- What is looked for starts at the front of a line. -/
lemma laterVersionMark_append (hp : '\n' ∉ p) (s : List Char) :
    laterVersionMark (p ++ s) = laterVersionMark s := by
  induction p with
  | nil => rfl
  | cons c p ih =>
      rw [List.mem_cons, not_or] at hp
      have hc : (c == '\n') = false := by simpa using Ne.symm hp.1
      rw [List.cons_append, laterVersionMark, hc, Bool.false_and, Bool.false_or, ih hp.2]

lemma detect_iff (s : List Char) :
    Version.detect s = .v2 ↔ isVersionMark s = true ∨ laterVersionMark s = true := by
  rw [Version.detect, ← Bool.or_eq_true]
  split_ifs with h
  · simp [h]
  · simp [h]

/-- Of lines that can all be read, the text is looked through one after the other. -/
lemma detect_iff_exists (h : ∀ p ∈ splitAt '\n' s, IsReadable (trim p)) :
    Version.detect s = .v2 ↔ ∃ p ∈ splitAt '\n' s, IsVersionLine (trim p) := by
  induction s using Text.pieces_induction (d := '\n') with
  | last p hp =>
      have hlater := laterVersionMark_append hp []
      rw [List.append_nil] at hlater
      have hmark := isVersionMark_append_iff (s := []) hp (by simp) (h p (by
        rw [Text.splitAt_of_not_mem hp]
        exact List.mem_singleton_self p))
      rw [detect_iff, hlater, Text.splitAt_of_not_mem hp]
      rw [List.append_nil] at hmark
      rw [hmark]
      simp [laterVersionMark, isVersionMark_iff, trimStart]
  | cons p s hp ih =>
      rw [Text.splitAt_append, Text.splitAt_of_not_mem hp, List.singleton_append,
        List.forall_mem_cons] at h
      rw [Text.splitAt_append, Text.splitAt_of_not_mem hp, List.singleton_append,
        List.exists_mem_cons_iff, ← ih h.2, detect_iff, detect_iff, laterVersionMark_append hp,
        isVersionMark_append_iff hp (by simp) h.1, laterVersionMark]
      -- the break in front of a line is one of the blanks that do not matter
      have hbreak : isVersionMark ('\n' :: s) = isVersionMark s :=
        isVersionMark_append (p := ['\n']) (by simp [AllBlank, isBlank]) s
      rw [hbreak]
      simp
      tauto

/-- A line of a legacy file can be read, whether it declares a service or is left out. -/
lemma isReadable_of_readLegacy (h : readLegacy text = .ok ss) :
    ∀ p ∈ splitAt '\n' text, IsReadable (trim p) := by
  intro p hp
  rw [readLegacy, servicesOfLines_eq_mapM, mapM_eq_ok_iff] at h
  have hlines : ∀ l ∈ serviceLines text, ∃ s, serviceOfLine l = .ok s :=
    exists_forall₂_iff.mp ⟨ss, h⟩
  by_cases hnil : trim p = []
  · exact Or.inl hnil
  · by_cases hcomment : (trim p).head? = some '#'
    · exact Or.inr (Or.inl hcomment)
    · have hmem : trim p ∈ serviceLines text := by
        rw [serviceLines_eq]
        exact List.mem_filter.mpr ⟨List.mem_map_of_mem hp, by simp [hnil, hcomment]⟩
      obtain ⟨s, hs⟩ := hlines _ hmem
      refine Or.inr (Or.inr ?_)
      rw [Option.isSome_iff_ne_none]
      intro hnone
      rw [serviceOfLine, hnone] at hs
      cases hs

/-- The line of the version is not left out. -/
lemma exists_isVersionLine_iff (text : List Char) :
    (∃ l ∈ serviceLines text, IsVersionLine l)
      ↔ ∃ p ∈ splitAt '\n' text, IsVersionLine (trim p) := by
  rw [serviceLines_eq]
  constructor
  · rintro ⟨l, hl, hversion⟩
    obtain ⟨p, hp, rfl⟩ := List.mem_map.mp (List.mem_of_mem_filter hl)
    exact ⟨p, hp, hversion⟩
  · rintro ⟨p, hp, hversion⟩
    refine ⟨trim p, List.mem_filter.mpr ⟨List.mem_map_of_mem hp, ?_⟩, hversion⟩
    obtain ⟨blanks, -, hline⟩ := hversion
    rw [hline]
    rfl

/-- A legacy file is taken for a document just if one of its lines is the label `version` with
nothing but `2` behind it. -/
theorem detect_eq_v2_iff (h : readLegacy text = .ok ss) :
    Version.detect text = .v2 ↔ ∃ l ∈ serviceLines text, IsVersionLine l := by
  rw [detect_iff_exists (isReadable_of_readLegacy h), exists_isVersionLine_iff]

/-- A service of the name `version` whose command is `2` makes a document of a legacy file. -/
theorem detect_eq_v2_iff_marked :
    (∃ ss, readLegacy "web: ./web\n\tversion:\t2 \r\n".toList = .ok ss)
      ∧ Version.detect "web: ./web\n\tversion:\t2 \r\n".toList = .v2 := by
  have hread : (readLegacy "web: ./web\n\tversion:\t2 \r\n".toList).isOk = true := by
    decide +kernel
  obtain ⟨ss, hss⟩ : ∃ ss, readLegacy "web: ./web\n\tversion:\t2 \r\n".toList = .ok ss := by
    revert hread
    cases readLegacy "web: ./web\n\tversion:\t2 \r\n".toList with
    | ok ss => exact fun _ => ⟨ss, rfl⟩
    | error e => exact fun h => by cases h
  refine ⟨⟨ss, hss⟩, (detect_eq_v2_iff hss).mpr ⟨"version:\t2".toList, by decide +kernel, ?_⟩⟩
  exact ⟨['\t'], by simp [AllBlank, isBlank], rfl⟩

end ProcUnits.Procfile
