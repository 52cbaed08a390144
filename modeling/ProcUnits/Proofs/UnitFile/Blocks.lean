import Mathlib.Data.List.Basic
import ProcUnits.Proofs.UnitFile.Lines

/-!
The blocks of rendered texts.

A text is cut at its empty lines into the blocks that it was put together from. That works because
no line of a block is empty: a break that is followed by another one ends a block.

* `allBlocks_eq`: the blocks of a template are the lines between its block marks;
* `splitAtPair_blocks`: blocks that were put together are read back from the pairs of breaks;
* `render_readBack`: what the text of a template whose lines are not empty looks like, and that its
  blocks and their lines are read back from it;
* `writtenFrom`: what a part of a template writes, `written_eq` and `writtenFrom_append`: the parts
  write one after the other. `exists_writtenFrom` says that around lines they write the same,
  whatever these lines are.
-/

namespace ProcUnits.UnitFile

open Text (splitAt splitAtPair)

/-! ### Pieces that are not empty -/

section Intercalate

variable {α : Type} {d : α} {sep p : List α} {ps : List (List α)}

lemma head?_intercalate (hp : p ≠ []) : (sep.intercalate (p :: ps)).head? = p.head? := by
  cases ps with
  | nil => rw [List.intercalate_singleton]
  | cons q qs =>
      rw [List.intercalate_cons_cons, List.append_assoc, List.head?_append_of_ne_nil _ hp]

lemma getLast?_intercalate (hp : p ≠ []) :
    (sep.intercalate (ps ++ [p])).getLast? = p.getLast? := by
  by_cases hps : ps = []
  · rw [hps, List.nil_append, List.intercalate_singleton]
  · rw [Text.intercalate_append hps (by simp), List.intercalate_singleton,
      List.getLast?_append_of_ne_nil _ hp]

/-- The pieces hold no mark, and none of them is empty. -/
def ArePlain (d : α) (ps : List (List α)) : Prop := ∀ p ∈ ps, p ≠ [] ∧ d ∉ p

/-- Between pieces that are not empty marks stand alone. -/
lemma not_pair_infix_intercalate (h : ArePlain d ps) :
    ¬ [d, d] <:+: [d].intercalate ps ++ [d] := by
  have hlast : ¬ [d, d] <:+: [d] := by simp [Text.pair_infix_cons_iff]
  induction ps with
  | nil => simpa using hlast
  | cons p ps ih =>
      obtain ⟨⟨-, hp⟩, hps⟩ := List.forall_mem_cons.mp h
      cases ps with
      | nil => rwa [List.intercalate_singleton, Text.pair_infix_append_iff hp]
      | cons q qs =>
          obtain ⟨hq, hd⟩ := hps q List.mem_cons_self
          -- the mark behind the first piece is followed by the start of the next one
          have hhead : ([d].intercalate (q :: qs) ++ [d]).head? = q.head? := by
            rw [List.head?_append_of_ne_nil _ (intercalate_ne_nil _ (fun r hr => (hps r hr).1)
              (by simp)), head?_intercalate hq]
          have hfirst : ¬ (d = d ∧ ([d].intercalate (q :: qs) ++ [d]).head? = some d) := by
            rw [hhead]
            exact fun hpair => hd (List.mem_of_head? hpair.2)
          rw [List.intercalate_cons_cons, List.append_assoc, List.append_assoc,
            Text.pair_infix_append_iff hp, List.singleton_append, Text.pair_infix_cons_iff,
            or_iff_right hfirst]
          exact ih hps

end Intercalate

/-- Blocks that are not empty and have plain lines are read back from the pairs of marks between
them. -/
theorem splitAtPair_blocks {d : Char} {bs : List (List (List Char))} (hne : bs ≠ [])
    (h : ∀ b ∈ bs, b ≠ [] ∧ ArePlain d b) :
    (splitAtPair d ([d, d].intercalate (bs.map [d].intercalate))).map (splitAt d) = bs := by
  have hpieces : splitAtPair d ([d, d].intercalate (bs.map [d].intercalate))
      = bs.map [d].intercalate := by
    induction bs with
    | nil => exact absurd rfl hne
    | cons b bs ih =>
        obtain ⟨⟨-, hb⟩, hbs⟩ := List.forall_mem_cons.mp h
        -- no pair is in a block or across its end, so the first one is that behind the block
        have hpair := not_pair_infix_intercalate hb
        cases bs with
        | nil =>
            rw [List.map_singleton, List.intercalate_singleton]
            refine Text.splitAtPair_of_not_infix fun hinfix => hpair ?_
            exact hinfix.trans (List.prefix_append _ [d]).isInfix
        | cons b' bs =>
            rw [List.map_cons, List.map_cons, List.intercalate_cons_cons, ← List.map_cons,
              List.append_assoc, List.cons_append, List.singleton_append,
              Text.splitAtPair_append hpair, ih (by simp) hbs, List.map_cons]
  rw [hpieces, List.map_map]
  refine (List.map_congr_left fun b hb => ?_).trans (List.map_id bs)
  exact (Text.splitAt_intercalate_iff (h b hb).1).mpr fun l hl => ((h b hb).2 l hl).2

namespace Template

variable {t : Template}

/-- The blocks of a template are the lines between its block marks. -/
lemma allBlocks_eq (t : Template) : t.allBlocks = (t.splitOn .block).map lines := by
  induction t with
  | nil => rfl
  | cons i t ih =>
      obtain ⟨u, us, hus⟩ := List.exists_cons_of_ne_nil
        (List.splitOnP_ne_nil (· == Item.block) t)
      rw [List.splitOn_eq_splitOnP, hus] at ih
      rw [List.splitOn_eq_splitOnP, List.splitOnP_cons_eq_if_modifyHead, hus]
      cases i with
      | block => simp [allBlocks, ih, lines]
      | line s => simp [allBlocks, ih, lines, Item.line?, addLine]
      | directive k v => simp [allBlocks, ih, lines, Item.line?, addLine]
      | optional k v =>
          cases v with
          | none =>
              have hnone : lines (.optional k none :: u) = lines u := List.filterMap_cons_none rfl
              simp [allBlocks, ih, hnone, Item.line?]
          | some v => simp [allBlocks, ih, lines, Item.line?, addLine]

/-- The lines of a template can be told apart in its text: none is empty, and none holds a break. -/
def HasPlainLines (t : Template) : Prop := ∀ l ∈ t.lines, l ≠ "" ∧ '\n' ∉ l.toList

instance (t : Template) : Decidable t.HasPlainLines :=
  inferInstanceAs (Decidable (∀ l ∈ t.lines, l ≠ "" ∧ '\n' ∉ l.toList))

/-- The blocks with their lines as characters. -/
def charBlocks (t : Template) : List (List (List Char)) := t.blocks.map (List.map String.toList)

lemma plain_charBlocks (h : t.HasPlainLines) :
    ∀ b ∈ t.charBlocks, b ≠ [] ∧ ArePlain '\n' b := by
  refine List.forall_mem_map.mpr fun b hb => ?_
  refine ⟨by simpa using ne_nil_of_mem_blocks hb, List.forall_mem_map.mpr fun l hl => ?_⟩
  have hmem : l ∈ t.lines := flatten_blocks t ▸ List.mem_flatten_of_mem hb hl
  simpa using h l hmem

lemma charBlocks_ne_nil (hne : t.lines ≠ []) : t.charBlocks ≠ [] := by
  simpa [charBlocks] using blocks_ne_nil hne

/-- The text of a template without the break at its end. -/
def body (t : Template) : List Char :=
  ['\n', '\n'].intercalate (t.charBlocks.map ['\n'].intercalate)

lemma toList_render_eq_body (t : Template) : t.render.toList = t.body ++ ['\n'] := by
  rw [render, renderBlocks, String.toList_append, String.toList_intercalate, body, charBlocks]
  simp [Function.comp_def, String.toList_intercalate]

/-- There is no break at the end but the one that ends the last line. -/
lemma getLast?_body (hne : t.lines ≠ []) (h : t.HasPlainLines) : t.body.getLast? ≠ some '\n' := by
  obtain ⟨bs, b, hbs⟩ := List.eq_nil_or_concat' t.charBlocks |>.resolve_left (charBlocks_ne_nil hne)
  obtain ⟨hb, hplain⟩ := plain_charBlocks h b (by simp [hbs])
  obtain ⟨ls, l, rfl⟩ := List.eq_nil_or_concat' b |>.resolve_left hb
  obtain ⟨hl, hbreak⟩ := hplain l (by simp)
  have hjoined : ['\n'].intercalate (ls ++ [l]) ≠ [] :=
    intercalate_ne_nil _ (fun l' hl' => (hplain l' hl').1) (by simp)
  rw [body, hbs, List.map_append, List.map_singleton, getLast?_intercalate hjoined,
    getLast?_intercalate hl]
  exact fun hlast => hbreak (List.mem_of_getLast? hlast)

/-- The lines of the text are those of the blocks, with an empty one between each two blocks. -/
lemma linesOf_render_eq (hne : t.lines ≠ []) (h : t.HasPlainLines) :
    linesOf t.render = [[]].intercalate t.charBlocks := by
  rw [(linesOf_render_iff hne).mpr fun l hl => (h l hl).2, written, map_intercalate]
  rfl

/-- The text of a template that has lines, none of them empty or broken, starts with a line that is
not empty, ends with one break, and nowhere has two empty lines in a row. Cut at its empty lines and
then at its breaks it gives the lines between the block marks of the template, without the blocks
that have none. -/
theorem render_readBack (t : Template) (hne : t.lines ≠ []) (h : t.HasPlainLines) :
    ∃ body, t.render.toList = body ++ ['\n'] ∧ body.getLast? ≠ some '\n'
      ∧ (∃ l ∈ (linesOf t.render).head?, l ≠ [])
      ∧ ¬ [[], []] <:+: linesOf t.render
      ∧ (splitAtPair '\n' body).map (splitAt '\n')
        = (((t.splitOn .block).map lines).filter (· ≠ [])).map (List.map String.toList) := by
  have hplain := plain_charBlocks h
  have hnil : t.charBlocks ≠ [] := charBlocks_ne_nil hne
  refine ⟨t.body, toList_render_eq_body t, getLast?_body hne h, ?_, ?_, ?_⟩
  · obtain ⟨b, bs, hbs⟩ := List.exists_cons_of_ne_nil hnil
    obtain ⟨hb, hlines⟩ := hplain b (by simp [hbs])
    obtain ⟨l, ls, rfl⟩ := List.exists_cons_of_ne_nil hb
    refine ⟨l, ?_, (hlines l List.mem_cons_self).1⟩
    rw [linesOf_render_eq hne h, hbs, head?_intercalate hb]
    rfl
  · -- an empty line stands between blocks as a break does between lines
    have hblocks : ArePlain [] t.charBlocks := fun b hb =>
      ⟨(hplain b hb).1, fun hmem => ((hplain b hb).2 [] hmem).1 rfl⟩
    rw [linesOf_render_eq hne h]
    exact fun hpair => not_pair_infix_intercalate hblocks
      (hpair.trans (List.prefix_append _ [[]]).isInfix)
  · have hkept : ((t.splitOn .block).map lines).filter (· ≠ []) = t.blocks := by
      rw [blocks, allBlocks_eq]
      exact List.filter_congr fun b _ => by cases b <;> rfl
    rw [hkept]
    exact splitAtPair_blocks hnil hplain

/-- A template with blocks that have no lines, at its start, at its end and in between. -/
def sparseTemplate : Template :=
  [.block, .optional "LimitNOFILE" none, .block, .line "[Unit]", .directive "Description" "x",
    .block, .block, .line "[Install]", .block]

/-- The two blocks that have lines are read back. -/
theorem render_readBack_sparse : ∃ body, sparseTemplate.render.toList = body ++ ['\n']
    ∧ (splitAtPair '\n' body).map (splitAt '\n')
      = [["[Unit]".toList, "Description=x".toList], ["[Install]".toList]] := by
  have hplain : sparseTemplate.HasPlainLines := by decide
  obtain ⟨body, hbody, -, -, -, hread⟩ := render_readBack sparseTemplate (by decide) hplain
  exact ⟨body, hbody, hread⟩

/-! ### Parts of templates -/

/-- What the next line of a text comes behind. -/
inductive Spot where
  /-- No line yet. -/
  | top
  /-- A line of its own block. -/
  | line
  /-- A line of an earlier block. -/
  | gap
  deriving DecidableEq

/-- The spot behind an item. -/
def Spot.next : Spot → Item → Spot
  | .line, .block => .gap
  | spot, i => if i.line?.isSome then .line else spot

/-- The lines that an item writes: its own, behind an empty one if the block is new. -/
def Spot.lines (spot : Spot) (i : Item) : List String :=
  (if spot = .gap ∧ i.line?.isSome then [""] else []) ++ i.line?.toList

/-- The lines that a part of a template writes at a spot. -/
def writtenFrom : Spot → Template → List String
  | _, [] => []
  | spot, i :: t => spot.lines i ++ writtenFrom (spot.next i) t

/-- The second part writes where the first one ends. -/
lemma writtenFrom_append (spot : Spot) (t u : Template) :
    writtenFrom spot (t ++ u) = writtenFrom spot t ++ writtenFrom (t.foldl Spot.next spot) u := by
  induction t generalizing spot with
  | nil => rfl
  | cons i t ih => rw [List.cons_append, writtenFrom, writtenFrom, ih, List.append_assoc]; rfl

/-- The blocks of a template that adds to the ones behind it. -/
lemma allBlocks_cons_eq (i : Item) (t : Template) :
    allBlocks (i :: t) = if i = .block then [] :: t.allBlocks
      else i.line?.elim t.allBlocks (addLine · t.allBlocks) := by
  cases i with
  | block => rfl
  | line s => rfl
  | directive k v => rfl
  | optional k v => cases v <;> rfl

/-- Each list but the first one has the separator in front. -/
lemma intercalate_cons_eq {α : Type} (sep x : List α) (xs : List (List α)) :
    sep.intercalate (x :: xs) = x ++ xs.flatMap (sep ++ ·) := by
  induction xs generalizing x with
  | nil => simp
  | cons y ys ih =>
      rw [List.intercalate_cons_cons, ih, List.flatMap_cons, List.append_assoc, List.append_assoc]

/-- What blocks write behind a line of another block. -/
def behind (bs : List (List String)) : List String :=
  (bs.filter fun b => !b.isEmpty).flatMap ([""] ++ ·)

/-- Behind an item that starts no block there is a line just if it adds one. -/
lemma Spot.next_eq (spot : Spot) {i : Item} (hi : i ≠ .block) :
    spot.next i = if i.line?.isSome then .line else spot := by
  cases i with
  | block => exact absurd rfl hi
  | _ => cases spot <;> rfl

/-- Only an empty line in front of all others depends on the spot. -/
lemma writtenFrom_eq (t : Template) :
    writtenFrom .top t = t.written ∧ writtenFrom .gap t = behind t.allBlocks
      ∧ ∃ b bs, t.allBlocks = b :: bs ∧ writtenFrom .line t = b ++ behind bs := by
  -- the three spots need each other, as an item leads from one to the next
  induction t with
  | nil => exact ⟨rfl, rfl, [], [], rfl, rfl⟩
  | cons i t ih =>
      obtain ⟨htop, hgap, b, bs, hblocks, hline⟩ := ih
      rw [written, blocks, allBlocks_cons_eq]
      by_cases hi : i = .block
      · subst hi
        exact ⟨htop, hgap, [], allBlocks t, rfl, hgap⟩
      · simp only [writtenFrom, Spot.next_eq _ hi, Spot.lines, if_neg hi]
        cases hl : i.line? with
        | none => exact ⟨htop, hgap, b, bs, hblocks, hline⟩
        | some l =>
            have hwritten : [""].intercalate (((l :: b) :: bs).filter fun b => !b.isEmpty)
                = l :: (b ++ behind bs) := by
              rw [List.filter_cons_of_pos rfl, intercalate_cons_eq]
              rfl
            have hbehind : behind ((l :: b) :: bs) = "" :: l :: (b ++ behind bs) := by
              simp [behind]
            simp only [Option.elim_some, hblocks, addLine, hwritten, hbehind]
            simp [hline]

lemma ne_block_of_isSome {i : Item} (hi : i.line?.isSome = true) : i ≠ .block := by
  rintro rfl
  cases hi

/-- In front of a line there may be an empty one. -/
lemma writtenFrom_cons_of_isSome (spot : Spot) {i : Item} (hi : i.line?.isSome = true)
    (t : Template) : writtenFrom spot (i :: t)
      = (if spot = .gap then [""] else []) ++ (i.line?.toList ++ writtenFrom .line t) := by
  simp [writtenFrom, Spot.next_eq spot (ne_block_of_isSome hi), Spot.lines, hi]

/-- A template is written from its first line on. -/
lemma written_eq (t : Template) : t.written = writtenFrom .top t := (writtenFrom_eq t).1.symm

/-- Lines write themselves behind another line. -/
lemma writtenFrom_line_append {us : Template} (h : ∀ i ∈ us, i.line?.isSome = true)
    (u : Template) : writtenFrom .line (us ++ u) = us.lines ++ writtenFrom .line u := by
  induction us with
  | nil => rfl
  | cons i us ih =>
      obtain ⟨hi, hus⟩ := List.forall_mem_cons.mp h
      obtain ⟨l, hl⟩ := Option.isSome_iff_exists.mp hi
      have hlines : lines (i :: us) = l :: lines us := List.filterMap_cons_some hl
      rw [List.cons_append, writtenFrom_cons_of_isSome _ hi, ih hus, hlines, hl]
      rfl

/-- Whatever lines stand between two parts of a template, the parts write the same around them. -/
lemma exists_writtenFrom (spot : Spot) (t : Template) : ∃ front : List String, ∀ us : Template,
    us ≠ [] → (∀ i ∈ us, i.line?.isSome = true) → ∀ u : Template,
      writtenFrom spot (t ++ (us ++ u)) = front ++ us.lines ++ writtenFrom .line u := by
  refine ⟨writtenFrom spot t ++ if t.foldl Spot.next spot = .gap then [""] else [],
    fun us hne h u => ?_⟩
  have hlines := writtenFrom_line_append h u
  obtain ⟨i, us, rfl⟩ := List.exists_cons_of_ne_nil hne
  have hi := (List.forall_mem_cons.mp h).1
  rw [List.cons_append, writtenFrom_cons_of_isSome _ hi] at hlines
  rw [writtenFrom_append, List.cons_append, writtenFrom_cons_of_isSome _ hi,
    List.append_assoc, List.append_assoc, ← hlines]
  rfl

end Template

end ProcUnits.UnitFile
