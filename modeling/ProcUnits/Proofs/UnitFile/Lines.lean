import ProcUnits.Proofs.Text.Split
import ProcUnits.UnitFile.Template

/-!
The lines of rendered texts.

* `linesOf`: the lines of a text, and `Template.written` those that a template is meant to write;
* `linesOf_render_iff`: these are the same just if no line of the template holds a line feed;
* `keyOf`: the key of a line that is a directive;
* `Item.outline`: what an item adds to the keys. `keys_eq_of_outline_eq` says that the keys of the
  lines written depend on nothing else.
-/

namespace ProcUnits.UnitFile

open Text (splitAt)

/-! ### Joined lists -/

section Intercalate

variable {α β : Type} {xs : List (List α)}

lemma map_intercalate (f : α → β) (sep : List α) (xs : List (List α)) :
    (sep.intercalate xs).map f = (sep.map f).intercalate (xs.map (List.map f)) := by
  induction xs with
  | nil => rfl
  | cons x xs ih =>
      cases xs with
      | nil => simp
      | cons y ys =>
          rw [List.intercalate_cons_cons, List.map_append, List.map_append, ih]
          simp [List.intercalate_cons_cons]

lemma intercalate_ne_nil (sep : List α) (h : ∀ x ∈ xs, x ≠ []) (hne : xs ≠ []) :
    sep.intercalate xs ≠ [] := by
  cases xs with
  | nil => exact absurd rfl hne
  | cons x xs =>
      have hx : x ≠ [] := h x List.mem_cons_self
      cases xs <;> simp [List.intercalate_cons_cons, hx]

/-- Blocks that are kept apart by two marks have an empty piece between them. -/
lemma intercalate_blocks {d : α} {bs : List (List (List α))} (h : ∀ b ∈ bs, b ≠ []) :
    [d, d].intercalate (bs.map [d].intercalate) = [d].intercalate ([[]].intercalate bs) := by
  induction bs with
  | nil => rfl
  | cons b bs ih =>
      obtain ⟨hb, hbs⟩ := List.forall_mem_cons.mp h
      cases bs with
      | nil => simp
      | cons b' bs =>
          have hrest : [[]].intercalate (b' :: bs) ≠ [] := intercalate_ne_nil _ hbs (by simp)
          rw [List.map_cons, List.map_cons, List.intercalate_cons_cons, ← List.map_cons, ih hbs,
            List.intercalate_cons_cons, Text.intercalate_append (by simp) hrest,
            Text.intercalate_append hb (by simp)]
          simp

end Intercalate

/-! ### Lines -/

/-- The lines of a text that ends each of them. -/
def linesOf (s : String) : List (List Char) := (splitAt '\n' s.toList).dropLast

namespace Template

variable {t : Template}

/-- The lines that a template is meant to write: those of its blocks, with an empty one between
each two blocks. -/
def written (t : Template) : List String := [""].intercalate t.blocks

lemma ne_nil_of_mem_blocks {b : List String} (h : b ∈ t.blocks) : b ≠ [] := by
  simpa using (List.mem_filter.mp h).2

lemma blocks_ne_nil (h : t.lines ≠ []) : t.blocks ≠ [] := by
  intro hnil
  rw [← flatten_blocks, hnil] at h
  exact h rfl

lemma toList_render (t : Template) :
    t.render.toList = ['\n'].intercalate (t.written.map String.toList) ++ ['\n'] := by
  have hblocks : ∀ b ∈ t.blocks.map (List.map String.toList), b ≠ [] := by
    rintro b hb
    obtain ⟨b', hb', rfl⟩ := List.mem_map.mp hb
    simpa using ne_nil_of_mem_blocks hb'
  rw [written, map_intercalate, render, renderBlocks, String.toList_append,
    String.toList_intercalate]
  congr 1
  refine Eq.trans ?_ (intercalate_blocks hblocks)
  simp [Function.comp_def, String.toList_intercalate]

/-- All lines of a template are written, and nothing else but empty lines. -/
lemma forall_mem_written {P : String → Prop} (hempty : P "") :
    (∀ l ∈ t.written, P l) ↔ ∀ l ∈ t.lines, P l := by
  rw [← flatten_blocks, written]
  induction t.blocks with
  | nil => rfl
  | cons b bs ih =>
      cases bs with
      | nil => simp
      | cons b' bs =>
          rw [List.intercalate_cons_cons, List.flatten_cons, List.forall_mem_append, ih,
            List.forall_mem_append, List.forall_mem_append]
          simp [hempty]

/-- Lines that are not empty are written where the template has them. -/
lemma filter_written {p : String → Bool} (hempty : p "" = false) :
    t.written.filter p = t.lines.filter p := by
  rw [← flatten_blocks, written]
  induction t.blocks with
  | nil => rfl
  | cons b bs ih =>
      cases bs with
      | nil => simp
      | cons b' bs =>
          rw [List.intercalate_cons_cons, List.filter_append, ih, List.flatten_cons,
            List.filter_append, List.filter_append]
          simp [hempty]

lemma linesOf_render (t : Template) :
    linesOf t.render = splitAt '\n' (['\n'].intercalate (t.written.map String.toList)) := by
  rw [linesOf, toList_render, Text.splitAt_append]
  exact List.dropLast_concat

lemma written_ne_nil (hne : t.lines ≠ []) : t.written ≠ [] :=
  intercalate_ne_nil [""] (fun _ => ne_nil_of_mem_blocks) (blocks_ne_nil hne)

/-- The lines of the text of a template are those that it is meant to write just if none of its
lines holds a line feed. -/
theorem linesOf_render_iff (hne : t.lines ≠ []) :
    linesOf t.render = t.written.map String.toList ↔ ∀ l ∈ t.lines, '\n' ∉ l.toList := by
  have hwritten : t.written.map String.toList ≠ [] := by simpa using written_ne_nil hne
  rw [linesOf_render, Text.splitAt_intercalate_iff hwritten, List.forall_mem_map,
    forall_mem_written (by decide)]

/-- A line with line feeds is as many lines as these make of it. -/
lemma linesOf_render_eq_flatMap (hne : t.lines ≠ []) :
    linesOf t.render = t.written.flatMap fun l => splitAt '\n' l.toList := by
  rw [linesOf_render, Text.splitAt_intercalate (by simpa using written_ne_nil hne),
    List.flatMap_map]

end Template

/-! ### Keys -/

/-- The key of a line that is a directive. Comments and the names of sections have none. -/
def keyOf : List Char → Option (List Char)
  | '#' :: _ => none
  | '[' :: _ => none
  | l => (Text.cutAt '=' l).map (·.1)

/-- A directive can have this key. -/
structure IsKey (k : String) : Prop where
  mark_not_mem : '=' ∉ k.toList
  no_comment : k.toList.head? ≠ some '#'
  no_section : k.toList.head? ≠ some '['

instance (k : String) : Decidable (IsKey k) :=
  decidable_of_iff ('=' ∉ k.toList ∧ k.toList.head? ≠ some '#' ∧ k.toList.head? ≠ some '[')
    ⟨fun ⟨h₁, h₂, h₃⟩ => ⟨h₁, h₂, h₃⟩, fun ⟨h₁, h₂, h₃⟩ => ⟨h₁, h₂, h₃⟩⟩

lemma keyOf_directiveLine {k : String} (hk : IsKey k) (v : String) :
    keyOf (Template.directiveLine k v).toList = some k.toList := by
  obtain ⟨hmark, hcomment, hsection⟩ := hk
  have htext : (Template.directiveLine k v).toList = k.toList ++ '=' :: v.toList := by
    simp [Template.directiveLine]
  have hhead {c : Char} (hc : '=' ≠ c) (hne : k.toList.head? ≠ some c) (r : List Char) :
      k.toList ++ '=' :: v.toList ≠ c :: r := by
    intro heq
    have hfirst := congrArg List.head? heq
    rw [List.head?_append] at hfirst
    cases hkey : k.toList.head? with
    | none => simp [hkey, hc] at hfirst
    | some c' => exact hne (by simpa [hkey] using hfirst)
  rw [htext, keyOf, Text.cutAt_append_cons hmark]
  · rfl
  · exact hhead (by decide) hcomment
  · exact hhead (by decide) hsection

namespace Template

variable {t u : Template}

/-- What an item adds to the keys of the lines: the start of a block, or a key for the line that it
adds, if it adds one. -/
def Item.outline : Item → Option (Option (Option (List Char)))
  | .block => none
  | i => some (i.line?.map fun s => keyOf s.toList)

@[simp]
lemma Item.outline_block : Item.outline .block = none := rfl

@[simp]
lemma Item.outline_line (s : String) : Item.outline (.line s) = some (some (keyOf s.toList)) := rfl

lemma Item.outline_directive {k : String} (hk : IsKey k) (v : String) :
    Item.outline (.directive k v) = some (some (some k.toList)) := by
  rw [← keyOf_directiveLine hk v]
  rfl

lemma Item.outline_optional {k : String} (hk : IsKey k) (v : Option String) :
    Item.outline (.optional k v) = some (if v.isSome then some (some k.toList) else none) := by
  cases v with
  | none => rfl
  | some v => exact Item.outline_directive hk v

/-- The keys of the lines in their blocks, with those of one more item in front. -/
def pushOutline {κ : Type} : Option (Option κ) → List (List κ) → List (List κ)
  | none, bs => [] :: bs
  | some none, bs => bs
  | some (some k), [] => [[k]]
  | some (some k), b :: bs => (k :: b) :: bs

lemma map_allBlocks_cons (i : Item) (t : Template) :
    (allBlocks (i :: t)).map (List.map fun s => keyOf s.toList)
      = pushOutline i.outline (t.allBlocks.map (List.map fun s => keyOf s.toList)) := by
  have hline (s : String) (bs : List (List String)) :
      (addLine s bs).map (List.map fun s => keyOf s.toList)
        = pushOutline (some (some (keyOf s.toList)))
          (bs.map (List.map fun s => keyOf s.toList)) := by
    cases bs <;> rfl
  cases i with
  | block => rfl
  | line s => exact hline s _
  | directive k v => exact hline _ _
  | optional k v =>
      cases v with
      | none => rfl
      | some v => exact hline _ _

/-- The keys in all blocks depend on what the items add to them alone. -/
lemma map_allBlocks_eq (h : t.map Item.outline = u.map Item.outline) :
    t.allBlocks.map (List.map fun s => keyOf s.toList)
      = u.allBlocks.map (List.map fun s => keyOf s.toList) := by
  induction t generalizing u with
  | nil =>
      obtain rfl : u = [] := by simpa using h.symm
      rfl
  | cons i t ih =>
      cases u with
      | nil => simp at h
      | cons j u =>
          obtain ⟨hij, htu⟩ := List.cons.inj h
          rw [map_allBlocks_cons, map_allBlocks_cons, hij, ih htu]

/-- The keys of the lines that a template is meant to write depend on what its items add to them
alone. -/
theorem keys_eq_of_outline_eq (h : t.map Item.outline = u.map Item.outline) :
    (t.written.map String.toList).map keyOf = (u.written.map String.toList).map keyOf := by
  have hkeys (t : Template) : (t.written.map String.toList).map keyOf
      = [keyOf []].intercalate ((t.allBlocks.map (List.map fun s => keyOf s.toList)).filter
        fun b => !b.isEmpty) := by
    rw [List.map_map, written, map_intercalate, blocks, List.filter_map]
    simp [Function.comp_def]
  rw [hkeys, hkeys, map_allBlocks_eq h]

end Template

end ProcUnits.UnitFile
