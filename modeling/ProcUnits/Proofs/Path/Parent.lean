import ProcUnits.Proofs.Path.Join

/-!
Paths without their last part.

* `isEntryName_of_fileName?`: the name at the end of a path is one that an entry can have;
* `parts_parent`: the path without that name has the other parts, whatever it is written like;
* `mem_toList_iff`: all characters of a path but dots and slashes are in its names.
-/

namespace ProcUnits.Path

open Text (splitAt)

variable {p n : String} {s : List Char} {ps : List (List Char)}

/-! ### Pieces that stand for nothing -/

lemma partOf_eq_none_iff : partOf s = none ↔ s = [] ∨ s = ['.'] := by
  rw [partOf]
  split_ifs with h h' <;> simp [h]

/-- What is dropped at an end stands for nothing. -/
lemma exists_dropVoidEnd (ps : List (List Char)) :
    ∃ voids, ps = voids ++ dropVoidEnd ps ∧ ∀ v ∈ voids, partOf v = none := by
  induction ps with
  | nil => exact ⟨[], rfl, by simp⟩
  | cons p ps ih =>
      rw [dropVoidEnd]
      split_ifs with h
      · obtain ⟨voids, hvoids, hnone⟩ := ih
        refine ⟨p :: voids, congrArg (p :: ·) hvoids, List.forall_mem_cons.mpr ⟨?_, hnone⟩⟩
        exact partOf_eq_none_iff.mpr h.1
      · exact ⟨[], rfl, by simp⟩

/-- What stays is not nothing, and begins with a piece that stands for something if there is one. -/
lemma dropVoidEnd_ne_nil (h : ps ≠ []) : dropVoidEnd ps ≠ [] := by
  induction ps with
  | nil => exact absurd rfl h
  | cons p ps ih =>
      rw [dropVoidEnd]
      split_ifs with hvoid
      · exact ih hvoid.2
      · exact List.cons_ne_nil p ps

lemma eq_nil_of_dropVoidEnd {before : List (List Char)} (h : dropVoidEnd ps = s :: before)
    (hs : partOf s = none) : before = [] := by
  induction ps with
  | nil => cases h
  | cons p ps ih =>
      rw [dropVoidEnd] at h
      split_ifs at h with hvoid
      · exact ih h
      · obtain ⟨rfl, rfl⟩ := List.cons.inj h
        by_contra hne
        exact hvoid ⟨partOf_eq_none_iff.mp hs, hne⟩

lemma filterMap_partOf_of_void {voids : List (List Char)} (h : ∀ v ∈ voids, partOf v = none) :
    voids.filterMap partOf = [] :=
  List.filterMap_eq_nil_iff.mpr h

/-! ### The last name -/

lemma name_notMem_opening (s : List Char) (n : String) : .name n ∉ opening s := by
  unfold opening
  split <;> simp

/-- A piece that stands for a name is that name. -/
lemma isEntryName_of_partOf (hslash : '/' ∉ s) (h : partOf s = some (.name n)) :
    s = n.toList ∧ IsEntryName n := by
  rw [partOf] at h
  split_ifs at h with hvoid hup
  · exact absurd h (by simp)
  · have hs : s = n.toList := by
      rw [← Part.name.inj (Option.some.inj h), String.toList_ofList]
    subst hs
    rw [not_or] at hvoid
    exact ⟨rfl, fun hn => hvoid.1 (by rw [hn]; rfl), fun hn => hvoid.2 (by rw [hn]; rfl),
      fun hn => hup (by rw [hn]; rfl), hslash⟩

/-- A path with a name at its end is taken apart into what is in front of that name, the name, and
pieces that stand for nothing. -/
lemma exists_pieces (h : fileName? p = some n) :
    ∃ before voids, IsEntryName n ∧ (∀ v ∈ voids, partOf v = none)
      ∧ splitAt '/' p.toList = before.reverse ++ n.toList :: voids
      ∧ dropVoidEnd (splitAt '/' p.toList).reverse = n.toList :: before := by
  obtain ⟨voids, hvoids, hnone⟩ := exists_dropVoidEnd (splitAt '/' p.toList).reverse
  have hne : (splitAt '/' p.toList).reverse ≠ [] := by simpa using Text.splitAt_ne_nil p.toList
  obtain ⟨piece, before, hpieces⟩ := List.exists_cons_of_ne_nil (dropVoidEnd_ne_nil hne)
  rw [hpieces] at hvoids
  have hsplit : splitAt '/' p.toList = before.reverse ++ piece :: voids.reverse := by
    simpa using congrArg List.reverse hvoids
  have hslash : '/' ∉ piece := Text.not_mem_of_mem_splitAt (by rw [hsplit]; simp)
  have hvoid : voids.reverse.filterMap partOf = [] := by simpa using hnone
  have hlast : (parts p).getLast? = some (.name n) := by
    rw [fileName?] at h
    split at h
    · next hlast => rw [hlast, Option.some.inj h]
    · cases h
  rw [parts, hsplit, List.filterMap_append, List.filterMap_cons, hvoid] at hlast
  cases hpart : partOf piece with
  | none =>
      -- then there is nothing but what opens the path
      obtain rfl := eq_nil_of_dropVoidEnd hpieces hpart
      rw [hpart] at hlast
      have hmem : .name n ∈ opening p.toList := List.mem_of_getLast? (by simpa using hlast)
      exact absurd hmem (name_notMem_opening _ _)
  | some part =>
      rw [hpart] at hlast
      have hname : part = .name n := by simpa using hlast
      obtain ⟨rfl, hn⟩ := isEntryName_of_partOf hslash (hpart.trans (congrArg some hname))
      exact ⟨before, voids.reverse, hn, by simpa using hnone, hsplit, hpieces⟩

lemma isEntryName_of_fileName? (h : fileName? p = some n) : IsEntryName n := by
  obtain ⟨before, voids, hn, -⟩ := exists_pieces h
  exact hn

/-! ### The path without its last name -/

/-- The name opens no path, and nothing does that stands for nothing behind it. -/
lemma opening_intercalate_name (hn : IsEntryName n) (voids : List (List Char)) :
    opening (['/'].intercalate (n.toList :: voids)) = [] := by
  cases voids with
  | nil => rw [List.intercalate_singleton, hn.opening_eq]
  | cons v vs =>
      have hne : n.toList ≠ [] := fun e => hn.ne_empty (String.toList_eq_nil_iff.mp e)
      rw [List.intercalate_cons_cons, List.append_assoc, List.singleton_append,
        opening_append hne, hn.opening_eq]

/-- The path of the pieces that another one begins with has the parts that the other one begins
with. -/
lemma parts_intercalate {back : List (List Char)} (hps : ps ≠ []) (hroot : ps ≠ [[]])
    (hslash : ∀ piece ∈ ps, '/' ∉ piece) (hback : back ≠ []) :
    parts (String.ofList (['/'].intercalate ps))
      = opening (['/'].intercalate (ps ++ back)) ++ ps.filterMap partOf := by
  have hsplit : splitAt '/' (['/'].intercalate ps) = ps :=
    (Text.splitAt_intercalate_iff hps).mpr hslash
  have hne : ['/'].intercalate ps ≠ [] := by
    intro hvoid
    rw [hvoid] at hsplit
    exact hroot hsplit.symm
  rw [parts, String.toList_ofList, hsplit, Text.intercalate_append hps hback, List.append_assoc,
    List.singleton_append, opening_append hne]

/-- The path without the name at its end has the parts in front of that. -/
theorem parts_parent (h : fileName? p = some n) : parts p = parts (parent p) ++ [.name n] := by
  obtain ⟨before, voids, hn, hnone, hsplit, hpieces⟩ := exists_pieces h
  have htext : p.toList = ['/'].intercalate (before.reverse ++ n.toList :: voids) := by
    rw [← hsplit, Text.intercalate_splitAt]
  have hparts : parts p = opening p.toList ++ before.reverse.filterMap partOf ++ [.name n] := by
    rw [parts, hsplit, List.filterMap_append, List.filterMap_cons, hn.partOf_eq,
      filterMap_partOf_of_void hnone, List.append_assoc]
  rw [hparts, htext, parent, hpieces]
  congr 1
  cases before with
  | nil => exact congrArg (· ++ []) (opening_intercalate_name hn voids)
  | cons b bs =>
      -- pieces that stand for nothing are dropped also in front of the name
      obtain ⟨dropped, hdropped, hvoid⟩ := exists_dropVoidEnd (b :: bs)
      have hfront : (b :: bs).reverse = (dropVoidEnd (b :: bs)).reverse ++ dropped.reverse := by
        rw [← List.reverse_append, ← hdropped]
      have hvoid' : dropped.reverse.filterMap partOf = [] :=
        filterMap_partOf_of_void (by simpa using hvoid)
      have hslash : ∀ piece ∈ (dropVoidEnd (b :: bs)).reverse, '/' ∉ piece := fun piece hpiece =>
        Text.not_mem_of_mem_splitAt (by
          rw [hsplit, hfront]
          exact List.mem_append_left _ (List.mem_append_left _ hpiece))
      have hback : dropped.reverse ++ n.toList :: voids ≠ [] := by simp
      rw [hfront, List.filterMap_append, hvoid', List.append_nil, List.append_assoc]
      simp only
      split
      · next hnil => exact absurd hnil (dropVoidEnd_ne_nil (List.cons_ne_nil b bs))
      · next hroot =>
          rw [hroot, List.reverse_singleton, Text.intercalate_append (by simp) hback]
          rfl
      · next hnil hroot =>
          exact (parts_intercalate (by simpa using hnil)
            (fun heq => hroot (List.reverse_eq_iff.mp heq)) hslash hback).symm

/-- The path of another name in the place of the one at the end has the parts in front of that. -/
lemma parts_withFileName (h : fileName? p = some n) {m : String} (hm : IsEntryName m) :
    parts (withFileName p m) = parts (parent p) ++ [.name m] := by
  rw [withFileName, h, Option.isSome_some, if_pos rfl, parts_join _ hm]

/-! ### Characters -/

/-- All characters of a path but dots and slashes are in its names. -/
lemma mem_toList_iff {c : Char} (hslash : c ≠ '/') (hdot : c ≠ '.') :
    c ∈ p.toList ↔ ∃ m, .name m ∈ parts p ∧ c ∈ m.toList := by
  constructor
  · intro hc
    rw [← Text.intercalate_splitAt '/' p.toList] at hc
    obtain ⟨piece, hpiece, hc⟩ := (Text.mem_of_mem_intercalate hc).resolve_left hslash
    have hname : partOf piece = some (.name (String.ofList piece)) := by
      rw [partOf, if_neg, if_neg]
      · rintro rfl
        simp [hdot] at hc
      · rintro (rfl | rfl)
        · simp at hc
        · simp [hdot] at hc
    refine ⟨String.ofList piece, List.mem_append_right _ ?_, by simpa using hc⟩
    exact List.mem_filterMap.mpr ⟨piece, hpiece, hname⟩
  · rintro ⟨m, hm, hc⟩
    rcases List.mem_append.mp hm with hm | hm
    · exact absurd hm (name_notMem_opening _ _)
    · obtain ⟨piece, hpiece, hpart⟩ := List.mem_filterMap.mp hm
      obtain ⟨rfl, -⟩ := isEntryName_of_partOf (Text.not_mem_of_mem_splitAt hpiece) hpart
      rw [← Text.intercalate_splitAt '/' p.toList]
      exact Text.mem_intercalate hpiece hc

end ProcUnits.Path
