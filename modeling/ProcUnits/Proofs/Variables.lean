import Mathlib.Data.List.Nodup
import Mathlib.Tactic.Common
import ProcUnits.Variables

/-!
Environment variables seen through the values they have.

* `mem_entries_iff`: the entries of a map are the variables with their values;
* `get?_union`, `mem_union_iff`: the union of two maps, of which the first one counts;
* `ofList_entries`, `entries_ofList_perm`: a map is made again of its entries, and the entries of a
  map are the assignments that it is made of, if these are to different names;
* `ext_get?`, `ofList_eq_of_perm`: maps with the same values are the same, so the order of
  assignments to different names does not count.
-/

namespace ProcUnits.Variables

variable {vs ws : Variables} {name value other : String}

/-! ### Values -/

/-- The entries are the variables with their values. -/
theorem mem_entries_iff : (name, value) ∈ vs.entries ↔ vs.get? name = some value := by
  obtain ⟨es, hes⟩ := vs
  simp only [get?]
  induction es with
  | nil => simp
  | cons e es ih =>
      obtain ⟨hlt, hes⟩ := List.pairwise_cons.mp hes
      rw [lookup_cons_eq, List.mem_cons]
      split_ifs with hname
      · -- the name of the first entry has no other entry
        constructor
        · rintro (rfl | hmem)
          · rfl
          · exact absurd (hlt _ hmem) (hname ▸ String.lt_irrefl name)
        · intro hvalue
          exact Or.inl (by rw [hname, ← Option.some.inj hvalue])
      · rw [← ih hes]
        refine or_iff_right fun heq => hname ?_
        rw [← heq]

lemma get?_insertNew (vs : Variables) (name value other : String) :
    (vs.insertNew name value).get? other
      = (vs.get? other).or (if other = name then some value else none) := by
  rw [insertNew]
  split_ifs with hset hother hother
  · obtain ⟨v, hv⟩ := Option.isSome_iff_exists.mp hset
    simp [hother, hv]
  · simp
  · rw [get?_insert, if_pos hother, hother, Option.not_isSome_iff_eq_none.mp hset]
    rfl
  · rw [get?_insert, if_neg hother]
    simp

lemma get?_foldl_insertNew (vs : Variables) (es : List (String × String)) (name : String) :
    (es.foldl (fun acc e => acc.insertNew e.1 e.2) vs).get? name
      = (vs.get? name).or (es.lookup name) := by
  induction es generalizing vs with
  | nil => simp
  | cons e es ih =>
      rw [List.foldl_cons, ih, get?_insertNew, Option.or_assoc, lookup_cons_eq]
      split_ifs <;> simp

/-- In a union the first map counts. -/
theorem get?_union (vs ws : Variables) (name : String) :
    (vs.union ws).get? name = (vs.get? name).or (ws.get? name) :=
  get?_foldl_insertNew vs ws.entries name

/-- The entries of a union are those of the first map, and those of the second one that have a
name of their own. -/
lemma mem_union_iff : (name, value) ∈ (vs.union ws).entries
    ↔ (name, value) ∈ vs.entries ∨ ((name, value) ∈ ws.entries ∧ vs.get? name = none) := by
  rw [mem_entries_iff, mem_entries_iff, mem_entries_iff, get?_union, Option.or_eq_some_iff,
    and_comm (b := vs.get? name = none)]

/-- Nothing comes in with no variable. -/
lemma union_empty (vs : Variables) : vs.union .empty = vs := rfl

/-! ### Entries -/

/-- A name behind all others is placed at the end. -/
lemma place_eq_append {es : List (String × String)} (h : ∀ e ∈ es, e.1 < name) :
    place name value es = es ++ [(name, value)] := by
  induction es with
  | nil => rfl
  | cons e es ih =>
      obtain ⟨he, hes⟩ := List.forall_mem_cons.mp h
      have hne : name ≠ e.1 := fun heq => String.lt_irrefl name (heq ▸ he)
      rw [place, if_neg (String.lt_asymm he), if_neg hne, ih hes]
      rfl

lemma entries_foldl_insert {es : List (String × String)} (vs : Variables)
    (h : (vs.entries ++ es).Pairwise fun a b => a.1 < b.1) :
    (es.foldl (fun acc e => acc.insert e.1 e.2) vs).entries = vs.entries ++ es := by
  induction es generalizing vs with
  | nil => simp
  | cons e es ih =>
      have hlast : ∀ x ∈ vs.entries, x.1 < e.1 := fun x hx =>
        (List.pairwise_append.mp h).2.2 x hx e List.mem_cons_self
      have hentries : (vs.insert e.1 e.2).entries = vs.entries ++ [e] := place_eq_append hlast
      have happend : vs.entries ++ e :: es = (vs.insert e.1 e.2).entries ++ es := by
        rw [hentries, List.append_assoc]
        rfl
      rw [happend] at h ⊢
      exact ih _ h

/-- A map is made again of its entries. -/
theorem ofList_entries (vs : Variables) : ofList vs.entries = vs := by
  have hentries := entries_foldl_insert empty vs.ordered
  obtain ⟨es, hes⟩ := vs
  rw [ofList]
  cases hmap : List.foldl (fun acc e => acc.insert e.1 e.2) empty es with
  | mk es' hes' =>
      rw [hmap] at hentries
      congr

/-- What is assigned to a new name comes in beside the other entries. -/
lemma place_perm {es : List (String × String)} (h : name ∉ es.map Prod.fst) :
    (place name value es).Perm ((name, value) :: es) := by
  induction es with
  | nil => exact .refl _
  | cons e es ih =>
      rw [List.map_cons, List.mem_cons, not_or] at h
      rw [place]
      split_ifs with hlt heq
      · exact .refl _
      · exact absurd heq h.1
      · exact ((ih h.2).cons e).trans (.swap (name, value) e es)

lemma entries_foldl_insert_perm {es : List (String × String)} (vs : Variables)
    (h : ((vs.entries ++ es).map Prod.fst).Nodup) :
    (es.foldl (fun acc e => acc.insert e.1 e.2) vs).entries.Perm (vs.entries ++ es) := by
  induction es generalizing vs with
  | nil => simp
  | cons e es ih =>
      have hswap : (vs.entries ++ e :: es).Perm (e :: vs.entries ++ es) := List.perm_middle
      have hnew : e.1 ∉ vs.entries.map Prod.fst := by
        have hnodup := ((hswap.map Prod.fst).nodup_iff).mp h
        rw [List.cons_append, List.map_cons, List.nodup_cons, List.map_append,
          List.mem_append, not_or] at hnodup
        exact hnodup.1.1
      have hplace : (vs.insert e.1 e.2).entries.Perm (e :: vs.entries) := place_perm hnew
      have hall := (hplace.append_right es).trans hswap.symm
      exact (ih _ (((hall.map Prod.fst).nodup_iff).mpr h)).trans hall

/-- Assignments to different names are the entries of their map. -/
theorem entries_ofList_perm {es : List (String × String)} (h : (es.map Prod.fst).Nodup) :
    (ofList es).entries.Perm es :=
  entries_foldl_insert_perm empty h

/-! ### The order of assignments -/

/-- Maps are the same if all variables have the same values in them. -/
theorem ext_get? (h : ∀ name, vs.get? name = ws.get? name) : vs = ws := by
  have hnodup (us : Variables) : us.entries.Nodup := by
    refine us.ordered.imp fun {a b} hlt heq => ?_
    rw [heq] at hlt
    exact String.lt_irrefl b.1 hlt
  have hperm : vs.entries.Perm ws.entries := by
    refine (List.perm_ext_iff_of_nodup (hnodup vs) (hnodup ws)).mpr fun e => ?_
    obtain ⟨name, value⟩ := e
    rw [mem_entries_iff, mem_entries_iff, h]
  have hentries : vs.entries = ws.entries :=
    hperm.eq_of_pairwise (fun _ _ _ _ hlt hgt => absurd hgt (String.lt_asymm hlt)) vs.ordered
      ws.ordered
  obtain ⟨es, hes⟩ := vs
  obtain ⟨fs, hfs⟩ := ws
  obtain rfl : es = fs := hentries
  rfl

lemma insert_comm (hne : name ≠ other) (vs : Variables) (value value' : String) :
    (vs.insert name value).insert other value' = (vs.insert other value').insert name value := by
  refine ext_get? fun n => ?_
  simp only [get?_insert]
  split_ifs with hother hname
  · exact absurd (hname.symm.trans hother) hne
  · rfl
  · rfl
  · rfl

/-- Assignments to different names can be made in any order. -/
theorem ofList_eq_of_perm {es fs : List (String × String)} (h : es.Perm fs)
    (hnodup : (es.map Prod.fst).Nodup) : ofList es = ofList fs := by
  refine h.foldl_eq' (fun e he f hf vs => ?_) empty
  by_cases hname : e.1 = f.1
  · rw [List.inj_on_of_nodup_map hnodup he hf hname]
  · exact insert_comm hname vs e.2 f.2

end ProcUnits.Variables
