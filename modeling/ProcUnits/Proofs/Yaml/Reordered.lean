import Mathlib.Data.List.Find
import Mathlib.Data.List.Perm.Basic
import ProcUnits.Proofs.Yaml.Keys

/-!
Documents with the entries of their mappings in another order.

* `Reordered`: the relation between two such values. Their scalars are the same, at the same places
  (`Reordered.text?_eq`);
* `Agrees`: two such values the second of which has no key twice. A key then leads to values that
  agree again (`Agrees.get?`).
-/

namespace ProcUnits.Yaml.Value

variable {v w : Value} {es fs fs' : List (Value × Value)}

/-! ### Reordering -/

mutual

/-- The values differ only in the order of the entries of mappings, at whatever depth. -/
inductive Reordered : Value → Value → Prop
  | refl (v : Value) : Reordered v v
  | list {vs ws : List Value} (items : List.Forall₂ Reordered vs ws) :
      Reordered (.list vs) (.list ws)
  | map {es fs' fs : List (Value × Value)} (entries : List.Forall₂ EntryReordered es fs')
      (perm : fs'.Perm fs) : Reordered (.map es) (.map fs)

/-- Neither the keys nor the values of the entries differ in more than that. -/
inductive EntryReordered : Value × Value → Value × Value → Prop
  | mk {e f : Value × Value} (key : Reordered e.1 f.1) (value : Reordered e.2 f.2) :
      EntryReordered e f

end

namespace Reordered

lemma text?_eq (h : Reordered v w) : v.text? = w.text? := by
  cases h <;> rfl

lemma isStr_eq (h : Reordered v w) (s : String) : v.isStr s = w.isStr s := by
  cases h <;> rfl

lemma isPresent_eq (h : Reordered v w) : v.isPresent = w.isPresent := by
  cases h <;> rfl

/-- What a mapping is reordered to is a mapping. -/
lemma exists_of_map (h : Reordered (.map es) w) :
    ∃ fs' fs, w = .map fs ∧ List.Forall₂ EntryReordered es fs' ∧ fs'.Perm fs := by
  cases h with
  | refl =>
      have hsame : List.Forall₂ EntryReordered es es :=
        List.forall₂_same.mpr fun e _ => .mk (.refl e.1) (.refl e.2)
      exact ⟨es, es, rfl, hsame, .refl es⟩
  | map entries perm => exact ⟨_, _, rfl, entries, perm⟩

end Reordered

/-! ### Values under keys -/

/-- The values differ in nothing that can be found by keys: only in the order of entries, and the
second one has no key twice. -/
structure Agrees (v w : Value) : Prop where
  reordered : Reordered v w
  uniqueKeys : UniqueKeys w

/-- The first entry with a key is the same in lists of entries that differ within them. -/
lemma find?_of_forall₂ (h : List.Forall₂ EntryReordered es fs) (key : String) :
    Option.Rel EntryReordered (es.find? (·.1.isStr key)) (fs.find? (·.1.isStr key)) := by
  induction h with
  | nil => exact .none
  | cons hef _ ih =>
      cases hef with
      | mk hkey hvalue =>
          rw [List.find?_cons, List.find?_cons, hkey.isStr_eq]
          split
          · exact .some (.mk hkey hvalue)
          · exact ih

/-- Where no key stands twice, the entry with a key is the same in any order. -/
lemma find?_eq_of_perm (h : fs'.Perm fs) (hnodup : (fs.map Prod.fst).Nodup) (key : String) :
    fs'.find? (·.1.isStr key) = fs.find? (·.1.isStr key) := by
  have hnodup' : (fs'.map Prod.fst).Nodup := (h.map Prod.fst).nodup_iff.mpr hnodup
  refine List.find?_eq_find?_of_perm h ?_
  rintro e ⟨he, hekey⟩ f ⟨hf, hfkey⟩
  refine List.inj_on_of_nodup_map hnodup' he hf ?_
  rw [isStr_iff.mp hekey, isStr_iff.mp hfkey]

namespace Agrees

/-- What a mapping agrees with is a mapping, whose entries agree one by one in some order. -/
lemma exists_of_map (h : Agrees (.map es) w) : ∃ fs' fs, w = .map fs ∧ fs'.Perm fs
    ∧ List.Forall₂ (fun e f => e.1.text? = f.1.text? ∧ Agrees e.2 f.2) es fs' := by
  obtain ⟨fs', fs, rfl, hentries, hperm⟩ := h.reordered.exists_of_map
  have hunique : ∀ f ∈ fs', UniqueKeys f.2 := fun f hf => h.uniqueKeys.value (hperm.subset hf)
  refine ⟨fs', fs, rfl, hperm, ?_⟩
  clear hperm h
  induction hentries with
  | nil => exact .nil
  | cons hef _ ih =>
      obtain ⟨hf, hfs⟩ := List.forall_mem_cons.mp hunique
      cases hef with
      | mk hkey hvalue => exact .cons ⟨hkey.text?_eq, hvalue, hf⟩ (ih hfs)

/-- A key leads to values that agree again, or to none. -/
theorem get? (h : Agrees v w) (key : String) : Option.Rel Agrees (v.get? key) (w.get? key) := by
  cases v with
  | map es =>
      obtain ⟨fs', fs, rfl, hentries, hperm⟩ := h.reordered.exists_of_map
      have hfind := find?_of_forall₂ hentries key
      rw [find?_eq_of_perm hperm h.uniqueKeys.keys_nodup] at hfind
      simp only [Value.get?]
      generalize es.find? (·.1.isStr key) = o at hfind
      cases hfs : fs.find? (·.1.isStr key) with
      | none =>
          rw [hfs] at hfind
          cases hfind
          exact .none
      | some f =>
          rw [hfs] at hfind
          cases hfind with
          | some hef =>
              cases hef with
              | mk hkey hvalue =>
                  have hf : UniqueKeys f.2 := h.uniqueKeys.value (List.mem_of_find?_eq_some hfs)
                  simp only [Option.map_some, Option.filter_some, hvalue.isPresent_eq]
                  split_ifs
                  · exact .some ⟨hvalue, hf⟩
                  · exact .none
  | _ => cases h.reordered <;> exact .none

end Agrees

end ProcUnits.Yaml.Value
