import Mathlib.Data.List.Basic
import Mathlib.Tactic.Common
import ProcUnits.Path
import ProcUnits.Proofs.Text.Split

/-!
Names in directories.

* `Path.IsEntryName`: the names that an entry of a directory can have;
* `parts_join`: the path of a name in a directory has the parts of the directory and then the
  name, whatever the directory is written like.
-/

namespace ProcUnits

namespace Path

open Text (splitAt)

/-! ### Names -/

/-- An entry of a directory can have this name. -/
structure IsEntryName (n : String) : Prop where
  ne_empty : n ≠ ""
  ne_here : n ≠ "."
  ne_up : n ≠ ".."
  slash_not_mem : '/' ∉ n.toList

/-- A name is one part. -/
lemma IsEntryName.partOf_eq {n : String} (h : IsEntryName n) :
    partOf n.toList = some (.name n) := by
  have h₁ : n.toList ≠ [] := fun e => h.ne_empty (String.toList_eq_nil_iff.mp e)
  have h₂ : n.toList ≠ ['.'] := fun e => h.ne_here (String.toList_injective e)
  have h₃ : n.toList ≠ ['.', '.'] := fun e => h.ne_up (String.toList_injective e)
  rw [partOf, if_neg (not_or.mpr ⟨h₁, h₂⟩), if_neg h₃, String.ofList_toList]

/-- A name does not open a path by itself. -/
lemma IsEntryName.opening_eq {n : String} (h : IsEntryName n) : opening n.toList = [] := by
  rw [opening]
  · exact fun e => h.ne_here (String.toList_injective e)
  · exact fun r e => h.slash_not_mem (by rw [e]; simp)
  · exact fun r e => h.slash_not_mem (by rw [e]; simp)

/-- A name is no absolute path. -/
lemma IsEntryName.isAbsolute_eq {n : String} (h : IsEntryName n) : isAbsolute n = false := by
  have hslash := h.slash_not_mem
  rw [isAbsolute]
  cases hn : n.toList with
  | nil => rfl
  | cons c r =>
      rw [hn, List.mem_cons, not_or] at hslash
      simpa using Ne.symm hslash.1

/-! ### Parts -/

/-- What opens a path is seen before the first slash, or is that slash. -/
lemma opening_append_slash (s t t' : List Char) :
    opening (s ++ '/' :: t) = opening (s ++ '/' :: t') := by
  rcases s with _ | ⟨c, _ | ⟨c', s⟩⟩
  · rfl
  · simp only [List.cons_append, List.nil_append, opening]
    split <;> simp_all
  · simp only [List.cons_append, opening]
    split <;> simp_all

/-- A slash behind a path does not change what opens it. -/
lemma opening_append {s : List Char} (hs : s ≠ []) (t : List Char) :
    opening (s ++ '/' :: t) = opening s := by
  rcases s with _ | ⟨c, _ | ⟨c', s⟩⟩
  · exact absurd rfl hs
  · by_cases hdot : c = '.'
    · subst hdot
      rfl
    · by_cases hslash : c = '/'
      · subst hslash
        rfl
      · simp [opening, hdot, hslash]
  · simp only [List.cons_append, opening]
    split <;> simp_all

/-- The parts of two paths with a slash between them. -/
lemma parts_ofList_append (s : List Char) {n : String} (hn : IsEntryName n) :
    opening (s ++ '/' :: n.toList) ++ (splitAt '/' (s ++ '/' :: n.toList)).filterMap partOf
      = opening (s ++ '/' :: n.toList) ++ (splitAt '/' s).filterMap partOf ++ [.name n] := by
  rw [Text.splitAt_append, Text.splitAt_of_not_mem hn.slash_not_mem, List.filterMap_append,
    List.append_assoc]
  simp [hn.partOf_eq]

/-- The path of a name in a directory has the parts of the directory and then the name. -/
theorem parts_join (dir : String) {n : String} (hn : IsEntryName n) :
    parts (join dir n) = parts dir ++ [.name n] := by
  by_cases hdir : dir = ""
  · subst hdir
    have hjoin : join "" n = n := by simp [join]
    have hvoid : parts "" = [] := rfl
    rw [hjoin, hvoid, parts, hn.opening_eq, Text.splitAt_of_not_mem hn.slash_not_mem]
    simp [hn.partOf_eq]
  · have hne : dir.toList ≠ [] := fun e => hdir (String.toList_eq_nil_iff.mp e)
    have hcond : (isAbsolute n || dir.isEmpty) = false := by
      simp [hn.isAbsolute_eq, hdir]
    by_cases hlast : dir.toList.getLast? = some '/'
    · -- the slash that ends the directory is the one between it and the name
      obtain ⟨s, hs⟩ : ∃ s, dir.toList = s ++ ['/'] :=
        ⟨_, (List.dropLast_append_getLast? _ hlast).symm⟩
      have hjoin : (join dir n).toList = s ++ '/' :: n.toList := by
        rw [join, hcond, if_neg Bool.false_ne_true, if_pos (by simpa using hlast)]
        simp [String.toList_append, hs]
      have hvoid : (splitAt '/' ([] : List Char)).filterMap partOf = [] := rfl
      rw [parts, hjoin, parts_ofList_append s hn, parts, hs, opening_append_slash s _ [],
        Text.splitAt_append, List.filterMap_append, hvoid, List.append_nil]
    · have hjoin : (join dir n).toList = dir.toList ++ '/' :: n.toList := by
        rw [join, hcond, if_neg Bool.false_ne_true, if_neg (by simpa using hlast)]
        simp [String.toList_append]
      rw [parts, hjoin, parts_ofList_append _ hn, parts, opening_append hne]

/-- The text of the path of a name in a directory ends with the name. -/
lemma toList_join (dir n : String) : ∃ s, (join dir n).toList = s ++ n.toList := by
  rw [join]
  split_ifs
  · exact ⟨[], rfl⟩
  · exact ⟨dir.toList, String.toList_append⟩
  · exact ⟨(dir ++ "/").toList, String.toList_append⟩

/-- The characters of the directory are in the path of a name there. -/
lemma mem_toList_join {dir n : String} {c : Char} (hn : isAbsolute n = false)
    (hc : c ∈ dir.toList) : c ∈ (join dir n).toList := by
  have hdir : dir.isEmpty = false := by
    rw [String.isEmpty_eq_false_iff]
    rintro rfl
    simp at hc
  rw [join, hn, hdir, if_neg (by simp)]
  split_ifs <;> simp [hc]

/-- The path of a name in a directory ends with that name. -/
lemma fileName?_join (dir : String) {n : String} (hn : IsEntryName n) :
    fileName? (join dir n) = some n := by
  rw [fileName?, parts_join dir hn, List.getLast?_concat]

end Path

end ProcUnits
