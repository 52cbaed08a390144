import Mathlib.Data.List.TakeWhile
import Mathlib.Tactic.Common
import ProcUnits.Proofs.Path.Join

/-!
Paths that are taken from a directory.

* `normalize_resolve`: a relative path leads from a directory to where its parts lead from the
  place of the directory, whatever the directory is written like;
* `foldl_step_of_not_escapes`: parts that do not climb over their start keep the names on the way to
  it, and `isWithin_resolve`: so a path that does not climb over its start stays in the directory;
* `rooted_normalize`: an absolute path leads to a place that is known;
* `resolve_eq_self_iff`, `mem_toList_resolve`: when a path stays as it is written; nothing comes in
  but a slash.
-/

namespace ProcUnits.Path

open Text (splitAt)

variable {base path : String}

/-! ### The text of a directory -/

/-- Nothing but slashes is taken from the end. -/
lemma exists_toList_eq (p : String) :
    ∃ k, p.toList = (dropSlashes p).toList ++ List.replicate k '/' := by
  have hslashes : ∀ c ∈ p.toList.reverse.takeWhile (· == '/'), c = '/' := by
    intro c hc
    simpa using List.mem_takeWhile_imp hc
  refine ⟨(p.toList.reverse.takeWhile (· == '/')).length, ?_⟩
  calc p.toList
      = (p.toList.reverse.takeWhile (· == '/') ++ p.toList.reverse.dropWhile (· == '/')).reverse :=
        by rw [List.takeWhile_append_dropWhile, List.reverse_reverse]
    _ = (p.toList.reverse.dropWhile (· == '/')).reverse
          ++ List.replicate (p.toList.reverse.takeWhile (· == '/')).length '/' := by
        rw [List.reverse_append, List.eq_replicate_of_mem hslashes, List.reverse_replicate,
          List.length_replicate]
    _ = _ := by rw [dropSlashes, String.toList_ofList]

/-- Slashes at the end divide nothing. -/
lemma filterMap_partOf_append_replicate (s : List Char) (k : ℕ) :
    (splitAt '/' (s ++ List.replicate k '/')).filterMap partOf
      = (splitAt '/' s).filterMap partOf := by
  induction k with
  | zero => rw [List.replicate_zero, List.append_nil]
  | succ k ih =>
      have hvoid : (splitAt '/' ([] : List Char)).filterMap partOf = [] := rfl
      rw [List.replicate_succ', ← List.append_assoc, Text.splitAt_append, List.filterMap_append,
        hvoid, List.append_nil, ih]

/-- A directory has the parts of its text without the slashes at the end; what opens it is seen with
one slash and anything behind it. -/
lemma parts_eq_of_ne_empty (hbase : base ≠ "") (t : List Char) :
    parts base = opening ((dropSlashes base).toList ++ '/' :: t)
      ++ (splitAt '/' (dropSlashes base).toList).filterMap partOf := by
  obtain ⟨k, hk⟩ := exists_toList_eq base
  have hopening : opening ((dropSlashes base).toList ++ List.replicate k '/')
      = opening ((dropSlashes base).toList ++ '/' :: t) := by
    cases k with
    | zero =>
        rw [List.replicate_zero, List.append_nil] at hk ⊢
        have hne : (dropSlashes base).toList ≠ [] := fun e =>
          hbase (String.toList_eq_nil_iff.mp (hk.trans e))
        exact (opening_append hne t).symm
    | succ k => exact opening_append_slash _ _ _
  rw [parts, hk, filterMap_partOf_append_replicate, hopening]

/-! ### Relative paths -/

/-- A path from a directory has the characters of both, and slashes. -/
lemma toList_resolve (hbase : base ≠ "") (hpath : isAbsolute path = false) :
    (resolve base path).toList = (dropSlashes base).toList ++ '/' :: path.toList := by
  have hempty : base.isEmpty = false := by simpa using hbase
  rw [resolve, hpath, hempty, if_neg (by simp)]
  simp

/-- The parts of a relative path taken from a directory stand behind those of the directory. A `.`
that opened the path opens nothing there. -/
lemma parts_resolve (hbase : base ≠ "") (hpath : isAbsolute path = false) :
    parts (resolve base path) = parts base ++ (splitAt '/' path.toList).filterMap partOf := by
  rw [parts, toList_resolve hbase hpath, Text.splitAt_append, List.filterMap_append,
    parts_eq_of_ne_empty hbase path.toList, List.append_assoc]

/-- A relative path is opened by `.` at most. -/
lemma mem_opening {p : Part} (hpath : isAbsolute path = false) (hp : p ∈ opening path.toList) :
    p = .here := by
  rw [isAbsolute] at hpath
  unfold opening at hp
  split at hp
  · exact List.mem_singleton.mp hp
  · exact List.mem_singleton.mp hp
  · next r hr => simp [hr] at hpath
  · simp at hp

lemma partOf_ne_root (piece : List Char) : partOf piece ≠ some .root := by
  rw [partOf]
  split_ifs <;> simp

/-- The root is no part of a relative path. -/
lemma root_notMem_parts (hpath : isAbsolute path = false) : Part.root ∉ parts path := by
  intro hmem
  rcases List.mem_append.mp hmem with h | h
  · exact absurd (mem_opening hpath h) (by simp)
  · obtain ⟨piece, -, hpiece⟩ := List.mem_filterMap.mp h
    exact partOf_ne_root piece hpiece

/-- A `.` leads nowhere. -/
lemma foldl_step_of_here {ps : List Part} (h : ∀ p ∈ ps, p = .here) (place : Place) :
    ps.foldl Place.step place = place := by
  induction ps with
  | nil => rfl
  | cons p ps ih =>
      obtain ⟨rfl, hps⟩ := List.forall_mem_cons.mp h
      exact ih hps

/-- A relative path leads from a directory to where its parts lead from the place of the
directory. -/
theorem normalize_resolve (hbase : base ≠ "") (hpath : isAbsolute path = false) :
    normalize (resolve base path) = (parts path).foldl Place.step (normalize base) := by
  calc normalize (resolve base path)
      = ((splitAt '/' path.toList).filterMap partOf).foldl Place.step (normalize base) := by
        rw [normalize, parts_resolve hbase hpath, List.foldl_append, normalize]
    _ = (parts path).foldl Place.step (normalize base) := by
        rw [parts, List.foldl_append, foldl_step_of_here fun p => mem_opening hpath]

/-! ### Paths that do not climb -/

/-- As long as no `..` climbs over the start, the names up to the start stay. Those behind it are
as many as the depth counts. -/
lemma foldl_step_of_not_escapes {ps : List Part} (hroot : Part.root ∉ ps) {names : List String}
    (h : escapesFrom names.length ps = false) (rooted : Bool) (start : List String) :
    ∃ inner, ps.foldl Place.step ⟨rooted, start ++ names⟩ = ⟨rooted, start ++ inner⟩ := by
  induction ps generalizing names with
  | nil => exact ⟨names, rfl⟩
  | cons p ps ih =>
      rw [List.mem_cons, not_or] at hroot
      cases p with
      | root => exact absurd rfl hroot.1
      | here => exact ih hroot.2 (by simpa [escapesFrom] using h)
      | up =>
          rcases List.eq_nil_or_concat names with rfl | ⟨front, n, rfl⟩
          · simp [escapesFrom] at h
          · -- the name that `..` drops is one behind the start
            have hstep : Place.step ⟨rooted, start ++ (front ++ [n])⟩ .up
                = ⟨rooted, start ++ front⟩ := by
              rw [Place.step, ← List.append_assoc, List.dropLast_concat]
            rw [List.concat_eq_append] at h ⊢
            rw [List.foldl_cons, hstep]
            exact ih hroot.2 (by simpa [escapesFrom] using h)
      | name n =>
          have hstep : Place.step ⟨rooted, start ++ names⟩ (.name n)
              = ⟨rooted, start ++ (names ++ [n])⟩ := by
            rw [Place.step, List.append_assoc]
          rw [List.foldl_cons, hstep]
          exact ih hroot.2 (by simpa [escapesFrom] using h)

/-- A relative path that does not climb over its start stays in the directory it is taken from. -/
theorem isWithin_resolve (hbase : base ≠ "") (hpath : isAbsolute path = false)
    (h : escapes path = false) :
    (normalize (resolve base path)).isWithin (normalize base) = true := by
  have hdepth : escapesFrom ([] : List String).length (parts path) = false := h
  obtain ⟨inner, hinner⟩ := foldl_step_of_not_escapes (root_notMem_parts hpath) hdepth
    (normalize base).rooted (normalize base).names
  rw [List.append_nil] at hinner
  rw [normalize_resolve hbase hpath, hinner, Place.isWithin]
  simp

/-! ### Absolute paths -/

/-- No part leads away from the root. -/
lemma rooted_foldl_step {ps : List Part} {place : Place} (h : place.rooted = true) :
    (ps.foldl Place.step place).rooted = true := by
  induction ps generalizing place with
  | nil => exact h
  | cons p ps ih =>
      rw [List.foldl_cons]
      refine ih ?_
      cases p with
      | root => rfl
      | here => exact h
      | up => exact h
      | name n => exact h

/-- An absolute path leads to a place below the root. -/
theorem rooted_normalize (h : isAbsolute path = true) : (normalize path).rooted = true := by
  obtain ⟨r, hr⟩ : ∃ r, path.toList = '/' :: r := by
    rw [isAbsolute] at h
    cases hp : path.toList with
    | nil => simp [hp] at h
    | cons c r => exact ⟨r, by simpa [hp] using h⟩
  have hopening : opening path.toList = [.root] := by rw [hr]; rfl
  rw [normalize, parts, hopening, List.singleton_append, List.foldl_cons]
  exact rooted_foldl_step rfl

/-! ### Texts -/

/-- A path that is taken from a directory is still itself just if it is absolute, or if there is no
directory. -/
lemma resolve_eq_self_iff : resolve base path = path ↔ isAbsolute path = true ∨ base = "" := by
  rw [resolve]
  split_ifs with hcond
  · simpa using hcond
  · simp only [Bool.or_eq_true, String.isEmpty_iff] at hcond
    refine iff_of_false (fun heq => ?_) hcond
    -- a slash at least stands in front
    have hlength := congrArg String.length heq
    have hslash : ("/" : String).length = 1 := rfl
    rw [String.length_append, String.length_append, hslash] at hlength
    omega

/-- The characters of a path from a directory are among those of both, and slashes. -/
lemma mem_toList_resolve {c : Char} (h : c ∈ (resolve base path).toList) :
    c ∈ base.toList ∨ c = '/' ∨ c ∈ path.toList := by
  rw [resolve] at h
  split_ifs at h
  · exact Or.inr (Or.inr h)
  · obtain ⟨k, hk⟩ := exists_toList_eq base
    rw [String.toList_append, String.toList_append, List.append_assoc] at h
    rcases List.mem_append.mp h with h | h
    · exact Or.inl (by rw [hk]; exact List.mem_append_left _ h)
    · exact Or.inr (by simpa using h)

end ProcUnits.Path
