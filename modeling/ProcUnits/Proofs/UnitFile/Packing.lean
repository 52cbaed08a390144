import Mathlib.Data.List.Chain
import ProcUnits.Proofs.UnitFile.Wants

/-!
How the names of units are packed into lines: the length budget of section 4.6 of the specification.

* `wantsLine`, `Fits`: the line of a group of names, and whether it stays within the limit;
* `IsPacked`: names in groups, one for each line, of which each is as long as the limit allows;
* `groupNames_of_isPacked`: there is only one way to pack names; `isPacked_groupNames` says that
  the lines are packed in this way;
* `wantsLines_packed`: both for the lines that an application's unit has for its instances.
-/

namespace ProcUnits.UnitFile

open Systemd (maxWantsLine unitName wantsKey wantsLines)
open Text (splitAt)

variable {a : Application} {g t ns : List String} {n : String} {gs : List (List String)}

/-! ### Lines -/

/-- The line that wants the units of a group. -/
def wantsLine (ns : List String) : String := "Wants=" ++ joined ns

/-- The line of the group stays within the limit. -/
def Fits (ns : List String) : Prop := (wantsLine ns).utf8ByteSize ≤ 1536

/-- One name more takes its own bytes and one for the space in front of it. -/
lemma utf8ByteSize_wantsLine_concat (hg : g ≠ []) (n : String) :
    (wantsLine (g ++ [n])).utf8ByteSize
      = "Wants=".utf8ByteSize + (joined g).utf8ByteSize + 1 + n.utf8ByteSize := by
  have hspace : " ".utf8ByteSize = 1 := rfl
  rw [wantsLine, joined_concat hg]
  simp only [String.utf8ByteSize_append, hspace]
  omega

lemma not_fits_concat_iff (hg : g ≠ []) : ¬ Fits (g ++ [n])
    ↔ maxWantsLine < wantsKey.utf8ByteSize + (joined g).utf8ByteSize + 1 + n.utf8ByteSize := by
  rw [Fits, utf8ByteSize_wantsLine_concat hg, Nat.not_le]
  rfl

/-- What fits goes on to do so when names are left out at its end. -/
lemma Fits.of_append (h : Fits (g ++ t)) : Fits g := by
  cases t with
  | nil => simpa using h
  | cons n t =>
      by_cases hg : g = []
      · subst hg
        exact Nat.le_of_lt (by decide)
      · have hjoined : joined (g ++ n :: t) = joined g ++ " " ++ joined (n :: t) := by
          rw [joined, String.intercalate_append_of_ne_nil hg (by simp)]
          rfl
        rw [Fits, wantsLine, hjoined] at h
        rw [Fits, wantsLine]
        simp only [String.utf8ByteSize_append] at h ⊢
        omega

/-! ### Packed names -/

/-- The names are in groups, one for each line. A line is too long only if its one name is, and a
name starts a line only if it did not fit on the line before. -/
structure IsPacked (ns : List String) (gs : List (List String)) : Prop where
  /-- No name is lost, repeated or moved. -/
  flatten_eq : gs.flatten = ns
  ne_nil : ∀ g ∈ gs, g ≠ []
  length_eq_one : ∀ g ∈ gs, ¬ Fits g → g.length = 1
  greedy : gs.IsChain fun g g' => ∀ n ∈ g'.head?, ¬ Fits (g ++ [n])

/-- The first group goes on from the one that there is. -/
lemma exists_groupNames_eq_cons (hg : g ≠ []) (ns : List String) :
    ∃ t gs, groupNames g ns = (g ++ t) :: gs := by
  induction ns generalizing g with
  | nil => exact ⟨[], [], by rw [groupNames, if_neg hg, List.append_nil]⟩
  | cons n ns ih =>
      rw [groupNames, if_neg hg]
      split_ifs
      · exact ⟨[], _, by rw [List.append_nil]⟩
      · obtain ⟨t, gs, hgs⟩ := ih (g := g ++ [n]) (by simp)
        exact ⟨n :: t, gs, by simp [hgs]⟩

/-- A group that is too long has one name only, as long as this holds of the one that there is. -/
lemma length_le_one_of_mem_groupNames (hg : Fits g ∨ g.length ≤ 1) {k : List String}
    (hk : k ∈ groupNames g ns) : Fits k ∨ k.length ≤ 1 := by
  induction ns generalizing g with
  | nil =>
      rw [groupNames] at hk
      split_ifs at hk
      · exact absurd hk List.not_mem_nil
      · rwa [List.mem_singleton.mp hk]
  | cons n ns ih =>
      have hsingle : Fits [n] ∨ [n].length ≤ 1 := Or.inr (Nat.le_refl 1)
      rw [groupNames] at hk
      split_ifs at hk with hnil hlong
      · exact ih hsingle hk
      · rcases List.mem_cons.mp hk with rfl | hk
        · exact hg
        · exact ih hsingle hk
      · refine ih (Or.inl ?_) hk
        rw [← not_fits_concat_iff hnil, not_not] at hlong
        exact hlong

/-- A group starts with a name that did not fit into the one before. -/
lemma isChain_groupNames (g ns : List String) :
    (groupNames g ns).IsChain fun g g' => ∀ n ∈ g'.head?, ¬ Fits (g ++ [n]) := by
  induction ns generalizing g with
  | nil =>
      rw [groupNames]
      split_ifs
      · exact .nil
      · exact .singleton g
  | cons n ns ih =>
      rw [groupNames]
      split_ifs with hnil hlong
      · exact ih [n]
      · obtain ⟨t, gs, hgs⟩ := exists_groupNames_eq_cons (g := [n]) (by simp) ns
        have hrest := ih [n]
        rw [hgs] at hrest ⊢
        refine .cons_cons (fun m hm => ?_) hrest
        obtain rfl : n = m := by simpa using hm
        exact (not_fits_concat_iff hnil).mpr hlong
      · exact ih (g ++ [n])

/-- The groups are packed. -/
theorem isPacked_groupNames (ns : List String) : IsPacked ns (groupNames [] ns) where
  flatten_eq := flatten_groupNames [] ns
  ne_nil _ hk := ne_nil_of_mem_groupNames hk
  length_eq_one k hk hlong := by
    have hne := List.length_pos_of_ne_nil (ne_nil_of_mem_groupNames hk)
    rcases length_le_one_of_mem_groupNames (g := []) (Or.inr (Nat.zero_le 1)) hk with hfits | hle
    · exact absurd hfits hlong
    · omega
  greedy := isChain_groupNames [] ns

/-- Names that fit are added one by one. -/
lemma groupNames_append (hg : g ≠ []) (ht : t ≠ [] → Fits (g ++ t)) :
    groupNames g (t ++ ns) = groupNames (g ++ t) ns := by
  induction t generalizing g with
  | nil => simp
  | cons n t ih =>
      have hfits : Fits (g ++ n :: t) := ht (by simp)
      rw [← List.singleton_append, ← List.append_assoc] at hfits
      have hshort := mt (not_fits_concat_iff hg).mpr (not_not.mpr hfits.of_append)
      rw [List.cons_append, groupNames, if_neg hg, if_neg hshort, ih (by simp) fun _ => hfits]
      simp

/-- A group that has no room for a name that follows is the first one. -/
lemma groupNames_flatten (hne : ∀ k ∈ g :: gs, k ≠ [])
    (hlong : ∀ k ∈ g :: gs, ¬ Fits k → k.length = 1)
    (hchain : (g :: gs).IsChain fun g g' => ∀ n ∈ g'.head?, ¬ Fits (g ++ [n])) :
    groupNames g gs.flatten = g :: gs := by
  induction gs generalizing g with
  | nil => rw [List.flatten_nil, groupNames, if_neg (hne g List.mem_cons_self)]
  | cons k gs ih =>
      obtain ⟨hg, hne⟩ := List.forall_mem_cons.mp hne
      obtain ⟨-, hlong⟩ := List.forall_mem_cons.mp hlong
      rw [List.isChain_cons_cons] at hchain
      have hrest := ih hne hlong hchain.2
      obtain ⟨n, t, rfl⟩ := List.exists_cons_of_ne_nil (hne k List.mem_cons_self)
      -- the next name has no room left, so it starts a group of its own
      have hfull := (not_fits_concat_iff hg).mp (hchain.1 n rfl)
      have ht : t ≠ [] → Fits ([n] ++ t) := fun ht => by_contra fun hnot =>
        ht (by simpa using hlong _ List.mem_cons_self hnot)
      rw [List.flatten_cons, List.cons_append, groupNames, if_neg hg, if_pos hfull,
        groupNames_append (by simp) ht]
      exact congrArg _ hrest

/-- Names are packed in one way only. -/
theorem groupNames_of_isPacked (h : IsPacked ns gs) : groupNames [] ns = gs := by
  rw [← h.flatten_eq]
  cases gs with
  | nil => rfl
  | cons k gs =>
      have hrest := groupNames_flatten h.ne_nil h.length_eq_one h.greedy
      obtain ⟨n, t, rfl⟩ := List.exists_cons_of_ne_nil (h.ne_nil k List.mem_cons_self)
      have ht : t ≠ [] → Fits ([n] ++ t) := fun ht => by_contra fun hnot =>
        ht (by simpa using h.length_eq_one _ List.mem_cons_self hnot)
      rw [List.flatten_cons, List.cons_append, groupNames, if_pos rfl,
        groupNames_append (by simp) ht]
      exact hrest

/-! ### The lines of an application -/

/-- The names on a line, if there are no spaces in them. -/
def namesOn (l : String) : List String :=
  (splitAt ' ' (l.toList.drop "Wants=".length)).map String.ofList

/-- The line of a group is read as the group. -/
lemma namesOn_wantsLine (hg : g ≠ []) (h : ∀ n ∈ g, ' ' ∉ n.toList) :
    namesOn (wantsLine g) = g := by
  rw [namesOn, wantsLine, String.toList_append, ← String.length_toList, List.drop_left,
    splitAt_joined hg h]
  simp [Function.comp_def]

/-- The lines that name the units of all instances are packed with these names, in the one way that
there is (section 4.6). They are read back line by line if no name has spaces in it. -/
theorem wantsLines_packed (a : Application) : ∃ gs, IsPacked ((stems a).map unitName) gs
    ∧ (∀ gs', IsPacked ((stems a).map unitName) gs' → gs' = gs)
    ∧ wantsLines a = gs.map wantsLine
    ∧ (HasPlainNames a → (wantsLines a).map namesOn = gs) := by
  have hpacked := isPacked_groupNames ((stems a).map unitName)
  have hlines : wantsLines a = (groupNames [] ((stems a).map unitName)).map wantsLine := by
    rw [wantsLines, show "" = joined [] from rfl,
      groupsFrom_joined (by simp) (units_ne_empty a), List.map_map]
    rfl
  refine ⟨_, hpacked, fun gs' h => (groupNames_of_isPacked h).symm, hlines, fun hplain => ?_⟩
  rw [hlines, List.map_map]
  refine (List.map_congr_left fun g hg => ?_).trans (List.map_id _)
  refine namesOn_wantsLine (hpacked.ne_nil g hg) fun n hn => ?_
  have hmem : n ∈ (stems a).map unitName := hpacked.flatten_eq ▸ List.mem_flatten_of_mem hg hn
  obtain ⟨s, hs, rfl⟩ := List.mem_map.mp hmem
  exact hplain.stems hs

end ProcUnits.UnitFile
