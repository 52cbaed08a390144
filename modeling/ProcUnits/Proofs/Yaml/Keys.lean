import Mathlib.Data.List.Nodup
import Mathlib.Tactic.Common
import ProcUnits.Proofs.Outcome
import ProcUnits.Yaml.Value

/-!
The keys of mappings.

* `isStr_iff`: the key for which a property is looked up;
* `UniqueKeys`: no mapping has a key twice, and `uniqueKeys_of_load`: so it is in each document that
  is loaded.
-/

namespace ProcUnits.Yaml.Value

variable {v : Value} {vs : List Value} {es : List (Value × Value)} {text : List Char}

lemma isStr_iff {s : String} : v.isStr s = true ↔ v = .str s := by
  cases v <;> simp [isStr]

/-! ### Mappings without a key that stands twice -/

/-- No mapping has a key twice: neither the value itself nor one to which keys lead from it. -/
inductive UniqueKeys : Value → Prop
  | intro {v : Value} (nodup : ∀ es, v.entries? = some es → (es.map Prod.fst).Nodup)
      (values : ∀ es, v.entries? = some es → ∀ e ∈ es, UniqueKeys e.2) : UniqueKeys v

namespace UniqueKeys

lemma of_entries?_eq_none (h : v.entries? = none) : UniqueKeys v := by
  have hno (es : List (Value × Value)) : v.entries? ≠ some es := by
    rw [h]
    exact Option.some_ne_none es |>.symm
  exact .intro (fun es hes => absurd hes (hno es)) fun es hes => absurd hes (hno es)

lemma of_map (hnodup : (es.map Prod.fst).Nodup) (h : ∀ e ∈ es, UniqueKeys e.2) :
    UniqueKeys (.map es) :=
  .intro (fun _ hes => Option.some.inj hes ▸ hnodup) fun _ hes => Option.some.inj hes ▸ h

lemma keys_nodup (h : UniqueKeys (.map es)) : (es.map Prod.fst).Nodup := by
  cases h with
  | intro nodup values => exact nodup es rfl

lemma value (h : UniqueKeys (.map es)) {e : Value × Value} (he : e ∈ es) : UniqueKeys e.2 := by
  cases h with
  | intro nodup values => exact values es rfl e he

end UniqueKeys

/-! ### Documents that are loaded -/

lemma entries?_ofPlain (s : String) : (ofPlain s).entries? = none := by
  unfold ofPlain
  split
  · rfl
  · split_ifs <;> (try split) <;> rfl

lemma entries?_ofTagged (type s : String) : (ofTagged type s).entries? = none := by
  unfold ofTagged
  split_ifs <;> (try split) <;> rfl

/-- A scalar is no mapping, whatever its tag says. -/
lemma entries?_ofScalar (style : Style) (tag : Option Tag) (s : String) :
    (ofScalar style tag s).entries? = none := by
  unfold ofScalar
  split
  · exact entries?_ofPlain s
  · split_ifs
    · exact entries?_ofTagged _ s
    · rfl
  · rfl

/-- Keys and values are put together to entries with different keys. -/
lemma nodup_of_pair {k : Option Value} {done : List (Value × Value)} (h : pair k done vs = .ok es)
    (hdone : (done.map Prod.fst).Nodup) :
    (es.map Prod.fst).Nodup ∧ ∀ e ∈ es, e ∈ done ∨ e.2 ∈ vs := by
  fun_induction pair k done vs with
  | case1 k done =>
      obtain rfl := Except.ok.inj h
      refine ⟨?_, fun e he => Or.inl (List.mem_reverse.mp he)⟩
      rw [List.map_reverse]
      exact (List.reverse_perm _).nodup_iff.mpr hdone
  | case2 done vs ih =>
      obtain ⟨hnodup, hmem⟩ := ih h hdone
      exact ⟨hnodup, fun e he => (hmem e he).imp_right (List.mem_cons_of_mem _)⟩
  | case3 done v vs hv ih =>
      obtain ⟨hnodup, hmem⟩ := ih h hdone
      exact ⟨hnodup, fun e he => (hmem e he).imp_right (List.mem_cons_of_mem _)⟩
  | case4 k done v vs hany => cases h
  | case5 k done v vs hany ih =>
      have hnew : k ∉ List.map Prod.fst done := by
        simpa using hany
      obtain ⟨hnodup, hmem⟩ := ih h (List.nodup_cons.mpr ⟨hnew, hdone⟩)
      refine ⟨hnodup, fun e he => ?_⟩
      rcases hmem e he with hcons | hvs
      · rcases List.mem_cons.mp hcons with rfl | hdone
        · exact Or.inr List.mem_cons_self
        · exact Or.inl hdone
      · exact Or.inr (List.mem_cons_of_mem _ hvs)

mutual

theorem uniqueKeys_of_ofNode : ∀ {n : Node} {v : Value}, ofNode n = .ok v → UniqueKeys v
  | .scalar style tag s, v, h => by
      rw [ofNode] at h
      obtain rfl := Except.ok.inj h
      exact .of_entries?_eq_none (entries?_ofScalar style tag s)
  | .list items, v, h => by
      simp only [ofNode, bind_eq_ok_iff, pure_eq_ok_iff] at h
      obtain ⟨vs, -, rfl⟩ := h
      exact .of_entries?_eq_none rfl
  | .map entries, v, h => by
      simp only [ofNode, bind_eq_ok_iff, pure_eq_ok_iff] at h
      obtain ⟨vs, hvs, es, hes, rfl⟩ := h
      obtain ⟨hnodup, hmem⟩ := nodup_of_pair hes List.nodup_nil
      refine .of_map hnodup fun e he => ?_
      exact uniqueKeys_of_ofEntries hvs e.2 ((hmem e he).resolve_left List.not_mem_nil)
  | .loop, v, h => by
      rw [ofNode] at h
      obtain rfl := Except.ok.inj h
      exact .of_entries?_eq_none rfl

theorem uniqueKeys_of_ofEntries : ∀ {es : List (Node × Node)} {vs : List Value},
    ofEntries es = .ok vs → ∀ v ∈ vs, UniqueKeys v
  | [], vs, h => by
      rw [ofEntries] at h
      obtain rfl := Except.ok.inj h
      exact List.forall_mem_nil _
  | (k, v) :: es, vs, h => by
      simp only [ofEntries, bind_eq_ok_iff, pure_eq_ok_iff] at h
      obtain ⟨key, hkey, value, hvalue, vs, hvs, rfl⟩ := h
      exact List.forall_mem_cons.mpr ⟨uniqueKeys_of_ofNode hkey,
        List.forall_mem_cons.mpr ⟨uniqueKeys_of_ofNode hvalue, uniqueKeys_of_ofEntries hvs⟩⟩

end

lemma uniqueKeys_of_ofNodes {ns : List Node} (h : ofNodes ns = .ok vs) :
    ∀ v ∈ vs, UniqueKeys v := by
  induction ns generalizing vs with
  | nil =>
      rw [ofNodes] at h
      obtain rfl := Except.ok.inj h
      exact List.forall_mem_nil _
  | cons n ns ih =>
      simp only [ofNodes, bind_eq_ok_iff, pure_eq_ok_iff] at h
      obtain ⟨v, hv, vs, hvs, rfl⟩ := h
      exact List.forall_mem_cons.mpr ⟨uniqueKeys_of_ofNode hv, ih hvs⟩

/-- No mapping of a document that is loaded has a key twice. -/
theorem uniqueKeys_of_load (h : load text = .ok v) : UniqueKeys v := by
  simp only [load, bind_eq_ok_iff, pure_eq_ok_iff] at h
  obtain ⟨ns, -, vs, hvs, rfl⟩ := h
  cases vs with
  | nil => exact .of_entries?_eq_none rfl
  | cons v vs => exact uniqueKeys_of_ofNodes hvs v List.mem_cons_self

end ProcUnits.Yaml.Value
