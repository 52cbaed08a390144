import Mathlib.Data.List.Dedup
import Mathlib.Tactic.Common
import ProcUnits.Procfile.Convert
import ProcUnits.Proofs.Yaml.Keys

/-!
Maps under construction, seen through the values under their keys.

* `get?_insert`: the value under a key after an insertion. The other ways to set a key come down
  to it;
* `foldl_insert_nil`: of entries with the same name the last one is left, in its place.
  `foldl_insert_eq_map`: entries with different names stand in the order in which they were put in;
* `optional_textOf`, `number_of_nonzero`, `number_of_positive`: how a property is read that was put
  in if it is set.
-/

namespace ProcUnits.Procfile

open Yaml (Value)

namespace Fields

variable {fs : Fields} {k key : String} {v : Value}

/-! ### Values under keys -/

/-- The value under a key after an insertion. -/
@[simp]
lemma get?_insert (fs : Fields) (k : String) (v : Value) (key : String) :
    (Value.map (fs.insert k v)).get? key
      = if key = k then (some v).filter Value.isPresent else (Value.map fs).get? key := by
  have hfind : (fs.insert k v).find? (·.1.isStr key)
      = if key = k then some (.str k, v) else fs.find? (·.1.isStr key) := by
    rw [insert, List.find?_append, List.find?_filter]
    split_ifs with hkey
    · subst hkey
      have hnone : fs.find? (fun e => decide ((!e.1.isStr key) = true ∧ e.1.isStr key = true))
          = none := by
        rw [List.find?_eq_none]
        simp
      rw [hnone]
      simp [Value.isStr]
    · -- an entry with this key does not have the other one
      have hsame : (fun e : Value × Value =>
          decide ((!e.1.isStr k) = true ∧ e.1.isStr key = true)) = fun e => e.1.isStr key := by
        funext e
        by_cases he : e.1.isStr key = true
        · have hk : e.1.isStr k = false := by simp [Value.isStr_iff.mp he, Value.isStr, hkey]
          simp [he, hk]
        · simp [he]
      rw [hsame]
      simp [Value.isStr, Ne.symm hkey]
  simp only [Value.get?, hfind]
  split_ifs <;> rfl

@[simp]
lemma get?_nil (key : String) : (Value.map []).get? key = none := by
  simp [Value.get?]

@[simp]
lemma get?_cons (k : String) (v : Value) (fs : Fields) (key : String) :
    (Value.map ((.str k, v) :: fs)).get? key
      = if key = k then (some v).filter Value.isPresent else (Value.map fs).get? key := by
  split_ifs with h
  · have hkey : (Value.str k).isStr key = true := by simp [Value.isStr, h]
    simp only [Value.get?, List.find?_cons, hkey]
    rfl
  · have hkey : (Value.str k).isStr key = false := by simp [Value.isStr, Ne.symm h]
    simp only [Value.get?, List.find?_cons, hkey]

@[simp]
lemma get?_insertOption_of_ne (hne : key ≠ k) (o : Option Value) :
    (Value.map (fs.insertOption k o)).get? key = (Value.map fs).get? key := by
  cases o with
  | none => rfl
  | some v => rw [insertOption, get?_insert, if_neg hne]

@[simp]
lemma get?_insertOption_self (hnew : (Value.map fs).get? k = none) (o : Option Value) :
    (Value.map (fs.insertOption k o)).get? k = o.filter Value.isPresent := by
  cases o with
  | none => exact hnew
  | some v => rw [insertOption, get?_insert, if_pos rfl]

@[simp]
lemma insertNonzero_eq (fs : Fields) (k : String) (i : Int) :
    fs.insertNonzero k i = fs.insertOption k (if i = 0 then none else some (.int i)) := by
  unfold insertNonzero
  split_ifs <;> rfl

@[simp]
lemma insertPositive_eq (fs : Fields) (k : String) (i : Int) :
    fs.insertPositive k i = fs.insertOption k (if 0 < i then some (.int i) else none) := by
  unfold insertPositive
  split_ifs <;> rfl

@[simp]
lemma insertMap_eq (fs : Fields) (k : String) (inner : Fields) :
    fs.insertMap k inner = fs.insertOption k (if inner = [] then none else some (.map inner)) := by
  cases inner <;> rfl

@[simp]
lemma filter_isPresent_str (o : Option String) :
    (o.map Value.str).filter Value.isPresent = o.map .str := by
  cases o <;> rfl

@[simp]
lemma filter_isPresent_ite {p : Prop} [Decidable p] (o u : Option Value) :
    (if p then o else u).filter Value.isPresent
      = if p then o.filter Value.isPresent else u.filter Value.isPresent := by
  split_ifs <;> rfl

@[simp]
lemma filter_isPresent_some (h : v.isPresent = true) :
    (some v).filter Value.isPresent = some v := by
  simp [h]

@[simp]
lemma isPresent_str (s : String) : (Value.str s).isPresent = true := by
  simp [Value.isPresent]

@[simp]
lemma isPresent_int (i : Int) : (Value.int i).isPresent = true := by
  simp [Value.isPresent]

@[simp]
lemma isPresent_bool (b : Bool) : (Value.bool b).isPresent = true := by
  simp [Value.isPresent]

@[simp]
lemma isPresent_map (fs : Fields) : (Value.map fs).isPresent = true := by
  simp [Value.isPresent]

/-! ### Order of entries -/

lemma insert_nil (key : String) (w : Value) : Fields.insert [] key w = [(.str key, w)] := rfl

/-- The first entry stays where it is when another key is set. -/
lemma insert_cons_of_ne (hne : key ≠ k) (v : Value) (fs : Fields) (w : Value) :
    Fields.insert ((.str k, v) :: fs) key w = (.str k, v) :: fs.insert key w := by
  simp [insert, Value.isStr, Ne.symm hne]

lemma insertOption_cons_of_ne (hne : key ≠ k) (v : Value) (fs : Fields) (o : Option Value) :
    Fields.insertOption ((.str k, v) :: fs) key o = (.str k, v) :: fs.insertOption key o := by
  cases o with
  | none => rfl
  | some w => exact insert_cons_of_ne hne v fs w

section LastBy

variable {α : Type} {f : α → String} {g : α → Value} {es : List α}

/-- Of elements with the same name the last one. -/
def lastBy (f : α → String) : List α → List α
  | [] => []
  | e :: es => if f e ∈ es.map f then lastBy f es else e :: lastBy f es

/-- Each name is left once, where it stood last. -/
lemma map_lastBy (f : α → String) (es : List α) : (lastBy f es).map f = (es.map f).dedup := by
  induction es with
  | nil => rfl
  | cons e es ih =>
      rw [lastBy, List.map_cons]
      split_ifs with he
      · rw [List.dedup_cons_of_mem he, ih]
      · rw [List.dedup_cons_of_notMem he, List.map_cons, ih]

lemma lastBy_of_nodup (hnodup : (es.map f).Nodup) : lastBy f es = es := by
  induction es with
  | nil => rfl
  | cons e es ih =>
      obtain ⟨he, hnodup⟩ := List.nodup_cons.mp hnodup
      rw [lastBy, if_neg he, ih hnodup]

/-- An entry that comes again takes the place behind all others. What was there before stays in
front, unless it comes again. -/
lemma foldl_insert (fs : Fields) : es.foldl (fun fs e => fs.insert (f e) (g e)) fs
    = fs.filter (fun x => es.all fun e => !x.1.isStr (f e))
      ++ (lastBy f es).map fun e => (.str (f e), g e) := by
  induction es generalizing fs with
  | nil => simp [lastBy]
  | cons e es ih =>
      have hold : (fs.filter fun x => !x.1.isStr (f e)).filter
          (fun x => es.all fun e => !x.1.isStr (f e))
            = fs.filter fun x => (e :: es).all fun e => !x.1.isStr (f e) := by
        rw [List.filter_filter]
        exact List.filter_congr fun x _ => by rw [List.all_cons, Bool.and_comm]
      rw [List.foldl_cons, ih, insert, List.filter_append, hold, lastBy, List.append_assoc]
      congr 1
      split_ifs with he
      · -- the entry comes again, and then stands behind
        obtain ⟨e', he', hsame⟩ := List.mem_map.mp he
        rw [List.filter_cons_of_neg, List.filter_nil, List.nil_append]
        rw [List.all_eq_true]
        intro hall
        simpa [Value.isStr, hsame] using hall e' he'
      · rw [List.filter_cons_of_pos, List.filter_nil]
        · rfl
        · rw [List.all_eq_true]
          intro e' he'
          have hne : f e ≠ f e' := fun heq => he (heq ▸ List.mem_map_of_mem he')
          simpa [Value.isStr] using hne

/-- Of entries with the same name the last one is left. -/
theorem foldl_insert_nil (es : List α) :
    es.foldl (fun fs e => Fields.insert fs (f e) (g e)) []
      = (lastBy f es).map fun e => (.str (f e), g e) := by
  rw [foldl_insert, List.filter_nil, List.nil_append]

/-- Entries with different names stand in the order in which they were put in. -/
theorem foldl_insert_eq_map (hnodup : (es.map f).Nodup) :
    es.foldl (fun fs e => Fields.insert fs (f e) (g e)) []
      = es.map fun e => (.str (f e), g e) := by
  rw [foldl_insert_nil, lastBy_of_nodup hnodup]

end LastBy

end Fields

/-! ### Properties -/

variable {α : Type} {read : String → Value → Except Error α} {start key : String} {v w : Value}
  {i : Int}

/-- What is missing is read as missing. -/
lemma optional_eq_none (h : v.get? key = none) : optional read start v key = .ok none := by
  rw [optional, h]

/-- What is there is read as what it is. -/
lemma optional_eq_some (h : v.get? key = some w) :
    optional read start v key = (read (start ++ key) w).map some := by
  rw [optional, h]

/-- A text is read as it is, present or missing. -/
lemma optional_textOf {o : Option String} (h : v.get? key = o.map .str) :
    optional textOf start v key = .ok o := by
  cases o with
  | none => exact optional_eq_none h
  | some s => exact optional_eq_some h

/-- A number is read as it is. -/
lemma optional_intOf (h : v.get? key = some (.int i)) :
    optional intOf start v key = .ok (some i) := by
  rw [optional_eq_some h]
  rfl

lemma number_of_int (h : v.get? key = some (.int i)) : number start v key = .ok i := by
  rw [number, optional_intOf h]
  rfl

/-- A number is read as it is, and may be missing if it is zero. -/
lemma number_of_nonzero (h : v.get? key = if i = 0 then none else some (.int i)) :
    number start v key = .ok i := by
  split_ifs at h with hi
  · rw [number, optional_eq_none h, hi]
    rfl
  · exact number_of_int h

/-- A number that is written if it is positive is read as zero if it is not. -/
lemma number_of_positive (h : v.get? key = if 0 < i then some (.int i) else none) :
    number start v key = .ok (max i 0) := by
  split_ifs at h with hi
  · rw [number, optional_eq_some h, Int.max_eq_left (Int.le_of_lt hi)]
    rfl
  · rw [number, optional_eq_none h, Int.max_eq_right (Int.not_lt.mp hi)]
    rfl

end ProcUnits.Procfile
