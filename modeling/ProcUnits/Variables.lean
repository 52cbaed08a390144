/-!
Environment variables: a finite map from names to values (section 3 of the specification).

The entries are kept in strictly increasing order of their names, so two maps with the same
entries are equal, however they came to be.

* `Variables.get?`: the view of the map that the operations are described by;
* `Variables.insert`, `Variables.insertNew`, `Variables.union`: `get?_insert` says what the
  first does, the other two never change a value that is there;
* `Variables.text`: the assignments in one line.
-/

namespace ProcUnits

/-- A map from the names of variables to their values, in order of the names. -/
structure Variables where
  entries : List (String × String)
  ordered : entries.Pairwise fun a b => a.1 < b.1
  deriving DecidableEq, Repr

namespace Variables

/-- No variable. -/
def empty : Variables := ⟨[], .nil⟩

instance : Inhabited Variables := ⟨empty⟩

/-- There is no variable. -/
def isEmpty (vs : Variables) : Bool := vs.entries.isEmpty

/-- The value of a variable, if it has one. -/
def get? (vs : Variables) (name : String) : Option String := vs.entries.lookup name

/-! ### Insertion -/

/-- The entries with the value of `name` replaced, or added at its place. -/
def place (name value : String) : List (String × String) → List (String × String)
  | [] => [(name, value)]
  | e :: r =>
    if name < e.1 then (name, value) :: e :: r
    else if name = e.1 then (name, value) :: r
    else e :: place name value r

/-- Nothing else comes in. -/
theorem mem_place {name value : String} {es : List (String × String)} {e : String × String}
    (h : e ∈ place name value es) : e = (name, value) ∨ e ∈ es := by
  fun_induction place name value es with
  | case1 => simpa using h
  | case2 d r _ => simpa using h
  | case3 d r _ _ =>
    rcases List.mem_cons.1 h with h | h
    · exact .inl h
    · exact .inr (List.mem_cons_of_mem _ h)
  | case4 d r _ _ ih =>
    rcases List.mem_cons.1 h with h | h
    · exact .inr (h ▸ List.mem_cons_self)
    · exact (ih h).imp_right (List.mem_cons_of_mem _)

/-- The order stays. -/
theorem place_ordered {name value : String} {es : List (String × String)}
    (h : es.Pairwise fun a b => a.1 < b.1) :
    (place name value es).Pairwise fun a b => a.1 < b.1 := by
  fun_induction place name value es with
  | case1 => exact List.pairwise_singleton _ _
  | case2 d r hlt =>
    refine List.pairwise_cons.2 ⟨fun e he => ?_, h⟩
    rcases List.mem_cons.1 he with rfl | he
    · exact hlt
    · exact String.lt_trans hlt (List.rel_of_pairwise_cons h he)
  | case3 d r _ heq =>
    exact List.pairwise_cons.2
      ⟨fun e he => heq ▸ List.rel_of_pairwise_cons h he, (List.pairwise_cons.1 h).2⟩
  | case4 d r hlt hne ih =>
    refine List.pairwise_cons.2 ⟨fun e he => ?_, ih (List.pairwise_cons.1 h).2⟩
    rcases mem_place he with rfl | he
    · exact Std.lt_of_le_of_ne (Std.not_lt.1 hlt) (Ne.symm hne)
    · exact List.rel_of_pairwise_cons h he

/-- The map in which `name` has the value `value`. -/
def insert (vs : Variables) (name value : String) : Variables :=
  ⟨place name value vs.entries, place_ordered vs.ordered⟩

/-- The map in which `name` has the value `value` unless it had one before. -/
def insertNew (vs : Variables) (name value : String) : Variables :=
  if (vs.get? name).isSome then vs else vs.insert name value

/-- The map of both; where they differ the first one counts. -/
def union (vs ws : Variables) : Variables :=
  ws.entries.foldl (fun acc e => acc.insertNew e.1 e.2) vs

/-- The map of a list of assignments; of two for one name the later one counts. -/
def ofList (es : List (String × String)) : Variables :=
  es.foldl (fun acc e => acc.insert e.1 e.2) empty

/-- The first entry for a name gives its value. -/
theorem lookup_cons_eq (name : String) (e : String × String) (es : List (String × String)) :
    List.lookup name (e :: es) = if name = e.1 then some e.2 else List.lookup name es := by
  by_cases h : name = e.1
  · rw [if_pos h, h]
    exact List.lookup_cons_self
  · rw [List.lookup_cons, beq_false_of_ne h, if_neg h]

/-- The value of a variable after an insertion. -/
theorem get?_insert (vs : Variables) (name value other : String) :
    (vs.insert name value).get? other = if other = name then some value else vs.get? other := by
  simp only [get?, insert]
  generalize vs.entries = es
  fun_induction place name value es with
  | case1 => exact lookup_cons_eq ..
  | case2 d r _ => exact lookup_cons_eq ..
  | case3 d r _ heq =>
    rw [lookup_cons_eq, lookup_cons_eq]
    by_cases h : other = name
    · rw [if_pos h, if_pos h]
    · rw [if_neg h, if_neg h, if_neg (heq ▸ h)]
  | case4 d r _ hne ih =>
    rw [lookup_cons_eq, lookup_cons_eq, ih]
    by_cases h : other = name
    · rw [if_neg (h ▸ hne), if_pos h, if_pos h]
    · simp only [if_neg h]

/-! ### The text of a map -/

/-- One assignment. -/
def assignment (e : String × String) : String := e.1 ++ "=" ++ e.2

/-- The assignments, as texts in increasing order, with a space between each two. -/
def text (vs : Variables) : String :=
  " ".intercalate ((vs.entries.map assignment).mergeSort fun a b => decide (a ≤ b))

end Variables

end ProcUnits
