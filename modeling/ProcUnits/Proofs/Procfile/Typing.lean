import Mathlib.Tactic.Common
import ProcUnits.Procfile.Read

/-!
The types of the values in a document. By section 4.3 of the specification a value of another type
ends the reading with an error that names its dotted key path.

* `Kind`: what is expected of a value; `Kind.keys` and `Kind.each` say what is expected of the
  values in it, and `Kind.Accepts` is about the value alone;
* `Reaches`: the keys that lead from a value to one in it. `IsWellTyped` says that all values that
  are reached are as expected;
* `Accuses`: an error names a value by the keys that lead to it;
* `Checks`: what a reader that succeeds has made sure of, and what it says otherwise. It is put
  together along the steps of a reader;
* `readDocument_iff`: a document is read exactly if it is well typed, and an error names a value
  that is not as expected.
-/

namespace ProcUnits.Procfile

open Yaml (Value)

variable {α β : Type} {v w : Value} {es : List (Value × Value)} {pre segs : List String}
  {k name : String}

/-! ### Kinds of values -/

/-- What is expected of a value. -/
inductive Kind where
  | text
  | integer
  | truth
  | environment
  /-- What a variable stands for. -/
  | value
  | respawn
  | limits
  | resources
  | service
  | services
  | document
  deriving DecidableEq, Repr

/-- The value is an integer, or a text that is the numeral of one. -/
def IsInteger : Value → Prop
  | .int _ => True
  | .str s => ∃ n, Text.Numeral.int64 10 (Text.trim s.toList) = .ok n
  | _ => False

/-- The value is a truth value, or the name of one in any case. -/
def IsTruth : Value → Prop
  | .bool _ => True
  | .str s => lowered s = "true".toList ∨ lowered s = "false".toList
  | _ => False

/-- The value is a mapping. -/
def IsMap (v : Value) : Prop := ∃ es, v = .map es

/-- The value is a mapping, and each of its keys is a scalar. -/
def IsNamedMap (v : Value) : Prop := ∃ es, v = .map es ∧ ∀ e ∈ es, e.1.text?.isSome = true

namespace Kind

variable {K L : Kind}

/-- The options of a service, which may also stand at the top. -/
def optionKeys : List (String × Kind) :=
  [("working_directory", text), ("log", text), ("env_file", text), ("kill_signal", text),
    ("kill_mode", text), ("reload_signal", text), ("kill_timeout", integer), ("count", integer),
    ("env", environment), ("respawn", respawn), ("limits", limits), ("resources", resources)]

/-- The keys that are looked up in a value, with what is expected under them. -/
def keys : Kind → List (String × Kind)
  | respawn => [("count", integer), ("interval", integer), ("delay", integer)]
  | limits => [("nofile", integer), ("nproc", integer), ("memlock", integer)]
  | resources =>
    [("cpu_weight", integer), ("startup_cpu_weight", integer), ("cpu_quota", integer),
      ("cpu_affinity", text), ("memory_low", text), ("memory_high", text), ("memory_max", text),
      ("memory_swap_max", text), ("task_max", integer), ("io_weight", integer),
      ("startup_io_weight", integer), ("io_device_weight", text), ("io_read_bandwidth_max", text),
      ("io_write_bandwidth_max", text), ("io_read_iops_max", text), ("io_write_iops_max", text),
      ("ip_address_allow", text), ("ip_address_deny", text)]
  | service => [("command", text), ("pre", text), ("post", text)] ++ optionKeys
  | document =>
    [("commands", services), ("start_on_runlevel", integer), ("stop_on_runlevel", integer),
      ("start_on_device", text), ("strong_dependencies", truth), ("depends", text)] ++ optionKeys
  | _ => []

/-- What is expected under all keys of a value, whatever they are. -/
def each : Kind → Option Kind
  | services => some service
  | environment => some value
  | _ => none

/-- The value is as expected, apart from the values in it. -/
def Accepts : Kind → Value → Prop
  | text, v => v.text?.isSome = true
  | integer, v => IsInteger v
  | truth, v => IsTruth v
  | environment, v => IsNamedMap v
  | value, v => v = .null ∨ v.text?.isSome = true
  | respawn, v => IsMap v ∨ IsTruth v
  | limits, v => IsMap v
  | resources, v => IsMap v
  | service, v => IsMap v ∧ v.get? "command" ≠ none
  | services, v => IsNamedMap v
  | document, v => v.get? "commands" ≠ none

/-- A value of this kind is a property, which errors name by its keys. -/
def IsProperty : Kind → Prop
  | service | services | document => False
  | _ => True

end Kind

/-! ### Values in values -/

/-- The keys lead from a value, of which something is expected, to one in it. A key that is looked
up leads nowhere if its value is null or malformed. -/
inductive Reaches : Kind → Value → List String → Kind → Value → Prop
  | here (K : Kind) (v : Value) : Reaches K v [] K v
  | key {K L M : Kind} {v w x : Value} {k : String} {segs : List String} (hk : (k, L) ∈ K.keys)
      (hw : v.get? k = some w) (h : Reaches L w segs M x) : Reaches K v (k :: segs) M x
  | entry {K L M : Kind} {es : List (Value × Value)} {e : Value × Value} {x : Value} {name : String}
      {segs : List String} (hL : K.each = some L) (he : e ∈ es) (hname : e.1.text? = some name)
      (h : Reaches L e.2 segs M x) : Reaches K (.map es) (name :: segs) M x

/-- All values that are reached are as expected. -/
def IsWellTyped (K : Kind) (v : Value) : Prop :=
  ∀ segs L w, Reaches K v segs L w → L.Accepts w

lemma isWellTyped_of {K : Kind} (haccepts : K.Accepts v)
    (hkeys : ∀ p ∈ K.keys, ∀ w, v.get? p.1 = some w → IsWellTyped p.2 w)
    (heach : ∀ L ∈ K.each, ∀ es, v = .map es → ∀ e ∈ es, IsWellTyped L e.2) :
    IsWellTyped K v := by
  intro segs L w h
  cases h with
  | here => exact haccepts
  | key hk hw h => exact hkeys _ hk _ hw _ _ _ h
  | entry hL he _ h => exact heach _ hL _ rfl _ he _ _ _ h

/-! ### Errors -/

/-- Keys with dots between them. -/
def dotted (segs : List String) : String := ".".intercalate segs

/-- The error names the value, of which something is expected, by the keys that lead to it. Where a
service has no command, the keys are those that would lead to one. -/
inductive Accuses (segs : List String) : Kind → Value → Error → Prop
  | property {K : Kind} {v : Value} {fault : Fault} (hK : K.IsProperty) :
      Accuses segs K v (.property (dotted segs) fault)
  | command {v : Value} (h : v.get? "command" = none) :
      Accuses segs .service v (.property (dotted (segs ++ ["command"])) .required)
  | serviceKind {v : Value} {name : String} (hsegs : segs = ["commands", name]) :
      Accuses segs .service v (.serviceKind name v.kind)
  | serviceName {es : List (Value × Value)} {e : Value × Value} (he : e ∈ es)
      (hname : e.1.text? = none) : Accuses segs .services (.map es) (.serviceName e.1.kind)
  | commandsKind {v : Value} (hv : ¬ IsMap v) : Accuses segs .services v .noCommands
  | noCommands {v : Value} : Accuses segs .document v .noCommands

/-- The keys in an error about a property lead to the value, or would lead to its command. -/
lemma Accuses.property_cases {K : Kind} {key : String} {fault : Fault}
    (h : Accuses segs K v (.property key fault)) :
    (K.IsProperty ∧ key = dotted segs)
      ∨ (fault = .required ∧ K = .service ∧ v.get? "command" = none
        ∧ key = dotted (segs ++ ["command"])) := by
  cases h with
  | property hK => exact Or.inl ⟨hK, rfl⟩
  | command hnone => exact Or.inr ⟨rfl, rfl, hnone, rfl⟩

/-- The error names a value that is reached and is not as expected. The keys `pre` lead to the value
where the search begins. -/
def Blames (K : Kind) (v : Value) (pre : List String) (e : Error) : Prop :=
  ∃ segs L w, Reaches K v segs L w ∧ ¬ L.Accepts w ∧ Accuses (pre ++ segs) L w e

namespace Blames

variable {K L : Kind} {e : Error}

lemma here (h : ¬ K.Accepts v) (he : Accuses pre K v e) : Blames K v pre e :=
  ⟨[], K, v, .here K v, h, by rwa [List.append_nil]⟩

lemma key (hk : (k, L) ∈ K.keys) (hw : v.get? k = some w) (h : Blames L w (pre ++ [k]) e) :
    Blames K v pre e := by
  obtain ⟨segs, M, x, hreach, haccepts, he⟩ := h
  exact ⟨k :: segs, M, x, .key hk hw hreach, haccepts, by simpa using he⟩

lemma entry {entry : Value × Value} (hL : K.each = some L) (hentry : entry ∈ es)
    (hname : entry.1.text? = some name) (h : Blames L entry.2 (pre ++ [name]) e) :
    Blames K (.map es) pre e := by
  obtain ⟨segs, M, x, hreach, haccepts, he⟩ := h
  exact ⟨name :: segs, M, x, .entry hL hentry hname hreach, haccepts, by simpa using he⟩

/-- What is not as expected is reached, so that the value is not well typed. -/
lemma not_isWellTyped (h : Blames K v pre e) : ¬ IsWellTyped K v := by
  obtain ⟨segs, L, w, hreach, haccepts, -⟩ := h
  exact fun hv => haccepts (hv segs L w hreach)

end Blames

/-! ### Readers -/

/-- Where the reading succeeds, `P` holds; where it fails, `C` holds of the error. -/
structure Checks (P : Prop) (C : Error → Prop) (r : Except Error α) : Prop where
  ok : ∀ a, r = .ok a → P
  error : ∀ e, r = .error e → C e

namespace Checks

variable {P Q : Prop} {C D : Error → Prop} {x : Except Error α}

lemma of_ok (a : α) (h : P) : Checks P C (.ok a) :=
  ⟨fun _ _ => h, fun _ he => absurd he (by simp)⟩

lemma of_error {e : Error} (h : C e) : Checks P C (.error e : Except Error α) :=
  ⟨fun _ ha => absurd ha (by simp), fun _ he => Except.error.inj he ▸ h⟩

lemma mono (hx : Checks P C x) (hP : P → Q) (hC : ∀ e, C e → D e) : Checks Q D x :=
  ⟨fun a ha => hP (hx.ok a ha), fun e he => hC e (hx.error e he)⟩

/-- A step makes sure of its part, and so does what follows it. -/
lemma bind (hx : Checks P C x) {f : α → Except Error β}
    (hf : ∀ a, x = .ok a → Checks Q C (f a)) : Checks (P ∧ Q) C (x >>= f) := by
  cases hxe : x with
  | error e => exact of_error (hx.error e hxe)
  | ok a => exact (hf a hxe).mono (fun hQ => ⟨hx.ok a hxe, hQ⟩) fun _ he => he

lemma map (hx : Checks P C x) (f : α → β) : Checks P C (x.map f) := by
  cases hxe : x with
  | error e => exact of_error (hx.error e hxe)
  | ok a => exact of_ok (f a) (hx.ok a hxe)

lemma mapM {ι : Type} {P : ι → Prop} {f : ι → Except Error α} {xs : List ι}
    (h : ∀ x ∈ xs, Checks (P x) C (f x)) : Checks (∀ x ∈ xs, P x) C (xs.mapM f) := by
  induction xs with
  | nil => exact of_ok [] (by simp)
  | cons x xs ih =>
      obtain ⟨hx, hxs⟩ := List.forall_mem_cons.mp h
      rw [List.mapM_cons, List.forall_mem_cons]
      refine hx.bind fun y _ => ?_
      exact ((ih hxs).bind (Q := True) fun ys _ => of_ok _ trivial).mono And.left fun _ he => he

end Checks

/-- What stands in front of a key in a path. -/
def lead (segs : List String) : String := if segs = [] then "" else dotted segs ++ "."

lemma lead_append (segs : List String) (k : String) : lead segs ++ k = dotted (segs ++ [k]) := by
  rw [lead, dotted, dotted]
  split_ifs with hnil
  · rw [hnil, String.empty_append, List.nil_append, String.intercalate_singleton]
  · rw [String.intercalate_append_of_ne_nil hnil (by simp), String.intercalate_singleton]

/-- The reader takes values of a kind, and names what is not as expected. -/
def Decides (K : Kind) (read : String → Value → Except Error α) : Prop :=
  ∀ segs v, segs ≠ [] → Checks (IsWellTyped K v) (Blames K v segs) (read (dotted segs) v)

lemma isWellTyped_leaf {K : Kind} (hkeys : K.keys = []) (heach : K.each = none)
    (h : K.Accepts v) : IsWellTyped K v :=
  isWellTyped_of h (by simp [hkeys]) (by simp [heach])

/-- A reader of properties with no values in them. -/
lemma decides_leaf {K : Kind} {read : String → Value → Except Error α} (hK : K.IsProperty)
    (hkeys : K.keys = []) (heach : K.each = none)
    (h : ∀ path v, (K.Accepts v ∧ ∃ a, read path v = .ok a)
      ∨ (¬ K.Accepts v ∧ ∃ fault, read path v = .error (.property path fault))) :
    Decides K read := by
  intro segs v _
  rcases h (dotted segs) v with ⟨haccepts, a, ha⟩ | ⟨hnot, fault, he⟩
  · rw [ha]
    exact .of_ok a (isWellTyped_leaf hkeys heach haccepts)
  · rw [he]
    exact .of_error (.here hnot (.property hK))

lemma decides_textOf : Decides .text textOf := by
  refine decides_leaf trivial rfl rfl fun path v => ?_
  rw [textOf, Kind.Accepts]
  cases v.text? with
  | some s => exact Or.inl ⟨rfl, s, rfl⟩
  | none => exact Or.inr ⟨by simp, _, rfl⟩

lemma decides_intOf : Decides .integer intOf := by
  refine decides_leaf trivial rfl rfl fun path v => ?_
  cases v with
  | int n => exact Or.inl ⟨trivial, n, rfl⟩
  | str s =>
      rw [intOf, Kind.Accepts, IsInteger]
      cases Text.Numeral.int64 10 (Text.trim s.toList) with
      | ok n => exact Or.inl ⟨⟨n, rfl⟩, n, rfl⟩
      | error fault => exact Or.inr ⟨by simp, _, rfl⟩
  | _ => exact Or.inr ⟨id, _, rfl⟩

lemma boolOf_cases (path : String) (v : Value) : (IsTruth v ∧ ∃ b, boolOf path v = .ok b)
    ∨ (¬ IsTruth v ∧ ∃ fault, boolOf path v = .error (.property path fault)) := by
  cases v with
  | bool b => exact Or.inl ⟨trivial, b, rfl⟩
  | str s =>
      rw [boolOf, IsTruth]
      split_ifs with htrue hfalse
      · exact Or.inl ⟨Or.inl htrue, true, rfl⟩
      · exact Or.inl ⟨Or.inr hfalse, false, rfl⟩
      · exact Or.inr ⟨not_or.mpr ⟨htrue, hfalse⟩, _, rfl⟩
  | _ => exact Or.inr ⟨id, _, rfl⟩

lemma decides_boolOf : Decides .truth boolOf := decides_leaf trivial rfl rfl boolOf_cases

/-- The value under a key is read, if there is one. -/
lemma checks_optional {K L : Kind} {read : String → Value → Except Error α}
    (hread : Decides L read) (hk : (k, L) ∈ K.keys) :
    Checks (∀ w, v.get? k = some w → IsWellTyped L w) (Blames K v segs)
      (optional read (lead segs) v k) := by
  rw [optional, lead_append]
  cases hw : v.get? k with
  | none => exact .of_ok none (by simp)
  | some w =>
      refine ((hread (segs ++ [k]) w (by simp)).map some).mono (fun h w' hw' => ?_)
        fun e he => .key hk hw he
      rwa [← Option.some.inj hw']

/-- What is expected under these keys is there, where anything is. -/
def HoldsUnder (ks : List (String × Kind)) (v : Value) : Prop :=
  ∀ p ∈ ks, ∀ w, v.get? p.1 = some w → IsWellTyped p.2 w

/-- The reader looks up these keys in a value, and names what is not as expected. -/
def Reads (K : Kind) (v : Value) (segs : List String) (ks : List (String × Kind))
    (r : Except Error α) : Prop :=
  ks ⊆ K.keys → Checks (HoldsUnder ks v) (Blames K v segs) r

namespace Reads

variable {K L : Kind} {ks : List (String × Kind)} {read : String → Value → Except Error α}

lemma done (a : α) : Reads K v segs [] (.ok a) :=
  fun _ => .of_ok a (by simp [HoldsUnder])

/-- The value under a key is read, if there is one, and then other keys are looked up. -/
lemma optional (hread : Decides L read) {f : Option α → Except Error β}
    (hf : ∀ a, Reads K v segs ks (f a)) :
    Reads K v segs ((k, L) :: ks) (optional read (lead segs) v k >>= f) := by
  intro hks
  obtain ⟨hk, hks⟩ := List.cons_subset.mp hks
  refine ((checks_optional hread hk).bind fun a _ => hf a hks).mono ?_ fun _ he => he
  exact fun h => List.forall_mem_cons.mpr h

lemma number {f : Int → Except Error β} (hf : ∀ n, Reads K v segs ks (f n)) :
    Reads K v segs ((k, .integer) :: ks) (number (lead segs) v k >>= f) := by
  have hoptional := optional (k := k) decides_intOf fun n => hf (n.getD 0)
  rw [Procfile.number]
  cases hr : Procfile.optional intOf (lead segs) v k <;> rw [hr] at hoptional <;> exact hoptional

/-- A value all of whose keys are looked up is well typed. -/
lemma checks {r : Except Error α} (h : Reads K v segs K.keys r) (haccepts : K.Accepts v)
    (heach : K.each = none) : Checks (IsWellTyped K v) (Blames K v segs) r :=
  (h (List.Subset.refl _)).mono (fun hkeys => isWellTyped_of haccepts hkeys (by simp [heach]))
    fun _ he => he

end Reads

/-! ### Sections of options -/

lemma get?_of_not_isMap (h : ¬ IsMap v) (k : String) : v.get? k = none := by
  cases v with
  | map es => exact absurd ⟨es, rfl⟩ h
  | _ => rfl

lemma dotted_dot (hsegs : segs ≠ []) : dotted segs ++ "." = lead segs := (if_neg hsegs).symm

lemma decides_respawnOf : Decides .respawn respawnOf := by
  intro segs v hsegs
  by_cases hmap : IsMap v
  · obtain ⟨es, rfl⟩ := hmap
    rw [respawnOf, dotted_dot hsegs]
    refine Reads.checks ?_ (Or.inl ⟨es, rfl⟩) rfl
    exact .number fun _ => .number fun _ => .number fun _ => .done _
  · -- without a section there is a truth value, in which no key leads anywhere
    have hread : respawnOf (dotted segs) v
        = boolOf (dotted segs) v >>= fun b => .ok { enabled := some b } := by
      cases v with
      | map es => exact absurd ⟨es, rfl⟩ hmap
      | _ => rfl
    rw [hread]
    rcases boolOf_cases (dotted segs) v with ⟨htruth, b, hb⟩ | ⟨htruth, fault, he⟩
    · rw [hb]
      refine .of_ok _ (isWellTyped_of (Or.inr htruth) ?_ (by simp [Kind.each]))
      simp [get?_of_not_isMap hmap]
    · rw [he]
      exact .of_error (.here (not_or.mpr ⟨hmap, htruth⟩) (.property trivial))

lemma decides_limitsOf : Decides .limits limitsOf := by
  intro segs v hsegs
  cases v with
  | map es =>
      rw [limitsOf, dotted_dot hsegs]
      refine Reads.checks ?_ ⟨es, rfl⟩ rfl
      exact .number fun _ => .number fun _ => .number fun _ => .done _
  | _ => exact .of_error (.here (by simp [Kind.Accepts, IsMap]) (.property trivial))

lemma decides_resourcesOf : Decides .resources resourcesOf := by
  intro segs v hsegs
  cases v with
  | map es =>
      rw [resourcesOf, dotted_dot hsegs]
      refine Reads.checks ?_ ⟨es, rfl⟩ rfl
      exact .optional decides_intOf fun _ => .optional decides_intOf fun _ =>
        .optional decides_intOf fun _ => .optional decides_textOf fun _ =>
        .optional decides_textOf fun _ => .optional decides_textOf fun _ =>
        .optional decides_textOf fun _ => .optional decides_textOf fun _ =>
        .optional decides_intOf fun _ => .optional decides_intOf fun _ =>
        .optional decides_intOf fun _ => .optional decides_textOf fun _ =>
        .optional decides_textOf fun _ => .optional decides_textOf fun _ =>
        .optional decides_textOf fun _ => .optional decides_textOf fun _ =>
        .optional decides_textOf fun _ => .optional decides_textOf fun _ => .done _
  | _ => exact .of_error (.here (by simp [Kind.Accepts, IsMap]) (.property trivial))

/-- A variable is named by a scalar, and stands for one or for the empty text. -/
lemma checks_variableOf (hsegs : segs ≠ []) {e : Value × Value} (he : e ∈ es) :
    Checks (e.1.text?.isSome = true ∧ IsWellTyped .value e.2) (Blames .environment (.map es) segs)
      (variableOf (dotted segs) e) := by
  obtain ⟨key, v⟩ := e
  cases hname : key.text? with
  | none =>
      have hnot : ¬ Kind.environment.Accepts (.map es) := by
        rintro ⟨_, ⟨⟩, hnames⟩
        simpa [hname] using hnames _ he
      simp only [variableOf, hname]
      exact .of_error (.here hnot (.property trivial))
  | some name =>
      have hvalue (hv : v = .null ∨ v.text?.isSome = true) :
          (some name).isSome = true ∧ IsWellTyped .value v :=
        ⟨rfl, isWellTyped_leaf rfl rfl hv⟩
      have hpath : dotted segs ++ "." ++ name = dotted (segs ++ [name]) := by
        rw [dotted_dot hsegs, lead_append]
      by_cases hnull : v = .null
      · subst hnull
        simp only [variableOf, hname]
        exact .of_ok _ (hvalue (Or.inl rfl))
      · cases htext : v.text? with
        | some s =>
            simp only [variableOf, hname, htext]
            exact .of_ok _ (hvalue (Or.inr (by rw [htext]; rfl)))
        | none =>
            simp only [variableOf, hname, htext, hpath]
            refine .of_error (.entry rfl he hname (.here ?_ (.property trivial)))
            simp [Kind.Accepts, hnull, htext]

lemma decides_variablesOf : Decides .environment variablesOf := by
  intro segs v hsegs
  cases v with
  | map es =>
      have hentries : Checks (∀ e ∈ es, e.1.text?.isSome = true ∧ IsWellTyped .value e.2)
          (Blames .environment (.map es) segs) (es.mapM (variableOf (dotted segs))) :=
        Checks.mapM fun e he => checks_variableOf hsegs he
      refine (hentries.map Variables.ofList).mono (fun h => ?_) fun _ he => he
      refine isWellTyped_of ⟨es, rfl, fun e he => (h e he).1⟩ (by simp [Kind.keys]) ?_
      rintro L ⟨⟩ _ ⟨⟩ e he
      exact (h e he).2
  | _ => exact .of_error (.here (by simp [Kind.Accepts, IsNamedMap]) (.property trivial))

lemma reads_optionsOf (K : Kind) (v : Value) (segs : List String) :
    Reads K v segs Kind.optionKeys (optionsOf (lead segs) v) := by
  exact .optional decides_textOf fun _ => .optional decides_textOf fun _ =>
    .optional decides_textOf fun _ => .optional decides_textOf fun _ =>
    .optional decides_textOf fun _ => .optional decides_textOf fun _ =>
    .number fun _ => .number fun _ => .optional decides_variablesOf fun _ =>
    .optional decides_respawnOf fun _ => .optional decides_limitsOf fun _ =>
    .optional decides_resourcesOf fun _ => .done _

/-! ### Services -/

lemma isSome_of_optional {read : String → Value → Except Error α} {start : String} {o : Option α}
    (h : optional read start v k = .ok o) : o.isSome = (v.get? k).isSome := by
  rw [optional] at h
  cases hw : v.get? k with
  | none =>
      rw [hw] at h
      rw [← Except.ok.inj h]
      rfl
  | some w =>
      rw [hw] at h
      cases hr : read (start ++ k) w with
      | error e => simp [hr, Except.map] at h
      | ok a =>
          simp only [hr, Except.map] at h
          rw [← Except.ok.inj h]
          rfl

lemma checks_serviceOf (name : String) (v : Value) :
    Checks (IsWellTyped .service v) (Blames .service v ["commands", name]) (serviceOf name v) := by
  by_cases hmap : IsMap v
  swap
  · have hread : serviceOf name v = .error (.serviceKind name v.kind) := by
      cases v with
      | map es => exact absurd ⟨es, rfl⟩ hmap
      | _ => rfl
    rw [hread]
    exact .of_error (.here (fun h => hmap h.1) (.serviceKind rfl))
  · obtain ⟨es, rfl⟩ := hmap
    have hcommand : Checks _ (Blames .service (.map es) ["commands", name]) _ :=
      checks_optional (k := "command") decides_textOf (by simp [Kind.keys])
    -- in the order of the reader: the command, the options, the commands around it
    refine (hcommand.bind (Q := HoldsUnder Kind.optionKeys (.map es)
      ∧ HoldsUnder [("pre", .text), ("post", .text)] (.map es)
      ∧ Value.get? (.map es) "command" ≠ none) fun o ho => ?_).mono ?_ fun _ he => he
    · have hsome := isSome_of_optional ho
      cases o with
      | none =>
          have hnone : Value.get? (.map es) "command" = none := by
            simpa using hsome.symm
          have herror : Accuses ["commands", name] .service (.map es)
              (.property (lead ["commands", name] ++ "command") .required) :=
            lead_append ["commands", name] "command" ▸ .command hnone
          exact .of_error (.here (fun h => h.2 hnone) herror)
      | some command =>
          have hpresent : Value.get? (.map es) "command" ≠ none := by
            intro hnone
            simp [hnone] at hsome
          refine (reads_optionsOf .service _ _ (List.subset_append_right _ _)).bind
            fun options _ => ?_
          refine Checks.mono (P := HoldsUnder [("pre", .text), ("post", .text)] (.map es)) ?_
            (fun h => ⟨h, hpresent⟩) fun _ he => he
          exact Reads.optional decides_textOf
            (fun _ => .optional decides_textOf fun _ => .done _) (by simp [Kind.keys])
    · rintro ⟨htext, hoptions, hends, hpresent⟩
      refine isWellTyped_of ⟨⟨es, rfl⟩, hpresent⟩ ?_ (by simp [Kind.each])
      exact List.forall_mem_cons.mpr ⟨htext, List.forall_mem_append.mpr ⟨hends, hoptions⟩⟩

/-- The services of a document are named by scalars. -/
lemma checks_serviceOfEntry {e : Value × Value} (he : e ∈ es) :
    Checks (e.1.text?.isSome = true ∧ IsWellTyped .service e.2)
      (Blames .services (.map es) ["commands"]) (serviceOfEntry e) := by
  obtain ⟨key, v⟩ := e
  cases hname : key.text? with
  | none =>
      have hnot : ¬ Kind.services.Accepts (.map es) := by
        rintro ⟨_, ⟨⟩, hnames⟩
        simpa [hname] using hnames _ he
      simp only [serviceOfEntry, hname]
      exact .of_error (.here hnot (.serviceName he hname))
  | some name =>
      simp only [serviceOfEntry, hname]
      exact (checks_serviceOf name v).mono (fun h => ⟨rfl, h⟩)
        fun _ herror => .entry rfl he hname herror

/-! ### Documents -/

/-- The keys that are looked up at the top after the services. -/
def lastKeys : List (String × Kind) :=
  [("working_directory", .text), ("start_on_runlevel", .integer), ("stop_on_runlevel", .integer),
    ("start_on_device", .text), ("strong_dependencies", .truth), ("depends", .text)]

/-- A document that is read is well typed, and otherwise the error names a value that is not as
expected. -/
lemma checks_readDocument (doc : Value) (d : Defaults) :
    Checks (IsWellTyped .document doc) (Blames .document doc []) (readDocument doc d) := by
  have hkey : ("commands", Kind.services) ∈ Kind.keys .document := List.mem_cons_self
  rw [readDocument]
  split
  · next es hes =>
      have hentries : Checks (∀ e ∈ es, e.1.text?.isSome = true ∧ IsWellTyped .service e.2)
          (Blames .document doc []) (es.mapM serviceOfEntry) :=
        (Checks.mapM fun e he => checks_serviceOfEntry he).mono id fun _ he => .key hkey hes he
      have hoptions := reads_optionsOf .document doc [] (List.subset_append_right _ _)
      -- the shared options are read first, then the services, then the keys of the application
      refine (hoptions.bind fun o _ => hentries.bind (Q := HoldsUnder lastKeys doc)
        fun ss _ => ?_).mono (fun ⟨hoptions, hservices, hlast⟩ => ?_) fun _ he => he
      · exact Reads.optional decides_textOf (fun _ => .optional decides_intOf fun _ =>
          .optional decides_intOf fun _ => .optional decides_textOf fun _ =>
          .optional decides_boolOf fun _ => .optional decides_textOf fun _ => .done _)
          (by simp [Kind.keys, Kind.optionKeys])
      · have hcommands : IsWellTyped .services (.map es) := by
          refine isWellTyped_of ⟨es, rfl, fun e he => (hservices e he).1⟩ (by simp [Kind.keys]) ?_
          rintro L ⟨⟩ _ ⟨⟩ e he
          exact (hservices e he).2
        refine isWellTyped_of (by simp [Kind.Accepts, hes]) (List.forall_mem_append.mpr
          ⟨List.forall_mem_cons.mpr ⟨?_, fun p hp => hlast p (List.mem_cons_of_mem _ hp)⟩,
            hoptions⟩) (by simp [Kind.each])
        intro w hw
        rwa [← Option.some.inj (hes.symm.trans hw)]
  · next hcommands =>
      cases hw : doc.get? "commands" with
      | none => exact .of_error (.here (fun h => h hw) .noCommands)
      | some w =>
          have hmap : ¬ IsMap w := fun ⟨es, hes⟩ => hcommands es (hes ▸ hw)
          have hnot : ¬ Kind.services.Accepts w := fun ⟨es, hes, _⟩ => hmap ⟨es, hes⟩
          exact .of_error (.key hkey hw (.here hnot (.commandsKind hmap)))

/-- A document is read exactly if all values that are reached in it are as expected (section 4.3).
Otherwise the error names one that is not. If that is a property, the error has the keys that lead
to it, with dots between them, or those that would lead to the command that a service does not have.
A malformed value under a key that is looked up is not reached: it is taken for a missing one. -/
theorem readDocument_iff (doc : Value) (d : Defaults) :
    ((∃ draft, readDocument doc d = .ok draft) ↔ IsWellTyped .document doc)
    ∧ (∀ e, readDocument doc d = .error e →
      ∃ segs K v, Reaches .document doc segs K v ∧ ¬ K.Accepts v ∧ Accuses segs K v e)
    ∧ ∀ key fault, readDocument doc d = .error (.property key fault) →
      ∃ segs K v, Reaches .document doc segs K v ∧ ¬ K.Accepts v
        ∧ ((K.IsProperty ∧ key = dotted segs)
          ∨ (fault = .required ∧ K = .service ∧ v.get? "command" = none
            ∧ key = dotted (segs ++ ["command"]))) := by
  have hchecks := checks_readDocument doc d
  refine ⟨⟨fun ⟨draft, hdraft⟩ => hchecks.ok draft hdraft, fun htyped => ?_⟩, hchecks.error,
    fun key fault herror => ?_⟩
  · cases hread : readDocument doc d with
    | ok draft => exact ⟨draft, rfl⟩
    | error e => exact absurd htyped (hchecks.error e hread).not_isWellTyped
  · obtain ⟨segs, K, v, hreach, hnot, haccuse⟩ := hchecks.error _ herror
    exact ⟨segs, K, v, hreach, hnot, haccuse.property_cases⟩

/-- A document of one service, with a value for the number of its instances. -/
def countedDocument (count : Value) : Value :=
  .map [(.str "version", .int 2), (.str "commands",
    .map [(.str "web", .map [(.str "command", .str "serve"), (.str "count", count)])])]

/-- A number whose tag does not fit its text is taken for a missing one. The same text without the
tag is no integer, and is named. -/
theorem readDocument_iff_counted :
    Value.load "version: 2\ncommands:\n  web:\n    command: serve\n    count: !!int many\n".toList
      = .ok (countedDocument .bad)
    ∧ IsWellTyped .document (countedDocument .bad)
    ∧ (readDocument (countedDocument .bad) {}).map (fun draft =>
      draft.app.services.map (·.options.count)) = .ok [0]
    ∧ ¬ IsWellTyped .document (countedDocument (.str "many"))
    ∧ ∃ segs K v, Reaches .document (countedDocument (.str "many")) segs K v ∧ ¬ K.Accepts v
      ∧ dotted segs = "commands.web.count" := by
  have hbad := readDocument_iff (countedDocument .bad) {}
  have hmany := readDocument_iff (countedDocument (.str "many")) {}
  have herror : readDocument (countedDocument (.str "many")) {}
      = .error (.property "commands.web.count" (.numeral .invalidDigit "many")) := rfl
  refine ⟨by decide +kernel, hbad.1.mp ⟨_, rfl⟩, rfl, fun htyped => ?_, ?_⟩
  · obtain ⟨draft, hdraft⟩ := hmany.1.mpr htyped
    exact absurd (herror.symm.trans hdraft) (by simp)
  · obtain ⟨segs, K, v, hreach, hnot, ⟨-, hkey⟩ | ⟨hfault, -⟩⟩ := hmany.2.2 _ _ herror
    · exact ⟨segs, K, v, hreach, hnot, hkey.symm⟩
    · exact absurd hfault (by simp)

end ProcUnits.Procfile
