import Mathlib.Tactic.Common
import ProcUnits.Proofs.Procfile.Reading
import ProcUnits.Proofs.Variables
import ProcUnits.Proofs.Yaml.Reordered

/-!
The order of keys in a document, to which section 8 of the specification has the options invariant.

Properties are looked up by their keys, wherever these stand. Two sections are read entry by entry:
variables, which are kept in a map, and services, which are listed as they come. The order of
entries also decides which one of several errors is reported.

* `ReadsAlike`: what is read in the same way of values that agree: single properties, and the
  sections that are made of them. `optional_congr`: such a property is the same under its key;
* `DistinctVariables`: no two variables of a section have the same name, and
  `variablesOf_sameOutcome`: the section is then the same map;
* `optionsOf_sameOutcome`, `serviceOf_sameOutcome`, `readDocument_sameOutcome`: what is made of
  these;
* `ofText_sameOutcome`: documents with their entries in another order declare the same application,
  or both none.
-/

namespace ProcUnits.Procfile

open Yaml (Value)
open Yaml.Value (Agrees Reordered)

variable {d : Defaults} {v w : Value} {e f : Value × Value} {es : List (Value × Value)}
  {text text' : List Char} {path start key name : String}

/-! ### Properties -/

/-- Values that agree are read as the same, or with the same error. -/
def ReadsAlike {α : Type} (read : String → Value → Except Error α) : Prop :=
  ∀ path v w, Agrees v w → read path v = read path w

lemma readsAlike_textOf : ReadsAlike textOf := by
  intro path v w h
  cases h.reordered <;> rfl

lemma readsAlike_intOf : ReadsAlike intOf := by
  intro path v w h
  cases h.reordered <;> rfl

lemma readsAlike_boolOf : ReadsAlike boolOf := by
  intro path v w h
  cases h.reordered <;> rfl

/-- A property is found wherever its key stands. -/
lemma optional_congr {α : Type} {read : String → Value → Except Error α} (hread : ReadsAlike read)
    (h : Agrees v w) : optional read start v key = optional read start w key := by
  have hkey := h.get? key
  unfold optional
  generalize v.get? key = o at hkey ⊢
  generalize w.get? key = u at hkey ⊢
  cases hkey with
  | none => rfl
  | some hxy => exact congrArg (Except.map some) (hread _ _ _ hxy)

lemma number_congr (h : Agrees v w) : number start v key = number start w key := by
  rw [number, number, optional_congr readsAlike_intOf h]

lemma readsAlike_respawnOf : ReadsAlike respawnOf := by
  intro path v w h
  cases v with
  | map es =>
      obtain ⟨-, fs, rfl, -, -⟩ := h.exists_of_map
      simp only [respawnOf, number_congr h]
  | _ => cases h.reordered <;> rfl

lemma readsAlike_limitsOf : ReadsAlike limitsOf := by
  intro path v w h
  cases v with
  | map es =>
      obtain ⟨-, fs, rfl, -, -⟩ := h.exists_of_map
      simp only [limitsOf, number_congr h]
  | _ => cases h.reordered <;> rfl

lemma readsAlike_resourcesOf : ReadsAlike resourcesOf := by
  intro path v w h
  cases v with
  | map es =>
      obtain ⟨-, fs, rfl, -, -⟩ := h.exists_of_map
      simp only [resourcesOf, optional_congr readsAlike_intOf h, optional_congr readsAlike_textOf h]
  | _ => cases h.reordered <;> rfl

/-! ### Variables -/

/-- The names of the variables that the entries declare. -/
def variableNames (es : List (Value × Value)) : List String := es.filterMap (·.1.text?)

/-- No two variables under the key of the value have the same name. Keys of different types can
stand for the same one. -/
def DistinctNames (v : Value) : Prop :=
  ∀ es, v.get? "env" = some (.map es) → (variableNames es).Nodup

lemma variableOf_congr (hname : e.1.text? = f.1.text?) (hvalue : Agrees e.2 f.2) :
    variableOf path e = variableOf path f := by
  obtain ⟨k, x⟩ := e
  obtain ⟨l, y⟩ := f
  simp only [variableOf, hname]
  cases hvalue.reordered <;> rfl

/-- Variables that are read have the names that are declared. -/
lemma map_fst_of_mapM {as : List (String × String)} (h : es.mapM (variableOf path) = .ok as) :
    as.map Prod.fst = variableNames es := by
  rw [mapM_eq_ok_iff] at h
  induction h with
  | nil => rfl
  | @cons e a es as hea _ ih =>
      have hname : e.1.text? = some a.1 := by
        unfold variableOf at hea
        split at hea
        · cases hea
        · next n hn =>
            rw [hn]
            split at hea
            · obtain rfl := Except.ok.inj hea
              rfl
            · split at hea
              · obtain rfl := Except.ok.inj hea
                rfl
              · cases hea
      rw [variableNames, List.filterMap_cons, hname, List.map_cons, ih]
      rfl

/-- Variables with different names make up the same map in any order. -/
lemma variablesOf_sameOutcome (h : Agrees v w)
    (hnames : ∀ es, v = .map es → (variableNames es).Nodup) :
    SameOutcome Eq (variablesOf path v) (variablesOf path w) := by
  cases v with
  | map es =>
      obtain ⟨fs', fs, rfl, hperm, hentries⟩ := h.exists_of_map
      have hvariables : SameOutcome List.Perm (es.mapM (variableOf path))
          (fs.mapM (variableOf path)) :=
        SameOutcome.mapM_of_perm
          (hentries.imp fun e f hef => .of_eq (variableOf_congr hef.1 hef.2)) hperm
      refine hvariables.bind fun as bs has hab => .ok ?_
      refine Variables.ofList_eq_of_perm hab ?_
      rw [map_fst_of_mapM has]
      exact hnames es rfl
  | _ => cases h.reordered <;> exact .of_eq rfl

/-! ### Options and services -/

lemma optional_variablesOf_sameOutcome (h : Agrees v w) (hnames : DistinctNames v) :
    SameOutcome Eq (optional variablesOf start v "env") (optional variablesOf start w "env") := by
  have hkey := h.get? "env"
  unfold optional
  unfold DistinctNames at hnames
  generalize v.get? "env" = o at hkey hnames ⊢
  generalize w.get? "env" = u at hkey ⊢
  cases hkey with
  | none => exact .of_eq rfl
  | @some x y hxy =>
      have hdistinct : ∀ es, x = .map es → (variableNames es).Nodup :=
        fun es hes => hnames es (congrArg some hes)
      exact (variablesOf_sameOutcome hxy hdistinct).map fun _ _ => congrArg some

/-- Values that agree declare the same options. -/
lemma optionsOf_sameOutcome (h : Agrees v w) (hnames : DistinctNames v) :
    SameOutcome Eq (optionsOf start v) (optionsOf start w) := by
  simp only [optionsOf, optional_congr readsAlike_textOf h, number_congr h,
    optional_congr readsAlike_respawnOf h, optional_congr readsAlike_limitsOf h,
    optional_congr readsAlike_resourcesOf h]
  -- the texts and numbers in front of the variables
  iterate 8 refine SameOutcome.bind_same _ fun _ => ?_
  refine (optional_variablesOf_sameOutcome h hnames).bind fun vs ws _ hvs => ?_
  rw [hvs]
  exact .of_eq rfl

lemma serviceOf_sameOutcome (h : Agrees v w) (hnames : DistinctNames v) :
    SameOutcome Eq (serviceOf name v) (serviceOf name w) := by
  cases v with
  | map es =>
      obtain ⟨-, fs, rfl, -, -⟩ := h.exists_of_map
      simp only [serviceOf, optional_congr readsAlike_textOf h]
      refine SameOutcome.bind_same _ fun command => ?_
      cases command with
      | none => exact .of_eq rfl
      | some command =>
          refine (optionsOf_sameOutcome h hnames).bind fun o p _ hop => ?_
          rw [hop]
          exact .of_eq rfl
  | _ => cases h.reordered <;> exact .of_eq rfl

lemma serviceOfEntry_sameOutcome (hname : e.1.text? = f.1.text?) (hvalue : Agrees e.2 f.2)
    (hnames : DistinctNames e.2) : SameOutcome Eq (serviceOfEntry e) (serviceOfEntry f) := by
  unfold serviceOfEntry
  rw [← hname]
  cases e.1.text? with
  | none => exact .error _ _
  | some name => exact serviceOf_sameOutcome hvalue hnames

/-! ### Applications -/

/-- No two variables of a section have the same name: neither among those for all services nor among
those of one service. -/
structure DistinctVariables (doc : Value) : Prop where
  shared : DistinctNames doc
  services : ∀ es, doc.get? "commands" = some (.map es) → ∀ e ∈ es, DistinctNames e.2

/-- The applications differ only in the order of their services. -/
structure SameUpToOrder (a b : Application) : Prop where
  services : a.services.Perm b.services
  others : a = { b with services := a.services }

/-- Documents that agree declare the same application and the same options for all services, up to
the order of the services. -/
lemma readDocument_sameOutcome (h : Agrees v w) (hvariables : DistinctVariables v) :
    SameOutcome (fun x y => x.shared = y.shared ∧ SameUpToOrder x.app y.app)
      (readDocument v d) (readDocument w d) := by
  have hcommands := h.get? "commands"
  have hservices := hvariables.services
  unfold readDocument
  generalize v.get? "commands" = o at hcommands hservices ⊢
  generalize w.get? "commands" = u at hcommands ⊢
  cases hcommands with
  | none => exact .error _ _
  | @some x y hxy =>
      cases x with
      | map es =>
          obtain ⟨fs', fs, rfl, hperm, hentries⟩ := hxy.exists_of_map
          have hread : SameOutcome List.Perm (es.mapM serviceOfEntry) (fs.mapM serviceOfEntry) := by
            refine SameOutcome.mapM_of_perm ?_ hperm
            have hboth := (List.forall₂_and_left es fs').mpr ⟨hservices es rfl, hentries⟩
            exact hboth.imp fun e f hef => serviceOfEntry_sameOutcome hef.2.1 hef.2.2 hef.1
          simp only [optional_congr readsAlike_textOf h, optional_congr readsAlike_intOf h,
            optional_congr readsAlike_boolOf h]
          refine (optionsOf_sameOutcome h hvariables.shared).bind fun o p _ hop => ?_
          refine hread.bind fun ss ts _ hst => ?_
          -- what stands at the top beside the options
          iterate 6 refine SameOutcome.bind_same _ fun _ => ?_
          exact .ok ⟨congrArg sharedOf hop, hst, rfl⟩
      | _ => cases hxy.reordered <;> exact .error _ _

/-- Two documents that differ only in the order of the entries of mappings declare the same
application, its services in some order, or both declare none (the round trip of section 8). -/
theorem ofText_sameOutcome (hv : Value.load text = .ok v) (hw : Value.load text' = .ok w)
    (h : Reordered v w) (hvariables : DistinctVariables v) (d : Defaults) :
    SameOutcome SameUpToOrder (ofText .v2 text d) (ofText .v2 text' d) := by
  have hagrees : Agrees v w := ⟨h, Value.uniqueKeys_of_load hw⟩
  have hdraft : SameOutcome (fun x y => x.shared = y.shared ∧ SameUpToOrder x.app y.app)
      (draftOfText .v2 text d) (draftOfText .v2 text' d) := by
    rw [draftOfText, draftOfText, hv, hw]
    exact readDocument_sameOutcome hagrees hvariables
  refine hdraft.bind fun x y _ hxy => .ok ?_
  obtain ⟨hshared, hservices, hothers⟩ := hxy
  rw [Draft.resolve, Draft.resolve, hshared]
  exact ⟨hservices.map _, congrArg (Application.resolve · y.shared d) hothers⟩

/-- A host with a directory. -/
def orderDefaults : Defaults where
  name := "shop"
  user := "www"
  group := "www"
  workingDir := "/srv"

/-- The text of a document with two services. -/
def orderText : List Char :=
  "version: 2
commands:
  web:
    command: serve
    env:
      A: x
      1: y
  job:
    command: run
".toList

/-- The same text with the entries of three mappings the other way round. -/
def orderText' : List Char :=
  "commands:
  job:
    command: run
  web:
    command: serve
    env:
      1: y
      A: x
version: 2
".toList

/-- The entries of the two services, the variables of one of them in the order that `turn` gives to
them. -/
def orderServices (turn : List (Value × Value) → List (Value × Value)) : List (Value × Value) :=
  [(.str "web", .map [(.str "command", .str "serve"),
      (.str "env", .map (turn [(.str "A", .str "x"), (.int 1, .str "y")]))]),
    (.str "job", .map [(.str "command", .str "run")])]

/-- The document with the entries of three mappings in the order that `turn` gives to them. -/
def orderDocument (turn : List (Value × Value) → List (Value × Value)) : Value :=
  .map (turn [(.str "version", .int 2), (.str "commands", .map (turn (orderServices turn)))])

lemma reordered_orderDocument : Reordered (orderDocument id) (orderDocument List.reverse) := by
  have hentry (k : Value) {x y : Value} (h : Reordered x y) :
      Value.EntryReordered (k, x) (k, y) := .mk (.refl k) h
  have hreverse {es fs : List (Value × Value)} (h : List.Forall₂ Value.EntryReordered es fs) :
      Reordered (.map es) (.map fs.reverse) := .map h (List.reverse_perm fs).symm
  have hsame (es : List (Value × Value)) : List.Forall₂ Value.EntryReordered es es :=
    List.forall₂_same.mpr fun e _ => hentry e.1 (.refl e.2)
  have hservices : List.Forall₂ Value.EntryReordered (orderServices id)
      (orderServices List.reverse) :=
    .cons (hentry _ (.map (.cons (hentry _ (.refl _)) (.cons (hentry _ (hreverse (hsame _))) .nil))
      (.refl _))) (hsame _)
  exact hreverse (.cons (hentry _ (.refl _)) (.cons (hentry _ (hreverse hservices)) .nil))

lemma distinctVariables_orderDocument : DistinctVariables (orderDocument id) := by
  refine ⟨fun es hes => ?_, fun es hes => ?_⟩
  · have hnone : (orderDocument id).get? "env" = none := by decide +kernel
    rw [hnone] at hes
    cases hes
  · have hcommands : (orderDocument id).get? "commands" = some (.map (orderServices id)) := by
      decide +kernel
    obtain rfl := Value.map.inj (Option.some.inj (hcommands.symm.trans hes))
    refine List.forall_mem_cons.mpr ⟨fun vs hvs => ?_, ?_⟩
    · obtain rfl := Value.map.inj (Option.some.inj hvs)
      decide +kernel
    · refine List.forall_mem_singleton.mpr fun vs hvs => ?_
      cases hvs

/-- The same two services, listed the other way round. -/
theorem ofText_orderText : ∃ a b, ofText .v2 orderText orderDefaults = .ok a
    ∧ ofText .v2 orderText' orderDefaults = .ok b ∧ SameUpToOrder a b
    ∧ a.services.map (·.name) = ["web", "job"] ∧ b.services.map (·.name) = ["job", "web"] := by
  have hload : Value.load orderText = .ok (orderDocument id) := by decide +kernel
  have hload' : Value.load orderText' = .ok (orderDocument List.reverse) := by decide +kernel
  have hsame := ofText_sameOutcome hload hload' reordered_orderDocument
    distinctVariables_orderDocument orderDefaults
  have hnames : (ofText .v2 orderText orderDefaults).map (·.services.map (·.name))
      = .ok ["web", "job"] := by
    rw [ofText, draftOfText, hload]
    decide +kernel
  have hnames' : (ofText .v2 orderText' orderDefaults).map (·.services.map (·.name))
      = .ok ["job", "web"] := by
    rw [ofText, draftOfText, hload']
    decide +kernel
  generalize ofText .v2 orderText orderDefaults = x at hsame hnames ⊢
  generalize ofText .v2 orderText' orderDefaults = y at hsame hnames' ⊢
  cases hsame with
  | ok hab => exact ⟨_, _, rfl, rfl, hab, Except.ok.inj hnames, Except.ok.inj hnames'⟩
  | error e f => cases hnames

end ProcUnits.Procfile
