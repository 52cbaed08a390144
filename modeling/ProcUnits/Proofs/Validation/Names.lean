import Mathlib.Data.List.Nodup
import ProcUnits.Proofs.Validation.Service

/-!
The names in an application without problems (section 4.5 of the specification).

* `repeated_eq_nil_iff`, `mem_repeated`: the search for names that occur twice finds none just if
  there is none, and keeps account of all names;
* `memberProblems_eq_nil_iff`: the invariant of the walk over the services. Names and instances
  that were seen do not come again;
* `validate_eq_nil_iff`: what it says of an application;
* `isName_of_validate`, `isName_service_of_validate`, `names_nodup_of_validate`,
  `instanceNames_nodup`: what follows for an application.
-/

namespace ProcUnits.Validation

variable {a : Application} {seen ns : List String}

/-- The names of all instances of an application. -/
def allInstanceNames (ms : List Application.Member) : List String :=
  ms.flatMap fun m => m.options.instanceNames m.service.name

/-! ### Repeated names -/

/-- No name is found twice just if the names are different from each other and from those that
were seen. -/
lemma repeated_eq_nil_iff :
    (repeated seen ns).1 = [] ↔ ns.Nodup ∧ ∀ n ∈ ns, n ∉ seen := by
  induction ns generalizing seen with
  | nil => simp [repeated]
  | cons n ns ih =>
      rw [repeated]
      by_cases hn : n ∈ seen
      · simp [hn]
      · rw [if_neg hn, ih, List.nodup_cons]
        constructor
        · rintro ⟨hnodup, hnew⟩
          have hn' : n ∉ ns := fun hmem => hnew n hmem List.mem_cons_self
          refine ⟨⟨hn', hnodup⟩, fun m hm => ?_⟩
          rcases List.mem_cons.mp hm with rfl | hm
          · exact hn
          · exact fun hseen => hnew m hm (List.mem_cons_of_mem _ hseen)
        · rintro ⟨⟨hn', hnodup⟩, hnew⟩
          refine ⟨hnodup, fun m hm hmem => ?_⟩
          rcases List.mem_cons.mp hmem with rfl | hseen
          · exact hn' hm
          · exact hnew m (List.mem_cons_of_mem _ hm) hseen

/-- All names that came by count as seen afterwards. -/
lemma mem_repeated {n : String} : n ∈ (repeated seen ns).2 ↔ n ∈ seen ∨ n ∈ ns := by
  induction ns generalizing seen with
  | nil => simp [repeated]
  | cons m ns ih =>
      rw [repeated]
      by_cases hm : m ∈ seen
      · rw [if_pos hm, ih, List.mem_cons]
        constructor
        · rintro (h | h)
          · exact Or.inl h
          · exact Or.inr (Or.inr h)
        · rintro (h | rfl | h)
          · exact Or.inl h
          · exact Or.inl hm
          · exact Or.inr h
      · rw [if_neg hm, ih, List.mem_cons, List.mem_cons]
        constructor
        · rintro ((rfl | h) | h)
          · exact Or.inr (Or.inl rfl)
          · exact Or.inl h
          · exact Or.inr (Or.inr h)
        · rintro (h | rfl | h)
          · exact Or.inl (Or.inr h)
          · exact Or.inl (Or.inl rfl)
          · exact Or.inr h

/-! ### Services -/

lemma allInstanceNames_cons (m : Application.Member) (ms : List Application.Member) :
    allInstanceNames (m :: ms)
      = m.options.instanceNames m.service.name ++ allInstanceNames ms := rfl

/-- Services have no problems together just if each of them has none, and if the names of all
services and those of all instances are different from each other and from those that were seen. -/
theorem memberProblems_eq_nil_iff {instances : List String} {ms : List Application.Member} :
    memberProblems seen instances ms = []
      ↔ (∀ m ∈ ms, serviceProblems m = [])
        ∧ ((ms.map (·.service.name)).Nodup ∧ ∀ m ∈ ms, m.service.name ∉ seen)
        ∧ (allInstanceNames ms).Nodup ∧ ∀ n ∈ allInstanceNames ms, n ∉ instances := by
  induction ms generalizing seen instances with
  | nil => simp [memberProblems, allInstanceNames]
  | cons m ms ih =>
      rw [memberProblems, allInstanceNames_cons, List.map_cons]
      by_cases hseen : m.service.name ∈ seen
      · simp [hseen]
      · -- what is new to this service and to those seen before is new to the later services
        rw [if_neg hseen]
        simp only [List.append_eq_nil_iff, List.map_eq_nil_iff, repeated_eq_nil_iff, ih,
          List.mem_cons, forall_eq_or_imp, List.nodup_cons, List.nodup_append, List.mem_append,
          mem_repeated, List.mem_map, not_or]
        constructor
        · rintro ⟨⟨⟨hnodup, hnew⟩, hservice⟩, hservices, ⟨hnames, hfresh⟩, hnodup', hnew'⟩
          refine ⟨⟨hservice, hservices⟩, ⟨⟨?_, hnames⟩, hseen, fun m' hm' => (hfresh m' hm').2⟩,
            ⟨hnodup, hnodup', fun n hn n' hn' heq => (hnew' n' hn').2 (heq ▸ hn)⟩, ?_⟩
          · rintro ⟨m', hm', heq⟩
            exact (hfresh m' hm').1 heq
          · rintro n (hn | hn)
            · exact hnew n hn
            · exact (hnew' n hn).1
        · rintro ⟨⟨hservice, hservices⟩, ⟨⟨hname, hnames⟩, -, hfresh⟩,
            ⟨hnodup, hnodup', hapart⟩, hnew⟩
          exact ⟨⟨⟨hnodup, fun n hn => hnew n (Or.inl hn)⟩, hservice⟩, hservices,
            ⟨hnames, fun m' hm' => ⟨fun heq => hname ⟨m', hm', heq⟩, hfresh m' hm'⟩⟩, hnodup',
            fun n hn => ⟨hnew n (Or.inr hn), fun hn' => hapart n hn' n hn rfl⟩⟩

/-! ### Applications -/

/-- An application has no problems just if it has none of its own, all its services pass their
checks, and no two services and no two instances have the same name. -/
theorem validate_eq_nil_iff :
    validate a = []
      ↔ applicationProblems a = [] ∧ (∀ m ∈ a.members, Passes m)
        ∧ (a.members.map (·.service.name)).Nodup ∧ (allInstanceNames a.members).Nodup := by
  rw [validate, List.append_eq_nil_iff, memberProblems_eq_nil_iff]
  simp only [serviceProblems_eq_nil_iff, List.not_mem_nil, not_false_eq_true, implies_true,
    and_true]

/-- An application without problems has a name. -/
lemma isName_of_validate (h : validate a = []) : isName a.name = true := by
  have happ := (validate_eq_nil_iff.mp h).1
  simp only [applicationProblems, List.append_eq_nil_iff, require_eq_nil_iff] at happ
  tauto

/-- So do its services. -/
lemma isName_service_of_validate (h : validate a = []) {s : Service} (hs : s ∈ a.services) :
    isName s.name = true :=
  ((validate_eq_nil_iff.mp h).2.1 ⟨a, s⟩ (List.mem_map_of_mem hs)).isName

/-- No two services of an application without problems have the same name. -/
lemma names_nodup_of_validate (h : validate a = []) : (a.services.map (·.name)).Nodup := by
  have hnames := (validate_eq_nil_iff.mp h).2.2.1
  rwa [Application.members, List.map_map] at hnames

/-- No two instances of an application without problems have the same name, be they of one
service or of two. -/
theorem instanceNames_nodup (h : validate a = []) : (allInstanceNames a.members).Nodup :=
  (validate_eq_nil_iff.mp h).2.2.2

end ProcUnits.Validation
