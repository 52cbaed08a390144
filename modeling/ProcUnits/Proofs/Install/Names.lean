import ProcUnits.Install.Installer
import ProcUnits.Proofs.Glob.Star
import ProcUnits.Proofs.Path.Join
import ProcUnits.Validation

/-!
The names of an application's files (section D of the specification).

* `IsUnitName`, `IsScriptName`: the names that the units and the scripts of an application can
  have, whatever its services are;
* `isMatch_unitPattern_iff`, `isMatch_helperPattern_iff`: the patterns of the removal match the
  names that a service can give, and no others;
* `isEntryName`, `ne_draft`: such a name can be that of an entry of a directory, and is not that
  of a draft;
* `IsUnitName.ne_of_isScriptName`: a unit and a script never have the same name;
* `Extends`: the name of one application goes on from that of another as the names of its files
  do. `extends_of_isNamedAfter` says that two applications can share the name of a file in this
  case only.
-/

namespace ProcUnits

open Validation (isName isNameChar)

/-! ### Names of applications -/

/-- A character of names belongs to ASCII. -/
lemma isAscii_of_isNameChar {c : Char} (h : isNameChar c = true) : Text.Utf8.IsAscii c := by
  have hkind : (c.isUpper || c.isLower || c.isDigit || c == '_' || c == '-') = true := h
  simp only [Bool.or_eq_true, beq_iff_eq] at hkind
  rw [Text.Utf8.IsAscii, Char.toNat]
  rcases hkind with (((hupper | hlower) | hdigit) | rfl) | rfl
  · have hle : c.val ≤ 'Z'.val := (of_decide_eq_true hupper).2
    exact Nat.lt_of_le_of_lt (UInt32.le_iff_toNat_le.mp hle) (by decide)
  · have hle : c.val ≤ 'z'.val := of_decide_eq_true ((Bool.and_eq_true_iff.mp hlower).2)
    exact Nat.lt_of_le_of_lt (UInt32.le_iff_toNat_le.mp hle) (by decide)
  · have hle : c.val ≤ '9'.val := of_decide_eq_true ((Bool.and_eq_true_iff.mp hdigit).2)
    exact Nat.lt_of_le_of_lt (UInt32.le_iff_toNat_le.mp hle) (by decide)
  · decide
  · decide

/-- A character of names means itself in a pattern. -/
lemma isPlain_of_isNameChar {c : Char} (h : isNameChar c = true) : Glob.IsPlain c := by
  have hne : ∀ d, isNameChar d = false → c ≠ d := by
    rintro d hd rfl
    rw [h] at hd
    exact absurd hd (by simp)
  exact ⟨isAscii_of_isNameChar h, hne _ (by decide), hne _ (by decide), hne _ (by decide),
    hne _ (by decide), hne _ (by decide), hne _ (by decide)⟩

lemma isNameChar_of_mem {app : String} (h : isName app = true) {c : Char} (hc : c ∈ app.toList) :
    isNameChar c = true := by
  rw [isName, Bool.and_eq_true] at h
  exact List.all_eq_true.mp h.2 c hc

/-- A name starts with a character of names. -/
lemma exists_cons_of_isName {app : String} (h : isName app = true) :
    ∃ c r, app.toList = c :: r ∧ isNameChar c = true := by
  have hne : app.toList ≠ [] := by
    intro hnil
    rw [String.toList_eq_nil_iff.mp hnil] at h
    exact absurd h (by decide)
  obtain ⟨c, r, hcr⟩ := List.exists_cons_of_ne_nil hne
  exact ⟨c, r, hcr, isNameChar_of_mem h (hcr ▸ List.mem_cons_self)⟩

lemma slash_not_mem_of_isName {app : String} (h : isName app = true) : '/' ∉ app.toList :=
  fun hmem => absurd (isNameChar_of_mem h hmem) (by decide)

/-! ### Names of files -/

/-- What the names of units end with. -/
def UnitFile.InitSystem.extension : UnitFile.InitSystem → String
  | .systemd => Systemd.extension
  | .upstart => Upstart.extension

namespace Install

open UnitFile (InitSystem stem)

variable {system : InitSystem} {app n : String}

lemma unitName_eq (system : InitSystem) (s : String) :
    system.unitName s = s ++ system.extension := by
  cases system <;> rfl

/-- The name is that of a unit of the application. -/
def IsUnitName (system : InitSystem) (app n : String) : Prop :=
  n = system.unitName app ∨ ∃ s, '/' ∉ s.toList ∧ n = system.unitName (stem app s)

/-- The name is that of a script of the application. -/
def IsScriptName (app n : String) : Prop :=
  n = app ++ "-reload.sh" ∨ ∃ s, '/' ∉ s.toList ∧ n = stem app s ++ ".sh"

/-- The file with this name belongs to the application. -/
def IsNamedAfter (system : InitSystem) (app n : String) : Prop :=
  IsUnitName system app n ∨ IsScriptName app n

lemma IsScriptName.isNamedAfter (h : IsScriptName app n) (system : InitSystem) :
    IsNamedAfter system app n :=
  Or.inr h

/-- All names of an application's files start with its own name. What follows is short of
slashes, and of a form that tells units from scripts. -/
lemma IsUnitName.eq_append (h : IsUnitName system app n) :
    ∃ r, '/' ∉ r.toList ∧ n = app ++ r ++ system.extension := by
  rcases h with rfl | ⟨s, hs, rfl⟩
  · exact ⟨"", by simp, by rw [unitName_eq, String.append_empty]⟩
  · refine ⟨"_" ++ s, by simpa [String.toList_append] using hs, ?_⟩
    simp only [unitName_eq, stem, String.append_assoc]

lemma IsScriptName.eq_append (h : IsScriptName app n) :
    ∃ r, '/' ∉ r.toList ∧ n = app ++ r ++ ".sh" := by
  rcases h with rfl | ⟨s, hs, rfl⟩
  · exact ⟨"-reload", by decide, by simp only [String.append_assoc]; rfl⟩
  · refine ⟨"_" ++ s, by simpa [String.toList_append] using hs, ?_⟩
    simp only [stem, String.append_assoc]

lemma IsNamedAfter.eq_append (h : IsNamedAfter system app n) :
    ∃ r, '/' ∉ r.toList ∧ n = app ++ r := by
  rcases h with h | h
  · obtain ⟨r, hr, rfl⟩ := h.eq_append
    refine ⟨r ++ system.extension, ?_, String.append_assoc ..⟩
    rw [String.toList_append, List.mem_append, not_or]
    exact ⟨hr, by cases system <;> decide⟩
  · obtain ⟨r, hr, rfl⟩ := h.eq_append
    refine ⟨r ++ ".sh", ?_, String.append_assoc ..⟩
    rw [String.toList_append, List.mem_append, not_or]
    exact ⟨hr, by decide⟩

/-- An entry of a directory can have the name. -/
lemma IsNamedAfter.isEntryName (h : IsNamedAfter system app n) (happ : isName app = true) :
    Path.IsEntryName n := by
  obtain ⟨r, hr, rfl⟩ := h.eq_append
  obtain ⟨c, cs, hc, hname⟩ := exists_cons_of_isName happ
  have hdot : c ≠ '.' := fun hdot => absurd (hdot ▸ hname) (by decide)
  refine ⟨?_, ?_, ?_, ?_⟩
  · intro h
    simpa [String.toList_append, hc] using congrArg String.toList h
  · intro h
    simpa [String.toList_append, hc, hdot] using congrArg String.toList h
  · intro h
    simpa [String.toList_append, hc, hdot] using congrArg String.toList h
  · rw [String.toList_append, List.mem_append, not_or]
    exact ⟨slash_not_mem_of_isName happ, hr⟩

/-- A draft never has the name. -/
lemma IsNamedAfter.ne_draft (h : IsNamedAfter system app n) (happ : isName app = true)
    (m : String) : n ≠ "." ++ m ++ ".tmp" := by
  obtain ⟨r, -, rfl⟩ := h.eq_append
  obtain ⟨c, cs, hc, hname⟩ := exists_cons_of_isName happ
  intro h
  have hdot : c = '.' := by
    have hlist := congrArg String.toList h
    simp only [String.toList_append, hc] at hlist
    exact (List.cons.inj hlist).1
  rw [hdot] at hname
  exact absurd hname (by decide)

lemma unitName_ne (system : InitSystem) (s t : String) : system.unitName s ≠ t ++ ".sh" := by
  intro heq
  have hlast := congrArg (fun u => u.toList.getLast?) heq
  cases system <;> simp [unitName_eq, String.toList_append, InitSystem.extension,
    UnitFile.Systemd.extension, UnitFile.Upstart.extension] at hlast

/-- A unit and a script never have the same name. -/
lemma IsUnitName.ne_of_isScriptName {m a b : String} (h : IsUnitName system a n)
    (h' : IsScriptName b m) : n ≠ m := by
  obtain ⟨r, -, rfl⟩ := h.eq_append
  obtain ⟨s, -, rfl⟩ := h'.eq_append
  rw [← unitName_eq]
  exact unitName_ne system _ _

/-! ### Patterns -/

lemma isPlain_of_mem_append {t : String} {c : Char} (happ : isName app = true)
    (ht : ∀ d ∈ t.toList, Glob.IsPlain d) (hc : c ∈ (app ++ t).toList) : Glob.IsPlain c := by
  rw [String.toList_append, List.mem_append] at hc
  rcases hc with hc | hc
  · exact isPlain_of_isNameChar (isNameChar_of_mem happ hc)
  · exact ht c hc

/-- The names that an application's name, a bar, and an ending stand around match the pattern
with a star between these. -/
lemma isMatch_stem_iff {e : String} (happ : isName app = true)
    (he : ∀ c ∈ e.toList, Glob.IsPlain c) :
    Glob.isMatch (app ++ "_" ++ "*" ++ e) n = true ↔ ∃ s, '/' ∉ s.toList ∧ n = stem app s ++ e := by
  have hbar : ∀ c ∈ "_".toList, Glob.IsPlain c := by
    simp only [show "_".toList = ['_'] from rfl, List.mem_singleton, forall_eq]
    exact isPlain_of_isNameChar (by decide)
  have hne : app ++ "_" ≠ "" := by
    intro h
    simpa [String.toList_append] using congrArg String.toList h
  rw [Glob.isMatch_star_iff hne (fun c hc => isPlain_of_mem_append happ hbar hc) he]
  constructor
  · rintro ⟨s, rfl, hs⟩
    exact ⟨s, hs, rfl⟩
  · rintro ⟨s, hs, rfl⟩
    exact ⟨s, rfl, hs⟩

/-- The characters of endings are as plain as those of names. -/
lemma isPlain_of_all {s : List Char} {c : Char}
    (hs : s.all (fun d => isNameChar d || d == '.') = true) (hc : c ∈ s) : Glob.IsPlain c := by
  have hchar := List.all_eq_true.mp hs c hc
  rw [Bool.or_eq_true, beq_iff_eq] at hchar
  rcases hchar with hname | rfl
  · exact isPlain_of_isNameChar hname
  · constructor <;> decide

lemma isPlain_of_mem_extension {c : Char} (h : c ∈ system.extension.toList) : Glob.IsPlain c := by
  refine isPlain_of_all ?_ h
  cases system <;> decide

/-- The pattern for units matches the names that services give, and no others. -/
lemma isMatch_unitPattern_iff (i : Installer) (happ : isName app = true) :
    Glob.isMatch (i.unitPattern app) n = true
      ↔ ∃ s, '/' ∉ s.toList ∧ n = i.system.unitName (stem app s) := by
  have hpattern : i.unitPattern app = app ++ "_" ++ "*" ++ i.system.extension := by
    rw [Installer.unitPattern, unitName_eq]
    simp only [String.append_assoc]
    rfl
  simp only [hpattern, unitName_eq]
  exact isMatch_stem_iff happ fun c => isPlain_of_mem_extension

/-- The pattern for scripts matches the names that services give, and no others. -/
lemma isMatch_helperPattern_iff (happ : isName app = true) :
    Glob.isMatch (Installer.helperPattern app) n = true
      ↔ ∃ s, '/' ∉ s.toList ∧ n = stem app s ++ ".sh" := by
  have hpattern : Installer.helperPattern app = app ++ "_" ++ "*" ++ ".sh" := by
    simp only [Installer.helperPattern, String.append_assoc]
    rfl
  rw [hpattern]
  exact isMatch_stem_iff happ fun c hc => isPlain_of_all (by decide) hc

/-! ### Two applications -/

/-- The second name goes on from the first one as the names of an application's files do. -/
def Extends (a b : String) : Prop := ∃ s, b = stem a s

/-- Two names that go on to the same text are the same, or one goes on from the other. What
follows the second one may be of services, or has no bar at all. -/
lemma extends_of_append {a b : String} {s t : List Char}
    (h : a.toList ++ '_' :: s = b.toList ++ t) (ht : '_' ∈ t → ∃ u, t = '_' :: u) :
    (a = b ∧ '_' ∈ t) ∨ Extends a b ∨ Extends b a := by
  -- one name is a prefix of the other one, and the bar comes behind the shorter one
  rcases List.append_eq_append_iff.mp h with ⟨u, hb, hu⟩ | ⟨u, ha, hu⟩
  · cases u with
    | nil =>
        rw [List.append_nil] at hb
        refine Or.inl ⟨(String.toList_injective hb).symm, ?_⟩
        rw [← List.nil_append t, ← hu]
        exact List.mem_cons_self
    | cons c u =>
        obtain ⟨rfl, -⟩ := List.cons.inj hu
        refine Or.inr (Or.inl ⟨String.ofList u, String.toList_injective ?_⟩)
        simp [stem, String.toList_append, hb]
  · have hmem : '_' ∈ t := by
      rw [hu]
      simp
    obtain ⟨v, rfl⟩ := ht hmem
    cases u with
    | nil =>
        rw [List.append_nil] at ha
        exact Or.inl ⟨String.toList_injective ha, hmem⟩
    | cons c u =>
        obtain ⟨rfl, -⟩ := List.cons.inj hu
        refine Or.inr (Or.inr ⟨String.ofList u, String.toList_injective ?_⟩)
        simp [stem, String.toList_append, ha]

lemma extends_of_stem_eq {a b s t : String} (h : stem a s = stem b t) (hne : a ≠ b) :
    Extends a b ∨ Extends b a := by
  have hlist : a.toList ++ '_' :: s.toList = b.toList ++ '_' :: t.toList := by
    simpa [stem, String.toList_append] using congrArg String.toList h
  rcases extends_of_append hlist (fun _ => ⟨_, rfl⟩) with ⟨heq, -⟩ | hext
  · exact absurd heq hne
  · exact hext

lemma extends_of_stem_eq_reload {a b s : String} (h : stem a s = b ++ "-reload") :
    Extends a b ∨ Extends b a := by
  have hlist : a.toList ++ '_' :: s.toList = b.toList ++ "-reload".toList := by
    simpa [stem, String.toList_append] using congrArg String.toList h
  rcases extends_of_append hlist (fun hmem => absurd hmem (by decide)) with ⟨-, hmem⟩ | hext
  · exact absurd hmem (by decide)
  · exact hext

/-- Two applications can share the name of a file only if the name of one goes on from that of
the other. -/
theorem extends_of_isNamedAfter {a b : String} (h : IsNamedAfter system a n)
    (h' : IsNamedAfter system b n) (hne : a ≠ b) : Extends a b ∨ Extends b a := by
  rcases h with h | h <;> rcases h' with h' | h'
  · rcases h with h | ⟨s, -, h⟩ <;> rcases h' with h' | ⟨t, -, h'⟩ <;>
      rw [h, unitName_eq, unitName_eq, String.append_left_inj] at h'
    · exact absurd h' hne
    · exact Or.inr ⟨t, h'⟩
    · exact Or.inl ⟨s, h'.symm⟩
    · exact extends_of_stem_eq h' hne
  · exact absurd rfl (h.ne_of_isScriptName h')
  · exact absurd rfl (h'.ne_of_isScriptName h)
  · -- two scripts: one of a service has a bar behind the name, a reloader has none
    have hreload : ∀ c : String, c ++ "-reload.sh" = c ++ "-reload" ++ ".sh" := by
      intro c
      rw [String.append_assoc]
      rfl
    rcases h with h | ⟨s, -, h⟩ <;> rcases h' with h' | ⟨t, -, h'⟩ <;>
      simp only [h, hreload, String.append_left_inj] at h'
    · exact absurd h' hne
    · exact (extends_of_stem_eq_reload h'.symm).symm
    · exact extends_of_stem_eq_reload h'
    · exact extends_of_stem_eq h' hne

/-- If a name goes on from another one, all names that belong to the longer one belong to the
shorter one too. -/
lemma IsUnitName.of_extends {a b : String} (hb : isName b = true)
    (hab : Extends a b) (h : IsUnitName system b n) : IsUnitName system a n := by
  obtain ⟨t, rfl⟩ := hab
  have ht : '/' ∉ t.toList := fun hmem =>
    slash_not_mem_of_isName hb (by simp [stem, String.toList_append, hmem])
  rcases h with rfl | ⟨s, hs, rfl⟩
  · exact Or.inr ⟨t, ht, rfl⟩
  · refine Or.inr ⟨stem t s, by simp [stem, String.toList_append, ht, hs], ?_⟩
    simp only [stem, String.append_assoc]

lemma IsScriptName.of_extends {a b : String} (hb : isName b = true) (hab : Extends a b)
    (h : IsScriptName b n) : IsScriptName a n := by
  obtain ⟨t, rfl⟩ := hab
  have ht : '/' ∉ t.toList := fun hmem =>
    slash_not_mem_of_isName hb (by simp [stem, String.toList_append, hmem])
  rcases h with rfl | ⟨s, hs, rfl⟩
  · refine Or.inr ⟨t ++ "-reload", ?_, ?_⟩
    · rw [String.toList_append, List.mem_append, not_or]
      exact ⟨ht, by decide⟩
    · have hreload : "-reload.sh" = "-reload" ++ ".sh" := rfl
      simp only [stem, hreload, String.append_assoc]
  · refine Or.inr ⟨stem t s, by simp [stem, String.toList_append, ht, hs], ?_⟩
    simp only [stem, String.append_assoc]

end Install

end ProcUnits
