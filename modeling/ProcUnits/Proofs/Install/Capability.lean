import ProcUnits.Proofs.Install.Control
import ProcUnits.Proofs.Outcome
import ProcUnits.Proofs.UnitFile.Release

/-!
Applications that upstart is checked for, one after the other: the preflight check of the
event-based backend (section 4.6 of the specification), whose query is the one that section 6 has
among the side effects.

* `Checks`: a run of checks with their results, each from the host on which the one before it has
  ended;
* `releaseOf`: what an answer to the query says;
* `known`: the version that was read first of the answers between two hosts;
* `checkSupport_ends`: one check, by the version that is known when it begins;
* `Checks.executes`: by induction over a run, a host knows the version that was read first of the
  answers in it. `Checks.of_upstart`: from then on nothing is run;
* `DecidesOnce`, `checks_known`: so the query is made until it has been answered, and then it is the
  version that decides.
-/

namespace ProcUnits.Install

open Host (Attempt Command Executes Outcome Reply)
open UnitFile.Upstart (Release)

variable {a : Application} {h h₁ h₂ h' : Host} {v : Release}
  {checked later : List (Application × Except Error Unit)}

/-- Upstart is checked for applications one after the other, with these results. -/
inductive Checks : Host → List (Application × Except Error Unit) → Host → Prop
  | nil (h : Host) : Checks h [] h
  | cons {h h₁ h₂ : Host} {a : Application} {r : Except Error Unit}
      {checked : List (Application × Except Error Unit)}
      (hcheck : (checkSupport .upstart a).Ends h r h₁) (hrest : Checks h₁ checked h₂) :
      Checks h ((a, r) :: checked) h₂

/-! ### The query -/

/-- The version in what the query has printed. -/
def releaseIn (o : Outcome) : Except Error Release :=
  match Release.ofOutput? o.stdout with
  | none => .error (.unknownRelease (String.ofList (Text.trim o.stdout.toList)))
  | some v => .ok v

/-- What an answer to the query says: the version of upstart, or why there is none in it. -/
def releaseOf (answer : Reply) : Except Error Release :=
  outcomeOf releaseQuery answer >>= releaseIn

/-- How the query would be answered next. -/
def nextAnswer (h : Host) : Reply := h.answer h.history.length releaseQuery

/-- The answers to commands that were run between the two hosts. -/
def answersSince (h h' : Host) : List Reply := (h'.history.drop h.history.length).map Prod.snd

/-- The version that was read first of answers. -/
def firstRead (answers : List Reply) : Option Release :=
  answers.findSome? fun answer => (releaseOf answer).toOption

/-- The version that was read first of the answers between the two hosts. -/
def known (h h' : Host) : Option Release := firstRead (answersSince h h')

lemma answersSince_of_executes {cs : List Command} (hran : h.Executes cs h') :
    answersSince h h' = (h.transcript cs).map Prod.snd := by
  rw [answersSince, hran.history_eq, List.drop_left]

lemma known_of_executes_nil (hran : h.Executes [] h') : known h h' = none := by
  rw [known, answersSince_of_executes hran]
  rfl

lemma known_of_executes_query (hran : h.Executes [releaseQuery] h') :
    known h h' = (releaseOf (nextAnswer h)).toOption := by
  rw [known, answersSince_of_executes hran]
  show [nextAnswer h].findSome? _ = _
  rw [List.findSome?_singleton]

/-- What was read first counts. -/
lemma known_trans {cs ds : List Command} (hran : h.Executes cs h₁) (hran' : h₁.Executes ds h₂) :
    known h h₂ = (known h h₁).or (known h₁ h₂) := by
  rw [known, known, known, answersSince_of_executes (hran.trans hran'),
    answersSince_of_executes hran, answersSince_of_executes hran', hran.transcript_append,
    List.map_append, firstRead, List.findSome?_append]
  rfl

/-! ### One check -/

/-- The version is the known one, or is read from the answer to the query. If it is there at the
end, it is known from then on. -/
lemma upstartRelease_ends {r : Except Error Release} (he : upstartRelease.Ends h r h') :
    r = h.upstart.elim (releaseOf (nextAnswer h)) .ok ∧ h'.upstart = r.toOption := by
  rw [upstartRelease, Attempt.ends_get_bind] at he
  cases hknown : h.upstart with
  | some v =>
      rw [hknown] at he
      obtain ⟨rfl, rfl⟩ := Attempt.ends_pure.mp he
      exact ⟨rfl, hknown⟩
  | none =>
      rw [hknown] at he
      rw [Option.elim_none, releaseOf, nextAnswer]
      rcases Attempt.ends_bind.mp he with ⟨e, hrun, rfl⟩ | ⟨o, h₁, hrun, he₁⟩
      · -- the query has failed
        obtain ⟨-, -, hsame, hanswer⟩ := runChecked_ends hrun
        rw [← hanswer]
        exact ⟨rfl, hsame.trans hknown⟩
      · obtain ⟨-, -, hsame, hanswer⟩ := runChecked_ends hrun
        rw [← hanswer]
        show r = releaseIn o ∧ _
        rw [releaseIn]
        cases hv : Release.ofOutput? o.stdout with
        | none =>
            rw [hv] at he₁
            obtain ⟨rfl, rfl⟩ := Attempt.ends_throw.mp he₁
            exact ⟨rfl, hsame.trans hknown⟩
        | some v =>
            rw [hv] at he₁
            simp only [Host.ends_emit_bind] at he₁
            rcases Attempt.ends_bind.mp he₁ with ⟨e, hstore, -⟩ | ⟨u, h₂, hstore, hpure⟩
            · exact absurd (Attempt.ends_modify.mp hstore).1 (by simp)
            · obtain ⟨-, rfl⟩ := Attempt.ends_modify.mp hstore
              obtain ⟨rfl, rfl⟩ := Attempt.ends_pure.mp hpure
              exact ⟨rfl, rfl⟩

/-- What a check says about a version. -/
def supports (v : Release) : Except Error Unit :=
  if v.isBefore .firstWithReload then .error (.noReloadSignal v) else .ok ()

/-- The version is 1.10.0 or a later one, the number in front counting most. -/
def SupportsReload (v : Release) : Prop := toLex (1, toLex (10, 0)) ≤ v.numbers

lemma supports_eq_ok_iff : supports v = .ok () ↔ SupportsReload v := by
  show _ ↔ Release.firstWithReload.numbers ≤ v.numbers
  rw [supports, ← Release.isBefore_eq_false_iff]
  split_ifs with hbefore
  · simp [hbefore]
  · simpa using hbefore

/-- A version that was asked for has to be there, and to be high enough. -/
lemma bind_supports_eq_ok_iff {x : Except Error Release} : x >>= supports = .ok ()
    ↔ ∃ v, x.toOption = some v ∧ SupportsReload v := by
  simp only [bind_eq_ok_iff, supports_eq_ok_iff]
  cases x <;> simp [Except.toOption]

/-- A check by the version that is known when it begins. -/
lemma checkSupport_ends {r : Except Error Unit} (he : (checkSupport .upstart a).Ends h r h') :
    if a.isReloadSignalSet then
      r = h.upstart.elim (releaseOf (nextAnswer h)) .ok >>= supports
        ∧ h'.upstart = (h.upstart.elim (releaseOf (nextAnswer h)) .ok).toOption
    else r = .ok () ∧ h'.upstart = h.upstart := by
  rw [checkSupport] at he
  split_ifs with hset
  · rw [if_pos hset] at he
    rcases Attempt.ends_bind.mp he with ⟨e, hrelease, rfl⟩ | ⟨v, h₁, hrelease, hdecide⟩
    · obtain ⟨hread, hknown⟩ := upstartRelease_ends hrelease
      rw [← hread]
      exact ⟨rfl, hknown⟩
    · obtain ⟨hread, hknown⟩ := upstartRelease_ends hrelease
      rw [← hread]
      show r = supports v ∧ _
      rw [supports]
      split_ifs at hdecide ⊢
      · obtain ⟨rfl, rfl⟩ := Attempt.ends_throw.mp hdecide
        exact ⟨rfl, hknown⟩
      · obtain ⟨rfl, rfl⟩ := Attempt.ends_pure.mp hdecide
        exact ⟨rfl, hknown⟩
  · rw [if_neg hset] at he
    obtain ⟨rfl, rfl⟩ := Attempt.ends_pure.mp he
    exact ⟨rfl, rfl⟩

/-! ### A run of checks -/

/-- After a check the version is known that was known before, or that was read in it. -/
lemma upstart_of_check {r : Except Error Unit} (he : (checkSupport .upstart a).Ends h r h') :
    h'.upstart = h.upstart.or (known h h') := by
  have hasks := asks_checkSupport he
  have hends := checkSupport_ends he
  cases hset : a.isReloadSignalSet with
  | false =>
      rw [hset] at hasks hends
      rw [known_of_executes_nil hasks, Option.or_none]
      exact hends.2
  | true =>
      rw [hset] at hasks hends
      cases hknown : h.upstart with
      | none =>
          rw [hknown] at hasks hends
          rw [known_of_executes_query hasks, Option.none_or]
          exact hends.2
      | some v =>
          rw [hknown] at hasks hends
          rw [known_of_executes_nil hasks, Option.or_none]
          exact hends.2

/-- In a run nothing is run but the query, and the version is known that was known before, or else
that was read first. -/
lemma Checks.executes (hrun : Checks h checked h') :
    (∃ n, h.Executes (List.replicate n releaseQuery) h')
      ∧ h'.upstart = h.upstart.or (known h h') := by
  induction hrun with
  | nil h =>
      have hnone : h.Executes [] h := Executes.refl h
      refine ⟨⟨0, hnone⟩, ?_⟩
      rw [known_of_executes_nil hnone, Option.or_none]
  | @cons h h₁ h₂ a r checked hcheck _ ih =>
      obtain ⟨⟨n, hrest⟩, hknown⟩ := ih
      have hasks := asks_checkSupport hcheck
      refine ⟨?_, ?_⟩
      · split_ifs at hasks
        · exact ⟨n + 1, hasks.trans hrest⟩
        · exact ⟨n, hasks.trans hrest⟩
      · rw [hknown, upstart_of_check hcheck, known_trans hasks hrest, Option.or_assoc]

/-- While the version is known nothing is run, and the version decides. -/
lemma Checks.of_upstart (hrun : Checks h checked h') (hknown : h.upstart = some v) :
    h.Executes [] h' ∧ ∀ c ∈ checked, c.2 = .ok ()
      ↔ c.1.isReloadSignalSet = false ∨ SupportsReload v := by
  induction hrun with
  | nil h => exact ⟨.refl h, by simp⟩
  | @cons h h₁ h₂ a r checked hcheck _ ih =>
      have hasks := asks_checkSupport hcheck
      have hends := checkSupport_ends hcheck
      rw [hknown, Option.isNone_some, Bool.and_false, if_neg Bool.false_ne_true] at hasks
      have hstill : h₁.upstart = some v := by
        rw [upstart_of_check hcheck, hknown, Option.some_or]
      obtain ⟨hrest, hlater⟩ := ih hstill
      refine ⟨hasks.trans hrest, List.forall_mem_cons.mpr ⟨?_, hlater⟩⟩
      rw [hknown] at hends
      split_ifs at hends with hset
      · have hverdict : r = supports v := hends.1
        rw [hverdict, supports_eq_ok_iff, or_iff_right (by simp [hset])]
      · simp [hends.1, hset]

/-- How the version of upstart decides after a run of checks from the first host to the second. -/
structure DecidesOnce (h h₁ : Host) : Prop where
  /-- Nothing was run but the query. -/
  queries : ∃ n, h.Executes (List.replicate n releaseQuery) h₁
  /-- The next check makes the query if it needs the version and none was read yet. -/
  next_executes : ∀ a r h₂, (checkSupport .upstart a).Ends h₁ r h₂ → h₁.Executes
    (if a.isReloadSignalSet = true ∧ known h h₁ = none then [releaseQuery] else []) h₂
  /-- An answer without a version is the error of the check, and is not remembered. -/
  next_fails : ∀ a r h₂, (checkSupport .upstart a).Ends h₁ r h₂ → a.isReloadSignalSet = true →
    known h h₁ = none → ∀ e, releaseOf (nextAnswer h₁) = .error e →
      r = .error e ∧ known h h₂ = none
  /-- The application passes if it needs no version, or one was read that will do. -/
  next_passes : ∀ a r h₂, (checkSupport .upstart a).Ends h₁ r h₂ →
    (r = .ok () ↔ a.isReloadSignalSet = false ∨ ∃ v, known h h₂ = some v ∧ SupportsReload v)
  /-- Once a version was read, nothing is run by any later checks, and it decides about them all. -/
  later : ∀ v, known h h₁ = some v → ∀ later h₂, Checks h₁ later h₂ →
    h₁.Executes [] h₂
      ∧ ∀ c ∈ later, c.2 = .ok () ↔ c.1.isReloadSignalSet = false ∨ SupportsReload v
  /-- The version that is read is the one that the first line of the answer announces. -/
  announced : ∀ v first output, Release.Announces v first →
    (Text.lines output.toList).head? = some first.toList → Release.ofOutput? output = some v

/-- How the versions of upstart decide over a run of checks (section 4.6). A host that did not know
the version at the start knows what was read first of the answers since. So the query is made by the
checks that need the version while there is none, an answer without one is the error of its check
and changes nothing for the next one, and the version that was read first decides from then on. -/
theorem checks_known (hfresh : h.upstart = none) (hrun : Checks h checked h₁) :
    DecidesOnce h h₁ := by
  obtain ⟨hqueries, hupstart⟩ := hrun.executes
  rw [hfresh, Option.none_or] at hupstart
  -- after one more check the host knows what was read up to its end
  have hafter : ∀ {a r h₂}, (checkSupport .upstart a).Ends h₁ r h₂ → h₂.upstart = known h h₂ := by
    intro a r h₂ hcheck
    obtain ⟨n, hran⟩ := hqueries
    rw [upstart_of_check hcheck, hupstart, known_trans hran (asks_checkSupport hcheck)]
  refine ⟨hqueries, fun a r h₂ hcheck => ?_, fun a r h₂ hcheck hset hnone e he => ?_,
    fun a r h₂ hcheck => ?_, fun v hv later h₂ hlater => hlater.of_upstart (hupstart.trans hv),
    fun v first output hv hfirst => Release.ofOutput?_of_announces hv hfirst⟩
  · have hasks := asks_checkSupport hcheck
    rw [hupstart] at hasks
    simpa only [Bool.and_eq_true, Option.isNone_iff_eq_none] using hasks
  · have hends := checkSupport_ends hcheck
    rw [hset, hupstart, hafter hcheck, hnone] at hends
    obtain ⟨hverdict, hknown⟩ := hends
    rw [Option.elim_none, he] at hverdict hknown
    exact ⟨hverdict, hknown⟩
  · have hends := checkSupport_ends hcheck
    rw [hafter hcheck] at hends
    cases hset : a.isReloadSignalSet with
    | false =>
        rw [hset] at hends
        simpa using hends.1
    | true =>
        rw [hset] at hends
        rw [or_iff_right (by simp), hends.1, hends.2]
        exact bind_supports_eq_ok_iff

/-- A host whose first two queries fail: there is no such program, and it says nothing of a
version. -/
def lateHost : Host where
  answer n _ :=
    match n with
    | 0 => .refused "No such file or directory"
    | 1 => .finished { stdout := "init" }
    | _ => .finished { stdout := "init (upstart 1.10)\n" }

/-- An application with a service that is reloaded by a signal. -/
def signalledApplication : Application where
  name := "shop"
  user := "www"
  group := "www"
  workingDir := "/srv"
  services := [{ name := "web", command := "serve", options := { reloadSignal := some "HUP" } }]
  version := .v2

/-- A check for that application. -/
def recheck (h : Host) : Except Error Unit × Host :=
  (checkSupport .upstart signalledApplication).run.run h

/-- The first version that is read lets the application through from then on. -/
theorem checks_known_late : ∃ h₁, Checks lateHost
      [(signalledApplication, .error (.notStarted "init --version" "No such file or directory")),
        (signalledApplication, .error (.unknownRelease "init")), (signalledApplication, .ok ())] h₁
    ∧ known lateHost h₁ = some ⟨1, 10, 0⟩
    ∧ ∀ later h₂, Checks h₁ later h₂ → h₁.Executes [] h₂ ∧ ∀ c ∈ later, c.2 = .ok () := by
  have hrun : Checks lateHost
      [(signalledApplication, .error (.notStarted "init --version" "No such file or directory")),
        (signalledApplication, .error (.unknownRelease "init")), (signalledApplication, .ok ())]
      (recheck (recheck (recheck lateHost).2).2).2 := .cons rfl (.cons rfl (.cons rfl (.nil _)))
  have hknown : known lateHost (recheck (recheck (recheck lateHost).2).2).2 = some ⟨1, 10, 0⟩ := by
    decide +kernel
  have hdecides := checks_known rfl hrun
  refine ⟨_, hrun, hknown, fun later h₂ hchecks => ?_⟩
  obtain ⟨hran, hall⟩ := hdecides.later _ hknown later h₂ hchecks
  exact ⟨hran, fun c hc => (hall c hc).mpr (Or.inr le_rfl)⟩

end ProcUnits.Install
