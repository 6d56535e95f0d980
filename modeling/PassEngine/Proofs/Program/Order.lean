import PassEngine.Proofs.Attempt.Independence
import PassEngine.Proofs.Program.Rounds

/-!
# The order of visits

If passes register nothing, visits that go well can be made in any order: the store becomes the
same, and the same is reported, in another order. A call visits the entry and then all modules, so
that it does not matter with which one it begins.
-/

namespace PassEngine

variable {ρ τ : Type}

namespace Tour

/-- The tours are over the same program and have finished and reported the same, in any order. -/
structure SameButOrder (tour other : Tour ρ τ) : Prop where
  engine : other.program.engine = tour.program.engine
  store : other.program.store = tour.program.store
  done : other.program.done.Perm tour.program.done
  reports : other.reports.Perm tour.reports

variable {tour other third middle next last : Tour ρ τ} {id first second : ModuleId}

theorem SameButOrder.refl (tour : Tour ρ τ) : SameButOrder tour tour :=
  ⟨rfl, rfl, .refl _, .refl _⟩

theorem SameButOrder.trans (h : SameButOrder tour other) (h' : SameButOrder other third) :
    SameButOrder tour third :=
  ⟨h'.engine.trans h.engine, h'.store.trans h.store, h'.done.trans h.done,
    h'.reports.trans h.reports⟩

theorem SameButOrder.finished_eq (h : SameButOrder tour other) (id : ModuleId) :
    other.program.finished id = tour.program.finished id := by
  simp [Program.finished, h.done.mem_iff]

variable [DecidableEq ρ] {suite : PassSuite ρ τ} {fuel : Nat} {ids rest : List ModuleId}
  {attempt : Attempt ρ τ} {report : ModuleReport}

/-! ## Visits that go well -/

theorem visit_of_attempt (unfinished : tour.program.finished id = false)
    (h : tour.program.engine.attempt suite fuel id tour.program.store = some attempt)
    (ok : attempt.verdict = .ok report) :
    tour.visit suite fuel id = some (.ok (), tour.complete id attempt report) := by
  rw [visit_of_unfinished unfinished, h, Option.map_some, ok]

/-- A visit to a module that was visited before does nothing. -/
theorem visitAll_concat_ok_iff (visited : id ∈ ids) :
    visitAll suite fuel (ids ++ [id]) tour = some (.ok (), last) ↔
      visitAll suite fuel ids tour = some (.ok (), last) := by
  rw [visitAll_append, andThen_eq_ok_iff]
  constructor
  · rintro ⟨next, hids, again⟩
    rw [visitAll_of_finished (by simpa using finished_of_visitAll hids visited)] at again
    cases again
    exact hids
  · intro hids
    exact ⟨last, hids, visitAll_of_finished (by simpa using finished_of_visitAll hids visited)⟩

theorem SameButOrder.visit (same : SameButOrder tour other)
    (h : tour.visit suite fuel id = some (.ok (), next)) :
    ∃ next', other.visit suite fuel id = some (.ok (), next') ∧ SameButOrder next next' := by
  have hfinished := same.finished_eq id
  cases finished : tour.program.finished id with
  | true =>
      rw [visit_of_finished finished] at h
      cases h
      exact ⟨other, visit_of_finished (hfinished.trans finished), same⟩
  | false =>
      obtain ⟨attempt, report, hattempt, ok, rfl⟩ := completed_of_visit finished h
      rw [← same.engine, ← same.store] at hattempt
      exact ⟨_, visit_of_attempt (hfinished.trans finished) hattempt ok, same.engine, rfl,
        same.done.cons id, same.reports.cons report⟩

theorem SameButOrder.visitAll (same : SameButOrder tour other)
    (h : visitAll suite fuel ids tour = some (.ok (), last)) :
    ∃ last', Tour.visitAll suite fuel ids other = some (.ok (), last') ∧
      SameButOrder last last' := by
  induction ids generalizing tour other with
  | nil =>
      cases h
      exact ⟨other, rfl, same⟩
  | cons id rest ih =>
      obtain ⟨next, hvisit, hrest⟩ := visitAll_cons_ok_iff.mp h
      obtain ⟨next', hvisit', same⟩ := same.visit hvisit
      obtain ⟨last', hrest', same⟩ := ih same hrest
      exact ⟨last', visitAll_cons_ok_iff.mpr ⟨next', hvisit', hrest'⟩, same⟩

/-! ## Changing the order -/

theorem visit_swap (alone : suite.RegistersNothing)
    (hfirst : tour.visit suite fuel first = some (.ok (), middle))
    (hsecond : middle.visit suite fuel second = some (.ok (), last)) :
    ∃ middle' last', tour.visit suite fuel second = some (.ok (), middle') ∧
      middle'.visit suite fuel first = some (.ok (), last') ∧ SameButOrder last last' := by
  cases finished : tour.program.finished first with
  | true =>
      rw [visit_of_finished finished] at hfirst
      cases hfirst
      obtain ⟨_, advances⟩ := advances_visit hsecond
      have still := advances.finished_iff.mpr (Or.inr finished)
      exact ⟨last, last, hsecond, visit_of_finished still, .refl last⟩
  | false =>
      obtain ⟨attempt, report, hattempt, ok, rfl⟩ := completed_of_visit finished hfirst
      have advances := advances_complete finished hattempt ok
      cases finished' : (tour.complete first attempt report).program.finished second with
      | true =>
          rw [visit_of_finished finished'] at hsecond
          cases hsecond
          rcases advances.finished_iff.mp finished' with here | before
          · cases List.mem_singleton.mp here
            exact ⟨_, _, hfirst, visit_of_finished finished', .refl _⟩
          · exact ⟨tour, _, visit_of_finished before, hfirst, .refl _⟩
      | false =>
          obtain ⟨aside, before⟩ := advances.unfinished_iff.mp finished'
          have ne : first ≠ second := fun h => aside (List.mem_singleton.mpr h.symm)
          obtain ⟨attempt', report', hattempt', ok', rfl⟩ := completed_of_visit finished' hsecond
          -- each attempt looks at its own slot, so that it can be made first or last
          obtain ⟨store, early, late⟩ := Engine.attempt_swap alone ne hattempt ok hattempt' ok'
          have pending := (advances_complete before early ok').unfinished_iff.mpr
            ⟨fun h => ne (List.mem_singleton.mp h), finished⟩
          exact ⟨_, _, visit_of_attempt before early ok', visit_of_attempt pending late ok,
            rfl, rfl, .swap second first _, .swap report' report _⟩

theorem visitAll_perm (alone : suite.RegistersNothing) {permuted : List ModuleId}
    (perm : ids.Perm permuted) (h : visitAll suite fuel ids tour = some (.ok (), last)) :
    ∃ last', visitAll suite fuel permuted tour = some (.ok (), last') ∧
      SameButOrder last last' := by
  induction perm generalizing tour last with
  | nil => exact ⟨last, h, .refl last⟩
  | cons id _ ih =>
      obtain ⟨next, hvisit, hrest⟩ := visitAll_cons_ok_iff.mp h
      obtain ⟨last', hrest', same⟩ := ih hrest
      exact ⟨last', visitAll_cons_ok_iff.mpr ⟨next, hvisit, hrest'⟩, same⟩
  | swap first second rest =>
      obtain ⟨middle, hsecond, htail⟩ := visitAll_cons_ok_iff.mp h
      obtain ⟨next, hfirst, hrest⟩ := visitAll_cons_ok_iff.mp htail
      obtain ⟨middle', next', hfirst', hsecond', same⟩ := visit_swap alone hsecond hfirst
      obtain ⟨last', hrest', same⟩ := same.visitAll hrest
      exact ⟨last', visitAll_cons_ok_iff.mpr ⟨middle', hfirst',
        visitAll_cons_ok_iff.mpr ⟨next', hsecond', hrest'⟩⟩, same⟩
  | trans _ _ ih ih' =>
      obtain ⟨last', h', same⟩ := ih h
      obtain ⟨last'', h'', same'⟩ := ih' h'
      exact ⟨last'', h'', same.trans same'⟩

/-- Among visits to all of a list, it does not matter which of the list comes first. -/
theorem visitAll_head (alone : suite.RegistersNothing) (hfirst : first ∈ ids)
    (hsecond : second ∈ ids) (h : visitAll suite fuel (first :: ids) tour = some (.ok (), last)) :
    ∃ last', visitAll suite fuel (second :: ids) tour = some (.ok (), last') ∧
      SameButOrder last last' := by
  -- the other module is visited again at the end, so that both lists hold the same
  have perm : (first :: ids ++ [second]).Perm (second :: ids ++ [first]) :=
    (List.perm_append_singleton second (first :: ids)).trans
      ((List.perm_append_singleton first ids).symm.cons second)
  rw [← visitAll_concat_ok_iff (List.mem_cons_of_mem first hsecond)] at h
  obtain ⟨last', h', same⟩ := visitAll_perm alone perm h
  exact ⟨last', (visitAll_concat_ok_iff (List.mem_cons_of_mem second hfirst)).mp h', same⟩

/-! ## Calls -/

theorem ids_visit (alone : suite.RegistersNothing)
    (h : tour.visit suite fuel id = some (.ok (), next)) :
    next.program.store.ids = tour.program.store.ids := by
  cases finished : tour.program.finished id with
  | true =>
      rw [visit_of_finished finished] at h
      cases h
      rfl
  | false =>
      obtain ⟨attempt, report, hattempt, ok, rfl⟩ := completed_of_visit finished h
      obtain ⟨tree, hstore, _⟩ := Engine.attempt_elsewhere alone rfl rfl hattempt ok
      simp [complete, hstore, ModuleStore.ids]

theorem ids_visitAll (alone : suite.RegistersNothing)
    (h : visitAll suite fuel ids tour = some (.ok (), last)) :
    last.program.store.ids = tour.program.store.ids := by
  induction ids generalizing tour with
  | nil =>
      cases h
      rfl
  | cons id rest ih =>
      obtain ⟨next, hvisit, hrest⟩ := visitAll_cons_ok_iff.mp h
      rw [ih hrest, ids_visit alone hvisit]

end Tour

namespace Program

variable [DecidableEq ρ] {suite : PassSuite ρ τ} {program : Program ρ τ} {fuel : Nat}
  {entry first second : ModuleId} {outcome : ProgramOutcome ρ τ} {report : ProgramReport}

theorem visitAll_of_optimize (alone : suite.RegistersNothing)
    (h : program.optimize suite fuel entry = some outcome) (ok : outcome.verdict = .ok report) :
    ∃ last, Tour.visitAll suite fuel (entry :: program.store.ids) { program } =
      some (.ok (), last) := by
  obtain ⟨start, _, hentry, hsweeps, _⟩ := sweeps_of_optimize h ok
  cases fuel with
  | zero => cases hsweeps
  | succ bound =>
      rw [Tour.sweeps_succ] at hsweeps
      obtain ⟨last, hsweep, _⟩ := Tour.andThen_eq_ok_iff.mp hsweeps
      rw [Tour.sweep, Tour.ids_visit alone hentry] at hsweep
      exact ⟨last, Tour.visitAll_cons_ok_iff.mpr ⟨start, hentry, hsweep⟩⟩

/-- The first sweep finds all that there is, and a second one that there is nothing left. -/
theorem optimize_of_visitAll (alone : suite.RegistersNothing) (fresh : program.done = [])
    (enough : 2 ≤ fuel) {last : Tour ρ τ}
    (h : Tour.visitAll suite fuel (entry :: program.store.ids) { program } = some (.ok (), last)) :
    program.optimize suite fuel entry =
      some (Tour.conclude (.ok (if last.reports.length = 1 then 1 else 2), last)) := by
  obtain ⟨bound, rfl⟩ := Nat.exists_eq_add_of_le' enough
  obtain ⟨start, hentry, hall⟩ := Tour.visitAll_cons_ok_iff.mp h
  have hids := Tour.ids_visit alone hentry
  have reported : start.reports.length = 1 := by
    have unfinished : ({ program } : Tour ρ τ).program.finished entry = false := by
      simp [finished, fresh]
    obtain ⟨_, _, _, _, rfl⟩ := Tour.completed_of_visit unfinished hentry
    rfl
  have idle : last.sweep suite (bound + 2) = some (.ok (), last) := by
    apply Tour.visitAll_of_finished
    rw [Tour.ids_visitAll alone hall, hids]
    exact fun id hid => Tour.finished_of_visitAll hall hid
  rw [optimize_eq, hentry, Tour.andThen_ok, Tour.sweeps_succ, Tour.sweep, hids, hall,
    Tour.andThen_ok, reported, Tour.sweeps_succ, idle, Tour.andThen_ok, if_pos rfl]
  split <;> rfl

/-- A call that goes well on one entry goes as well on another. -/
theorem optimize_elsewhere (alone : suite.RegistersNothing) (fresh : program.done = [])
    (hfirst : first ∈ program.store.ids) (hsecond : second ∈ program.store.ids)
    (h : program.optimize suite fuel first = some outcome) (ok : outcome.verdict = .ok report) :
    ∃ fuel' outcome' report', program.optimize suite fuel' second = some outcome' ∧
      outcome'.verdict = .ok report' ∧ outcome'.program.store = outcome.program.store ∧
      report'.sweeps = report.sweeps ∧ report'.modules.Perm report.modules := by
  have le := Nat.le_max_left fuel 2
  have enough := Nat.le_max_right fuel 2
  obtain ⟨last, hlast⟩ := visitAll_of_optimize alone (optimize_of_le le h) ok
  obtain ⟨last', hlast', same⟩ := Tour.visitAll_head alone hfirst hsecond hlast
  have houtcome := optimize_of_visitAll alone fresh enough hlast
  cases (optimize_of_le le h).symm.trans houtcome
  cases ok
  refine ⟨_, _, _, optimize_of_visitAll alone fresh enough hlast', rfl, same.store, ?_, ?_⟩
  · simp [same.reports.length_eq]
  · simpa using same.reports

/-- If passes register nothing, a call on a new program may begin with any module: with one it ends
well if and only if it does with another, and then it leaves the same store after as many sweeps,
and reports the same on the modules, in another order. -/
theorem entry_immaterial (alone : suite.RegistersNothing) (fresh : program.done = [])
    (hfirst : first ∈ program.store.ids) (hsecond : second ∈ program.store.ids) :
    ((∃ fuel outcome report, program.optimize suite fuel first = some outcome ∧
        outcome.verdict = .ok report) ↔
      ∃ fuel outcome report, program.optimize suite fuel second = some outcome ∧
        outcome.verdict = .ok report) ∧
    ∀ fuel outcome report fuel' outcome' report',
      program.optimize suite fuel first = some outcome → outcome.verdict = .ok report →
      program.optimize suite fuel' second = some outcome' → outcome'.verdict = .ok report' →
      outcome'.program.store = outcome.program.store ∧ report'.sweeps = report.sweeps ∧
        report'.modules.Perm report.modules := by
  refine ⟨⟨?_, ?_⟩, ?_⟩
  · rintro ⟨fuel, outcome, report, h, ok⟩
    obtain ⟨fuel', outcome', report', h', ok', _⟩ :=
      optimize_elsewhere alone fresh hfirst hsecond h ok
    exact ⟨fuel', outcome', report', h', ok'⟩
  · rintro ⟨fuel, outcome, report, h, ok⟩
    obtain ⟨fuel', outcome', report', h', ok', _⟩ :=
      optimize_elsewhere alone fresh hsecond hfirst h ok
    exact ⟨fuel', outcome', report', h', ok'⟩
  · intro fuel outcome report fuel' outcome' report' h ok h' ok'
    obtain ⟨more, outcome'', report'', h'', ok'', same⟩ :=
      optimize_elsewhere alone fresh hfirst hsecond h ok
    -- with enough fuel for both, the calls on the second entry are one call
    have hmore := optimize_of_le (Nat.le_max_right fuel' more) h''
    cases (optimize_of_le (Nat.le_max_left fuel' more) h').symm.trans hmore
    cases ok'.symm.trans ok''
    exact same

end Program

/-! ## Modules that are signed -/

namespace Signing

/-- The pass writes the name of its module on the tree, unless it is there. -/
def suite : PassSuite Unit (List String) where
  name _ := "sign"
  apply _ subject tree :=
    if subject.name ∈ tree then .done (.ok (), tree)
    else .emit newCode fun _ => .done (.ok (), subject.name :: tree)

theorem registersNothing : suite.RegistersNothing := by
  intro pass subject tree _
  unfold suite
  dsimp only
  split
  · exact trivial
  · exact trivial

theorem slots_nodup :
    ([⟨"main", some []⟩, ⟨"util", some ["util"]⟩, ⟨"late", some ["main"]⟩] :
      List (Slot (List String))).map Slot.name |>.Nodup := by
  decide

/-- One of three modules is signed. -/
def program : Program Unit (List String) where
  engine := Asking.engine
  store := ⟨_, slots_nodup⟩

end Signing

namespace Program

/-- What is found on the third module does not depend on whether it comes first or last. -/
theorem entry_immaterial_signing :
    let call := Signing.program.optimize Signing.suite 3
    Signing.suite.RegistersNothing ∧ Signing.program.done = [] ∧
      (∃ outcome report, call ⟨0⟩ = some outcome ∧ outcome.verdict = .ok report ∧
        report.names = ["main", "util", "late"] ∧ report.sweeps = 2) ∧
      ∃ outcome report, call ⟨2⟩ = some outcome ∧ outcome.verdict = .ok report ∧
        report.names = ["late", "main", "util"] ∧ report.sweeps = 2 ∧
        report.modules.Perm [⟨⟨⟨0⟩, "main"⟩, [⟨"sign", 1⟩, ⟨"sign", 0⟩], 3⟩,
          ⟨⟨⟨1⟩, "util"⟩, [⟨"sign", 0⟩], 2⟩, ⟨⟨⟨2⟩, "late"⟩, [⟨"sign", 1⟩, ⟨"sign", 0⟩], 3⟩] := by
  intro call
  have early : (call ⟨0⟩).map (·.verdict) =
      some (.ok ⟨[⟨⟨⟨0⟩, "main"⟩, [⟨"sign", 1⟩, ⟨"sign", 0⟩], 3⟩,
        ⟨⟨⟨1⟩, "util"⟩, [⟨"sign", 0⟩], 2⟩,
        ⟨⟨⟨2⟩, "late"⟩, [⟨"sign", 1⟩, ⟨"sign", 0⟩], 3⟩], 2⟩) := by
    decide
  have late : (call ⟨2⟩).map (fun outcome => outcome.verdict.map ProgramReport.names) =
      some (.ok ["late", "main", "util"]) := by
    decide
  obtain ⟨outcome, houtcome, ok⟩ := Option.map_eq_some_iff.mp early
  obtain ⟨outcome', houtcome', ok'⟩ := Option.map_eq_some_iff.mp late
  cases hverdict : outcome'.verdict with
  | error fault =>
      rw [hverdict] at ok'
      cases ok'
  | ok report =>
      rw [hverdict] at ok'
      have names : report.names = ["late", "main", "util"] := Except.ok.inj ok'
      have hfirst : ⟨0⟩ ∈ Signing.program.store.ids := by decide
      have hsecond : ⟨2⟩ ∈ Signing.program.store.ids := by decide
      obtain ⟨_, sweeps, modules⟩ :=
        (entry_immaterial Signing.registersNothing rfl hfirst hsecond).2 3 outcome _ 3 outcome'
          report houtcome ok houtcome' hverdict
      exact ⟨Signing.registersNothing, rfl, ⟨outcome, _, houtcome, ok, rfl, rfl⟩,
        outcome', report, houtcome', hverdict, names, sweeps, modules⟩

end Program

end PassEngine
