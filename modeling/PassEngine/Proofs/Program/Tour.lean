import Mathlib.Data.List.Perm.Subperm
import PassEngine.Program
import PassEngine.Proofs.Attempt

/-!
# What a tour does to a program

Every part of a call goes on from the tour that the part before it left, or ends with its fault:
this is `Tour.andThen`. What a part adds to the finished modules is what it adds to the reports,
and every program that calls have led to has finished only modules that are registered, each once.
-/

namespace PassEngine

variable {ρ τ : Type}

/-! ## Identities of a store -/

namespace ModuleStore

theorem mem_ids {store : ModuleStore τ} {id : ModuleId} :
    id ∈ store.ids ↔ id.index < store.size := by
  obtain ⟨index⟩ := id
  simp [ids]

theorem ids_nodup (store : ModuleStore τ) : store.ids.Nodup := by
  refine List.Pairwise.map ModuleId.mk ?_ List.nodup_range
  intro first second hne h
  exact hne (ModuleId.mk.inj h)

theorem length_ids (store : ModuleStore τ) : store.ids.length = store.size := by
  simp [ids]

theorem length_le_size {store : ModuleStore τ} {list : List ModuleId} (nodup : list.Nodup)
    (registered : ∀ id ∈ list, id.index < store.size) : list.length ≤ store.size := by
  rw [← store.length_ids]
  exact (nodup.subperm fun id hid => mem_ids.mpr (registered id hid)).length_le

end ModuleStore

namespace Tour

/-! ## One part after the other -/

section AndThen

variable {α : Type} {first first' : Option (Except Fault Unit × Tour ρ τ)}
  {next next' : Tour ρ τ → Option (Except Fault α × Tour ρ τ)} {result : Except Fault α × Tour ρ τ}

/-- Go on from where the first part ended, unless it ended with a fault. -/
def andThen (first : Option (Except Fault Unit × Tour ρ τ))
    (next : Tour ρ τ → Option (Except Fault α × Tour ρ τ)) :
    Option (Except Fault α × Tour ρ τ) :=
  match first with
  | none => none
  | some (.error fault, tour) => some (.error fault, tour)
  | some (.ok (), tour) => next tour

theorem andThen_ok (tour : Tour ρ τ) : andThen (some (.ok (), tour)) next = next tour := rfl

theorem andThen_assoc {middle : Tour ρ τ → Option (Except Fault Unit × Tour ρ τ)} :
    andThen (andThen first middle) next = andThen first fun tour => andThen (middle tour) next := by
  cases first with
  | none => rfl
  | some outcome =>
      obtain ⟨verdict, tour⟩ := outcome
      cases verdict with
      | error fault => rfl
      | ok value => rfl

theorem andThen_cases (h : andThen first next = some result) :
    (∃ fault tour, first = some (.error fault, tour) ∧ result = (.error fault, tour)) ∨
      ∃ tour, first = some (.ok (), tour) ∧ next tour = some result := by
  cases first with
  | none => cases h
  | some outcome =>
      obtain ⟨verdict, tour⟩ := outcome
      cases verdict with
      | error fault =>
          cases h
          exact Or.inl ⟨fault, tour, rfl, rfl⟩
      | ok value => exact Or.inr ⟨tour, rfl, h⟩

theorem andThen_eq_ok_iff {value : α} {last : Tour ρ τ} :
    andThen first next = some (.ok value, last) ↔
      ∃ tour, first = some (.ok (), tour) ∧ next tour = some (.ok value, last) := by
  constructor
  · intro h
    rcases andThen_cases h with ⟨fault, tour, _, hresult⟩ | ⟨tour, hfirst, hnext⟩
    · cases hresult
    · exact ⟨tour, hfirst, hnext⟩
  · rintro ⟨tour, hfirst, hnext⟩
    rw [hfirst, andThen_ok, hnext]

theorem andThen_congr (h : ∀ tour, first = some (.ok (), tour) → next tour = next' tour) :
    andThen first next = andThen first next' := by
  cases first with
  | none => rfl
  | some outcome =>
      obtain ⟨verdict, tour⟩ := outcome
      cases verdict with
      | error fault => rfl
      | ok value => exact h tour rfl

theorem andThen_mono (hfirst : ∀ outcome, first = some outcome → first' = some outcome)
    (hnext : ∀ tour, next tour = some result → next' tour = some result)
    (h : andThen first next = some result) : andThen first' next' = some result := by
  rcases andThen_cases h with ⟨fault, tour, hfault, rfl⟩ | ⟨tour, hok, hrest⟩
  · rw [hfirst _ hfault]
    rfl
  · rw [hfirst _ hok]
    exact hnext tour hrest

end AndThen

/-! ## Advances -/

/-- What a part of a call did: the modules that it finished, latest first, are new among the
finished ones, and the same modules are new among the reports. -/
structure Advances (tour : Tour ρ τ) (fresh : List ModuleId) (next : Tour ρ τ) : Prop where
  size : tour.program.store.size ≤ next.program.store.size
  done : next.program.done = fresh ++ tour.program.done
  reported : next.reports.map (·.subject.id) = fresh ++ tour.reports.map (·.subject.id)
  registered : ∀ id ∈ fresh, id.index < next.program.store.size
  unfinished : ∀ id ∈ fresh, id ∉ tour.program.done
  nodup : fresh.Nodup

variable {tour middle next : Tour ρ τ} {fresh later : List ModuleId} {id : ModuleId}

theorem Advances.refl (tour : Tour ρ τ) : Advances tour [] tour :=
  ⟨Nat.le_refl _, rfl, rfl, by simp, by simp, List.nodup_nil⟩

theorem Advances.trans (h : Advances tour fresh middle) (h' : Advances middle later next) :
    Advances tour (later ++ fresh) next where
  size := Nat.le_trans h.size h'.size
  done := by rw [h'.done, h.done, List.append_assoc]
  reported := by rw [h'.reported, h.reported, List.append_assoc]
  registered := by
    intro id hid
    rcases List.mem_append.mp hid with hlater | hfresh
    · exact h'.registered id hlater
    · exact Nat.lt_of_lt_of_le (h.registered id hfresh) h'.size
  unfinished := by
    intro id hid
    rcases List.mem_append.mp hid with hlater | hfresh
    · have hnot := h'.unfinished id hlater
      rw [h.done, List.mem_append, not_or] at hnot
      exact hnot.2
    · exact h.unfinished id hfresh
  nodup := by
    rw [List.nodup_append]
    refine ⟨h'.nodup, h.nodup, ?_⟩
    rintro id hlater other hfresh rfl
    have hnot := h'.unfinished id hlater
    rw [h.done, List.mem_append, not_or] at hnot
    exact hnot.1 hfresh

theorem Advances.finished_iff (h : Advances tour fresh next) :
    next.program.finished id = true ↔ id ∈ fresh ∨ tour.program.finished id = true := by
  simp [Program.finished, h.done]

theorem Advances.unfinished_iff (h : Advances tour fresh next) :
    next.program.finished id = false ↔ id ∉ fresh ∧ tour.program.finished id = false := by
  rw [← Bool.not_eq_true, ← Bool.not_eq_true, h.finished_iff, not_or]

theorem Advances.length_reports (h : Advances tour fresh next) :
    next.reports.length = fresh.length + tour.reports.length := by
  have hlength := congrArg List.length h.reported
  simpa using hlength

/-! ## Visits -/

/-- The tour after an attempt that went well. -/
def complete (tour : Tour ρ τ) (id : ModuleId) (attempt : Attempt ρ τ) (report : ModuleReport) :
    Tour ρ τ :=
  let program :=
    { tour.program with store := attempt.store, done := id :: tour.program.done }
  { program
    reports := report :: tour.reports
    visits := ⟨attempt.transcript, some program.pending⟩ :: tour.visits }

/-- The tour after an attempt that came to a fault. -/
def abandon (tour : Tour ρ τ) (attempt : Attempt ρ τ) : Tour ρ τ :=
  { tour with
    program := { tour.program with store := attempt.store }
    visits := ⟨attempt.transcript, none⟩ :: tour.visits }

variable [DecidableEq ρ] {suite : PassSuite ρ τ} {fuel : Nat} {verdict : Except Fault Unit}

theorem visit_of_finished (finished : tour.program.finished id = true) :
    tour.visit suite fuel id = some (.ok (), tour) := by
  unfold visit
  rw [if_pos finished]

/-- A visit to an unfinished module is an attempt. -/
theorem visit_of_unfinished (unfinished : tour.program.finished id = false) :
    tour.visit suite fuel id =
      (tour.program.engine.attempt suite fuel id tour.program.store).map fun attempt =>
        match attempt.verdict with
        | .error fault => (.error fault, tour.abandon attempt)
        | .ok report => (.ok (), tour.complete id attempt report) := by
  unfold visit
  rw [if_neg (by simp [unfinished])]
  rfl

theorem attempt_of_visit (unfinished : tour.program.finished id = false)
    (h : tour.visit suite fuel id = some (verdict, next)) :
    ∃ attempt, tour.program.engine.attempt suite fuel id tour.program.store = some attempt ∧
      ((∃ fault, attempt.verdict = .error fault ∧ verdict = .error fault ∧
          next = tour.abandon attempt) ∨
        ∃ report, attempt.verdict = .ok report ∧ verdict = .ok () ∧
          next = tour.complete id attempt report) := by
  rw [visit_of_unfinished unfinished] at h
  obtain ⟨attempt, hattempt, hresult⟩ := Option.map_eq_some_iff.mp h
  refine ⟨attempt, hattempt, ?_⟩
  cases hverdict : attempt.verdict with
  | error fault =>
      simp only [hverdict] at hresult
      cases hresult
      exact Or.inl ⟨fault, rfl, rfl, rfl⟩
  | ok report =>
      simp only [hverdict] at hresult
      cases hresult
      exact Or.inr ⟨report, rfl, rfl, rfl⟩

theorem completed_of_visit (unfinished : tour.program.finished id = false)
    (h : tour.visit suite fuel id = some (.ok (), next)) :
    ∃ attempt report,
      tour.program.engine.attempt suite fuel id tour.program.store = some attempt ∧
        attempt.verdict = .ok report ∧ next = tour.complete id attempt report := by
  obtain ⟨attempt, hattempt, ⟨fault, _, hfault, _⟩ | ⟨report, ok, _, hnext⟩⟩ :=
    attempt_of_visit unfinished h
  · cases hfault
  · exact ⟨attempt, report, hattempt, ok, hnext⟩

theorem abandoned_of_visit {fault : Fault} (unfinished : tour.program.finished id = false)
    (h : tour.visit suite fuel id = some (.error fault, next)) :
    ∃ attempt, tour.program.engine.attempt suite fuel id tour.program.store = some attempt ∧
      attempt.verdict = .error fault ∧ next = tour.abandon attempt := by
  obtain ⟨attempt, hattempt, ⟨fault', failed, hfault, hnext⟩ | ⟨report, _, ok, _⟩⟩ :=
    attempt_of_visit unfinished h
  · cases hfault
    exact ⟨attempt, hattempt, failed, hnext⟩
  · cases ok

theorem advances_abandon {attempt : Attempt ρ τ}
    (h : tour.program.engine.attempt suite fuel id tour.program.store = some attempt) :
    Advances tour [] (tour.abandon attempt) where
  size := Engine.size_le_attempt h
  done := rfl
  reported := rfl
  registered := by simp
  unfinished := by simp
  nodup := List.nodup_nil

theorem advances_complete {attempt : Attempt ρ τ} {report : ModuleReport}
    (unfinished : tour.program.finished id = false)
    (h : tour.program.engine.attempt suite fuel id tour.program.store = some attempt)
    (ok : attempt.verdict = .ok report) :
    Advances tour [id] (tour.complete id attempt report) where
  size := Engine.size_le_attempt h
  done := rfl
  reported := by
    have hid := (Engine.attempt_of_ok h ok).2
    exact congrArg (· :: tour.reports.map (·.subject.id)) hid
  registered := by
    intro other hother
    cases List.mem_singleton.mp hother
    exact Nat.lt_of_lt_of_le (Engine.attempt_of_ok h ok).1 (Engine.size_le_attempt h)
  unfinished := by
    intro other hother
    cases List.mem_singleton.mp hother
    simpa [Program.finished] using unfinished
  nodup := by simp

/-- A visit leaves a finished module alone, ends with a fault, or finishes the module. -/
theorem visit_cases (h : tour.visit suite fuel id = some (verdict, next)) :
    (tour.program.finished id = true ∧ verdict = .ok () ∧ next = tour) ∨
      (tour.program.finished id = false ∧ (∃ fault, verdict = .error fault) ∧
        Advances tour [] next) ∨
      (tour.program.finished id = false ∧ verdict = .ok () ∧ Advances tour [id] next) := by
  cases hfinished : tour.program.finished id with
  | true =>
      rw [visit_of_finished hfinished] at h
      cases h
      exact Or.inl ⟨rfl, rfl, rfl⟩
  | false =>
      obtain ⟨attempt, hattempt, ⟨fault, _, hverdict, rfl⟩ | ⟨report, ok, hverdict, rfl⟩⟩ :=
        attempt_of_visit hfinished h
      · exact Or.inr (Or.inl ⟨rfl, ⟨fault, hverdict⟩, advances_abandon hattempt⟩)
      · exact Or.inr (Or.inr ⟨rfl, hverdict, advances_complete hfinished hattempt ok⟩)

theorem advances_visit (h : tour.visit suite fuel id = some (verdict, next)) :
    ∃ fresh, Advances tour fresh next := by
  rcases visit_cases h with ⟨_, _, rfl⟩ | ⟨_, _, advances⟩ | ⟨_, _, advances⟩
  · exact ⟨[], Advances.refl next⟩
  · exact ⟨[], advances⟩
  · exact ⟨[id], advances⟩

theorem visit_ok_cases (h : tour.visit suite fuel id = some (.ok (), next)) :
    (tour.program.finished id = true ∧ next = tour) ∨
      (tour.program.finished id = false ∧ Advances tour [id] next) := by
  rcases visit_cases h with
    ⟨finished, _, same⟩ | ⟨_, ⟨fault, hfault⟩, _⟩ | ⟨unfinished, _, advances⟩
  · exact Or.inl ⟨finished, same⟩
  · cases hfault
  · exact Or.inr ⟨unfinished, advances⟩

theorem finished_of_visit (h : tour.visit suite fuel id = some (.ok (), next)) :
    next.program.finished id = true := by
  rcases visit_ok_cases h with ⟨finished, rfl⟩ | ⟨_, advances⟩
  · exact finished
  · exact advances.finished_iff.mpr (Or.inl (List.mem_singleton_self id))

/-! ## Visits in a row -/

@[simp] theorem visitAll_nil : visitAll suite fuel [] tour = some (.ok (), tour) := rfl

theorem visitAll_cons {rest : List ModuleId} :
    visitAll suite fuel (id :: rest) tour =
      andThen (tour.visit suite fuel id) (visitAll suite fuel rest) := by
  rw [visitAll]
  cases tour.visit suite fuel id with
  | none => rfl
  | some outcome =>
      obtain ⟨verdict, next⟩ := outcome
      cases verdict with
      | error fault => rfl
      | ok value => rfl

theorem visitAll_cons_ok_iff {rest : List ModuleId} :
    visitAll suite fuel (id :: rest) tour = some (.ok (), next) ↔
      ∃ middle, tour.visit suite fuel id = some (.ok (), middle) ∧
        visitAll suite fuel rest middle = some (.ok (), next) := by
  rw [visitAll_cons, andThen_eq_ok_iff]

theorem visitAll_append (first second : List ModuleId) (tour : Tour ρ τ) :
    visitAll suite fuel (first ++ second) tour =
      andThen (visitAll suite fuel first tour) (visitAll suite fuel second) := by
  induction first generalizing tour with
  | nil => rfl
  | cons id rest ih =>
      rw [List.cons_append, visitAll_cons, visitAll_cons, andThen_assoc]
      exact andThen_congr fun next _ => ih next

theorem visitAll_of_finished {ids : List ModuleId}
    (finished : ∀ id ∈ ids, tour.program.finished id = true) :
    visitAll suite fuel ids tour = some (.ok (), tour) := by
  induction ids with
  | nil => rfl
  | cons id rest ih =>
      rw [visitAll_cons, visit_of_finished (finished id List.mem_cons_self), andThen_ok]
      exact ih fun other hother => finished other (List.mem_cons_of_mem id hother)

theorem advances_visitAll {ids : List ModuleId}
    (h : visitAll suite fuel ids tour = some (verdict, next)) :
    ∃ fresh, Advances tour fresh next := by
  induction ids generalizing tour with
  | nil =>
      cases h
      exact ⟨[], Advances.refl next⟩
  | cons id rest ih =>
      rw [visitAll_cons] at h
      rcases andThen_cases h with ⟨fault, middle, hvisit, hresult⟩ | ⟨middle, hvisit, hrest⟩
      · cases hresult
        exact advances_visit hvisit
      · obtain ⟨fresh, advances⟩ := advances_visit hvisit
        obtain ⟨later, further⟩ := ih hrest
        exact ⟨later ++ fresh, advances.trans further⟩

theorem finished_of_visitAll {ids : List ModuleId}
    (h : visitAll suite fuel ids tour = some (.ok (), next)) (hid : id ∈ ids) :
    next.program.finished id = true := by
  induction ids generalizing tour with
  | nil => cases hid
  | cons first rest ih =>
      obtain ⟨middle, hvisit, hrest⟩ := visitAll_cons_ok_iff.mp h
      rcases List.mem_cons.mp hid with rfl | hlater
      · obtain ⟨fresh, advances⟩ := advances_visitAll hrest
        exact advances.finished_iff.mpr (Or.inr (finished_of_visit hvisit))
      · exact ih hrest hlater

/-- Visits that end well either found nothing to do or have something to report. -/
theorem eq_or_reports_lt_of_visitAll {ids : List ModuleId}
    (h : visitAll suite fuel ids tour = some (.ok (), next)) :
    next = tour ∨ tour.reports.length < next.reports.length := by
  induction ids generalizing tour with
  | nil =>
      cases h
      exact Or.inl rfl
  | cons id rest ih =>
      obtain ⟨middle, hvisit, hrest⟩ := visitAll_cons_ok_iff.mp h
      rcases visit_ok_cases hvisit with ⟨_, rfl⟩ | ⟨_, advances⟩
      · exact ih hrest
      · obtain ⟨later, further⟩ := advances_visitAll hrest
        have hfirst := advances.length_reports
        have hlater := further.length_reports
        rw [List.length_singleton] at hfirst
        exact Or.inr (by omega)

/-! ## Sweeps -/

theorem sweeps_succ (bound before : Nat) (tour : Tour ρ τ) :
    sweeps suite fuel (bound + 1) before tour =
      andThen (tour.sweep suite fuel) fun swept =>
        if swept.reports.length = tour.reports.length then some (.ok (before + 1), swept)
        else sweeps suite fuel bound (before + 1) swept := by
  rw [sweeps]
  cases tour.sweep suite fuel with
  | none => rfl
  | some outcome =>
      obtain ⟨verdict, swept⟩ := outcome
      cases verdict with
      | error fault => rfl
      | ok value => rfl

theorem advances_sweeps {bound before : Nat} {count : Except Fault Nat}
    (h : sweeps suite fuel bound before tour = some (count, next)) :
    ∃ fresh, Advances tour fresh next := by
  induction bound generalizing before tour with
  | zero => cases h
  | succ bound ih =>
      rw [sweeps_succ] at h
      rcases andThen_cases h with ⟨fault, swept, hsweep, hresult⟩ | ⟨swept, hsweep, hrest⟩
      · cases hresult
        exact advances_visitAll hsweep
      · obtain ⟨fresh, advances⟩ := advances_visitAll hsweep
        by_cases idle : swept.reports.length = tour.reports.length
        · rw [if_pos idle] at hrest
          cases hrest
          exact ⟨fresh, advances⟩
        · rw [if_neg idle] at hrest
          obtain ⟨later, further⟩ := ih hrest
          exact ⟨later ++ fresh, advances.trans further⟩

/-! ## More fuel -/

section Fuel

variable {more : Nat} {outcome : Except Fault Unit × Tour ρ τ}

theorem visit_of_le (le : fuel ≤ more) (h : tour.visit suite fuel id = some outcome) :
    tour.visit suite more id = some outcome := by
  cases hfinished : tour.program.finished id with
  | true =>
      rw [visit_of_finished hfinished] at h ⊢
      exact h
  | false =>
      rw [visit_of_unfinished hfinished] at h ⊢
      obtain ⟨attempt, hattempt, hresult⟩ := Option.map_eq_some_iff.mp h
      rw [Engine.attempt_of_le le hattempt, Option.map_some, hresult]

theorem visitAll_of_le {ids : List ModuleId} (le : fuel ≤ more)
    (h : visitAll suite fuel ids tour = some outcome) :
    visitAll suite more ids tour = some outcome := by
  induction ids generalizing tour with
  | nil => exact h
  | cons id rest ih =>
      rw [visitAll_cons] at h ⊢
      exact andThen_mono (fun _ => visit_of_le le) (fun _ => ih) h

theorem sweeps_of_le {bound wider before : Nat} {result : Except Fault Nat × Tour ρ τ}
    (le : fuel ≤ more) (wide : bound ≤ wider)
    (h : sweeps suite fuel bound before tour = some result) :
    sweeps suite more wider before tour = some result := by
  induction bound generalizing wider before tour with
  | zero => cases h
  | succ bound ih =>
      cases wider with
      | zero => omega
      | succ wider =>
          rw [sweeps_succ] at h ⊢
          refine andThen_mono (fun _ => visitAll_of_le le) ?_ h
          intro swept hswept
          by_cases idle : swept.reports.length = tour.reports.length
          · rw [if_pos idle] at hswept ⊢
            exact hswept
          · rw [if_neg idle] at hswept ⊢
            exact ih (Nat.le_of_succ_le_succ wide) hswept

end Fuel

end Tour

/-! ## Programs that calls lead to -/

namespace Program

/-- Every finished module is registered, and none was finished twice. -/
structure Sound (program : Program ρ τ) : Prop where
  registered : ∀ id ∈ program.done, id.index < program.store.size
  nodup : program.done.Nodup

theorem Sound.advance {tour next : Tour ρ τ} {fresh : List ModuleId} (sound : Sound tour.program)
    (h : Tour.Advances tour fresh next) : Sound next.program where
  registered := by
    intro id hid
    rw [h.done] at hid
    rcases List.mem_append.mp hid with hfresh | hdone
    · exact h.registered id hfresh
    · exact Nat.lt_of_lt_of_le (sound.registered id hdone) h.size
  nodup := by
    rw [h.done, List.nodup_append]
    refine ⟨h.nodup, sound.nodup, ?_⟩
    rintro id hfresh other hdone rfl
    exact h.unfinished id hfresh hdone

/-- When all modules are finished, as many are finished as are registered. -/
theorem Sound.length_done {program : Program ρ τ} (sound : Sound program)
    (all : ∀ id ∈ program.store.ids, program.finished id = true) :
    program.done.length = program.store.size := by
  have covered : program.store.ids ⊆ program.done := by
    intro id hid
    simpa [finished] using all id hid
  have hle := ModuleStore.length_le_size sound.nodup sound.registered
  have hge := (program.store.ids_nodup.subperm covered).length_le
  rw [ModuleStore.length_ids] at hge
  omega

variable [DecidableEq ρ] {suite : PassSuite ρ τ}

theorem optimize_eq (program : Program ρ τ) (suite : PassSuite ρ τ) (fuel : Nat)
    (entry : ModuleId) :
    program.optimize suite fuel entry =
      (Tour.andThen (({ program } : Tour ρ τ).visit suite fuel entry)
        (Tour.sweeps suite fuel fuel 0)).map Tour.conclude := by
  unfold optimize
  cases ({ program } : Tour ρ τ).visit suite fuel entry with
  | none => rfl
  | some outcome =>
      obtain ⟨verdict, tour⟩ := outcome
      cases verdict with
      | error fault => rfl
      | ok value => rfl

/-- A call that ends well visited its entry and swept. -/
theorem sweeps_of_optimize {program : Program ρ τ} {fuel : Nat} {entry : ModuleId}
    {outcome : ProgramOutcome ρ τ} {report : ProgramReport}
    (h : program.optimize suite fuel entry = some outcome) (ok : outcome.verdict = .ok report) :
    ∃ start last, ({ program } : Tour ρ τ).visit suite fuel entry = some (.ok (), start) ∧
      Tour.sweeps suite fuel fuel 0 start = some (.ok report.sweeps, last) ∧
      outcome.program = last.program ∧ report.modules = last.reports.reverse := by
  rw [optimize_eq] at h
  obtain ⟨⟨count, last⟩, hcall, rfl⟩ := Option.map_eq_some_iff.mp h
  cases count with
  | error fault => cases ok
  | ok sweeps =>
      cases ok
      obtain ⟨start, hvisit, hsweeps⟩ := Tour.andThen_eq_ok_iff.mp hcall
      exact ⟨start, last, hvisit, hsweeps, rfl, rfl⟩

/-- More fuel does not change what a call comes to. -/
theorem optimize_of_le {program : Program ρ τ} {fuel more : Nat} {entry : ModuleId}
    {outcome : ProgramOutcome ρ τ} (le : fuel ≤ more)
    (h : program.optimize suite fuel entry = some outcome) :
    program.optimize suite more entry = some outcome := by
  rw [optimize_eq] at h ⊢
  obtain ⟨result, hcall, hresult⟩ := Option.map_eq_some_iff.mp h
  rw [Tour.andThen_mono (fun _ => Tour.visit_of_le le) (fun _ => Tour.sweeps_of_le le le) hcall,
    Option.map_some, hresult]

/-- The programs that calls on a new program lead to, whatever the calls come to. -/
inductive Reachable (suite : PassSuite ρ τ) : Program ρ τ → Prop where
  | fresh (engine : Engine ρ) (store : ModuleStore τ) : Reachable suite { engine, store }
  | call {program : Program ρ τ} {outcome : ProgramOutcome ρ τ} (fuel : Nat) (entry : ModuleId) :
      Reachable suite program → program.optimize suite fuel entry = some outcome →
        Reachable suite outcome.program

theorem Sound.optimize {program : Program ρ τ} {fuel : Nat} {entry : ModuleId}
    {outcome : ProgramOutcome ρ τ} (sound : Sound program)
    (h : program.optimize suite fuel entry = some outcome) : Sound outcome.program := by
  rw [optimize_eq] at h
  obtain ⟨⟨count, last⟩, hcall, rfl⟩ := Option.map_eq_some_iff.mp h
  have start : Sound ({ program } : Tour ρ τ).program := sound
  rcases Tour.andThen_cases hcall with ⟨fault, tour, hvisit, hresult⟩ | ⟨tour, hvisit, hsweeps⟩
  · cases hresult
    obtain ⟨fresh, advances⟩ := Tour.advances_visit hvisit
    exact start.advance advances
  · obtain ⟨fresh, advances⟩ := Tour.advances_visit hvisit
    obtain ⟨later, further⟩ := Tour.advances_sweeps hsweeps
    exact (start.advance advances).advance further

theorem Reachable.sound {program : Program ρ τ} (h : Reachable suite program) :
    Sound program := by
  induction h with
  | fresh engine store => exact ⟨by simp, List.nodup_nil⟩
  | call fuel entry _ hcall ih => exact ih.optimize hcall

end Program

/-! ## A small program -/

namespace Importing

/-- The only pass registers the module that a tree names, if it names one. -/
def suite : PassSuite Unit (Option String) where
  name _ := "import"
  apply _ _ tree :=
    match tree with
    | none => .done (.ok (), tree)
    | some name => .register name none fun _ => .done (.ok (), tree)

def table : RuleTable Unit where
  rules := [.ofPredicate "new_code" [()]]
  wellFormed := RuleTable.wellFormed_singleton ⟨by decide, by decide⟩

/-- The second module leads to a third one. -/
def program : Program Unit (Option String) where
  engine := ⟨table, Settings.default, Settings.valid_default⟩
  store := (ModuleStore.singleton "util" none).append "main" (some "late") (by decide)

end Importing

end PassEngine
