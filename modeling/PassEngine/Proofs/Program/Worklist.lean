import PassEngine.Proofs.Program.Tour

/-!
# Sweeps and a worklist

A call sweeps over modules that were registered before the sweep began. It might as well go
through all positions once, as long as there is a module at the next one: then the positions
below the next one are finished, each sweep goes over the positions that the one before it left,
and a sweep that finds nothing to do is the end.
-/

namespace PassEngine

variable {ρ τ : Type}

/-! ## Intervals of identities -/

namespace ModuleId

/-- The identities of so many modules, from a position on. -/
def interval (first count : Nat) : List ModuleId := (List.range' first count).map ModuleId.mk

@[simp] theorem interval_zero (first : Nat) : interval first 0 = [] := rfl

theorem interval_succ (first count : Nat) :
    interval first (count + 1) = ⟨first⟩ :: interval (first + 1) count := rfl

theorem interval_add (first count more : Nat) :
    interval first (count + more) = interval first count ++ interval (first + count) more := by
  unfold interval
  rw [← List.map_append, List.range'_append_1]

theorem lt_of_mem_interval {first count : Nat} {id : ModuleId} (h : id ∈ interval first count) :
    id.index < first + count := by
  obtain ⟨index, hindex, rfl⟩ := List.mem_map.mp h
  exact (List.mem_range'_1.mp hindex).2

end ModuleId

theorem ModuleStore.ids_eq_interval (store : ModuleStore τ) :
    store.ids = ModuleId.interval 0 store.size := by
  unfold ids ModuleId.interval
  rw [List.range_eq_range']

/-! ## The worklist -/

/-- What a call comes to, apart from the number of its sweeps. -/
structure Observed (ρ τ : Type) where
  reports : Except Fault (List ModuleReport)
  program : Program ρ τ
  visits : List (Visit ρ)

def ProgramOutcome.observed (outcome : ProgramOutcome ρ τ) : Observed ρ τ :=
  ⟨outcome.verdict.map ProgramReport.modules, outcome.program, outcome.visits⟩

def Tour.observed (result : Except Fault Unit × Tour ρ τ) : Observed ρ τ :=
  ⟨result.1.map fun _ => result.2.reports.reverse, result.2.program, result.2.visits.reverse⟩

variable [DecidableEq ρ]

/-- Visit the modules from a position on, as long as there is one at the next position, and so
also those that are registered on the way. -/
def Tour.scan (suite : PassSuite ρ τ) (fuel : Nat) :
    Nat → Nat → Tour ρ τ → Option (Except Fault Unit × Tour ρ τ)
  | 0, _, _ => none
  | bound + 1, index, tour =>
      if index < tour.program.store.size then
        andThen (tour.visit suite fuel ⟨index⟩) (scan suite fuel bound (index + 1))
      else some (.ok (), tour)

/-- Optimize the entry and then every module in the order of registration. -/
def Program.worklist (program : Program ρ τ) (suite : PassSuite ρ τ) (fuel : Nat)
    (entry : ModuleId) : Option (Observed ρ τ) :=
  (Tour.andThen (({ program } : Tour ρ τ).visit suite fuel entry)
    (Tour.scan suite fuel fuel 0)).map Tour.observed

namespace Tour

variable {suite : PassSuite ρ τ} {fuel index : Nat} {tour last : Tour ρ τ}

theorem scan_of_lt_size (bound : Nat) (h : index < tour.program.store.size) :
    scan suite fuel (bound + 1) index tour =
      andThen (tour.visit suite fuel ⟨index⟩) (scan suite fuel bound (index + 1)) := by
  rw [scan, if_pos h]

theorem scan_of_size_le (bound : Nat) (h : tour.program.store.size ≤ index) :
    scan suite fuel (bound + 1) index tour = some (.ok (), tour) := by
  rw [scan, if_neg (Nat.not_lt.mpr h)]

theorem scan_of_le {more bound wider : Nat} {result : Except Fault Unit × Tour ρ τ}
    (le : fuel ≤ more) (wide : bound ≤ wider) (h : scan suite fuel bound index tour = some result) :
    scan suite more wider index tour = some result := by
  induction bound generalizing wider index tour with
  | zero => cases h
  | succ bound ih =>
      cases wider with
      | zero => omega
      | succ wider =>
          rcases Nat.lt_or_ge index tour.program.store.size with hlt | hge
          · rw [scan_of_lt_size _ hlt] at h ⊢
            exact andThen_mono (fun _ => visit_of_le le)
              (fun _ => ih (Nat.le_of_succ_le_succ wide)) h
          · rw [scan_of_size_le _ hge] at h ⊢
            exact h

/-! ## Cutting the worklist into sweeps -/

theorem scan_interval {count : Nat} (bound : Nat) (h : index + count ≤ tour.program.store.size) :
    scan suite fuel (count + bound) index tour =
      andThen (visitAll suite fuel (ModuleId.interval index count) tour)
        (scan suite fuel bound (index + count)) := by
  induction count generalizing index tour with
  | zero =>
      rw [Nat.zero_add, ModuleId.interval_zero, visitAll_nil, andThen_ok]
      rfl
  | succ count ih =>
      have hlt : index < tour.program.store.size := by omega
      have hsteps : count + 1 + bound = count + bound + 1 := by omega
      have hnext : index + (count + 1) = index + 1 + count := by omega
      rw [hsteps, scan_of_lt_size _ hlt, ModuleId.interval_succ, visitAll_cons, andThen_assoc,
        hnext]
      apply andThen_congr
      intro next hvisit
      obtain ⟨fresh, advances⟩ := advances_visit hvisit
      have hsize := advances.size
      exact ih (by omega)

/-- Going through positions that are taken ends with a fault, or goes on from where the visits to
these positions ended. -/
theorem scan_cases {count steps : Nat} {verdict : Except Fault Unit}
    (h : scan suite fuel steps index tour = some (verdict, last))
    (le : index + count ≤ tour.program.store.size) :
    (∃ fault, verdict = .error fault ∧
        visitAll suite fuel (ModuleId.interval index count) tour = some (.error fault, last)) ∨
      ∃ next rest, steps = count + rest ∧
        visitAll suite fuel (ModuleId.interval index count) tour = some (.ok (), next) ∧
        scan suite fuel rest (index + count) next = some (verdict, last) := by
  induction count generalizing index tour steps with
  | zero => exact Or.inr ⟨tour, steps, (Nat.zero_add steps).symm, rfl, h⟩
  | succ count ih =>
      have hlt : index < tour.program.store.size := by omega
      have hnext : index + (count + 1) = index + 1 + count := by omega
      cases steps with
      | zero => cases h
      | succ steps =>
          rw [scan_of_lt_size _ hlt] at h
          rw [ModuleId.interval_succ, visitAll_cons, hnext]
          rcases andThen_cases h with ⟨fault, middle, hvisit, hresult⟩ | ⟨middle, hvisit, hrest⟩
          · cases hresult
            rw [hvisit]
            exact Or.inl ⟨fault, rfl, rfl⟩
          · obtain ⟨fresh, advances⟩ := advances_visit hvisit
            have hsize := advances.size
            rw [hvisit, andThen_ok]
            rcases ih hrest (by omega) with hfault | ⟨next, rest, hsteps, hvisits, hscan⟩
            · exact Or.inl hfault
            · exact Or.inr ⟨next, rest, by omega, hvisits, hscan⟩

/-- A sweep passes over the positions below which all is finished. -/
theorem sweep_eq (below : ∀ id, id.index < index → tour.program.finished id = true)
    (le : index ≤ tour.program.store.size) :
    tour.sweep suite fuel =
      visitAll suite fuel (ModuleId.interval index (tour.program.store.size - index)) tour := by
  obtain ⟨count, hcount⟩ := Nat.exists_eq_add_of_le le
  have hwidth : tour.program.store.size - index = count := by omega
  have hbelow : ∀ id ∈ ModuleId.interval 0 index, tour.program.finished id = true := by
    intro id hid
    have hlt := ModuleId.lt_of_mem_interval hid
    exact below id (by omega)
  unfold sweep
  rw [hwidth, ModuleStore.ids_eq_interval, hcount, ModuleId.interval_add, visitAll_append,
    visitAll_of_finished hbelow, andThen_ok, Nat.zero_add]

theorem finished_of_sweep {swept : Tour ρ τ} (h : tour.sweep suite fuel = some (.ok (), swept)) :
    (∀ id, id.index < tour.program.store.size → swept.program.finished id = true) ∧
      tour.program.store.size ≤ swept.program.store.size := by
  obtain ⟨fresh, advances⟩ := advances_visitAll h
  refine ⟨?_, advances.size⟩
  intro id hid
  exact finished_of_visitAll h (ModuleStore.mem_ids.mpr hid)

theorem scan_of_sweeps {bound before : Nat} {count : Except Fault Nat}
    (h : sweeps suite fuel bound before tour = some (count, last))
    (below : ∀ id, id.index < index → tour.program.finished id = true)
    (le : index ≤ tour.program.store.size) :
    ∃ steps, scan suite fuel steps index tour = some (count.map fun _ => (), last) := by
  induction bound generalizing before index tour with
  | zero => cases h
  | succ bound ih =>
      rw [sweeps_succ] at h
      have hwidth : index + (tour.program.store.size - index) = tour.program.store.size := by omega
      -- up to the size that the sweep began with, the worklist does what the sweep does
      have hscan : ∀ rest, scan suite fuel (tour.program.store.size - index + rest) index tour =
          andThen (tour.sweep suite fuel) (scan suite fuel rest tour.program.store.size) := by
        intro rest
        rw [scan_interval rest (Nat.le_of_eq hwidth), sweep_eq below le, hwidth]
      rcases andThen_cases h with ⟨fault, swept, hsweep, hresult⟩ | ⟨swept, hsweep, hrest⟩
      · cases hresult
        refine ⟨tour.program.store.size - index + 0, ?_⟩
        rw [hscan, hsweep]
        rfl
      · by_cases idle : swept.reports.length = tour.reports.length
        · rw [if_pos idle] at hrest
          cases hrest
          refine ⟨tour.program.store.size - index + 1, ?_⟩
          rw [hscan, hsweep, andThen_ok]
          rcases eq_or_reports_lt_of_visitAll hsweep with rfl | grown
          · exact scan_of_size_le 0 (Nat.le_refl _)
          · omega
        · rw [if_neg idle] at hrest
          obtain ⟨hbelow, hle⟩ := finished_of_sweep hsweep
          obtain ⟨steps, hsteps⟩ := ih hrest hbelow hle
          refine ⟨tour.program.store.size - index + steps, ?_⟩
          rw [hscan, hsweep, andThen_ok]
          exact hsteps

theorem sweeps_of_scan {steps : Nat} {verdict : Except Fault Unit}
    (h : scan suite fuel steps index tour = some (verdict, last))
    (below : ∀ id, id.index < index → tour.program.finished id = true)
    (le : index ≤ tour.program.store.size) (before : Nat) :
    ∃ bound count, sweeps suite fuel bound before tour = some (count, last) ∧
      (count.map fun _ => ()) = verdict := by
  induction steps using Nat.strongRecOn generalizing index tour before with
  | ind steps ih =>
      have hwidth : index + (tour.program.store.size - index) = tour.program.store.size := by omega
      rcases scan_cases h (Nat.le_of_eq hwidth) with
        ⟨fault, rfl, hvisits⟩ | ⟨swept, rest, hsteps, hvisits, hrest⟩
      · rw [← sweep_eq below le] at hvisits
        refine ⟨1, .error fault, ?_, rfl⟩
        rw [sweeps_succ, hvisits]
        rfl
      · have hsweep := hvisits
        rw [← sweep_eq below le] at hsweep
        rw [hwidth] at hrest
        by_cases idle : swept.reports.length = tour.reports.length
        · rcases eq_or_reports_lt_of_visitAll hsweep with rfl | grown
          · cases rest with
            | zero => cases hrest
            | succ rest =>
                rw [scan_of_size_le rest (Nat.le_refl _)] at hrest
                cases hrest
                refine ⟨1, .ok (before + 1), ?_, rfl⟩
                rw [sweeps_succ, hsweep, andThen_ok, if_pos rfl]
          · omega
        -- a sweep that finishes something uses up steps, so that the induction on them goes on
        · have hprogress : 0 < tour.program.store.size - index := by
            rcases Nat.eq_zero_or_pos (tour.program.store.size - index) with hzero | hpositive
            · rw [hzero] at hvisits
              cases hvisits
              exact absurd rfl idle
            · exact hpositive
          obtain ⟨hbelow, hle⟩ := finished_of_sweep hsweep
          obtain ⟨bound, count, hsweeps, hcount⟩ := ih rest (by omega) hrest hbelow hle (before + 1)
          refine ⟨bound + 1, count, ?_, hcount⟩
          rw [sweeps_succ, hsweep, andThen_ok, if_neg idle]
          exact hsweeps

/-! ## What the worklist finishes -/

/-- A worklist that comes to its end has finished, in order and each once, the modules from the
position on that were not finished. -/
theorem advances_scan {bound : Nat}
    (h : scan suite fuel bound index tour = some (.ok (), last)) :
    ∃ fresh : List ModuleId, Advances tour fresh.reverse last ∧
      fresh.Pairwise (fun first second => first.before second = true) ∧
      ∀ id, id ∈ fresh ↔ index ≤ id.index ∧ id.index < last.program.store.size ∧
        tour.program.finished id = false := by
  induction bound generalizing index tour with
  | zero => cases h
  | succ bound ih =>
      rcases Nat.lt_or_ge index tour.program.store.size with hlt | hge
      · rw [scan_of_lt_size _ hlt] at h
        obtain ⟨middle, hvisit, hrest⟩ := andThen_eq_ok_iff.mp h
        obtain ⟨later, further, sorted, hmem⟩ := ih hrest
        rcases visit_ok_cases hvisit with ⟨finished, rfl⟩ | ⟨unfinished, advances⟩
        · refine ⟨later, further, sorted, ?_⟩
          intro id
          rw [hmem]
          constructor
          · rintro ⟨hindex, hsize, hid⟩
            exact ⟨by omega, hsize, hid⟩
          · rintro ⟨hindex, hsize, hid⟩
            have hne : id.index ≠ index := by
              rintro rfl
              rw [finished] at hid
              cases hid
            exact ⟨by omega, hsize, hid⟩
        · have hsize := Nat.le_trans advances.size further.size
          refine ⟨⟨index⟩ :: later, ?_, ?_, ?_⟩
          · rw [List.reverse_cons]
            exact advances.trans further
          · refine List.pairwise_cons.mpr ⟨?_, sorted⟩
            intro id hid
            have hlater := ((hmem id).mp hid).1
            exact decide_eq_true hlater
          · intro id
            rw [List.mem_cons, hmem, advances.unfinished_iff, List.mem_singleton]
            constructor
            · rintro (rfl | ⟨hindex, hbound, _, hid⟩)
              · exact ⟨Nat.le_refl _, Nat.lt_of_lt_of_le hlt hsize, unfinished⟩
              · exact ⟨by omega, hbound, hid⟩
            · rintro ⟨hindex, hbound, hid⟩
              by_cases hhere : id = ⟨index⟩
              · exact Or.inl hhere
              · have hne : id.index ≠ index := by
                  rintro rfl
                  exact hhere rfl
                exact Or.inr ⟨by omega, hbound, hhere, hid⟩
      · rw [scan_of_size_le _ hge] at h
        cases h
        refine ⟨[], Advances.refl last, List.Pairwise.nil, ?_⟩
        intro id
        constructor
        · intro hid
          cases hid
        · rintro ⟨hindex, hsize, _⟩
          omega

end Tour

namespace Program

variable {suite : PassSuite ρ τ} {program : Program ρ τ} {entry : ModuleId}

omit [DecidableEq ρ] in
theorem finished_below_zero (tour : Tour ρ τ) :
    ∀ id : ModuleId, id.index < 0 → tour.program.finished id = true := by
  intro id hid
  exact absurd hid (Nat.not_lt_zero _)

omit [DecidableEq ρ] in
theorem observed_conclude (count : Except Fault Nat) (tour : Tour ρ τ) :
    (Tour.conclude (count, tour)).observed = Tour.observed (count.map fun _ => (), tour) := by
  cases count with
  | error fault => rfl
  | ok sweeps => rfl

theorem worklist_of_optimize {fuel : Nat} {outcome : ProgramOutcome ρ τ}
    (h : program.optimize suite fuel entry = some outcome) :
    ∃ more, program.worklist suite more entry = some outcome.observed := by
  rw [optimize_eq] at h
  obtain ⟨⟨count, last⟩, hcall, rfl⟩ := Option.map_eq_some_iff.mp h
  rcases Tour.andThen_cases hcall with ⟨fault, tour, hvisit, hresult⟩ | ⟨tour, hvisit, hsweeps⟩
  · cases hresult
    refine ⟨fuel, ?_⟩
    unfold worklist
    rw [hvisit]
    rfl
  · obtain ⟨steps, hscan⟩ := Tour.scan_of_sweeps hsweeps (finished_below_zero tour) (Nat.zero_le _)
    refine ⟨max fuel steps, ?_⟩
    unfold worklist
    rw [Tour.visit_of_le (Nat.le_max_left fuel steps) hvisit, Tour.andThen_ok,
      Tour.scan_of_le (Nat.le_max_left fuel steps) (Nat.le_max_right fuel steps) hscan,
      observed_conclude]
    rfl

theorem optimize_of_worklist {fuel : Nat} {observed : Observed ρ τ}
    (h : program.worklist suite fuel entry = some observed) :
    ∃ more, (program.optimize suite more entry).map ProgramOutcome.observed = some observed := by
  obtain ⟨⟨verdict, last⟩, hcall, rfl⟩ := Option.map_eq_some_iff.mp h
  rcases Tour.andThen_cases hcall with ⟨fault, tour, hvisit, hresult⟩ | ⟨tour, hvisit, hscan⟩
  · cases hresult
    refine ⟨fuel, ?_⟩
    rw [optimize_eq, hvisit]
    rfl
  · obtain ⟨bound, count, hsweeps, rfl⟩ :=
      Tour.sweeps_of_scan hscan (finished_below_zero tour) (Nat.zero_le _) 0
    refine ⟨max fuel bound, ?_⟩
    rw [optimize_eq, Tour.visit_of_le (Nat.le_max_left fuel bound) hvisit, Tour.andThen_ok,
      Tour.sweeps_of_le (Nat.le_max_left fuel bound) (Nat.le_max_right fuel bound) hsweeps,
      Option.map_some, Option.map_some, observed_conclude]

theorem scan_of_optimize {fuel : Nat} {outcome : ProgramOutcome ρ τ} {report : ProgramReport}
    (h : program.optimize suite fuel entry = some outcome) (ok : outcome.verdict = .ok report) :
    ∃ tour last steps, ({ program } : Tour ρ τ).visit suite fuel entry = some (.ok (), tour) ∧
      Tour.scan suite fuel steps 0 tour = some (.ok (), last) ∧ outcome.program = last.program ∧
      report.modules = last.reports.reverse := by
  obtain ⟨tour, last, hvisit, hsweeps, hprogram, hmodules⟩ := sweeps_of_optimize h ok
  obtain ⟨steps, hscan⟩ := Tour.scan_of_sweeps hsweeps (finished_below_zero tour) (Nat.zero_le _)
  exact ⟨tour, last, steps, hvisit, hscan, hprogram, hmodules⟩

/-- A call that ends well has finished all modules that are registered by then, the entry first
and the others in the order of registration. -/
theorem modules_of_optimize {fuel : Nat} {outcome : ProgramOutcome ρ τ} {report : ProgramReport}
    (h : program.optimize suite fuel entry = some outcome) (ok : outcome.verdict = .ok report) :
    (∀ id ∈ outcome.program.store.ids, outcome.program.finished id = true) ∧
      ∃ rest : List ModuleId,
        report.modules.map (·.subject.id) =
          (if program.finished entry then [] else [entry]) ++ rest ∧
        rest.Pairwise (fun first second => first.before second = true) ∧
        ∀ id, id ∈ rest ↔
          id ∈ outcome.program.store.ids ∧ id ≠ entry ∧ program.finished id = false := by
  obtain ⟨tour, last, steps, hvisit, hscan, hprogram, hmodules⟩ := scan_of_optimize h ok
  obtain ⟨rest, advances, sorted, hmem⟩ := Tour.advances_scan hscan
  have hreported : report.modules.map (·.subject.id) =
      (tour.reports.map (·.subject.id)).reverse ++ rest := by
    rw [hmodules, List.map_reverse, advances.reported, List.reverse_append, List.reverse_reverse]
  rw [hprogram]
  refine ⟨?_, rest, ?_⟩
  · intro id hid
    rw [advances.finished_iff, List.mem_reverse, hmem]
    cases hfinished : tour.program.finished id with
    | false => exact Or.inl ⟨Nat.zero_le _, ModuleStore.mem_ids.mp hid, rfl⟩
    | true => exact Or.inr rfl
  · rcases Tour.visit_ok_cases hvisit with ⟨finished, rfl⟩ | ⟨unfinished, entered⟩
    · have finished : program.finished entry = true := finished
      rw [if_pos finished]
      refine ⟨hreported, sorted, ?_⟩
      intro id
      rw [hmem, ModuleStore.mem_ids]
      constructor
      · rintro ⟨_, hsize, hid⟩
        refine ⟨hsize, ?_, hid⟩
        rintro rfl
        exact absurd (finished.symm.trans hid) (by simp)
      · rintro ⟨hsize, _, hid⟩
        exact ⟨Nat.zero_le _, hsize, hid⟩
    · have unfinished : program.finished entry = false := unfinished
      rw [if_neg (by simp [unfinished])]
      rw [entered.reported] at hreported
      refine ⟨hreported, sorted, ?_⟩
      intro id
      rw [hmem, entered.unfinished_iff, List.mem_singleton, ModuleStore.mem_ids]
      constructor
      · rintro ⟨_, hsize, hne, hid⟩
        exact ⟨hsize, hne, hid⟩
      · rintro ⟨hsize, hne, hid⟩
        exact ⟨Nat.zero_le _, hsize, hne, hid⟩

/-- A call does what the worklist does, and one that ends well leaves no module unfinished. -/
theorem sweeps_refine_worklist (reachable : Reachable suite program) (entry : ModuleId) :
    (∀ observed,
      (∃ fuel, (program.optimize suite fuel entry).map ProgramOutcome.observed = some observed) ↔
        ∃ fuel, program.worklist suite fuel entry = some observed) ∧
    ∀ fuel outcome report, program.optimize suite fuel entry = some outcome →
      outcome.verdict = .ok report →
      (∀ id ∈ outcome.program.store.ids, outcome.program.finished id = true) ∧
      outcome.program.done.length = outcome.program.store.size ∧
      outcome.program.pending = 0 ∧
      ∃ rest : List ModuleId,
        report.modules.map (·.subject.id) =
          (if program.finished entry then [] else [entry]) ++ rest ∧
        rest.Pairwise (fun first second => first.before second = true) ∧
        ∀ id, id ∈ rest ↔
          id ∈ outcome.program.store.ids ∧ id ≠ entry ∧ program.finished id = false := by
  refine ⟨?_, ?_⟩
  · intro observed
    constructor
    · rintro ⟨fuel, h⟩
      obtain ⟨outcome, houtcome, rfl⟩ := Option.map_eq_some_iff.mp h
      exact worklist_of_optimize houtcome
    · rintro ⟨fuel, h⟩
      exact optimize_of_worklist h
  · intro fuel outcome report h ok
    obtain ⟨all, modules⟩ := modules_of_optimize h ok
    have hlength := (reachable.sound.optimize h).length_done all
    refine ⟨all, hlength, ?_, modules⟩
    unfold pending
    omega

/-- The entry is the second module, and what it leads to comes after the first one. -/
theorem sweeps_refine_worklist_importing :
    Reachable Importing.suite Importing.program ∧
      ∃ outcome report,
        Importing.program.optimize Importing.suite 3 ⟨1⟩ = some outcome ∧
        outcome.verdict = .ok report ∧
        report.modules.map (·.subject.id) = [⟨1⟩, ⟨0⟩, ⟨2⟩] ∧
        outcome.program.pending = 0 ∧
        ∃ fuel, Importing.program.worklist Importing.suite fuel ⟨1⟩ = some outcome.observed := by
  have reachable : Reachable Importing.suite Importing.program := Reachable.fresh _ _
  have settled : (Importing.program.optimize Importing.suite 3 ⟨1⟩).map (·.verdict) =
      some (.ok ⟨[⟨⟨⟨1⟩, "main"⟩, [⟨"import", 0⟩], 2⟩, ⟨⟨⟨0⟩, "util"⟩, [⟨"import", 0⟩], 2⟩,
        ⟨⟨⟨2⟩, "late"⟩, [⟨"import", 0⟩], 2⟩], 2⟩) := by decide
  obtain ⟨outcome, houtcome, hverdict⟩ := Option.map_eq_some_iff.mp settled
  obtain ⟨refines, finishes⟩ := sweeps_refine_worklist reachable ⟨1⟩
  refine ⟨reachable, outcome, _, houtcome, hverdict, rfl, ?_, ?_⟩
  · exact (finishes 3 outcome _ houtcome hverdict).2.2.1
  · exact (refines outcome.observed).mp ⟨3, by rw [houtcome, Option.map_some]⟩

end Program

end PassEngine
