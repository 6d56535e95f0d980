import PassEngine.Proofs.Run.Step

/-!
# What a run may cost

A refresh leaves at most the scope of the table pending, and an execution takes one pass away, so
that the executions are paid for by the refreshes. Under a limit on the refreshes this ends every
run, and it tells exactly how often the rules were consulted when the limit is what ended it.
-/

namespace PassEngine

variable {ρ τ : Type}

namespace Engine

variable [DecidableEq ρ] {engine : Engine ρ} {suite : PassSuite ρ τ} {subject : Subject}
  {run : Run ρ τ}

/-! ## Counting -/

theorem length_executions_step (pending : run.agenda.toList ≠ []) :
    (engine.step suite subject run).executions.length = run.executions.length + 1 := by
  refine step_induction (P := fun after => after.executions.length = run.executions.length + 1)
    pending ?_ ?_
  · intro pass rest _
    rw [executions_execute, List.length_append]
    rfl
  · intro executed h
    rw [executions_refresh, h]

/-- As long as a run goes on, every step executes a pass. -/
theorem length_executions_of_running {tree : τ} {store : ModuleStore τ} (fuel : Nat)
    (running : (engine.run suite fuel subject tree store).status = .running) :
    (engine.run suite fuel subject tree store).executions.length = fuel := by
  induction fuel with
  | zero => rfl
  | succ fuel ih =>
      have before := running_of_le (Nat.le_succ fuel) running
      rw [run_succ_of_running before, length_executions_step (pending_of_running fuel before),
        ih before]

/-! ## Refreshes pay for executions -/

/-- Executions and pending passes together are within what the refreshes may have queued. -/
structure Budget (engine : Engine ρ) (run : Run ρ τ) : Prop where
  counted : run.refreshes = run.events.countP Event.isRefresh
  scope : run.agenda.toList ⊆ engine.table.scope engine.settings
  paid : run.executions.length + run.agenda.size ≤
    run.refreshes * (engine.table.scope engine.settings).length

theorem scope_refresh (h : run.agenda.toList ⊆ engine.table.scope engine.settings) :
    (engine.refresh run).agenda.toList ⊆ engine.table.scope engine.settings := by
  intro pass hpass
  rw [agenda_refresh, RuleTable.mem_refresh] at hpass
  rcases hpass with pending | eligible
  · exact h pending
  · exact engine.table.eligible_subset_scope run.tags engine.settings eligible

theorem budget_refresh (h : Budget engine run) : Budget engine (engine.refresh run) where
  counted := by
    rw [refreshes_refresh, h.counted]
    simp [Run.events, Event.isRefresh]
  scope := scope_refresh h.scope
  paid := by
    have hsize := Agenda.size_le_of_subset (scope_refresh h.scope)
    have hpaid := h.paid
    rw [executions_refresh, refreshes_refresh, Nat.succ_mul]
    omega

theorem budget_execute {pass : ρ} {rest : Agenda ρ}
    (popped : run.agenda.pop? = some (pass, rest)) (h : Budget engine run) :
    Budget engine (execute suite subject pass { run with agenda := rest }) where
  counted := by
    rw [refreshes_execute, Run.events, past_execute]
    simpa [Run.events, Event.isRefresh] using h.counted
  scope := by
    intro other hother
    rw [agenda_execute] at hother
    apply h.scope
    rw [Agenda.toList_of_pop? popped]
    exact List.mem_cons_of_mem pass hother
  paid := by
    have hsize := Agenda.size_of_pop? popped
    have hpaid := h.paid
    rw [executions_execute, List.length_append, agenda_execute, refreshes_execute]
    change run.executions.length + 1 + rest.size ≤ run.refreshes * _
    omega

theorem budget_initial (engine : Engine ρ) (tree : τ) (store : ModuleStore τ) :
    Budget engine (Run.initial tree store) :=
  ⟨rfl, List.nil_subset _, Nat.zero_le _⟩

theorem budget_run (engine : Engine ρ) (suite : PassSuite ρ τ) (fuel : Nat) (subject : Subject)
    (tree : τ) (store : ModuleStore τ) :
    Budget engine (engine.run suite fuel subject tree store) :=
  run_induction (budget_initial engine tree store) (fun _ => budget_refresh)
    (fun _ _ _ => budget_execute) fuel

/-! ## Runs with room for so many refreshes -/

section Room

variable {tree : τ} {store : ModuleStore τ} {bound : Nat}

/-- If a run goes on only within a bound on its refreshes, so many refreshes pay for all of it, and
one more may find nothing to do. -/
theorem within_of_room
    (room : ∀ fuel, (engine.run suite fuel subject tree store).status = .running →
      (engine.run suite fuel subject tree store).refreshes ≤ bound) (fuel : Nat) :
    (engine.run suite fuel subject tree store).executions.length ≤
        bound * (engine.table.scope engine.settings).length ∧
      (engine.run suite fuel subject tree store).refreshes ≤ bound + 1 := by
  induction fuel with
  | zero => exact ⟨Nat.zero_le _, Nat.le_add_left 1 bound⟩
  | succ fuel ih =>
      by_cases running : (engine.run suite fuel subject tree store).status = .running
      · have pending := pending_of_running fuel running
        have hroom := room fuel running
        have hpaid := (budget_run engine suite fuel subject tree store).paid
        have hwidth := Nat.mul_le_mul_right (engine.table.scope engine.settings).length hroom
        have hpositive : 0 < (engine.run suite fuel subject tree store).agenda.size :=
          List.length_pos_iff.mpr pending
        rw [run_succ_of_running running, length_executions_step pending]
        refine ⟨by omega, ?_⟩
        rcases refreshes_step_cases pending with ⟨executed, hrefreshes, hstep⟩ | ⟨hrefreshes, _⟩
        · rw [hstep, refreshes_refresh, hrefreshes]
          exact Nat.succ_le_succ hroom
        · rw [hrefreshes]
          exact Nat.le_succ_of_le hroom
      · rw [run_of_stopped (Nat.le_succ fuel) running]
        exact ih

/-- Such a run has stopped when the passes that the refreshes pay for have been executed. -/
theorem stopped_of_room
    (room : ∀ fuel, (engine.run suite fuel subject tree store).status = .running →
      (engine.run suite fuel subject tree store).refreshes ≤ bound) :
    (engine.run suite (bound * (engine.table.scope engine.settings).length) subject tree
      store).status ≠ .running := by
  intro running
  have hcount := length_executions_of_running _ running
  have hpaid := (budget_run engine suite
    (bound * (engine.table.scope engine.settings).length) subject tree store).paid
  have hwidth := Nat.mul_le_mul_right (engine.table.scope engine.settings).length
    (room _ running)
  have hpositive := List.length_pos_iff.mpr (pending_of_running _ running)
  unfold Agenda.size at hpaid
  omega

end Room

/-! ## Under a limit -/

/-- A run under a limit: only a refresh that leaves nothing to do, or that ends the run, may go
beyond it. -/
structure WithinLimit (engine : Engine ρ) (limit : Nat) (run : Run ρ τ) : Prop where
  executions : run.executions.length ≤ limit * (engine.table.scope engine.settings).length
  refreshes : run.refreshes ≤ limit + 1
  running : run.status = .running → run.refreshes ≤ limit
  paced : run.refreshes ≤ run.executions.length + 1
  capped : ∀ reached, run.status = .capped reached →
    reached = limit ∧ limit < run.refreshes ∧ run.agenda.toList ≠ []

theorem withinLimit_start {limit : Nat} (limited : engine.settings.refreshLimit = some limit)
    (tree : τ) (store : ModuleStore τ) : WithinLimit engine limit (engine.start tree store) where
  executions := Nat.zero_le _
  refreshes := Nat.le_add_left 1 limit
  running := by
    intro running
    exact (running_refresh_iff.mp running).2 limit limited
  paced := Nat.le_refl 1
  capped := by
    intro reached h
    obtain ⟨hne, hlimit, hlt⟩ := capped_refresh_iff.mp h
    rw [limited] at hlimit
    cases hlimit
    exact ⟨rfl, hlt, hne⟩

theorem withinLimit_step {limit : Nat} (limited : engine.settings.refreshLimit = some limit)
    (budget : Budget engine run) (running : run.status = .running)
    (pending : run.agenda.toList ≠ []) (h : WithinLimit engine limit run) :
    WithinLimit engine limit (engine.step suite subject run) := by
  have hexecutions : (engine.step suite subject run).executions.length =
      run.executions.length + 1 := length_executions_step pending
  have hroom := h.running running
  have hpositive : 0 < run.agenda.size := List.length_pos_iff.mpr pending
  have hpaid := budget.paid
  have hwidth := Nat.mul_le_mul_right (engine.table.scope engine.settings).length hroom
  have hpaced := h.paced
  rcases refreshes_step_cases pending with
    ⟨executed, hrefreshes, hstep⟩ | ⟨hrefreshes, hstatus⟩
  · have hcount : (engine.step suite subject run).refreshes = run.refreshes + 1 := by
      rw [hstep, refreshes_refresh, hrefreshes]
    refine ⟨by omega, by omega, ?_, by omega, ?_⟩
    · intro next
      rw [hstep] at next ⊢
      exact (running_refresh_iff.mp next).2 limit limited
    · intro reached hcapped
      rw [hstep] at hcapped ⊢
      obtain ⟨hne, hlimit, hlt⟩ := capped_refresh_iff.mp hcapped
      rw [limited] at hlimit
      cases hlimit
      exact ⟨rfl, hlt, hne⟩
  · refine ⟨by omega, by omega, ?_, by omega, ?_⟩
    · intro _
      rw [hrefreshes]
      exact hroom
    · intro reached hcapped
      rcases hstatus with going | ⟨fault, failed⟩
      · rw [going] at hcapped
        cases hcapped
      · rw [failed] at hcapped
        cases hcapped

theorem withinLimit_run (engine : Engine ρ) (suite : PassSuite ρ τ) (fuel : Nat)
    (subject : Subject) (tree : τ) (store : ModuleStore τ) {limit : Nat}
    (limited : engine.settings.refreshLimit = some limit) :
    WithinLimit engine limit (engine.run suite fuel subject tree store) := by
  induction fuel with
  | zero => exact withinLimit_start limited tree store
  | succ fuel ih =>
      by_cases running : (engine.run suite fuel subject tree store).status = .running
      · rw [run_succ_of_running running]
        exact withinLimit_step limited (budget_run engine suite fuel subject tree store) running
          (pending_of_running fuel running) ih
      · rw [run_of_stopped (Nat.le_succ fuel) running]
        exact ih

/-- After as many steps as the limit can pay for, a run has stopped. -/
theorem stopped_of_limit (suite : PassSuite ρ τ) (subject : Subject) (tree : τ)
    (store : ModuleStore τ) {limit : Nat} (limited : engine.settings.refreshLimit = some limit) :
    (engine.run suite (limit * (engine.table.scope engine.settings).length) subject tree
      store).status ≠ .running :=
  stopped_of_room fun fuel =>
    (withinLimit_run engine suite fuel subject tree store limited).running

/-- A limit ends every run within a bound on its executions and refreshes, and when the limit is
what ended it, both are bounded from below as well. -/
theorem terminates_under_limit (engine : Engine ρ) (suite : PassSuite ρ τ) (subject : Subject)
    (tree : τ) (store : ModuleStore τ) {limit : Nat}
    (limited : engine.settings.refreshLimit = some limit) :
    let bound := limit * (engine.table.scope engine.settings).length
    (∃ verdict,
      (engine.run suite bound subject tree store).verdict? suite subject = some verdict) ∧
    ∀ fuel, let run := engine.run suite fuel subject tree store
      run.executions.length ≤ bound ∧ run.refreshes ≤ limit + 1 ∧
      run.refreshes = run.events.countP Event.isRefresh ∧
      ∀ reached, run.status = .capped reached →
        run.refreshes = limit + 1 ∧ limit ≤ run.executions.length ∧ run.agenda.toList ≠ [] ∧
        run.verdict? suite subject = some (.error (.refreshLimit subject.name limit)) := by
  refine ⟨?_, ?_⟩
  · apply Option.isSome_iff_exists.mp
    rw [Option.isSome_iff_ne_none, ne_eq, Run.verdict?_eq_none_iff]
    exact stopped_of_limit suite subject tree store limited
  · intro fuel run
    have within := withinLimit_run engine suite fuel subject tree store limited
    refine ⟨within.executions, within.refreshes,
      (budget_run engine suite fuel subject tree store).counted, ?_⟩
    intro reached hcapped
    obtain ⟨rfl, hlt, hne⟩ := within.capped reached hcapped
    have hrefreshes : run.refreshes ≤ reached + 1 := within.refreshes
    have hpaced : run.refreshes ≤ run.executions.length + 1 := within.paced
    have hbeyond : reached < run.refreshes := hlt
    refine ⟨by omega, by omega, hne, ?_⟩
    simp only [Run.verdict?, hcapped]

/-- Two refreshes are not enough for a tree of three, and the third one ends the run. -/
theorem terminates_under_limit_folding :
    let engine := Folding.engine 2 (by decide)
    let run := engine.run Folding.suite 4 Folding.subject 3 .empty
    engine.settings.refreshLimit = some 2 ∧
      (engine.table.scope engine.settings).length = 2 ∧
      run.status = .capped 2 ∧ run.refreshes = 3 ∧ 2 ≤ run.executions.length := by
  intro engine run
  have limited : engine.settings.refreshLimit = some 2 := rfl
  have capped : run.status = .capped 2 := by decide
  obtain ⟨_, bounds⟩ :=
    terminates_under_limit engine Folding.suite Folding.subject 3 .empty limited
  obtain ⟨hrefreshes, hexecutions, _⟩ := (bounds 4).2.2.2 2 capped
  exact ⟨limited, by decide, capped, hrefreshes, hexecutions⟩

end Engine

end PassEngine
