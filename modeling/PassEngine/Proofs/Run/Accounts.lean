import PassEngine.Proofs.Attempt
import PassEngine.Proofs.Run.Nominations

/-!
# What a report accounts for

The report of a run that settled lists the executions and counts the refreshes. Both are read off
the steps of the run here: step by step the pass at the front is executed, and the rules are
consulted after it if it was the last one pending or emitted the tag for new code. The last refresh
queues nothing, so that all executions are paid for by the refreshes before it.
-/

namespace PassEngine

variable {ρ τ : Type}

namespace Engine

/-- The tags that the next pass of a run emits, in order, repetitions included. -/
def emissions (suite : PassSuite ρ τ) (subject : Subject) (run : Run ρ τ) : List Tag :=
  (heard suite subject run).filterMap Exchange.tag?

/-- Whether the next pass of a run leaves nothing pending or emits the tag for new code. -/
def prompts (suite : PassSuite ρ τ) (subject : Subject) (run : Run ρ τ) : Bool :=
  (midway suite subject run).agenda.isEmpty || (emissions suite subject run).contains newCode

variable {suite : PassSuite ρ τ} {subject : Subject} {run : Run ρ τ} {pass : ρ} {rest : Agenda ρ}

/-! ## One step -/

theorem emitted_execution (popped : run.agenda.pop? = some (pass, rest)) :
    (execution suite subject pass run).emitted = emissions suite subject run := by
  unfold emissions heard
  rw [popped]
  exact Dialogue.emitted_perform (suite.apply pass subject run.tree)
    { tags := run.tags, store := run.store }

theorem prompts_iff (popped : run.agenda.pop? = some (pass, rest)) (fresh : newCode ∉ run.tags) :
    prompts suite subject run = true ↔
      rest.toList = [] ∨
        newCode ∈ (execute suite subject pass { run with agenda := rest }).tags := by
  have emitted : newCode ∈ (execute suite subject pass { run with agenda := rest }).tags ↔
      newCode ∈ emissions suite subject run := by
    rw [tags_execute, TagSet.mem_insertAll, ← emitted_execution popped]
    exact or_iff_left fresh
  rw [emitted]
  simp [prompts, midway_of_pop? popped]

variable [DecidableEq ρ] {engine : Engine ρ}

theorem executions_step (popped : run.agenda.pop? = some (pass, rest)) :
    (engine.step suite subject run).executions =
      run.executions ++ [execution suite subject pass run] := by
  have pending : run.agenda.toList ≠ [] := by simp [Agenda.toList_of_pop? popped]
  refine step_induction
    (P := fun after => after.executions = run.executions ++ [execution suite subject pass run])
    pending ?_ ?_
  · intro front others popped'
    cases popped.symm.trans popped'
    exact executions_execute suite subject pass { run with agenda := rest }
  · intro executed h
    rw [executions_refresh, h]

theorem fresh_step (pending : run.agenda.toList ≠ [])
    (running : (engine.step suite subject run).status = .running) :
    newCode ∉ (engine.step suite subject run).tags := by
  obtain ⟨pass, rest, _, ⟨⟨fault, failed⟩, hstep⟩ | ⟨_, _, quiet, hstep⟩ | ⟨_, _, hstep⟩⟩ :=
    step_cases suite subject run engine pending
  · rw [hstep, failed] at running
    cases running
  · rw [hstep]
    exact quiet
  · rw [hstep]
    exact TagSet.not_mem_empty newCode

/-- Unless the next pass gives up, the rules are consulted after it exactly if it prompts that. -/
theorem refreshes_step (pending : run.agenda.toList ≠ []) (fresh : newCode ∉ run.tags)
    (unfailed : ∀ fault, (engine.step suite subject run).status ≠ .failed fault) :
    (engine.step suite subject run).refreshes =
      run.refreshes + if prompts suite subject run then 1 else 0 := by
  obtain ⟨pass, rest, popped, ⟨⟨fault, failed⟩, hstep⟩ | ⟨_, hrest, quiet, hstep⟩ |
      ⟨_, consult, hstep⟩⟩ := step_cases suite subject run engine pending
  · rw [hstep] at unfailed
    exact absurd failed (unfailed fault)
  · have silent : ¬ prompts suite subject run = true := by
      rw [prompts_iff popped fresh]
      exact not_or.mpr ⟨hrest, quiet⟩
    rw [hstep, refreshes_execute, if_neg silent, Nat.add_zero]
  · rw [hstep, refreshes_refresh, refreshes_execute,
      if_pos ((prompts_iff popped fresh).mpr consult)]

/-! ## Whole runs -/

section Whole

variable {tree : τ} {store : ModuleStore τ} {count fuel : Nat}

/-- No pass runs while the tag for new code waits for a refresh. -/
theorem fresh_of_running (fuel : Nat)
    (running : (engine.run suite fuel subject tree store).status = .running) :
    newCode ∉ (engine.run suite fuel subject tree store).tags := by
  refine run_invariant (P := fun run => run.status = .running → newCode ∉ run.tags)
    ?_ ?_ fuel running
  · intro _
    exact TagSet.not_mem_empty newCode
  · intro run _ pending _ next
    exact fresh_step pending next

/-- One step, one execution: that of the pass at the front. -/
theorem executions_run
    (running : ∀ k < count, (engine.run suite k subject tree store).status = .running) :
    (engine.run suite count subject tree store).executions.length = count ∧
      ∀ k < count, ∃ pass rest,
        (engine.run suite k subject tree store).agenda.pop? = some (pass, rest) ∧
        (engine.run suite count subject tree store).executions[k]? =
          some (execution suite subject pass (engine.run suite k subject tree store)) := by
  induction count with
  | zero => exact ⟨rfl, by simp⟩
  | succ count ih =>
      obtain ⟨length, earlier⟩ := ih fun k hk => running k (Nat.lt_succ_of_lt hk)
      have going := running count (Nat.lt_succ_self count)
      obtain ⟨pass, rest, popped⟩ := Agenda.exists_pop (pending_of_running count going)
      rw [run_succ_of_running going, executions_step popped]
      refine ⟨by simp [length], ?_⟩
      intro k hk
      rcases Nat.lt_succ_iff_lt_or_eq.mp hk with before | rfl
      · obtain ⟨pass, rest, popped, executed⟩ := earlier k before
        refine ⟨pass, rest, popped, ?_⟩
        rw [List.getElem?_append_left (by omega)]
        exact executed
      · refine ⟨pass, rest, popped, ?_⟩
        rw [List.getElem?_append_right (by omega), length, Nat.sub_self]
        rfl

/-- The rules were consulted at the start and after each pass that prompted it. -/
theorem refreshes_run
    (running : ∀ k < count, (engine.run suite k subject tree store).status = .running)
    (unfailed : ∀ fault, (engine.run suite count subject tree store).status ≠ .failed fault) :
    (engine.run suite count subject tree store).refreshes = 1 +
      (List.range count).countP fun k =>
        prompts suite subject (engine.run suite k subject tree store) := by
  induction count with
  | zero => rfl
  | succ count ih =>
      have going := running count (Nat.lt_succ_self count)
      have before := ih (fun k hk => running k (Nat.lt_succ_of_lt hk)) (by simp [going])
      rw [run_succ_of_running going] at unfailed ⊢
      rw [refreshes_step (pending_of_running count going) (fresh_of_running count going) unfailed,
        before, List.range_succ, List.countP_append, List.countP_singleton, Nat.add_assoc]

/-- A run settles with a refresh. -/
theorem refresh_of_settled
    (settled : (engine.run suite fuel subject tree store).status = .settled) :
    ∃ before, Budget engine before ∧
      engine.run suite fuel subject tree store = engine.refresh before := by
  refine (run_induction (P := fun run => Budget engine run ∧ (run.status = .settled →
    ∃ before, Budget engine before ∧ run = engine.refresh before)) ?_ ?_ ?_ fuel).2 settled
  · refine ⟨budget_initial engine tree store, ?_⟩
    intro settled
    cases settled
  · intro run ⟨budget, _⟩
    exact ⟨budget_refresh budget, fun _ => ⟨run, budget, rfl⟩⟩
  · intro run pass rest popped ⟨budget, _⟩
    refine ⟨budget_execute popped budget, ?_⟩
    intro settled
    exact absurd settled (not_settled_execute suite subject pass _)

/-- The last refresh queues nothing, so the refreshes before it pay for all executions. -/
theorem paid_of_settled
    (settled : (engine.run suite fuel subject tree store).status = .settled) :
    (engine.run suite fuel subject tree store).executions.length ≤
      ((engine.run suite fuel subject tree store).refreshes - 1) *
        (engine.table.scope engine.settings).length := by
  obtain ⟨before, budget, hrun⟩ := refresh_of_settled settled
  rw [hrun, executions_refresh, refreshes_refresh, Nat.add_sub_cancel]
  exact Nat.le_trans (Nat.le_add_right _ _) budget.paid

end Whole

/-! ## Reports -/

/-- The report tells step by step what the run did: it was going before each of so many steps as
the report lists passes, and had settled after them. -/
structure AccountsFor (report : ModuleReport) (engine : Engine ρ) (suite : PassSuite ρ τ)
    (moment : Nat → Run ρ τ) (subject : Subject) : Prop where
  about : report.subject = subject
  running : ∀ k < report.total, (moment k).status = .running
  settled : (moment report.total).status = .settled
  /-- The pass at the front runs, while the tag for new code does not wait for a refresh, and is
  reported by its name and the number of its emissions. -/
  passes : ∀ k < report.total, newCode ∉ (moment k).tags ∧
    ∃ pass rest, (moment k).agenda.pop? = some (pass, rest) ∧
      report.passes[k]? = some ⟨suite.name pass, (emissions suite subject (moment k)).length⟩
  refreshes : report.refreshes =
    1 + (List.range report.total).countP fun k => prompts suite subject (moment k)
  paced : report.refreshes - 1 ≤ report.total
  paid : report.total ≤ (report.refreshes - 1) * (engine.table.scope engine.settings).length
  limited : ∀ limit, engine.settings.refreshLimit = some limit → report.refreshes ≤ limit + 1

/-- The report of a run that settled accounts for the run. -/
theorem report_accounts (engine : Engine ρ) (suite : PassSuite ρ τ) (fuel : Nat)
    (subject : Subject) (tree : τ) (store : ModuleStore τ) {report : ModuleReport}
    (ok : (engine.run suite fuel subject tree store).verdict? suite subject = some (.ok report)) :
    AccountsFor report engine suite (engine.run suite · subject tree store) subject := by
  obtain ⟨settled, rfl⟩ := Run.verdict?_eq_ok_iff.mp ok
  obtain ⟨count, _, running, hrun⟩ := exists_stop (by rw [settled]; simp)
  rw [← hrun] at settled ⊢
  obtain ⟨length, executed⟩ := executions_run running
  have total :
      ((engine.run suite count subject tree store).report suite subject).total = count := by
    simp [ModuleReport.total, Run.report, length]
  have refreshes := refreshes_run running (by simp [settled])
  have paid := paid_of_settled settled
  rw [length] at paid
  exact
    { about := rfl
      running := by
        rw [total]
        exact running
      settled := by
        rw [total]
        exact settled
      passes := by
        intro k hk
        rw [total] at hk
        obtain ⟨pass, rest, popped, hexecution⟩ := executed k hk
        refine ⟨fresh_of_running k (running k hk), pass, rest, popped, ?_⟩
        rw [← emitted_execution popped]
        simp [Run.report, hexecution, Execution.report, execution]
      refreshes := by
        rw [total]
        exact refreshes
      paced := by
        rw [total]
        show (engine.run suite count subject tree store).refreshes - 1 ≤ count
        rw [refreshes, Nat.add_sub_cancel_left]
        exact Nat.le_trans List.countP_le_length (Nat.le_of_eq List.length_range)
      paid := by
        rw [total]
        exact paid
      limited := by
        intro limit limited
        exact (withinLimit_run engine suite count subject tree store limited).refreshes }

end Engine

/-! ## A suite that repeats itself -/

namespace Folding

/-- The suite, but a pass that changes the tree says so once more. -/
def insistent : PassSuite Bool Nat where
  name := suite.name
  apply unrolls subject tree := (suite.apply unrolls subject tree).bind fun (verdict, changed) =>
    if changed = tree then .done (verdict, changed)
    else .emit "new_constant" fun _ => .done (verdict, changed)

/-- The report on a tree of three. -/
def report : ModuleReport :=
  ⟨subject, [⟨"unroll", 1⟩, ⟨"fold", 2⟩, ⟨"unroll", 0⟩, ⟨"fold", 2⟩, ⟨"fold", 2⟩, ⟨"fold", 0⟩], 6⟩

end Folding

namespace Engine

/-- The refresh that settles the run is one more than the limit allows. -/
theorem report_accounts_folding :
    let engine := Folding.engine 5 (by decide)
    let moment := fun fuel => engine.run Folding.insistent fuel Folding.subject 3 .empty
    (moment 6).verdict? Folding.insistent Folding.subject = some (.ok Folding.report) ∧
      AccountsFor Folding.report engine Folding.insistent moment Folding.subject ∧
      Folding.report.refreshes = 5 + 1 := by
  intro engine moment
  have ok : (moment 6).verdict? Folding.insistent Folding.subject = some (.ok Folding.report) := by
    decide
  exact ⟨ok, report_accounts engine Folding.insistent 6 Folding.subject 3 .empty ok, rfl⟩

end Engine

end PassEngine
