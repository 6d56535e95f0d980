import PassEngine.Proofs.Program.Failure
import PassEngine.Proofs.Run.Budget
import PassEngine.Proofs.Run.Chronicle

/-!
# Runaway passes

A pass that emits new code whenever it is executed, and that new code makes eligible, is pending
again as soon as it has been executed: rules ask for the presence of tags only, so that nothing
emitted besides can take it off the agenda. Such a run never settles. Under a limit it comes to a
fault, and the module that it is about is never finished.
-/

namespace PassEngine

variable {ρ τ : Type}

/-- New code alone makes the pass eligible, and an execution of the pass on the subject emits new
code, unless the pass gives up. -/
structure Engine.RunsAway [DecidableEq ρ] (engine : Engine ρ) (suite : PassSuite ρ τ)
    (subject : Subject) (pass : ρ) : Prop where
  triggered : pass ∈ engine.table.eligible (TagSet.ofList [newCode]) engine.settings
  restarts : ∀ tree tags store,
    let result := (suite.apply pass subject tree).perform { tags, store }
    result.1.1 = .ok () → newCode ∈ result.2.emitted

section

variable [DecidableEq ρ] {engine : Engine ρ} {suite : PassSuite ρ τ} {subject : Subject} {pass : ρ}
  {fuel : Nat}

/-! ## Runs -/

namespace Engine

variable {run : Run ρ τ} {tree : τ} {store : ModuleStore τ}

theorem RunsAway.newCode_mem (runaway : engine.RunsAway suite subject pass)
    (going : (execute suite subject pass run).status = .running) :
    newCode ∈ (execute suite subject pass run).tags := by
  have emitted := runaway.restarts run.tree run.tags run.store
    ((running_execute_iff suite subject pass run).mp going)
  rw [tags_execute]
  exact TagSet.mem_insertAll.mpr (Or.inl (List.mem_reverse.mpr emitted))

theorem RunsAway.eligible (runaway : engine.RunsAway suite subject pass) {tags : TagSet}
    (heard : newCode ∈ tags) : pass ∈ engine.table.eligible tags engine.settings := by
  refine engine.table.eligible_mono engine.settings ?_ runaway.triggered
  intro tag htag
  cases List.mem_singleton.mp (TagSet.mem_ofList.mp htag)
  exact heard

/-- The pass stays pending until its turn comes, and its execution queues it again. -/
theorem RunsAway.pending_step (runaway : engine.RunsAway suite subject pass)
    (pending : pass ∈ run.agenda.toList) :
    pass ∈ (engine.step suite subject run).agenda.toList ∨
      ∃ fault, (engine.step suite subject run).status = .failed fault := by
  obtain ⟨front, rest, popped, ⟨failed, hstep⟩ | ⟨going, _, silent, hstep⟩ | ⟨going, _, hstep⟩⟩ :=
    step_cases suite subject run engine (List.ne_nil_of_mem pending)
  · rw [hstep]
    exact Or.inr failed
  · rw [Agenda.toList_of_pop? popped] at pending
    rw [hstep, agenda_execute]
    rcases List.mem_cons.mp pending with rfl | behind
    · exact absurd (runaway.newCode_mem going) silent
    · exact Or.inl behind
  · rw [Agenda.toList_of_pop? popped] at pending
    rw [hstep, agenda_refresh, RuleTable.mem_refresh]
    rcases List.mem_cons.mp pending with rfl | behind
    · exact Or.inl (Or.inr (runaway.eligible (runaway.newCode_mem going)))
    · exact Or.inl (Or.inl behind)

theorem RunsAway.pending_run (runaway : engine.RunsAway suite subject pass) (fuel : Nat) :
    pass ∈ (engine.run suite fuel subject tree store).agenda.toList ∨
      ∃ fault, (engine.run suite fuel subject tree store).status = .failed fault := by
  refine run_invariant
    (P := fun run => pass ∈ run.agenda.toList ∨ ∃ fault, run.status = .failed fault) ?_ ?_ fuel
  · unfold Engine.start
    rw [agenda_refresh, RuleTable.mem_refresh]
    exact Or.inl (Or.inr runaway.triggered)
  · rintro run running _ (pending | ⟨fault, failed⟩)
    · exact runaway.pending_step pending
    · rw [running] at failed
      cases failed

theorem RunsAway.not_settled (runaway : engine.RunsAway suite subject pass) (fuel : Nat) :
    (engine.run suite fuel subject tree store).status ≠ .settled := by
  intro settled
  rcases runaway.pending_run fuel with pending | ⟨fault, failed⟩
  · rw [(quiet_of_settled engine suite subject tree store fuel settled).2.1] at pending
    cases pending
  · rw [settled] at failed
    cases failed

theorem RunsAway.not_ok (runaway : engine.RunsAway suite subject pass) (report : ModuleReport) :
    (engine.run suite fuel subject tree store).verdict? suite subject ≠ some (.ok report) :=
  fun ok => runaway.not_settled fuel (Run.verdict?_eq_ok_iff.mp ok).1

/-- Under a limit the run comes to a fault: that of the limit, or that of its last execution. -/
theorem RunsAway.fault_of_limit (runaway : engine.RunsAway suite subject pass) {limit : Nat}
    (limited : engine.settings.refreshLimit = some limit) (tree : τ) (store : ModuleStore τ) :
    ∃ fuel fault,
      (engine.run suite fuel subject tree store).verdict? suite subject = some (.error fault) ∧
        (fault = .refreshLimit subject.name limit ∨
          ∃ execution earlier, (engine.run suite fuel subject tree store).past =
            .executed execution :: earlier ∧ execution.fault = some fault) := by
  obtain ⟨fuel, stopped⟩ : ∃ fuel,
      (engine.run suite fuel subject tree store).status ≠ .running :=
    ⟨_, stopped_of_limit suite subject tree store limited⟩
  refine ⟨fuel, ?_⟩
  unfold Run.verdict?
  cases hstatus : (engine.run suite fuel subject tree store).status with
  | running => exact absurd hstatus stopped
  | settled => exact absurd hstatus (runaway.not_settled fuel)
  | failed fault =>
      exact ⟨fault, rfl, Or.inr (last_of_failed engine suite subject tree store fuel hstatus)⟩
  | capped reached =>
      have within := withinLimit_run engine suite fuel subject tree store limited
      obtain ⟨rfl, _⟩ := within.capped reached hstatus
      exact ⟨_, rfl, Or.inl rfl⟩

end Engine

/-! ## Calls -/

theorem Engine.RunsAway.attempt_ne_ok (runaway : engine.RunsAway suite subject pass)
    {store : ModuleStore τ} {attempt : Attempt ρ τ}
    (named : store.nameOf subject.id = .ok subject.name)
    (h : engine.attempt suite fuel subject.id store = some attempt) (report : ModuleReport) :
    attempt.verdict ≠ .ok report := by
  intro ok
  rcases attempt_spec h with ⟨_, rfl⟩ | ⟨_, _, rfl⟩ | ⟨name, tree, hslot, hverdict, _⟩
  · cases ok
  · cases ok
  · obtain ⟨slot, held, hname⟩ := ModuleStore.nameOf_eq_ok_iff.mp named
    cases hslot.symm.trans held
    have hname : name = subject.name := hname
    subst hname
    rw [ok] at hverdict
    exact runaway.not_ok report hverdict

variable {entry : ModuleId}

theorem Tour.Completes.not_mem_finished {tour last : Tour ρ τ} {finished : List ModuleId}
    {said : List (Exchange τ)} (h : Completes suite fuel entry tour finished said last)
    (runaway : tour.program.engine.RunsAway suite subject pass)
    (named : last.program.store.nameOf subject.id = .ok subject.name) :
    subject.id ∉ finished := by
  induction h with
  | nil => exact List.not_mem_nil
  | @cons tour last id attempt report finished said due attempted ok rest ih =>
      intro hfinished
      rcases List.mem_cons.mp hfinished with rfl | hlater
      -- the module had its name when it was attempted
      · have grows := (Engine.grows_attempt attempted).trans rest.grows
        rw [grows.nameOf_eq (Engine.attempt_of_ok attempted ok).1] at named
        exact runaway.attempt_ne_ok named attempted report ok
      · exact ih runaway named hlater

namespace Program

variable {program : Program ρ τ}

theorem unfinished_of_completes {tour : Tour ρ τ} {finished : List ModuleId}
    {said : List (Exchange τ)} (sound : Sound program)
    (runaway : program.engine.RunsAway suite subject pass)
    (before : program.store.nameOf subject.id = .ok subject.name → subject.id ∉ program.done)
    (h : Tour.Completes suite fuel entry { program } finished said tour)
    (named : tour.program.store.nameOf subject.id = .ok subject.name) :
    subject.id ∉ tour.program.done := by
  rw [h.done_eq, List.mem_append, List.mem_reverse]
  rintro (hfinished | hbefore)
  · exact h.not_mem_finished runaway named hfinished
  · have same := h.grows.nameOf_eq (sound.registered subject.id hbefore)
    exact before (same.symm.trans named) hbefore

theorem unfinished_of_optimize {outcome : ProgramOutcome ρ τ} (sound : Sound program)
    (runaway : program.engine.RunsAway suite subject pass)
    (before : program.store.nameOf subject.id = .ok subject.name → subject.id ∉ program.done)
    (h : program.optimize suite fuel entry = some outcome)
    (named : outcome.program.store.nameOf subject.id = .ok subject.name) :
    subject.id ∉ outcome.program.done := by
  obtain ⟨verdict, last, ends, hprogram, _⟩ := exists_ends_of_optimize h
  rw [hprogram] at named ⊢
  cases ends with
  | well completes _ => exact unfinished_of_completes sound runaway before completes named
  | badly completes fails =>
      intro hdone
      have registered := (sound.advance completes.advances).registered subject.id hdone
      have same := (Engine.grows_attempt fails.attempted).nameOf_eq registered
      exact unfinished_of_completes sound runaway before completes (same.symm.trans named) hdone

theorem Reachable.unfinished (reachable : Reachable suite program)
    (runaway : program.engine.RunsAway suite subject pass)
    (named : program.store.nameOf subject.id = .ok subject.name) :
    subject.id ∉ program.done := by
  induction reachable with
  | fresh engine store => exact List.not_mem_nil
  | call fuel entry earlier called ih =>
      rw [engine_of_optimize called] at runaway
      exact unfinished_of_optimize earlier.sound runaway (ih runaway) called named

/-- A run with a runaway pass never settles, and under a limit it comes to a fault. No call on a
program ever finishes the module, and a call that has it among its modules does not end well. -/
theorem runaway_caught (engine : Engine ρ) (suite : PassSuite ρ τ) (subject : Subject) (pass : ρ)
    (runaway : engine.RunsAway suite subject pass) :
    (∀ fuel tree store report,
      (engine.run suite fuel subject tree store).verdict? suite subject ≠ some (.ok report)) ∧
    (∀ limit, engine.settings.refreshLimit = some limit → ∀ tree store, ∃ fuel fault,
      (engine.run suite fuel subject tree store).verdict? suite subject = some (.error fault) ∧
        (fault = .refreshLimit subject.name limit ∨
          ∃ execution earlier, (engine.run suite fuel subject tree store).past =
            .executed execution :: earlier ∧ execution.fault = some fault)) ∧
    ∀ program : Program ρ τ, Reachable suite program → program.engine = engine → ∀ fuel entry,
      (∀ finished said tour,
        Tour.Completes suite fuel entry { program } finished said tour →
        tour.program.store.nameOf subject.id = .ok subject.name →
        tour.program.finished subject.id = false) ∧
      ∀ outcome, program.optimize suite fuel entry = some outcome →
        outcome.program.store.nameOf subject.id = .ok subject.name →
        outcome.program.finished subject.id = false ∧ ∃ fault, outcome.verdict = .error fault := by
  refine ⟨fun _ _ _ => runaway.not_ok, fun _ => runaway.fault_of_limit, ?_⟩
  rintro program reachable rfl fuel entry
  have before := reachable.unfinished runaway
  refine ⟨?_, ?_⟩
  · intro finished said tour completes named
    have undone := unfinished_of_completes reachable.sound runaway before completes named
    exact Bool.eq_false_iff.mpr fun done => undone (finished_iff.mp done)
  · intro outcome called named
    have undone := unfinished_of_optimize reachable.sound runaway before called named
    refine ⟨Bool.eq_false_iff.mpr fun done => undone (finished_iff.mp done), ?_⟩
    cases ok : outcome.verdict with
    | error fault => exact ⟨fault, rfl⟩
    | ok report =>
        obtain ⟨slot, hslot, _⟩ := ModuleStore.nameOf_eq_ok_iff.mp named
        have registered := ModuleStore.mem_ids.mpr (ModuleStore.lt_size_iff.mpr ⟨slot, hslot⟩)
        exact absurd (finished_iff.mp ((modules_of_optimize called ok).1 _ registered)) undone

end Program

end

/-! ## A pass that starts all over -/

namespace Restless

/-- Both passes look at new code, and on the main module the one that comes second makes more. -/
def suite : PassSuite Bool Nat where
  name restarts := if restarts then "restart" else "clean"
  apply restarts subject tree :=
    if restarts ∧ subject.name = "main" then .emit newCode fun _ => .done (.ok (), tree + 1)
    else .done (.ok (), tree)

def engine : Engine Bool where
  table :=
    { rules := [.ofPredicate "new_code" [false, true]]
      wellFormed := RuleTable.wellFormed_singleton ⟨by decide, by decide⟩ }
  settings := { refreshLimit := some 3 }
  valid := by decide

def program : Program Bool Nat where
  engine := engine
  store := (ModuleStore.singleton "util" 0).append "main" 0 (by decide)

theorem runsAway : engine.RunsAway suite ⟨⟨1⟩, "main"⟩ true where
  triggered := by decide
  restarts := by
    intro tree tags store _ _
    exact List.mem_singleton_self newCode

end Restless

namespace Program

/-- The entry is finished, and the module that the call reaches next is given up. -/
theorem runaway_caught_restless :
    Restless.engine.RunsAway Restless.suite ⟨⟨1⟩, "main"⟩ true ∧
    (∃ fuel fault, (Restless.engine.run Restless.suite fuel ⟨⟨1⟩, "main"⟩ 7 .empty).verdict?
      Restless.suite ⟨⟨1⟩, "main"⟩ = some (.error fault)) ∧
    ∃ outcome, Restless.program.optimize Restless.suite 6 ⟨0⟩ = some outcome ∧
      outcome.verdict = .error (.refreshLimit "main" 3) ∧
      outcome.program.finished ⟨0⟩ = true ∧ outcome.program.finished ⟨1⟩ = false := by
  obtain ⟨_, caught, undone⟩ :=
    runaway_caught Restless.engine Restless.suite ⟨⟨1⟩, "main"⟩ true Restless.runsAway
  obtain ⟨fuel, fault, failed, _⟩ := caught 3 rfl 7 .empty
  have call : (Restless.program.optimize Restless.suite 6 ⟨0⟩).map (fun outcome =>
      (outcome.verdict, outcome.program.store.nameOf ⟨1⟩, outcome.program.finished ⟨0⟩)) =
      some (.error (.refreshLimit "main" 3), .ok "main", true) := rfl
  obtain ⟨outcome, called, hsummary⟩ := Option.map_eq_some_iff.mp call
  simp only [Prod.mk.injEq] at hsummary
  obtain ⟨hverdict, named, entered⟩ := hsummary
  have reachable : Reachable Restless.suite Restless.program := .fresh _ _
  obtain ⟨unfinished, _⟩ := (undone Restless.program reachable rfl 6 ⟨0⟩).2 outcome called named
  exact ⟨Restless.runsAway, ⟨fuel, fault, failed⟩, outcome, called, hverdict, entered, unfinished⟩

end Program

end PassEngine
