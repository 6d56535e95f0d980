import PassEngine.Proofs.Program.Attempts

/-!
# Calls that come to a fault

A fault ends a call in the middle. What was finished before stays finished, the module whose
attempt came to the fault keeps the edits that its passes made until then, and nothing else is
touched. That module is due next, so that a further call goes on where this one stopped.
-/

namespace PassEngine

variable {ρ τ : Type} [DecidableEq ρ]

/-! ## Attempts that come to a fault -/

/-- What is left of an attempt that came to a fault: the store as it was if there was no tree to be
had, and else a slot that holds what the run had made of the tree when it stopped. -/
inductive Engine.Faulted (engine : Engine ρ) (suite : PassSuite ρ τ) (fuel : Nat) (id : ModuleId)
    (store : ModuleStore τ) : Fault → ModuleStore τ → Prop where
  | unknown (slot : store.slot? id = none) :
      Faulted engine suite fuel id store (.unknownModule id) store
  | inUse {name : String} (slot : store.slot? id = some ⟨name, none⟩) :
      Faulted engine suite fuel id store (.moduleInUse name) store
  | stopped {name : String} {tree : τ} {run : Run ρ τ} {fault : Fault} {after : ModuleStore τ}
      (slot : store.slot? id = some ⟨name, some tree⟩)
      (ran : engine.run suite fuel ⟨id, name⟩ tree (store.putTree id none) = run)
      (verdict : run.verdict? suite ⟨id, name⟩ = some (.error fault))
      (edited : after.slot? id = some ⟨name, some run.tree⟩) :
      Faulted engine suite fuel id store fault after

theorem Engine.faulted_of_attempt {engine : Engine ρ} {suite : PassSuite ρ τ} {fuel : Nat}
    {id : ModuleId} {store : ModuleStore τ} {attempt : Attempt ρ τ} {fault : Fault}
    (h : engine.attempt suite fuel id store = some attempt)
    (failed : attempt.verdict = .error fault) :
    engine.Faulted suite fuel id store fault attempt.store := by
  rcases attempt_spec h with
    ⟨hslot, rfl⟩ | ⟨name, hslot, rfl⟩ | ⟨name, tree, hslot, hverdict, hstore, _⟩
  · cases failed
    exact .unknown hslot
  · cases failed
    exact .inUse hslot
  · rw [failed] at hverdict
    refine .stopped hslot rfl hverdict ?_
    rw [hstore]
    exact slot?_restored engine suite fuel ⟨id, name⟩ hslot

/-! ## Calls that come to a fault -/

namespace Program

/-- What a call that came to a fault leaves. The call finished some modules in a row, up to the
tour `last`, and the fault came from the attempt on the module `failing`; `earlier` is what the
passes said and asked before that attempt. -/
structure Interrupted (suite : PassSuite ρ τ) (fuel : Nat) (program : Program ρ τ)
    (entry : ModuleId) (fault : Fault) (after : Program ρ τ) (finished : List ModuleId)
    (earlier : List (Exchange τ)) (last : Tour ρ τ) (failing : ModuleId) : Prop where
  /-- Each module was finished when it was due. -/
  completes : Tour.Completes suite fuel entry { program } finished earlier last
  /-- The fault is that of the next attempt. -/
  fails : ∃ attempt, Tour.Fails suite fuel entry last failing attempt fault ∧
    after = (last.abandon attempt).program
  engine : after.engine = program.engine
  done : after.done = finished.reverse ++ program.done
  unfinished : failing ∉ after.done
  /-- If it was not the entry that failed, all that comes before is finished. -/
  passed : failing ≠ entry →
    entry ∈ after.done ∧ ∀ id : ModuleId, id.index < failing.index → id ∈ after.done
  /-- Until the last attempt only the finished modules were worked on. -/
  before : program.store.Grows finished earlier last.program.store
  /-- A module that was not worked on has the slot that it had or was registered with, and what
  was registered stays, whoever registered it. -/
  grown : program.store.Grows (finished ++ [failing])
    (earlier ++ program.engine.exchangesAt suite fuel failing last.program.store) after.store
  /-- The failing module keeps its edits, unless its tree could not be had. -/
  faulted : program.engine.Faulted suite fuel failing last.program.store fault after.store
  due : after.due entry = some failing

variable {suite : PassSuite ρ τ} {fuel : Nat} {program : Program ρ τ} {entry failing : ModuleId}
  {outcome : ProgramOutcome ρ τ} {fault : Fault} {last : Tour ρ τ} {attempt : Attempt ρ τ}
  {finished : List ModuleId} {earlier : List (Exchange τ)}

theorem due_abandon (h : Tour.Fails suite fuel entry last failing attempt fault) :
    (last.abandon attempt).program.due entry = some failing := by
  obtain ⟨unfinished, passed⟩ := due_spec h.due
  by_cases hentry : failing = entry
  · rw [hentry] at unfinished ⊢
    exact due_of_unentered unfinished
  · obtain ⟨entered, registered, below⟩ := passed hentry
    have kept : last.program.store.size ≤ attempt.store.size :=
      Engine.size_le_attempt h.attempted
    exact due_of_first entered below (Nat.lt_of_lt_of_le registered kept) unfinished

theorem interrupted_of_fails
    (completes : Tour.Completes suite fuel entry { program } finished earlier last)
    (fails : Tour.Fails suite fuel entry last failing attempt fault) :
    Interrupted suite fuel program entry fault (last.abandon attempt).program finished earlier
      last failing := by
  have engine : last.program.engine = program.engine := completes.engine_eq
  have before : program.store.Grows finished earlier last.program.store := completes.grows
  have passed := (due_spec fails.due).2
  have grown := before.trans (Engine.grows_attempt fails.attempted)
  have faulted := Engine.faulted_of_attempt fails.attempted fails.verdict
  rw [engine] at grown faulted
  exact
    { completes
      fails := ⟨attempt, fails, rfl⟩
      engine
      done := completes.done_eq
      unfinished := not_mem_done_of_due (due_abandon fails)
      passed := by
        intro hne
        obtain ⟨entered, _, below⟩ := passed hne
        exact ⟨finished_iff.mp entered, fun id hid => finished_iff.mp (below id hid)⟩
      before
      grown
      faulted
      due := due_abandon fails }

/-- A call that comes to a fault leaves a program with which a further call goes on: what is
finished stays finished, only the failed module and the finished ones are touched, and the failed
module is attempted first. If it fails again, so does the call. -/
theorem failure_resumable (h : program.optimize suite fuel entry = some outcome)
    (failed : outcome.verdict = .error fault) :
    ∃ finished earlier last failing,
      Interrupted suite fuel program entry fault outcome.program finished earlier last failing ∧
      (∀ more next, outcome.program.optimize suite more entry = some next →
        ∃ attempt,
          program.engine.attempt suite more failing outcome.program.store = some attempt ∧
          next.visits.head?.map (·.transcript) = some attempt.transcript ∧
          ∀ report, attempt.verdict = .ok report → failing ∈ next.program.done) ∧
      ∀ more attempt again, 0 < more →
        program.engine.attempt suite more failing outcome.program.store = some attempt →
        attempt.verdict = .error again →
        ∃ next, outcome.program.optimize suite more entry = some next ∧
          next.verdict = .error again ∧
          next.program = { outcome.program with store := attempt.store } := by
  obtain ⟨count, last, rfl, ends⟩ := ends_of_optimize h
  cases count with
  | ok sweeps => cases failed
  | error reported =>
      cases failed
      cases ends with
      | badly completes fails =>
          have interrupted := interrupted_of_fails completes fails
          refine ⟨_, _, _, _, interrupted, ?_, ?_⟩
          · intro more next hnext
            rw [← interrupted.engine]
            exact first_attempt interrupted.due hnext
          · intro more attempt again positive attempted hagain
            rw [← interrupted.engine] at attempted
            exact ⟨_, optimize_of_fault interrupted.due positive attempted hagain, rfl, rfl⟩

end Program

/-! ## A program with a module that fails -/

namespace Draining

/-- Register the modules that a tree names and cross them off, up to the first known one. -/
def drain (module : String) :
    List String → Dialogue (List String) (Except Fault Unit × List String)
  | [] => .done (.ok (), [])
  | name :: rest => .register name [] fun answer =>
      match answer with
      | some _ => drain module rest
      | none => .done (.error (.passFailed "drain" module "known"), name :: rest)

def suite : PassSuite Unit (List String) where
  name _ := "drain"
  apply _ subject tree := drain subject.name tree

/-- The last module names one that is known, after one that is not. -/
def program : Program Unit (List String) where
  engine := ⟨Importing.table, Settings.default, Settings.valid_default⟩
  store :=
    ((ModuleStore.singleton "util" []).append "main" ["late"] (by decide)).append "broken"
      ["extra", "util", "more"] (by decide)

end Draining

namespace Program

/-- The call fails in its first sweep: the entry and the first module are finished by then, and two
modules are registered, one of them by the pass that gives up. -/
theorem failure_resumable_draining :
    ∃ outcome finished earlier last,
      Draining.program.optimize Draining.suite 3 ⟨1⟩ = some outcome ∧
      outcome.verdict = .error (.passFailed "drain" "broken" "known") ∧
      Interrupted Draining.suite 3 Draining.program ⟨1⟩ (.passFailed "drain" "broken" "known")
        outcome.program finished earlier last ⟨2⟩ ∧
      outcome.program.done = [⟨0⟩, ⟨1⟩] ∧
      outcome.program.store.trees =
        [("util", []), ("main", []), ("broken", ["util", "more"]), ("late", []), ("extra", [])] ∧
      ∃ next attempt, outcome.program.optimize Draining.suite 3 ⟨1⟩ = some next ∧
        next.verdict = .error (.passFailed "drain" "broken" "known") ∧
        Draining.program.engine.attempt Draining.suite 3 ⟨2⟩ outcome.program.store =
          some attempt ∧
        next.visits.head?.map (·.transcript) = some attempt.transcript := by
  have settled : (Draining.program.optimize Draining.suite 3 ⟨1⟩).map (fun outcome =>
      (outcome.verdict, outcome.program.due ⟨1⟩, outcome.program.done,
        outcome.program.store.trees,
        (outcome.program.optimize Draining.suite 3 ⟨1⟩).map (·.verdict))) =
      some (.error (.passFailed "drain" "broken" "known"), some ⟨2⟩, [⟨0⟩, ⟨1⟩],
        [("util", []), ("main", []), ("broken", ["util", "more"]), ("late", []), ("extra", [])],
        some (.error (.passFailed "drain" "broken" "known"))) := rfl
  obtain ⟨outcome, houtcome, hsummary⟩ := Option.map_eq_some_iff.mp settled
  simp only [Prod.mk.injEq] at hsummary
  obtain ⟨failed, hdue, hdone, htrees, hagain⟩ := hsummary
  obtain ⟨finished, earlier, last, failing, interrupted, further, _⟩ :=
    failure_resumable houtcome failed
  have hfailing : failing = ⟨2⟩ := Option.some.inj (interrupted.due.symm.trans hdue)
  subst hfailing
  obtain ⟨next, hnext, hverdict⟩ := Option.map_eq_some_iff.mp hagain
  obtain ⟨attempt, attempted, hfirst, _⟩ := further 3 next hnext
  exact ⟨outcome, finished, earlier, last, houtcome, failed, interrupted, hdone, htrees, next,
    attempt, hnext, hverdict, attempted, hfirst⟩

end Program

end PassEngine
