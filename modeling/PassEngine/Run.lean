import PassEngine.Rule.Table
import PassEngine.PassSuite

/-!
# Runs

An engine brings one tree to a fixpoint. It starts from the tag for new code, consults its
rules, and executes the pending passes one after the other. The rules are consulted again only
when nothing is pending or when a pass emitted the tag for new code; whatever was emitted
until then counts together. A run settles when consulting the rules leaves nothing pending.

A `Run` holds the whole state, its past included. `Engine.step` takes a running run one pass
further and `Engine.runFor` does so a bounded number of times, so that a run without an end is
one that is running after any number of steps.
-/

namespace PassEngine

structure Engine (ρ : Type) where
  table : RuleTable ρ
  settings : Settings
  valid : settings.Valid

def Engine.of {ρ : Type} (table : RuleTable ρ) (settings : Settings) : Except Fault (Engine ρ) :=
  if valid : settings.Valid then .ok ⟨table, settings, valid⟩
  else .error (.settings .zeroRefreshLimit)

inductive Status where
  | running
  /-- The rules were consulted and nothing is pending. -/
  | settled
  | failed (fault : Fault)
  /-- The rules were consulted more often than the limit allows, and something is pending. -/
  | capped (limit : Nat)
deriving DecidableEq

structure Execution (ρ : Type) where
  pass : ρ
  /-- The tags that it emitted, in order, repetitions included. -/
  emitted : List Tag
  discovered : List (String × ModuleId)
  fault : Option Fault

inductive Event (ρ : Type) where
  /-- The rules were consulted with these tags and found these passes eligible. -/
  | refresh (tags : TagSet) (eligible : List ρ)
  | executed (execution : Execution ρ)

structure Run (ρ τ : Type) where
  tree : τ
  store : ModuleStore τ
  agenda : Agenda ρ
  tags : TagSet
  refreshes : Nat
  status : Status
  /-- What has happened, latest first. -/
  past : List (Event ρ)

/-! ## Reports -/

structure PassReport where
  pass : String
  emissions : Nat
deriving DecidableEq

/-- What is reported of a run that settled. -/
structure ModuleReport where
  subject : Subject
  passes : List PassReport
  refreshes : Nat
deriving DecidableEq

def ModuleReport.total (report : ModuleReport) : Nat := report.passes.length

def Execution.report {ρ τ : Type} (suite : PassSuite ρ τ) (execution : Execution ρ) : PassReport :=
  ⟨suite.name execution.pass, execution.emitted.length⟩

def Event.execution? {ρ : Type} : Event ρ → Option (Execution ρ)
  | .refresh .. => none
  | .executed execution => some execution

namespace Run

variable {ρ τ : Type}

def events (run : Run ρ τ) : List (Event ρ) := run.past.reverse

def executions (run : Run ρ τ) : List (Execution ρ) := run.events.filterMap Event.execution?

def report (run : Run ρ τ) (suite : PassSuite ρ τ) (subject : Subject) : ModuleReport :=
  ⟨subject, run.executions.map (·.report suite), run.refreshes⟩

/-- What a run that has stopped comes to; a run that goes on has come to nothing yet. -/
def verdict? (run : Run ρ τ) (suite : PassSuite ρ τ) (subject : Subject) :
    Option (Except Fault ModuleReport) :=
  match run.status with
  | .running => none
  | .settled => some (.ok (run.report suite subject))
  | .failed fault => some (.error fault)
  | .capped limit => some (.error (.refreshLimit subject.name limit))

end Run

/-! ## Steps -/

namespace Engine

variable {ρ τ : Type} [DecidableEq ρ]

/-- How a run stands after so many refreshes, the last of which left this agenda. Only a refresh
that leaves something to do counts against the limit. -/
def statusAfter (engine : Engine ρ) (refreshes : Nat) (agenda : Agenda ρ) : Status :=
  if agenda.isEmpty then .settled
  else
    match engine.settings.refreshLimit with
    | none => .running
    | some limit => if limit < refreshes then .capped limit else .running

def refresh (engine : Engine ρ) (run : Run ρ τ) : Run ρ τ :=
  let refreshed := engine.table.refresh run.tags engine.settings run.agenda
  { run with
    agenda := refreshed.agenda
    tags := refreshed.tags
    refreshes := run.refreshes + 1
    status := engine.statusAfter (run.refreshes + 1) refreshed.agenda
    past := .refresh run.tags (engine.table.eligible run.tags engine.settings) :: run.past }

/-- Execute a pass. The run has failed if the pass gave up. -/
def execute (suite : PassSuite ρ τ) (subject : Subject) (pass : ρ) (run : Run ρ τ) : Run ρ τ :=
  let ((verdict, tree), scene) :=
    (suite.apply pass subject run.tree).perform { tags := run.tags, store := run.store }
  let (fault, status) : Option Fault × Status :=
    match verdict with
    | .ok () => (none, .running)
    | .error fault => (some fault, .failed fault)
  { run with
    tree
    status
    store := scene.store
    tags := scene.tags
    past := .executed ⟨pass, scene.emitted.reverse, scene.discovered.reverse, fault⟩ :: run.past }

/-- Take the pass at the front of the agenda, execute it, and consult the rules if nothing is
pending or new code was emitted. -/
def step (engine : Engine ρ) (suite : PassSuite ρ τ) (subject : Subject) (run : Run ρ τ) : Run ρ τ :=
  match run.agenda.pop? with
  | none => { run with status := .settled }
  | some (pass, agenda) =>
      let run := execute suite subject pass { run with agenda }
      match run.status with
      | .running =>
          if run.agenda.isEmpty || run.tags.contains newCode then engine.refresh run else run
      | _ => run

/-- The first consultation of the rules, for the tag of new code. -/
def start (engine : Engine ρ) (tree : τ) (store : ModuleStore τ) : Run ρ τ :=
  engine.refresh
    { tree, store, agenda := .empty, tags := TagSet.empty.insert newCode, refreshes := 0,
      status := .running, past := [] }

/-- At most so many steps; a run that has stopped stays as it is. -/
def runFor (engine : Engine ρ) (suite : PassSuite ρ τ) (subject : Subject) :
    Nat → Run ρ τ → Run ρ τ
  | 0, run => run
  | fuel + 1, run =>
      match run.status with
      | .running => runFor engine suite subject fuel (engine.step suite subject run)
      | _ => run

@[simp] theorem runFor_zero (engine : Engine ρ) (suite : PassSuite ρ τ) (subject : Subject)
    (run : Run ρ τ) : engine.runFor suite subject 0 run = run := rfl

theorem runFor_succ (engine : Engine ρ) (suite : PassSuite ρ τ) (subject : Subject) (fuel : Nat)
    {run : Run ρ τ} (running : run.status = .running) :
    engine.runFor suite subject (fuel + 1) run =
      engine.runFor suite subject fuel (engine.step suite subject run) := by
  simp [runFor, running]

theorem runFor_of_stopped (engine : Engine ρ) (suite : PassSuite ρ τ) (subject : Subject)
    (fuel : Nat) {run : Run ρ τ} (stopped : run.status ≠ .running) :
    engine.runFor suite subject fuel run = run := by
  cases fuel with
  | zero => rfl
  | succ fuel =>
      unfold runFor
      split
      · rename_i running
        exact absurd running stopped
      · rfl

theorem runFor_add (engine : Engine ρ) (suite : PassSuite ρ τ) (subject : Subject) (a b : Nat)
    (run : Run ρ τ) :
    engine.runFor suite subject (a + b) run =
      engine.runFor suite subject b (engine.runFor suite subject a run) := by
  induction a generalizing run with
  | zero => simp
  | succ a ih =>
      by_cases running : run.status = .running
      · have h : a + 1 + b = (a + b) + 1 := by omega
        rw [h, runFor_succ engine suite subject (a + b) running,
          runFor_succ engine suite subject a running, ih]
      · rw [runFor_of_stopped engine suite subject (a + 1 + b) running,
          runFor_of_stopped engine suite subject (a + 1) running,
          runFor_of_stopped engine suite subject b running]

def run (engine : Engine ρ) (suite : PassSuite ρ τ) (fuel : Nat) (subject : Subject) (tree : τ)
    (store : ModuleStore τ) : Run ρ τ :=
  engine.runFor suite subject fuel (engine.start tree store)

end Engine

end PassEngine
