import PassEngine.Attempt

/-!
# Whole programs

Optimizing one module can register others. A program is therefore optimized by an entry module
and then by sweeps: each sweep visits the modules that were registered when it began, in order,
and optimizes those that are not done; the last sweep is the one that optimizes none. The first
fault ends the call, and what is done stays done.
-/

namespace PassEngine

/-- An engine, the modules of a program, and those that are done. -/
structure Program (ρ τ : Type) where
  engine : Engine ρ
  store : ModuleStore τ
  /-- The modules that were optimized, latest first. -/
  done : List ModuleId := []

structure ProgramReport where
  modules : List ModuleReport
  /-- How many sweeps it took, the last one included. -/
  sweeps : Nat
deriving DecidableEq

namespace ProgramReport

def total (report : ProgramReport) : Nat :=
  report.modules.foldr (fun module total => module.total + total) 0

def names (report : ProgramReport) : List String := report.modules.map (·.subject.name)

end ProgramReport

/-- One visit to a module that was not done: what the run did, and, if the module is done now,
how many modules are left. -/
structure Visit (ρ : Type) where
  transcript : Option (Transcript ρ)
  left : Option Nat

/-- A call under way: the program as it stands, and the reports and visits, latest first. -/
structure Tour (ρ τ : Type) where
  program : Program ρ τ
  reports : List ModuleReport := []
  visits : List (Visit ρ) := []

structure ProgramOutcome (ρ τ : Type) where
  verdict : Except Fault ProgramReport
  program : Program ρ τ
  visits : List (Visit ρ)

namespace Program

variable {ρ τ : Type}

def ofEntry (engine : Engine ρ) (name : String) (tree : τ) : Program ρ τ :=
  { engine, store := .singleton name tree }

def finished (program : Program ρ τ) (id : ModuleId) : Bool := program.done.contains id

def pending (program : Program ρ τ) : Nat := program.store.size - program.done.length

end Program

namespace Tour

variable {ρ τ : Type} [DecidableEq ρ]

/-- Optimize a module, and count it as done if that went well. -/
def optimize (suite : PassSuite ρ τ) (fuel : Nat) (id : ModuleId) (tour : Tour ρ τ) :
    Option (Except Fault Unit × Tour ρ τ) :=
  (tour.program.engine.attempt suite fuel id tour.program.store).map fun attempt =>
    let program := { tour.program with store := attempt.store }
    match attempt.verdict with
    | .error fault =>
        (.error fault,
          { tour with program, visits := ⟨attempt.transcript, none⟩ :: tour.visits })
    | .ok report =>
        let program := { program with done := id :: program.done }
        (.ok (),
          { program
            reports := report :: tour.reports
            visits := ⟨attempt.transcript, some program.pending⟩ :: tour.visits })

def visit (suite : PassSuite ρ τ) (fuel : Nat) (id : ModuleId) (tour : Tour ρ τ) :
    Option (Except Fault Unit × Tour ρ τ) :=
  if tour.program.finished id then some (.ok (), tour) else tour.optimize suite fuel id

/-- Visit modules in order, up to the first fault. -/
def visitAll (suite : PassSuite ρ τ) (fuel : Nat) :
    List ModuleId → Tour ρ τ → Option (Except Fault Unit × Tour ρ τ)
  | [], tour => some (.ok (), tour)
  | id :: rest, tour =>
      match tour.visit suite fuel id with
      | none => none
      | some (.error fault, tour) => some (.error fault, tour)
      | some (.ok (), tour) => visitAll suite fuel rest tour

/-- Visit the modules that are registered now. -/
def sweep (suite : PassSuite ρ τ) (fuel : Nat) (tour : Tour ρ τ) :
    Option (Except Fault Unit × Tour ρ τ) :=
  tour.visitAll suite fuel tour.program.store.ids

/-- Sweep until a sweep optimizes no module, and count the sweeps. -/
def sweeps (suite : PassSuite ρ τ) (fuel : Nat) :
    Nat → Nat → Tour ρ τ → Option (Except Fault Nat × Tour ρ τ)
  | 0, _, _ => none
  | bound + 1, before, tour =>
      match tour.sweep suite fuel with
      | none => none
      | some (.error fault, final) => some (.error fault, final)
      | some (.ok (), swept) =>
          if swept.reports.length = tour.reports.length then some (.ok (before + 1), swept)
          else sweeps suite fuel bound (before + 1) swept

def conclude (result : Except Fault Nat × Tour ρ τ) : ProgramOutcome ρ τ :=
  { verdict := result.1.map fun sweeps => ⟨result.2.reports.reverse, sweeps⟩
    program := result.2.program
    visits := result.2.visits.reverse }

end Tour

variable {ρ τ : Type} [DecidableEq ρ]

/-- Optimize the entry and then every module that it leads to. There is no answer if a run needs
more steps than the fuel allows, or the call more sweeps. -/
def Program.optimize (program : Program ρ τ) (suite : PassSuite ρ τ) (fuel : Nat)
    (entry : ModuleId) : Option (ProgramOutcome ρ τ) :=
  match ({ program } : Tour ρ τ).visit suite fuel entry with
  | none => none
  | some (.error fault, tour) => some (Tour.conclude (.error fault, tour))
  | some (.ok (), tour) => (tour.sweeps suite fuel fuel 0).map Tour.conclude

end PassEngine
