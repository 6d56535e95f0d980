import PassEngine.Program
import PassEngine.Text.Lines
import PassEngine.Text.Quoted

/-!
# The journal

What an engine does is written to a journal, one entry per happening. Nothing is written while
an engine runs: entries are read off the transcripts afterwards, so that the journal cannot
influence a run. A reader chooses a level and sees the entries at that level or more severe.
-/

namespace PassEngine.Journal

/-- How much an entry matters, the most severe first. -/
inductive Level where
  | error
  | warn
  | info
  | debug
  | trace
deriving DecidableEq

namespace Level

def rank : Level → Nat
  | error => 0
  | warn => 1
  | info => 2
  | debug => 3
  | trace => 4

/-- Whether a reader who chose this level sees entries of another. -/
def shows (threshold level : Level) : Bool := level.rank ≤ threshold.rank

def label : Level → String
  | error => "ERROR"
  | warn => " WARN"
  | info => " INFO"
  | debug => "DEBUG"
  | trace => "TRACE"

end Level

structure Entry where
  level : Level
  message : String
  fields : List (String × String) := []
  /-- The entry module of the call on a whole program in which it was written, if any. -/
  scope : Option ModuleId := none

/-! ## Entries of a run -/

def listText (items : List String) : String := "[" ++ ", ".intercalate items ++ "]"

/-- A consultation of the rules; `label` says how a pass is written. -/
def refreshEntry {ρ : Type} (label : ρ → String) (tags : TagSet) (eligible : List ρ) : Entry :=
  { level := .trace
    message := "Refreshing optimizations from tags"
    fields := [("tags", tags.text), ("eligible", listText (eligible.map label))] }

def discoveryEntry (subject : Subject) (name : String) (id : ModuleId) : Entry :=
  { level := .debug
    message := "Discovered module"
    fields := [("module", subject.name), ("discovered", name), ("id", id.text)] }

/-- An execution: its start, its discoveries and its fault. -/
def executionEntries {ρ τ : Type} (suite : PassSuite ρ τ) (subject : Subject)
    (execution : Execution ρ) : List Entry :=
  let pass := ("pass", Text.quote (suite.name execution.pass))
  let applied : Entry :=
    { level := .debug
      message := "Applying optimization"
      fields := [("module", subject.name), pass,
        ("description", Text.quote (suite.description execution.pass))] }
  let discovered := execution.discovered.map fun (name, id) => discoveryEntry subject name id
  let failed := execution.fault.toList.map fun fault =>
    ({ level := .error
       message := "Optimization failed"
       fields := [("module", subject.name), pass, ("error", fault.message)] } : Entry)
  applied :: discovered ++ failed

def eventEntries {ρ τ : Type} (suite : PassSuite ρ τ) (subject : Subject) : Event ρ → List Entry
  | .refresh tags eligible => [refreshEntry suite.name tags eligible]
  | .executed execution => executionEntries suite subject execution

/-- The entries of a run: a line for a human reader if one is wanted, what happened, and whether
the module settled. -/
def transcriptEntries {ρ τ : Type} (suite : PassSuite ρ τ) (settings : Settings)
    (transcript : Transcript ρ) : List Entry :=
  let subject := transcript.subject
  let opening : List Entry :=
    if settings.showProgress then
      [{ level := .info
         message := "Doing module local optimizations for '" ++ subject.name ++ "'"
         fields := [("module", subject.name)] }]
    else []
  let executed := transcript.events.filterMap Event.execution?
  let closing : List Entry :=
    if transcript.status = .settled then
      [{ level := .debug
         message := "Module reached fixpoint"
         fields := [("module", subject.name), ("passes", executed.length.repr),
           ("refreshes", (transcript.events.length - executed.length).repr)] }]
    else []
  opening ++ transcript.events.flatMap (eventEntries suite subject) ++ closing

def attemptEntries {ρ τ : Type} (suite : PassSuite ρ τ) (settings : Settings)
    (attempt : Attempt ρ τ) : List Entry :=
  attempt.transcript.toList.flatMap (transcriptEntries suite settings)

/-! ## Entries of a call on a whole program -/

/-- The entries of a visit: those of the run, and how many modules are left. -/
def visitEntries {ρ τ : Type} (suite : PassSuite ρ τ) (settings : Settings) (visit : Visit ρ) :
    List Entry :=
  let left : List Entry :=
    match visit.left with
    | some left =>
        if settings.showProgress then
          [{ level := .info, message := "Finished. " ++ left.repr ++ " more modules to go." }]
        else []
    | none => []
  visit.transcript.toList.flatMap (transcriptEntries suite settings) ++ left

/-- The entries of a call: those of its visits, and a summary if it ended well. -/
def outcomeEntries {ρ τ : Type} (suite : PassSuite ρ τ) (entry : ModuleId)
    (outcome : ProgramOutcome ρ τ) : List Entry :=
  let summary : List Entry :=
    match outcome.verdict with
    | .error _ => []
    | .ok report =>
        [{ level := .info
           message := "Whole program optimization finished"
           fields := [("modules", report.modules.length.repr), ("passes", report.total.repr),
             ("sweeps", report.sweeps.repr)] }]
  (outcome.visits.flatMap (visitEntries suite outcome.program.engine.settings) ++ summary).map
    fun line => { line with scope := some entry }

/-! ## Lines -/

/-- How the scope of an entry is written; it is itself of level `info`. -/
def scopeText (threshold : Level) : Option ModuleId → String
  | none => ""
  | some id => if threshold.shows .info then "optimize_whole\x7bentry=" ++ id.text ++ "\x7d: " else ""

def Entry.text (entry : Entry) (threshold : Level) : String :=
  entry.level.label ++ " " ++ scopeText threshold entry.scope ++ Text.tame entry.message ++
    String.join (entry.fields.map fun (name, value) => " " ++ name ++ "=" ++ value)

/-- The lines that a reader of some level sees; a line break within an entry begins a line. -/
def lines (threshold : Level) (entries : List Entry) : List String :=
  (entries.filter fun entry => threshold.shows entry.level).flatMap fun entry =>
    Text.lines (entry.text threshold)

/-! ## Keeping a journal -/

/-- Ask for a journal at a level, when one may be kept already. Only one is ever kept, at the level
that was asked for first, and whoever asks later is refused. -/
def keep (kept : Option Level) (level : Level) : Bool × Option Level :=
  match kept with
  | none => (true, some level)
  | some first => (false, some first)

def keepAll (kept : Option Level) : List Level → List Bool × Option Level
  | [] => ([], kept)
  | level :: rest =>
      let (granted, kept) := keep kept level
      let (others, kept) := keepAll kept rest
      (granted :: others, kept)

end PassEngine.Journal
