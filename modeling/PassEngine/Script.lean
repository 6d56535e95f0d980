import PassEngine.PassSuite

/-!
# Scripted passes

A scripted pass is a list of acts. Its trees hold counters, a list of imports and a log; each
execution first writes the name of the pass into the log and then runs the acts in order. A
fault stops the pass at once, out of nested acts too, and the tree keeps what was done to it.
-/

namespace PassEngine

/-- The tree that scripted passes work on. -/
structure ScriptTree where
  counters : List (String × Int) := []
  imports : List String := []
  lines : List String := []
deriving DecidableEq

namespace ScriptTree

def counter? (tree : ScriptTree) (name : String) : Option Int :=
  (tree.counters.find? (·.1 == name)).map Prod.snd

def setCounter (tree : ScriptTree) (name : String) (value : Int) : ScriptTree :=
  { tree with counters := (name, value) :: tree.counters.filter (·.1 != name) }

def note (tree : ScriptTree) (line : String) : ScriptTree :=
  { tree with lines := line :: tree.lines }

def log (tree : ScriptTree) : List String := tree.lines.reverse

end ScriptTree

inductive Act where
  | emit (tag : Tag)
  /-- Register a module and note what came of it. -/
  | register (name : String)
  /-- Register every import, or only those that are not known. -/
  | registerImports (onlyUnknown : Bool)
  | ifKnown (name : String) (yes no : List Act)
  | ifNamed (name : String) (yes no : List Act)
  | ifIndex (index : Nat) (yes no : List Act)
  /-- Branch on whether a counter is positive, which then goes down by one. A counter that was
  never set is set to zero. -/
  | countDown (counter : String) (yes no : List Act)
  | set (counter : String) (value : Int)
  | times (count : Nat) (body : List Act)
  /-- Note the module worked on and how often this execution has emitted. -/
  | noteSelf
  | fail (message : String)
  | throw (fault : Fault)

structure ScriptedPass where
  name : String
  description : String
  acts : List Act

namespace Script

/-- The state of an execution: the tree, and how often a tag was emitted. -/
structure State where
  tree : ScriptTree
  emissions : Nat := 0

/-- What runs over that state, talks to the engine, and may give up. -/
abbrev Task := ExceptT Fault (StateT State (Dialogue ScriptTree))

structure Context where
  pass : String
  subject : Subject
  /-- The trees of modules that are registered under a name. -/
  template : String → ScriptTree

def say {α : Type} (dialogue : Dialogue ScriptTree α) : Task α :=
  ExceptT.lift (StateT.lift dialogue)

def edit (change : ScriptTree → ScriptTree) : Task Unit :=
  modify fun state => { state with tree := change state.tree }

/-- Register a module and note what came of it. -/
def register (context : Context) (name : String) : Task Unit := do
  match ← say (.register name (context.template name) .done) with
  | some id => edit (·.note ("register " ++ name ++ "=" ++ id.text))
  | none => edit (·.note ("register " ++ name ++ "=none"))

def registerEach (context : Context) (onlyUnknown : Bool) : List String → Task Unit
  | [] => pure ()
  | name :: rest => do
      if onlyUnknown then
        if ← say (.ask name .done) then pure () else register context name
      else register context name
      registerEach context onlyUnknown rest

def repeatTask (task : Task Unit) : Nat → Task Unit
  | 0 => pure ()
  | count + 1 => do
      task
      repeatTask task count

mutual

def perform (context : Context) : Act → Task Unit
  | .emit tag => do
      say (.emit tag .done)
      modify fun state => { state with emissions := state.emissions + 1 }
  | .register name => register context name
  | .registerImports onlyUnknown => do
      registerEach context onlyUnknown (← get).tree.imports
  | .ifKnown name yes no => do
      if ← say (.ask name .done) then performAll context yes else performAll context no
  | .ifNamed name yes no =>
      if context.subject.name = name then performAll context yes else performAll context no
  | .ifIndex index yes no =>
      if context.subject.id.index = index then performAll context yes else performAll context no
  | .countDown counter yes no => do
      let value := ((← get).tree.counter? counter).getD 0
      if 0 < value then
        edit (·.setCounter counter (value - 1))
        performAll context yes
      else
        edit (·.setCounter counter value)
        performAll context no
  | .set counter value => edit (·.setCounter counter value)
  | .times count body => repeatTask (performAll context body) count
  | .noteSelf => do
      let emissions := (← get).emissions
      edit (·.note (context.subject.id.text ++ " " ++ context.subject.name ++ " " ++
        emissions.repr))
  | .fail message => throw (.passFailed context.pass context.subject.name message)
  | .throw fault => throw fault

def performAll (context : Context) : List Act → Task Unit
  | [] => pure ()
  | act :: rest => do
      perform context act
      performAll context rest

end

def execute (context : Context) (acts : List Act) (tree : ScriptTree) :
    Dialogue ScriptTree (Except Fault Unit × ScriptTree) := do
  let (verdict, state) ←
    (performAll context acts).run.run { tree := tree.note context.pass }
  return (verdict, state.tree)

/-- The suite of a list of scripted passes, each named by its position. A position without a pass
does nothing. -/
def suite (passes : List ScriptedPass) (template : String → ScriptTree) :
    PassSuite Nat ScriptTree where
  name index := (passes[index]?.map ScriptedPass.name).getD ""
  description index := (passes[index]?.map ScriptedPass.description).getD ""
  apply index subject tree :=
    match passes[index]? with
    | none => .done (.ok (), tree)
    | some pass => execute { pass := pass.name, subject, template } pass.acts tree

end Script

end PassEngine
