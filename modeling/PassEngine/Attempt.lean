import PassEngine.Run

/-!
# Attempts on registered modules

An attempt borrows the tree of a module from the store, runs the engine on it, and puts the tree
back, whatever the run came to.
-/

namespace PassEngine

/-- What happened in a run on a module, and how the run ended. -/
structure Transcript (ρ : Type) where
  subject : Subject
  events : List (Event ρ)
  status : Status

def Run.transcript {ρ τ : Type} (run : Run ρ τ) (subject : Subject) : Transcript ρ :=
  ⟨subject, run.events, run.status⟩

structure Attempt (ρ τ : Type) where
  verdict : Except Fault ModuleReport
  store : ModuleStore τ
  /-- What the run did, unless the tree could not be borrowed. -/
  transcript : Option (Transcript ρ)

namespace Engine

variable {ρ τ : Type} [DecidableEq ρ]

/-- An attempt that never got the tree of its module and leaves the store alone. -/
def refuse (store : ModuleStore τ) (fault : Fault) : Attempt ρ τ := ⟨.error fault, store, none⟩

def conclude (suite : PassSuite ρ τ) (subject : Subject) (run : Run ρ τ) : Option (Attempt ρ τ) :=
  (run.verdict? suite subject).map fun verdict =>
    let transcript := some (run.transcript subject)
    match run.store.restore subject.id run.tree with
    | .error fault => ⟨.error fault, run.store, transcript⟩
    | .ok store => ⟨verdict, store, transcript⟩

/-- Optimize a registered module in place. There is no answer if the run needs more steps. -/
def attempt (engine : Engine ρ) (suite : PassSuite ρ τ) (fuel : Nat) (id : ModuleId)
    (store : ModuleStore τ) : Option (Attempt ρ τ) :=
  match store.nameOf id with
  | .error fault => some (refuse store fault)
  | .ok name =>
      match store.lend id with
      | .error fault => some (refuse store fault)
      | .ok (tree, lent) =>
          let subject := ⟨id, name⟩
          conclude suite subject (engine.run suite fuel subject tree lent)

end Engine

end PassEngine
