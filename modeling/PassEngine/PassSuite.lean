import PassEngine.Dialogue

/-!
# Suites of passes

Passes are named by the values of a type; a suite says what each of them is called and does.
-/

namespace PassEngine

structure Subject where
  id : ModuleId
  name : String
deriving DecidableEq

/-- The passes named by the values of `ρ`, which work on trees of type `τ`. -/
structure PassSuite (ρ τ : Type) where
  name : ρ → String
  description : ρ → String := fun _ => ""
  /-- Work on a tree. A pass that gives up keeps what it has done to the tree. -/
  apply : ρ → Subject → τ → Dialogue τ (Except Fault Unit × τ)

end PassEngine
