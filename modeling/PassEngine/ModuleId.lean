/-!
# Module identities

A module is identified by its position in the order of registration.
-/

namespace PassEngine

/-- The identity of a module: its position in the order of registration. -/
structure ModuleId where
  index : Nat
deriving DecidableEq

namespace ModuleId

def text (id : ModuleId) : String := "#" ++ id.index.repr

def before (first second : ModuleId) : Bool := first.index < second.index

end ModuleId

end PassEngine
