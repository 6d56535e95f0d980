/-!
# Flags and guards

A flag is a switch of the settings that rules may ask about. A guard asks for one value of one
flag.
-/

namespace PassEngine

/-- The switches that a rule may depend on. -/
inductive Flag where
  /-- Value propagation takes the place of several local folding passes. -/
  | valuePropagation
  /-- A single module is compiled instead of a whole program. -/
  | moduleMode
  /-- Constant strings that are executed are optimized as code. -/
  | optimizeStringExec
deriving DecidableEq

namespace Flag

def all : List Flag := [.valuePropagation, .moduleMode, .optimizeStringExec]

def key : Flag → String
  | valuePropagation => "value_propagation"
  | moduleMode => "module_mode"
  | optimizeStringExec => "optimize_string_exec"

def ofKey? (key : String) : Option Flag := all.find? (·.key == key)

def label : Flag → String
  | valuePropagation => "ValuePropagation"
  | moduleMode => "ModuleMode"
  | optimizeStringExec => "OptimizeStringExec"

theorem mem_all (flag : Flag) : flag ∈ all := by
  cases flag <;> simp [all]

@[simp] theorem ofKey?_key (flag : Flag) : ofKey? flag.key = some flag := by
  cases flag <;> decide

end Flag

/-- A demand on one flag. -/
inductive Guard where
  | enabled (flag : Flag)
  | disabled (flag : Flag)
deriving DecidableEq

namespace Guard

def flag : Guard → Flag
  | enabled flag => flag
  | disabled flag => flag

def label : Guard → String
  | enabled flag => "Enabled(" ++ flag.label ++ ")"
  | disabled flag => "Disabled(" ++ flag.label ++ ")"

end Guard

end PassEngine
