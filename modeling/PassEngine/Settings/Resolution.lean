import PassEngine.Settings.File
import PassEngine.Settings.Override

/-!
# Resolution of settings

The settings of a run come from a base with overrides on top. The base is the file at a given
path; without a path, the file that a variable names; without that, the standard settings.
-/

namespace PassEngine.Settings

structure Surroundings where
  contentAt : String → Except FileFault ByteArray
  variableBytes : String → Option ByteArray

/-- The value of a variable as text; what is not UTF-8 counts as unset. -/
def Surroundings.variableText (around : Surroundings) (name : String) : Option String :=
  (around.variableBytes name).bind String.fromUTF8?

def fileVariable : String := "TAGOPT_CONFIG"

variable (parse : String → Except TomlFault Settings)

/-- The settings before overrides. -/
def base (around : Surroundings) (path : Option String) : Except Fault Settings :=
  match path.or (around.variableText fileVariable) with
  | some path => load parse around.contentAt path
  | none => .ok default

/-- The settings in force: base, overrides, and a last check. -/
def resolve (around : Surroundings) (path : Option String) : Except Fault Settings :=
  match base parse around path with
  | .error fault => .error fault
  | .ok settings =>
      let overridden := settings.override around.variableText
      match overridden.verdict with
      | .error fault => .error fault
      | .ok () => overridden.settings.check.map fun _ => overridden.settings

end PassEngine.Settings
