import PassEngine.Flag
import PassEngine.ModuleId

/-!
# Faults

What can go wrong, told apart by cause, and the one function that words each cause.
-/

namespace PassEngine

inductive RuleFault where
  | noTargets (index : Nat)
  /-- The rule at this position would match always. -/
  | noTags (index : Nat)
  /-- A guard stands before every rule, so that it guards none. -/
  | strayGuard (guard : Guard)
  /-- A cause in the words of whoever reports it. -/
  | stated (text : String)
deriving DecidableEq

inductive SettingsFault where
  | zeroRefreshLimit
  /-- The value of a variable, trimmed and in small letters, is no boolean. -/
  | notBoolean (key value : String)
  /-- A cause in the words of whoever reports it. -/
  | stated (text : String)
deriving DecidableEq

/-- Why a file cannot be read as text. -/
inductive FileFault where
  | missing
  | isDirectory
  /-- The path leads through a file. -/
  | notDirectory
  /-- A component or the whole path is too long. -/
  | nameTooLong
  | nulInName
  | notUnicode
  /-- A cause in the words of whoever reports it. -/
  | stated (text : String)
deriving DecidableEq

/-- Why a text is not accepted as a configuration file. -/
inductive TomlFault where
  | malformed
  /-- A key that the settings know has a value of another kind. -/
  | unsuitable
  | surplus
  /-- A cause in the words of whoever reports it. -/
  | stated (text : String)
deriving DecidableEq

/-- Everything that can end a piece of work early. -/
inductive Fault where
  | passFailed (pass module message : String)
  | rule (cause : RuleFault)
  /-- A module did not settle within the limit of refreshes. -/
  | refreshLimit (module : String) (limit : Nat)
  | unknownModule (id : ModuleId)
  /-- The tree of the module is lent out. -/
  | moduleInUse (module : String)
  | settings (cause : SettingsFault)
  | file (cause : FileFault)
  | toml (cause : TomlFault)
deriving DecidableEq

/-! ## Wording -/

def RuleFault.message : RuleFault → String
  | noTargets index => "rule " ++ index.repr ++ " has no target passes"
  | noTags index => "rule " ++ index.repr ++ " requires no tags"
  | strayGuard guard => "condition " ++ guard.label ++ " before any rule"
  | stated text => text

def SettingsFault.message : SettingsFault → String
  | zeroRefreshLimit => "max_refresh_cycles must be greater than 0"
  | notBoolean key value => key ++ ": expected a boolean, got '" ++ value ++ "'"
  | stated text => text

def FileFault.message : FileFault → String
  | missing => "No such file or directory (os error 2)"
  | isDirectory => "Is a directory (os error 21)"
  | notDirectory => "Not a directory (os error 20)"
  | nameTooLong => "File name too long (os error 36)"
  | nulInName => "file name contained an unexpected NUL byte"
  | notUnicode => "stream did not contain valid UTF-8"
  | stated text => text

def TomlFault.message : TomlFault → String
  | malformed => "malformed document"
  | unsuitable => "unsuitable value"
  | surplus => "more values than keys"
  | stated text => text

namespace Fault

def message : Fault → String
  | passFailed pass module message =>
      "Pass '" ++ pass ++ "' failed on module '" ++ module ++ "': " ++ message
  | rule cause => "Invalid eligibility rule: " ++ cause.message
  | refreshLimit module limit =>
      "Module '" ++ module ++ "' exceeded the limit of " ++ limit.repr ++
        " refresh cycles without reaching a fixpoint"
  | unknownModule id => "Unknown module id: " ++ id.text
  | moduleInUse module => "Module '" ++ module ++ "' is already being optimized"
  | settings cause => "Invalid configuration: " ++ cause.message
  | file cause => "I/O error: " ++ cause.message
  | toml cause => "Configuration parse error: " ++ cause.message

/-- Whether a pass gave up, as opposed to the engine. -/
def blamesPass : Fault → Bool
  | passFailed .. => true
  | _ => false

end Fault

end PassEngine
