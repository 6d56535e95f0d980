import PassEngine.Settings
import PassEngine.Text.Blank

/-!
# Overrides

Single switches can be set from outside by variables. The variables are asked for one after the
other, and the first value that is no boolean ends it; what was set before stays set.
-/

namespace PassEngine.Settings

/-! ## Booleans -/

def trueWords : List String := ["1", "true", "yes", "on"]

/-- The words for false; no word at all is one of them. -/
def falseWords : List String := ["0", "false", "no", "off", ""]

/-- The part of a text that counts for a boolean: trimmed and in small letters. -/
def booleanWord (text : String) : String := Text.lowercase (Text.trim text)

def boolean? (text : String) : Option Bool :=
  if booleanWord text ∈ trueWords then some true
  else if booleanWord text ∈ falseWords then some false
  else none

/-! ## Variables -/

inductive Variable where
  | showProgress
  | valuePropagation
  | moduleMode
deriving DecidableEq

namespace Variable

def name : Variable → String
  | showProgress => "TAGOPT_SHOW_PROGRESS"
  | valuePropagation => "TAGOPT_VALUE_PROPAGATION"
  | moduleMode => "TAGOPT_MODULE_MODE"

def set (settings : Settings) (value : Bool) : Variable → Settings
  | showProgress => { settings with showProgress := value }
  | valuePropagation => { settings with valuePropagation := value }
  | moduleMode => { settings with moduleMode := value }

/-- The variables in the order in which they are asked for. -/
def all : List Variable := [showProgress, valuePropagation, moduleMode]

end Variable

/-- What overriding comes to: the settings, the names asked for in order, and the verdict. -/
structure Overridden where
  settings : Settings
  asked : List String
  verdict : Except Fault Unit

def overrideWith (lookup : String → Option String) : List Variable → Settings → Overridden
  | [], settings => ⟨settings, [], .ok ()⟩
  | chosen :: rest, settings =>
      let name := chosen.name
      let onward := fun (settings : Settings) =>
        let later := overrideWith lookup rest settings
        { later with asked := name :: later.asked }
      match lookup name with
      | none => onward settings
      | some text =>
          match boolean? text with
          | some value => onward (chosen.set settings value)
          | none => ⟨settings, [name], .error (.settings (.notBoolean name (booleanWord text)))⟩

def override (settings : Settings) (lookup : String → Option String) : Overridden :=
  overrideWith lookup Variable.all settings

end PassEngine.Settings
