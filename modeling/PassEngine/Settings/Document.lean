import PassEngine.Settings.Reading
import PassEngine.Toml.Document

/-!
# Settings as documents

Settings are written as a TOML document with one key to a line, and read from any TOML document
whose values suit their keys.
-/

namespace PassEngine

/-- What settings can see of a value in a document. -/
def Toml.Value.setting : Toml.Value → Setting
  | .boolean value => .boolean value
  | .integer value => .integer value
  | _ => .other

namespace Settings

/-- The settings that a document describes. They need not be valid. -/
def ofDocument (text : String) : Except TomlFault Settings :=
  match Toml.read text with
  | none => .error .malformed
  | some entries => ofKeys fun key => (entries.find? key).map Toml.Value.setting

/-! ## Lines -/

inductive Line where
  | switch (chosen : Switch) (value : Bool)
  | limit (refreshes : Nat)
deriving DecidableEq

namespace Line

def key : Line → String
  | switch chosen _ => chosen.key
  | limit _ => limitKey

/-- The value as documents write it. -/
def text : Line → String
  | switch _ value => if value then "true" else "false"
  | limit refreshes => refreshes.repr

def written (line : Line) : String := line.key ++ " = " ++ line.text ++ "\n"

end Line

/-- The document with these lines and no others. -/
def document (lines : List Line) : String := String.join (lines.map Line.written)

/-- The lines for settings, in the order of the keys. No limit is no line. -/
def lines (settings : Settings) : List Line :=
  Switch.all.map (fun switch => .switch switch (settings.switch switch)) ++
    settings.refreshLimit.toList.map .limit

/-- The document that describes settings. Integers of documents have a sign, so that a limit
beyond them cannot be written. -/
def toDocument? (settings : Settings) : Option String :=
  if settings.refreshLimit.all (· < Toml.wordBound) then some (document settings.lines) else none

end Settings

end PassEngine
