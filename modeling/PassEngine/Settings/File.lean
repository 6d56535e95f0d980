import PassEngine.Settings

/-!
# Settings in files

A file holds settings if its content is a text, if a parser finds settings in the text, and if
these settings are valid. What the text looks like is the business of the parser, which may be any
function from texts to settings.
-/

namespace PassEngine.Settings

variable (parse : String → Except TomlFault Settings)

/-- The valid settings that a parser finds in a text. -/
def ofText (text : String) : Except Fault Settings :=
  match parse text with
  | .error cause => .error (.toml cause)
  | .ok settings => settings.check.map fun _ => settings

def load (contentAt : String → Except FileFault ByteArray) (path : String) :
    Except Fault Settings :=
  match contentAt path with
  | .error cause => .error (.file cause)
  | .ok bytes =>
      match String.fromUTF8? bytes with
      | none => .error (.file .notUnicode)
      | some text => ofText parse text

end PassEngine.Settings
