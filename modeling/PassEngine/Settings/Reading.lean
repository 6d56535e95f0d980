import PassEngine.Settings

/-!
# Settings from keys and values

A configuration gives values to keys. A key that is missing leaves the standard value, and keys
that the settings do not know are not looked at. A list of values stands for the keys in their
order, as far as it goes; a list that is longer than the keys is refused.
-/

namespace PassEngine

/-- What settings can see of a value. -/
inductive Setting where
  | boolean (value : Bool)
  | integer (value : Int)
  /-- The absence of a value, said outright. -/
  | nothing
  | other
deriving DecidableEq

namespace Settings

/-! ## Keys -/

/-- The settings that are booleans. -/
inductive Switch where
  | flag (flag : Flag)
  | progress
deriving DecidableEq

namespace Switch

def key : Switch → String
  | flag chosen => chosen.key
  | progress => "show_progress"

def all : List Switch :=
  [flag .valuePropagation, flag .moduleMode, flag .optimizeStringExec, progress]

theorem mem_all (switch : Switch) : switch ∈ all := by
  cases switch with
  | flag chosen => cases chosen <;> simp [all]
  | progress => simp [all]

end Switch

def switch (settings : Settings) : Switch → Bool
  | .flag flag => settings.flag flag
  | .progress => settings.showProgress

def limitKey : String := "max_refresh_cycles"

/-- All keys, in the order in which a list of values stands for them. -/
def keys : List String := Switch.all.map Switch.key ++ [limitKey]

/-! ## Values -/

/-- Limits are unsigned words of sixty-four bits. -/
def limitBound : Nat := Nat.pow 2 64

def readSwitch (find : String → Option Setting) (switch : Switch) : Except TomlFault Bool :=
  match find switch.key with
  | none => .ok (default.switch switch)
  | some (.boolean value) => .ok value
  | some _ => .error .unsuitable

def readLimit (find : String → Option Setting) : Except TomlFault (Option Nat) :=
  match find limitKey with
  | none => .ok default.refreshLimit
  | some .nothing => .ok none
  | some (.integer n) =>
      if 0 ≤ n && n < limitBound then .ok (some n.toNat) else .error .unsuitable
  | some _ => .error .unsuitable

/-- The settings that keys and values describe. They need not be valid. -/
def ofKeys (find : String → Option Setting) : Except TomlFault Settings := do
  let valuePropagation ← readSwitch find (.flag .valuePropagation)
  let moduleMode ← readSwitch find (.flag .moduleMode)
  let optimizeStringExec ← readSwitch find (.flag .optimizeStringExec)
  let showProgress ← readSwitch find .progress
  let refreshLimit ← readLimit find
  return { valuePropagation, moduleMode, optimizeStringExec, showProgress, refreshLimit }

/-- The settings that a list of values describes, the first value standing for the first key. -/
def ofValues (values : List Setting) : Except TomlFault Settings :=
  if values.length ≤ keys.length then ofKeys fun key => (keys.zip values).lookup key
  else .error .surplus

end Settings

end PassEngine
