import PassEngine.Fault

/-!
# Settings

The settings of an engine are fixed before it runs. Rules see them through `Settings.flag`
only; the limit of refreshes and the wish for progress lines concern the engine itself.
-/

namespace PassEngine

/-- What can be chosen before a run. -/
structure Settings where
  valuePropagation : Bool := false
  moduleMode : Bool := false
  optimizeStringExec : Bool := true
  /-- Whether lines for a human reader are written to the journal. -/
  showProgress : Bool := false
  /-- How many refreshes one module may take, if there is a limit. -/
  refreshLimit : Option Nat := some 10000
deriving DecidableEq

namespace Settings

def default : Settings := {}

def flag (settings : Settings) : Flag → Bool
  | .valuePropagation => settings.valuePropagation
  | .moduleMode => settings.moduleMode
  | .optimizeStringExec => settings.optimizeStringExec

/-- A limit, if there is one, allows at least one refresh. -/
def Valid (settings : Settings) : Prop := settings.refreshLimit ≠ some 0

instance (settings : Settings) : Decidable settings.Valid :=
  inferInstanceAs (Decidable (settings.refreshLimit ≠ some 0))

def check (settings : Settings) : Except Fault Unit :=
  if settings.Valid then .ok () else .error (.settings .zeroRefreshLimit)

theorem check_eq_ok_iff {settings : Settings} : settings.check = .ok () ↔ settings.Valid := by
  unfold check
  split <;> simp_all

theorem valid_default : default.Valid := by decide

end Settings

def Guard.holds (guard : Guard) (settings : Settings) : Bool :=
  match guard with
  | .enabled flag => settings.flag flag
  | .disabled flag => !settings.flag flag

end PassEngine
