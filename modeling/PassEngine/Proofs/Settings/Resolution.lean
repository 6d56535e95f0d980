import PassEngine.Proofs.Settings.Override
import PassEngine.Run
import PassEngine.Settings.Document
import PassEngine.Settings.Resolution

/-!
# What settings resolve to

The base is read from one file, or it is the standard one; which file that is, and whether its
settings are used at all, is settled before any override is looked at. A base is valid and
overriding does not touch the limit, so that the last check has nothing left to refuse. All of this
holds of any parser of files.
-/

namespace PassEngine.Settings

variable {parse : String → Except TomlFault Settings} {around others : Surroundings}
  {contentAt : String → Except FileFault ByteArray} {settings : Settings} {path : Option String}
  {text named : String} {bytes : ByteArray}

/-! ## Texts and bytes -/

theorem fromUTF8?_eq_some_iff : String.fromUTF8? bytes = some text ↔ bytes = text.toUTF8 := by
  constructor
  · intro h
    unfold String.fromUTF8? at h
    split at h
    · cases h
      rfl
    · cases h
  · rintro rfl
    unfold String.fromUTF8?
    rw [String.toUTF8_eq_toByteArray, dif_pos text.isValidUTF8]
    rfl

theorem fromUTF8?_eq_none_iff : String.fromUTF8? bytes = none ↔ ¬ bytes.IsValidUTF8 := by
  unfold String.fromUTF8?
  split <;> simp_all

theorem variableText_eq_some_iff {name : String} :
    around.variableText name = some text ↔ around.variableBytes name = some text.toUTF8 := by
  unfold Surroundings.variableText
  rw [Option.bind_eq_some_iff]
  constructor
  · rintro ⟨bytes, found, read⟩
    rw [found, fromUTF8?_eq_some_iff.mp read]
  · intro found
    exact ⟨text.toUTF8, found, fromUTF8?_eq_some_iff.mpr rfl⟩

/-- The same surroundings without the variables that have no text. -/
def Surroundings.legible (around : Surroundings) : Surroundings :=
  { around with
    variableBytes := fun name => (around.variableBytes name).filter (·.validateUTF8) }

theorem variableText_legible (around : Surroundings) (name : String) :
    around.legible.variableText name = around.variableText name := by
  show ((around.variableBytes name).filter (·.validateUTF8)).bind String.fromUTF8? =
    (around.variableBytes name).bind String.fromUTF8?
  cases around.variableBytes name with
  | none => rfl
  | some bytes =>
      by_cases legible : bytes.IsValidUTF8
      · rw [Option.filter_some, if_pos (ByteArray.validateUTF8_eq_true_iff.mpr legible)]
      · rw [Option.filter_some, if_neg (by simpa using legible), Option.bind_none,
          Option.bind_some, fromUTF8?_eq_none_iff.mpr legible]

/-! ## Reading a file -/

/-- What reading the file at a path comes to. -/
inductive FileRead (parse : String → Except TomlFault Settings)
    (contentAt : String → Except FileFault ByteArray) (path : String) : Except Fault Settings → Prop
  | unread {cause : FileFault} (found : contentAt path = .error cause) :
      FileRead parse contentAt path (.error (.file cause))
  | illegible {bytes : ByteArray} (found : contentAt path = .ok bytes)
      (illegible : ¬ bytes.IsValidUTF8) :
      FileRead parse contentAt path (.error (.file .notUnicode))
  | misread {text : String} {cause : TomlFault} (found : contentAt path = .ok text.toUTF8)
      (refused : parse text = .error cause) : FileRead parse contentAt path (.error (.toml cause))
  | invalid {text : String} {settings : Settings} (found : contentAt path = .ok text.toUTF8)
      (read : parse text = .ok settings) (limit : settings.refreshLimit = some 0) :
      FileRead parse contentAt path (.error (.settings .zeroRefreshLimit))
  | valid {text : String} {settings : Settings} (found : contentAt path = .ok text.toUTF8)
      (read : parse text = .ok settings) (valid : settings.Valid) :
      FileRead parse contentAt path (.ok settings)

theorem fileRead_load (parse : String → Except TomlFault Settings)
    (contentAt : String → Except FileFault ByteArray) (path : String) :
    FileRead parse contentAt path (load parse contentAt path) := by
  unfold load
  cases found : contentAt path with
  | error cause => exact .unread found
  | ok bytes =>
      cases decoded : String.fromUTF8? bytes with
      | none =>
          simp only [decoded]
          exact .illegible found (fromUTF8?_eq_none_iff.mp decoded)
      | some text =>
          simp only [decoded]
          rw [fromUTF8?_eq_some_iff.mp decoded] at found
          unfold ofText
          cases read : parse text with
          | error cause => exact .misread found read
          | ok settings =>
              by_cases valid : settings.Valid
              · simp only [check, if_pos valid]
                exact .valid found read valid
              · simp only [check, if_neg valid]
                exact .invalid found read (Classical.not_not.mp valid)

theorem FileRead.valid_of_ok (h : FileRead parse contentAt named (.ok settings)) :
    settings.Valid := by
  cases h with
  | valid _ _ valid => exact valid

/-! ## The base -/

/-- Where a base comes from: the file at the given path, the file that the variable names, if its
value is a text, or nowhere. -/
inductive BaseFrom (parse : String → Except TomlFault Settings) (around : Surroundings) :
    Option String → Except Fault Settings → Prop
  | given {path : String} {result : Except Fault Settings}
      (read : FileRead parse around.contentAt path result) :
      BaseFrom parse around (some path) result
  | named {path : String} {result : Except Fault Settings}
      (set : around.variableBytes fileVariable = some path.toUTF8)
      (read : FileRead parse around.contentAt path result) : BaseFrom parse around none result
  | standard (unset : ∀ path : String, around.variableBytes fileVariable ≠ some path.toUTF8) :
      BaseFrom parse around none (.ok default)

theorem baseFrom_base (parse : String → Except TomlFault Settings) (around : Surroundings)
    (path : Option String) : BaseFrom parse around path (base parse around path) := by
  unfold base
  cases path with
  | some path => exact .given (fileRead_load parse around.contentAt path)
  | none =>
      cases chosen : around.variableText fileVariable with
      | some path =>
          have read := fileRead_load parse around.contentAt path
          exact .named (variableText_eq_some_iff.mp chosen) read
      | none =>
          refine .standard fun path set => ?_
          rw [variableText_eq_some_iff.mpr set] at chosen
          cases chosen

theorem valid_of_base (h : base parse around path = .ok settings) : settings.Valid := by
  have origin := baseFrom_base parse around path
  rw [h] at origin
  cases origin with
  | given read => exact read.valid_of_ok
  | named _ read => exact read.valid_of_ok
  | standard => exact valid_default

/-! ## Overrides on top -/

theorem override_keeps (settings : Settings) (lookup : String → Option String) :
    (settings.override lookup).settings.refreshLimit = settings.refreshLimit ∧
      (settings.override lookup).settings.optimizeStringExec = settings.optimizeStringExec := by
  have outcome := outcome_override settings lookup
  generalize settings.override lookup = overridden at outcome
  cases outcome with
  | completed _ applied => exact ⟨applied.refreshLimit, applied.optimizeStringExec⟩
  | stopped _ _ _ _ applied => exact ⟨applied.refreshLimit, applied.optimizeStringExec⟩

theorem check_override (valid : settings.Valid) (lookup : String → Option String) :
    (settings.override lookup).settings.check = .ok () := by
  rw [check_eq_ok_iff, Valid, (override_keeps settings lookup).1]
  exact valid

/-- What an override comes to as a whole. -/
def Overridden.result (overridden : Overridden) : Except Fault Settings :=
  overridden.verdict.map fun _ => overridden.settings

theorem resolve_of_base_error {fault : Fault} (h : base parse around path = .error fault) :
    resolve parse around path = .error fault := by
  unfold resolve
  rw [h]

theorem resolve_of_base_ok (h : base parse around path = .ok settings) :
    resolve parse around path = (settings.override around.variableText).result := by
  -- validity goes from the base through the overrides, so that the last check passes
  have passes := check_override (valid_of_base h) around.variableText
  unfold resolve
  simp only [h, passes, Overridden.result]
  cases (settings.override around.variableText).verdict <;> rfl

/-- A resolution sees of its surroundings the base and the texts of three variables. -/
theorem resolve_congr (sameBase : base parse others path = base parse around path)
    (sameText : ∀ chosen : Variable,
      others.variableText chosen.name = around.variableText chosen.name) :
    resolve parse others path = resolve parse around path := by
  have sameOverride : ∀ settings : Settings,
      settings.override others.variableText = settings.override around.variableText :=
    overrideWith_congr fun chosen _ => congrArg _ (sameText chosen)
  unfold resolve
  simp only [sameBase, sameOverride]

theorem base_given_congr (sameContent : others.contentAt named = around.contentAt named) :
    base parse others (some named) = base parse around (some named) := by
  simp only [base, Option.some_or, load, sameContent]

theorem base_congr (sameContent : others.contentAt = around.contentAt)
    (sameText : others.variableText fileVariable = around.variableText fileVariable) :
    base parse others path = base parse around path := by
  simp only [base, sameContent, sameText]

/-- The variables that set switches do not name a file. -/
theorem Variable.name_ne_fileVariable (chosen : Variable) : chosen.name ≠ fileVariable := by
  cases chosen <;> decide

theorem variableText_congr {name : String}
    (same : others.variableBytes name = around.variableBytes name) :
    others.variableText name = around.variableText name := by
  unfold Surroundings.variableText
  rw [same]

theorem resolve_ok (h : resolve parse around path = .ok settings) :
    ∃ start, base parse around path = .ok start ∧ settings.Valid ∧
      settings.refreshLimit = start.refreshLimit ∧
      settings.optimizeStringExec = start.optimizeStringExec := by
  cases start : base parse around path with
  | error fault =>
      rw [resolve_of_base_error start] at h
      cases h
  | ok origin =>
      have kept := override_keeps origin around.variableText
      have valid := check_override (valid_of_base start) around.variableText
      rw [resolve_of_base_ok start, Overridden.result] at h
      cases passed : (origin.override around.variableText).verdict with
      | error fault =>
          rw [passed] at h
          cases h
      | ok =>
          rw [passed] at h
          cases h
          exact ⟨origin, rfl, check_eq_ok_iff.mp valid, kept⟩

/-- The base is settled first, whatever the parser finds in files. A given path leaves the variable
that names a file without a say, and a base that is a fault is the result whatever the switches are
to be set to. Otherwise the result is that of overriding the base, the last check has nothing to
refuse, and a variable without a text is as good as none. What comes out is fit for every engine,
with the limit and the treatment of `exec` of the base. -/
theorem resolved_in_layers (parse : String → Except TomlFault Settings) (around : Surroundings)
    (path : Option String) :
    BaseFrom parse around path (base parse around path) ∧
    (∀ named, path = some named → ∀ others : Surroundings,
      others.contentAt named = around.contentAt named →
      (∀ name ≠ fileVariable, others.variableBytes name = around.variableBytes name) →
      resolve parse others path = resolve parse around path) ∧
    (∀ fault, base parse around path = .error fault → ∀ others : Surroundings,
      others.contentAt = around.contentAt →
      others.variableBytes fileVariable = around.variableBytes fileVariable →
      resolve parse others path = .error fault) ∧
    (∀ start, base parse around path = .ok start →
      resolve parse around path = (start.override around.variableText).result ∧
      (start.override around.variableText).settings.check = .ok ()) ∧
    resolve parse around.legible path = resolve parse around path ∧
    (∀ settings, resolve parse around path = .ok settings →
      settings.refreshLimit ≠ some 0 ∧
      (∀ {ρ : Type} (table : RuleTable ρ),
        ∃ valid, Engine.of table settings = .ok ⟨table, settings, valid⟩) ∧
      ∃ start, base parse around path = .ok start ∧
        settings.refreshLimit = start.refreshLimit ∧
        settings.optimizeStringExec = start.optimizeStringExec) := by
  refine ⟨baseFrom_base parse around path, ?_, ?_, ?_, ?_, ?_⟩
  · rintro named rfl others sameContent sameBytes
    apply resolve_congr (base_given_congr sameContent)
    intro chosen
    exact variableText_congr (sameBytes chosen.name chosen.name_ne_fileVariable)
  · intro fault failed others sameContent sameBytes
    apply resolve_of_base_error
    rw [base_congr sameContent (variableText_congr sameBytes), failed]
  · intro start found
    exact ⟨resolve_of_base_ok found, check_override (valid_of_base found) around.variableText⟩
  · apply resolve_congr
    · exact base_congr rfl (variableText_legible around fileVariable)
    · exact fun chosen => variableText_legible around chosen.name
  · intro settings resolved
    obtain ⟨start, found, valid, kept⟩ := resolve_ok resolved
    refine ⟨valid, ?_, start, found, kept⟩
    intro ρ table
    exact ⟨valid, dif_pos valid⟩

/-- The variable names a file that allows no refresh at all. This is a fault, whatever the switches,
but not when another path is given. -/
theorem resolved_in_layers_past_broken_file :
    let around : Surroundings :=
      { contentAt := fun path =>
          if path = "low" then .ok "max_refresh_cycles = 7\n".toUTF8
          else .ok "max_refresh_cycles = 0\n".toUTF8
        variableBytes := fun name =>
          if name = "TAGOPT_CONFIG" then some "broken".toUTF8
          else if name = "TAGOPT_MODULE_MODE" then some "on".toUTF8
          else some ⟨#[0xFF]⟩ }
    let unnamed : Surroundings :=
      { around with
        variableBytes := fun name =>
          if name = "TAGOPT_CONFIG" then none else around.variableBytes name }
    let unsound : Surroundings :=
      { around with
        variableBytes := fun name =>
          if name = "TAGOPT_CONFIG" then around.variableBytes name else some "maybe".toUTF8 }
    let low : Settings := { default with moduleMode := true, refreshLimit := some 7 }
    resolve ofDocument around (some "low") = .ok low ∧
    resolve ofDocument unnamed (some "low") = .ok low ∧
    resolve ofDocument around.legible (some "low") = .ok low ∧ low.refreshLimit ≠ some 0 ∧
    resolve ofDocument unsound none = .error (.settings .zeroRefreshLimit) := by
  intro around unnamed unsound low
  obtain ⟨_, given, _, overridden, legible, fit⟩ :=
    resolved_in_layers ofDocument around (some "low")
  obtain ⟨_, _, failed, _⟩ := resolved_in_layers ofDocument around none
  have start : base ofDocument around (some "low") =
      .ok { default with refreshLimit := some 7 } := by rfl
  have broken : base ofDocument around none = .error (.settings .zeroRefreshLimit) := by rfl
  have resolved : resolve ofDocument around (some "low") = .ok low := by
    rw [(overridden _ start).1]
    rfl
  refine ⟨resolved, ?_, legible.trans resolved, (fit low resolved).1, ?_⟩
  · rw [given "low" rfl unnamed rfl fun name different => if_neg different, resolved]
  · exact failed _ broken unsound rfl rfl

end PassEngine.Settings
