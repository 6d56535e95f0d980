import Mathlib.Algebra.Group.Nat.Defs
import Mathlib.Data.List.Nodup
import Mathlib.Tactic.Choose
import PassEngine.Proofs.Toml.PlainDocument
import PassEngine.Settings.Document
import PassEngine.Settings.File

/-!
# Settings written and read back

A writer puts every key with a value on a line of its own, and a parser takes the values from the
lines and leaves the standard value where there is no line. Whatever else the two do, settings with
a limit are read back as they were written. The absence of a limit is not: no line stands for it.
-/

namespace PassEngine.Settings

/-! ## Writers and parsers -/

/-- The settings have what the lines state, and the standard values for the other keys. -/
structure Describes (lines : List Line) (settings : Settings) : Prop where
  stated : ∀ line ∈ lines, line ∈ settings.lines
  standard : ∀ line ∈ default.lines, line.key ∉ lines.map Line.key → line ∈ settings.lines

/-- Settings are written line by line, unless their limit is more than a signed word. -/
structure WritesLines (write : Settings → Option String) : Prop where
  succeeds : ∀ settings, (write settings).isSome ↔
    ∀ limit, settings.refreshLimit = some limit → limit < 2 ^ 63
  text : ∀ settings text, write settings = some text → text = document settings.lines

/-- Lines for different keys are read as what they state. -/
structure ReadsLines (parse : String → Except TomlFault Settings) : Prop where
  reads : ∀ lines, (lines.map Line.key).Nodup → (∀ limit, .limit limit ∈ lines → limit < 2 ^ 63) →
    ∃ settings, parse (document lines) = .ok settings ∧ Describes lines settings

variable {settings other : Settings} {lines : List Line} {line : Line}

/-! ## The lines of settings -/

theorem switch_mem_lines {chosen : Switch} {value : Bool} :
    .switch chosen value ∈ settings.lines ↔ settings.switch chosen = value := by
  simp [Settings.lines, Switch.mem_all]

theorem limit_mem_lines {limit : Nat} :
    .limit limit ∈ settings.lines ↔ settings.refreshLimit = some limit := by
  simp [Settings.lines]

theorem keys_lines (settings : Settings) :
    settings.lines.map Line.key =
      Switch.all.map Switch.key ++ settings.refreshLimit.toList.map fun _ => limitKey := by
  simp [Settings.lines, Function.comp_def, Line.key]

theorem nodup_keys_lines (settings : Settings) : (settings.lines.map Line.key).Nodup := by
  have distinct : keys.Nodup := by decide
  refine distinct.sublist ?_
  rw [keys_lines, keys]
  apply List.Sublist.append_left
  cases settings.refreshLimit with
  | none => exact List.nil_sublist _
  | some limit => exact List.Sublist.refl _

theorem Switch.key_injective {first second : Switch} (same : first.key = second.key) :
    first = second := by
  have distinct : (Switch.all.map Switch.key).Nodup := by decide
  exact List.inj_on_of_nodup_map distinct first.mem_all second.mem_all same

theorem Switch.key_ne_limitKey (chosen : Switch) : chosen.key ≠ limitKey := by
  have apart : limitKey ∉ Switch.all.map Switch.key := by decide
  intro same
  exact apart (same ▸ List.mem_map_of_mem chosen.mem_all)

theorem ext_of_switch (switch : ∀ chosen, settings.switch chosen = other.switch chosen)
    (limit : settings.refreshLimit = other.refreshLimit) : settings = other := by
  have propagation := switch (.flag .valuePropagation)
  have mode := switch (.flag .moduleMode)
  have exec := switch (.flag .optimizeStringExec)
  have progress := switch .progress
  cases settings
  cases other
  simp_all [Settings.switch, flag]

/-- A key without a line can only be that of the limit. -/
theorem Describes.eq_or_default (h : Describes settings.lines other) :
    other = { settings with refreshLimit := settings.refreshLimit.or default.refreshLimit } := by
  apply ext_of_switch
  · intro chosen
    exact switch_mem_lines.mp (h.stated _ (switch_mem_lines.mpr rfl))
  · cases limit : settings.refreshLimit with
    | some refreshes => exact limit_mem_lines.mp (h.stated _ (limit_mem_lines.mpr limit))
    | none =>
        have missing : limitKey ∉ settings.lines.map Line.key := by
          rw [keys_lines, limit]
          decide
        exact limit_mem_lines.mp (h.standard _ (limit_mem_lines.mpr rfl) missing)

/-! ## The concrete writer -/

theorem writesLines_toDocument? : WritesLines toDocument? where
  succeeds := by
    intro settings
    have fits : settings.refreshLimit.all (· < Toml.wordBound) ↔
        ∀ limit, settings.refreshLimit = some limit → limit < 2 ^ 63 := by
      cases settings.refreshLimit with
      | none => simp
      | some limit =>
          rw [Option.all_some, decide_eq_true_iff]
          constructor
          · rintro word _ ⟨⟩
            exact word
          · exact fun words => words limit rfl
    rw [← fits, toDocument?]
    split <;> simp_all
  text := by
    intro settings text written
    unfold toDocument? at written
    split at written
    · cases written
      rfl
    · cases written

/-! ## The concrete parser -/

theorem Switch.bare_key (chosen : Switch) :
    chosen.key.toList.all Toml.isBare ∧ chosen.key.toList ≠ [] := by
  cases chosen with
  | flag chosen => cases chosen <;> decide
  | progress => decide

theorem bare_limitKey : limitKey.toList.all Toml.isBare ∧ limitKey.toList ≠ [] := by decide

namespace Line

/-- The value on a line. -/
def value : Line → Toml.Value
  | switch _ value => .boolean value
  | limit refreshes => .integer refreshes

/-- The entry of a line in the table of its document. -/
def entry (line : Line) : String × Toml.Value := (line.key, line.value)

/-- The limit on a line is a signed word, if the line has one. -/
def Fits (line : Line) : Prop := ∀ limit, line = .limit limit → limit < Toml.wordBound

theorem bare_key (line : Line) : line.key.toList.all Toml.isBare ∧ line.key.toList ≠ [] := by
  cases line with
  | switch chosen value => exact chosen.bare_key
  | limit refreshes => exact bare_limitKey

theorem reads (fits : line.Fits) (rest : List Char) :
    Toml.value Toml.maxLevels (Toml.skipSpaces (line.text.toList ++ '\n' :: rest)) =
      some (line.value, '\n' :: rest) := by
  cases line with
  | switch chosen value => exact Toml.value_boolean value Toml.maxLevels rest
  | limit refreshes => exact Toml.value_integer (fits refreshes rfl) Toml.maxLevels rest

/-- A line as an assignment of a plain document. -/
def assignment (line : Line) (fits : line.Fits) : Toml.Assignment where
  key := line.key
  text := line.text
  value := line.value
  bare := line.bare_key.1
  nonempty := line.bare_key.2
  reads := reads fits

theorem map_assignments {α : Type} (fits : ∀ line ∈ lines, line.Fits) {f : Toml.Assignment → α}
    {g : Line → α} (same : ∀ line fits, f (assignment line fits) = g line) :
    (lines.pmap assignment fits).map f = lines.map g := by
  rw [List.map_pmap]
  simp only [same]
  exact List.pmap_eq_map fits

end Line

theorem read_document (distinct : (lines.map Line.key).Nodup)
    (fits : ∀ line ∈ lines, line.Fits) :
    Toml.read (document lines) = some (lines.map Line.entry) := by
  have keys : (lines.pmap Line.assignment fits).map Toml.Assignment.key = lines.map Line.key :=
    Line.map_assignments fits fun _ _ => rfl
  have entries : (lines.pmap Line.assignment fits).map Toml.Assignment.entry =
      lines.map Line.entry := Line.map_assignments fits fun _ _ => rfl
  have text : Toml.plainText (lines.pmap Line.assignment fits) = document lines :=
    congrArg String.join (Line.map_assignments fits fun _ _ => rfl)
  rw [← keys] at distinct
  rw [← text, Toml.read_plainText distinct, entries]

/-- What the table of a document with these lines has under a key. -/
def lookup (lines : List Line) (key : String) : Option Setting :=
  (Toml.Entries.find? (lines.map Line.entry) key).map Toml.Value.setting

theorem ofDocument_document (distinct : (lines.map Line.key).Nodup)
    (fits : ∀ line ∈ lines, line.Fits) : ofDocument (document lines) = ofKeys (lookup lines) := by
  unfold ofDocument
  rw [read_document distinct fits]
  rfl

theorem lookup_cases (lines : List Line) (key : String) :
    (lookup lines key = none ∧ key ∉ lines.map Line.key) ∨
      ∃ line ∈ lines, line.key = key ∧ lookup lines key = some line.value.setting := by
  have found : lookup lines key =
      (lines.find? (·.key == key)).map fun line => line.value.setting := by
    simp [lookup, Toml.Entries.find?, List.find?_map, Function.comp_def, Line.entry]
  cases h : lines.find? (·.key == key) with
  | none =>
      refine .inl ⟨by rw [found, h, Option.map_none], ?_⟩
      simpa using h
  | some line =>
      refine .inr ⟨line, List.mem_of_find?_eq_some h, ?_, by rw [found, h, Option.map_some]⟩
      simpa using List.find?_some h

theorem Line.eq_switch_of_key {chosen : Switch} (h : line.key = chosen.key) :
    ∃ value, line = .switch chosen value := by
  cases line with
  | switch other value =>
      cases Switch.key_injective h
      exact ⟨value, rfl⟩
  | limit refreshes => exact absurd h.symm chosen.key_ne_limitKey

theorem Line.eq_limit_of_key (h : line.key = limitKey) : ∃ limit, line = .limit limit := by
  cases line with
  | switch chosen value => exact absurd h chosen.key_ne_limitKey
  | limit refreshes => exact ⟨refreshes, rfl⟩

/-- The line is there, or it is the standard one for a key that has no line. -/
def Supplied (lines : List Line) (line : Line) : Prop :=
  line ∈ lines ∨ line ∈ default.lines ∧ line.key ∉ lines.map Line.key

theorem readSwitch_lookup (lines : List Line) (chosen : Switch) :
    ∃ value, readSwitch (lookup lines) chosen = .ok value ∧
      Supplied lines (.switch chosen value) := by
  unfold readSwitch
  rcases lookup_cases lines chosen.key with ⟨missing, absent⟩ | ⟨line, there, key, found⟩
  · rw [missing]
    exact ⟨_, rfl, .inr ⟨switch_mem_lines.mpr rfl, absent⟩⟩
  · obtain ⟨value, rfl⟩ := Line.eq_switch_of_key key
    rw [found]
    exact ⟨value, rfl, .inl there⟩

theorem readLimit_lookup (fits : ∀ line ∈ lines, line.Fits) :
    ∃ limit, readLimit (lookup lines) = .ok (some limit) ∧ Supplied lines (.limit limit) := by
  unfold readLimit
  rcases lookup_cases lines limitKey with ⟨missing, absent⟩ | ⟨line, there, key, found⟩
  · rw [missing]
    exact ⟨_, rfl, .inr ⟨limit_mem_lines.mpr rfl, absent⟩⟩
  · obtain ⟨limit, rfl⟩ := Line.eq_limit_of_key key
    have word : limit < Toml.wordBound := fits _ there limit rfl
    have bound : limit < limitBound := Nat.lt_trans word (by decide)
    rw [found]
    refine ⟨limit, ?_, .inl there⟩
    simp [Line.value, Toml.Value.setting, bound]

/-- Lines that are supplied for one key are one line. -/
theorem Supplied.eq {first second : Line} (distinct : (lines.map Line.key).Nodup)
    (here : Supplied lines first) (there : Supplied lines second) (same : first.key = second.key) :
    first = second := by
  rcases here with here | ⟨here, missing⟩
  · rcases there with there | ⟨_, missing⟩
    · exact List.inj_on_of_nodup_map distinct here there same
    · exact absurd (same ▸ List.mem_map_of_mem here) missing
  · rcases there with there | ⟨there, _⟩
    · exact absurd (same ▸ List.mem_map_of_mem there) missing
    · exact List.inj_on_of_nodup_map (nodup_keys_lines default) here there same

theorem describes_of_supplied {limit : Nat} (distinct : (lines.map Line.key).Nodup)
    (switch : ∀ chosen, Supplied lines (.switch chosen (settings.switch chosen)))
    (limited : settings.refreshLimit = some limit) (bound : Supplied lines (.limit limit)) :
    Describes lines settings := by
  have every : ∀ line, Supplied lines line → line ∈ settings.lines := by
    intro line supplied
    cases line with
    | switch chosen value =>
        cases (switch chosen).eq distinct supplied rfl
        exact switch_mem_lines.mpr rfl
    | limit refreshes =>
        cases bound.eq distinct supplied rfl
        exact limit_mem_lines.mpr limited
  exact ⟨fun line here => every line (.inl here),
    fun line standard missing => every line (.inr ⟨standard, missing⟩)⟩

theorem readsLines_ofDocument : ReadsLines ofDocument where
  reads := by
    intro lines distinct words
    have fits : ∀ line ∈ lines, line.Fits := by
      rintro line there limit rfl
      exact words limit there
    choose value readValue supplied using readSwitch_lookup lines
    obtain ⟨limit, readLimit, bound⟩ := readLimit_lookup fits
    let settings : Settings :=
      { valuePropagation := value (.flag .valuePropagation)
        moduleMode := value (.flag .moduleMode)
        optimizeStringExec := value (.flag .optimizeStringExec)
        showProgress := value .progress
        refreshLimit := some limit }
    have switch : ∀ chosen, settings.switch chosen = value chosen := by
      intro chosen
      cases chosen with
      | flag chosen => cases chosen <;> rfl
      | progress => rfl
    refine ⟨settings, ?_, describes_of_supplied distinct ?_ rfl bound⟩
    · rw [ofDocument_document distinct fits, ofKeys, readValue, readValue, readValue, readValue,
        readLimit]
      rfl
    · intro chosen
      rw [switch]
      exact supplied chosen

/-! ## There and back -/

theorem ofText_eq_ok_iff {parse : String → Except TomlFault Settings} {text : String} :
    ofText parse text = .ok settings ↔ parse text = .ok settings ∧ settings.Valid := by
  unfold ofText check
  cases parse text with
  | error cause => simp
  | ok found =>
      by_cases valid : found.Valid
      · simp only [if_pos valid]
        constructor
        · rintro ⟨⟩
          exact ⟨rfl, valid⟩
        · rintro ⟨⟨⟩, _⟩
          rfl
      · simp only [if_neg valid]
        constructor
        · rintro ⟨⟩
        · rintro ⟨⟨⟩, sound⟩
          exact absurd sound valid

theorem ofText_of_written {write : Settings → Option String}
    {parse : String → Except TomlFault Settings} (writes : WritesLines write)
    (reads : ReadsLines parse) (valid : settings.Valid) {text : String}
    (written : write settings = some text) :
    ofText parse text =
      .ok { settings with refreshLimit := settings.refreshLimit.or default.refreshLimit } := by
  have words : ∀ limit, .limit limit ∈ settings.lines → limit < 2 ^ 63 := by
    intro limit there
    exact (writes.succeeds settings).mp (Option.isSome_of_eq_some written) limit
      (limit_mem_lines.mp there)
  obtain ⟨found, read, describes⟩ := reads.reads settings.lines (nodup_keys_lines settings) words
  rw [writes.text settings text written, ofText_eq_ok_iff, read, describes.eq_or_default]
  refine ⟨rfl, ?_⟩
  show settings.refreshLimit.or default.refreshLimit ≠ some 0
  unfold Valid at valid
  cases limit : settings.refreshLimit with
  | none => exact valid_default
  | some refreshes =>
      rw [limit] at valid
      exact valid

/-- Valid settings can be written if their limit is a signed word or there is none, and what was
written is read as the same settings, but that no limit is read as the standard one. -/
theorem written_then_read {write : Settings → Option String}
    {parse : String → Except TomlFault Settings} (writes : WritesLines write)
    (reads : ReadsLines parse) (settings : Settings) (valid : settings.Valid) :
    ((write settings).isSome ↔ ∀ limit, settings.refreshLimit = some limit → limit < 2 ^ 63) ∧
    ∀ text, write settings = some text →
      (settings.refreshLimit.isSome → ofText parse text = .ok settings) ∧
      (settings.refreshLimit = none →
        ofText parse text = .ok { settings with refreshLimit := some 10000 }) := by
  refine ⟨writes.succeeds settings, ?_⟩
  intro text written
  rw [ofText_of_written writes reads valid written]
  constructor
  · intro limited
    obtain ⟨limit, found⟩ := Option.isSome_iff_exists.mp limited
    rw [found, Option.some_or, ← found]
  · intro unlimited
    rw [unlimited]
    rfl

/-- The largest limit that can be written is read back, and no limit becomes the standard one. -/
theorem written_then_read_at_the_ends :
    let unlimited : Settings := { default with moduleMode := true, refreshLimit := none }
    let largest : Settings := { unlimited with refreshLimit := some 9223372036854775807 }
    WritesLines toDocument? ∧ ReadsLines ofDocument ∧
    (∃ text, largest.toDocument? = some text ∧ ofText ofDocument text = .ok largest) ∧
    ∃ text, unlimited.toDocument? = some text ∧
      ofText ofDocument text = .ok { unlimited with refreshLimit := some 10000 } := by
  intro unlimited largest
  have writes := writesLines_toDocument?
  have reads := readsLines_ofDocument
  obtain ⟨_, largestRead⟩ := written_then_read writes reads largest (by decide)
  obtain ⟨_, unlimitedRead⟩ := written_then_read writes reads unlimited (by decide)
  exact ⟨writes, reads, ⟨_, rfl, (largestRead _ rfl).1 rfl⟩, _, rfl, (unlimitedRead _ rfl).2 rfl⟩

/-- No limit is a valid choice that is not read back as it was written. -/
theorem unlimited_not_read_back :
    let unlimited : Settings := { default with refreshLimit := none }
    WritesLines toDocument? ∧ ReadsLines ofDocument ∧ unlimited.Valid ∧
    ∃ text, unlimited.toDocument? = some text ∧ ofText ofDocument text ≠ .ok unlimited := by
  intro unlimited
  have valid : unlimited.Valid := by decide
  refine ⟨writesLines_toDocument?, readsLines_ofDocument, valid, _, rfl, ?_⟩
  rw [ofText_of_written writesLines_toDocument? readsLines_ofDocument valid rfl]
  decide

end PassEngine.Settings
