import PassEngine.Proofs.Text.Spelling
import PassEngine.Settings.Override

/-!
# What overriding comes to

Variables are asked for in order. Each that has a boolean sets its own switch, each that has nothing
leaves it alone, and the first that has anything else ends it, so that just the switches of the
row before it are set. How a boolean is spelled makes no difference, and when all went well,
asking again changes nothing.
-/

namespace PassEngine.Settings

open Text (Respelled)

/-! ## Booleans -/

section

variable {text other word : String} {value : Bool}

/-- The words for a boolean. -/
def wordsFor (value : Bool) : List String := if value then trueWords else falseWords

theorem booleanWord_of_respelled (h : Respelled text other) :
    booleanWord other = booleanWord text := Text.lowercase_trim_of_respelled h

theorem boolean?_congr (h : booleanWord other = booleanWord text) :
    boolean? other = boolean? text := by
  unfold boolean?
  rw [h]

/-- The words themselves need neither be trimmed nor be written in small letters. -/
theorem word_of_mem (h : word ∈ wordsFor value) :
    booleanWord word = word ∧ Text.lowercase word = word ∧ boolean? word = some value := by
  cases value with
  | true =>
      simp only [wordsFor, trueWords, List.mem_cons, List.not_mem_nil, or_false, if_true] at h
      rcases h with rfl | rfl | rfl | rfl <;> decide
  | false =>
      simp only [wordsFor, falseWords, List.mem_cons, List.not_mem_nil, or_false, if_false,
        Bool.false_eq_true] at h
      rcases h with rfl | rfl | rfl | rfl | rfl <;> decide

theorem booleanWord_mem (h : boolean? text = some value) : booleanWord text ∈ wordsFor value := by
  unfold boolean? at h
  split at h
  · rename_i listed
    cases h
    exact listed
  · split at h
    · rename_i listed
      cases h
      exact listed
    · cases h

/-- A text stands for a boolean if it is a spelling of one of its words. -/
theorem boolean?_eq_some_iff :
    boolean? text = some value ↔ ∃ word ∈ wordsFor value, Respelled word text := by
  constructor
  · intro h
    have listed := booleanWord_mem h
    exact ⟨booleanWord text, listed,
      Text.respelled_of_lowercase_trim (word_of_mem listed).2.1 rfl⟩
  · rintro ⟨word, listed, spelled⟩
    rw [boolean?_congr (booleanWord_of_respelled spelled), (word_of_mem listed).2.2]

end

/-! ## Switches -/

/-- The switch that a variable sets. -/
def Variable.switch (settings : Settings) : Variable → Bool
  | showProgress => settings.showProgress
  | valuePropagation => settings.valuePropagation
  | moduleMode => settings.moduleMode

section

variable {lookup : String → Option String} {settings before between after : Settings}
  {chosen other : Variable} {row first second rest : List Variable} {text : String}

theorem Variable.switch_set (settings : Settings) (value : Bool) (chosen : Variable) :
    chosen.switch (chosen.set settings value) = value := by
  cases chosen <;> rfl

theorem Variable.switch_set_of_ne (settings : Settings) (value : Bool) (different : other ≠ chosen) :
    other.switch (chosen.set settings value) = other.switch settings := by
  cases chosen <;> cases other <;> first | rfl | exact absurd rfl different

theorem Variable.mem_all (chosen : Variable) : chosen ∈ Variable.all := by
  cases chosen <;> decide

/-- Settings are told apart by the switches and by what no variable sets. -/
theorem eq_of_switches (switches : ∀ chosen : Variable, chosen.switch before = chosen.switch after)
    (exec : before.optimizeStringExec = after.optimizeStringExec)
    (limit : before.refreshLimit = after.refreshLimit) : before = after := by
  have progress := switches .showProgress
  have propagation := switches .valuePropagation
  have mode := switches .moduleMode
  cases before
  cases after
  simp only [Variable.switch] at progress propagation mode
  simp only at exec limit
  rw [progress, propagation, mode, exec, limit]

/-- The variable has nothing or a boolean. -/
def Accepted (lookup : String → Option String) (chosen : Variable) : Prop :=
  ∀ text, lookup chosen.name = some text → (boolean? text).isSome

/-- Each variable of the row has set its switch to its boolean, if it has one, and nothing else has
changed. -/
structure Applied (lookup : String → Option String) (row : List Variable)
    (before after : Settings) : Prop where
  switched : ∀ chosen ∈ row, chosen.switch after =
    ((lookup chosen.name).bind boolean?).getD (chosen.switch before)
  kept : ∀ chosen ∉ row, chosen.switch after = chosen.switch before
  optimizeStringExec : after.optimizeStringExec = before.optimizeStringExec
  refreshLimit : after.refreshLimit = before.refreshLimit

/-- What overriding by a row of variables comes to. -/
inductive Outcome (lookup : String → Option String) (row : List Variable)
    (settings : Settings) : Overridden → Prop
  /-- Every variable is asked for, and none has anything but a boolean. -/
  | completed {result : Settings} (accepted : ∀ chosen ∈ row, Accepted lookup chosen)
      (applied : Applied lookup row settings result) :
      Outcome lookup row settings ⟨result, row.map Variable.name, .ok ()⟩
  /-- The first variable that has something else is the last one that is asked for. -/
  | stopped {result : Settings} {before after : List Variable} {chosen : Variable} {text : String}
      (split : row = before ++ chosen :: after)
      (accepted : ∀ earlier ∈ before, Accepted lookup earlier)
      (found : lookup chosen.name = some text) (refused : boolean? text = none)
      (applied : Applied lookup before settings result) :
      Outcome lookup row settings ⟨result, (before ++ [chosen]).map Variable.name,
        .error (.settings (.notBoolean chosen.name (booleanWord text)))⟩

/-! ## One variable -/

theorem Applied.refl (lookup : String → Option String) (settings : Settings) :
    Applied lookup [] settings settings :=
  ⟨fun _ h => absurd h List.not_mem_nil, fun _ _ => rfl, rfl, rfl⟩

theorem Applied.trans (earlier : Applied lookup first before between)
    (later : Applied lookup second between after) (apart : ∀ chosen ∈ first, chosen ∉ second) :
    Applied lookup (first ++ second) before after where
  switched chosen h := by
    rcases List.mem_append.mp h with early | late
    · rw [later.kept chosen (apart chosen early), earlier.switched chosen early]
    · rw [later.switched chosen late, earlier.kept chosen fun early => apart chosen early late]
  kept chosen h := by
    rw [List.mem_append, not_or] at h
    rw [later.kept chosen h.2, earlier.kept chosen h.1]
  optimizeStringExec := later.optimizeStringExec.trans earlier.optimizeStringExec
  refreshLimit := later.refreshLimit.trans earlier.refreshLimit

theorem applied_absent (absent : lookup chosen.name = none) (settings : Settings) :
    Applied lookup [chosen] settings settings where
  switched other h := by
    rw [List.mem_singleton.mp h, absent]
    rfl
  kept _ _ := rfl
  optimizeStringExec := rfl
  refreshLimit := rfl

theorem applied_set {value : Bool} (found : (lookup chosen.name).bind boolean? = some value)
    (settings : Settings) : Applied lookup [chosen] settings (chosen.set settings value) where
  switched other h := by
    rw [List.mem_singleton.mp h, found, Variable.switch_set]
    rfl
  kept other h := Variable.switch_set_of_ne settings value (by simpa using h)
  optimizeStringExec := by cases chosen <;> rfl
  refreshLimit := by cases chosen <;> rfl

theorem overrideWith_of_accepted (accepted : Accepted lookup chosen) (rest : List Variable)
    (settings : Settings) :
    ∃ next, Applied lookup [chosen] settings next ∧
      overrideWith lookup (chosen :: rest) settings =
        { overrideWith lookup rest next with
          asked := chosen.name :: (overrideWith lookup rest next).asked } := by
  cases found : lookup chosen.name with
  | none =>
      refine ⟨settings, applied_absent found settings, ?_⟩
      simp only [overrideWith, found]
  | some text =>
      obtain ⟨value, hvalue⟩ := Option.isSome_iff_exists.mp (accepted text found)
      have bound : (lookup chosen.name).bind boolean? = some value := by
        rw [found, Option.bind_some, hvalue]
      refine ⟨chosen.set settings value, applied_set bound settings, ?_⟩
      simp only [overrideWith, found, hvalue]

theorem overrideWith_of_refused (found : lookup chosen.name = some text)
    (refused : boolean? text = none) (rest : List Variable) (settings : Settings) :
    overrideWith lookup (chosen :: rest) settings = ⟨settings, [chosen.name],
      .error (.settings (.notBoolean chosen.name (booleanWord text)))⟩ := by
  simp only [overrideWith, found, refused]

theorem accepted_or_refused (lookup : String → Option String) (chosen : Variable) :
    Accepted lookup chosen ∨ ∃ text, lookup chosen.name = some text ∧ boolean? text = none := by
  cases found : lookup chosen.name with
  | none =>
      left
      intro text h
      rw [found] at h
      cases h
  | some text =>
      cases value : boolean? text with
      | none => exact Or.inr ⟨text, rfl, value⟩
      | some _ =>
          left
          intro other h
          rw [found] at h
          cases h
          rw [value]
          rfl

/-! ## Variables in order -/

theorem outcome_overrideWith (distinct : row.Nodup) (settings : Settings) :
    Outcome lookup row settings (overrideWith lookup row settings) := by
  induction row generalizing settings with
  | nil => exact .completed (fun _ h => absurd h List.not_mem_nil) (Applied.refl lookup settings)
  | cons chosen rest ih =>
      obtain ⟨new, others⟩ := List.nodup_cons.mp distinct
      rcases accepted_or_refused lookup chosen with accepted | ⟨text, found, refused⟩
      · obtain ⟨next, applied, step⟩ := overrideWith_of_accepted accepted rest settings
        have later := ih others next
        rw [step]
        generalize overrideWith lookup rest next = overridden at later
        cases later with
        | completed restAccepted restApplied =>
            refine .completed (List.forall_mem_cons.mpr ⟨accepted, restAccepted⟩) ?_
            exact applied.trans restApplied (by simpa using new)
        | stopped split restAccepted found refused restApplied =>
            -- the row is distinct, so that no later variable sets this switch again
            have apart : ∀ other ∈ [chosen], other ∉ _ := fun other h early => new (by
              rw [← List.mem_singleton.mp h, split]
              exact List.mem_append_left _ early)
            exact .stopped (congrArg (chosen :: ·) split)
              (List.forall_mem_cons.mpr ⟨accepted, restAccepted⟩) found refused
              (applied.trans restApplied apart)
      · rw [overrideWith_of_refused found refused]
        exact .stopped rfl (fun _ h => absurd h List.not_mem_nil) found refused
          (Applied.refl lookup settings)

theorem outcome_override (settings : Settings) (lookup : String → Option String) :
    Outcome lookup Variable.all settings (settings.override lookup) :=
  outcome_overrideWith (by decide) settings

/-- Overriding sees of the texts only what they come to as booleans. -/
theorem overrideWith_congr {lookup others : String → Option String}
    (same : ∀ chosen ∈ row,
      (others chosen.name).map booleanWord = (lookup chosen.name).map booleanWord)
    (settings : Settings) :
    overrideWith others row settings = overrideWith lookup row settings := by
  induction row generalizing settings with
  | nil => rfl
  | cons chosen rest ih =>
      have here := same chosen List.mem_cons_self
      have there := ih fun later h => same later (List.mem_cons_of_mem chosen h)
      cases found : lookup chosen.name with
      | none =>
          rw [found, Option.map_none, Option.map_eq_none_iff] at here
          simp only [overrideWith, found, here, there]
      | some text =>
          rw [found, Option.map_some, Option.map_eq_some_iff] at here
          obtain ⟨other, otherFound, word⟩ := here
          simp only [overrideWith, found, otherFound, boolean?_congr word, word, there]

theorem Applied.again (applied : Applied lookup row before after) :
    Applied lookup row after after where
  switched chosen h := by
    rw [applied.switched chosen h]
    cases (lookup chosen.name).bind boolean? <;> rfl
  kept _ _ := rfl
  optimizeStringExec := rfl
  refreshLimit := rfl

theorem Applied.unique {after' : Settings} (left : Applied lookup row before after)
    (right : Applied lookup row before after') : after = after' := by
  apply eq_of_switches
  · intro chosen
    by_cases h : chosen ∈ row
    · rw [left.switched chosen h, right.switched chosen h]
    · rw [left.kept chosen h, right.kept chosen h]
  · rw [left.optimizeStringExec, right.optimizeStringExec]
  · rw [left.refreshLimit, right.refreshLimit]

theorem override_again (settings : Settings) (lookup : String → Option String)
    (ok : (settings.override lookup).verdict = .ok ()) :
    (settings.override lookup).settings.override lookup = settings.override lookup := by
  have first := outcome_override settings lookup
  generalize settings.override lookup = overridden at first ok
  cases first with
  | stopped => cases ok
  | @completed result accepted applied =>
      have second := outcome_override result lookup
      show result.override lookup = _
      generalize result.override lookup = repeated at second
      cases second with
      | completed _ appliedAgain => rw [applied.again.unique appliedAgain]
      | @stopped _ before after chosen text split _ found refused _ =>
          have isBoolean := accepted chosen chosen.mem_all text found
          rw [refused] at isBoolean
          cases isBoolean

end

/-- Variables are asked for in order, up to the first that has something but no boolean. A text is a
boolean if it spells one of its words, and another spelling of the same texts changes nothing at
all. Switches are set by the variables before the faulty one, which the fault names, or by all of
them; nothing else is changed. When there was no fault, overriding again changes nothing. -/
theorem overridden_in_order (settings : Settings) (lookup : String → Option String) :
    let overridden := settings.override lookup
    Variable.all.map Variable.name =
      ["TAGOPT_SHOW_PROGRESS", "TAGOPT_VALUE_PROPAGATION", "TAGOPT_MODULE_MODE"] ∧
    Outcome lookup Variable.all settings overridden ∧
    (∀ text,
      (boolean? text = some true ↔ ∃ word ∈ ["1", "true", "yes", "on"], Respelled word text) ∧
      (boolean? text = some false ↔ ∃ word ∈ ["0", "false", "no", "off", ""],
        Respelled word text)) ∧
    (∀ others : String → Option String,
      (∀ chosen : Variable, Option.Rel Respelled (lookup chosen.name) (others chosen.name)) →
      settings.override others = overridden) ∧
    (overridden.verdict = .ok () → overridden.settings.override lookup = overridden) := by
  intro overridden
  refine ⟨rfl, outcome_override settings lookup, ?_, ?_, override_again settings lookup⟩
  · intro text
    exact ⟨boolean?_eq_some_iff, boolean?_eq_some_iff⟩
  · intro others respelled
    apply overrideWith_congr
    intro chosen _
    have related := respelled chosen
    generalize lookup chosen.name = text at related ⊢
    generalize others chosen.name = other at related ⊢
    cases related with
    | none => rfl
    | some spelled => exact congrArg some (booleanWord_of_respelled spelled)

/-- A full-width letter is no letter here, so that the third variable ends it after the first one
was heard. -/
theorem overridden_in_order_shouted :
    let lookup : String → Option String := fun name =>
      if name = "TAGOPT_SHOW_PROGRESS" then some "yes"
      else if name = "TAGOPT_MODULE_MODE" then some "\uFF2Fn"
      else none
    let shouted : String → Option String := fun name =>
      if name = "TAGOPT_SHOW_PROGRESS" then some "\u2003YeS\n"
      else if name = "TAGOPT_MODULE_MODE" then some "\uFF2FN "
      else none
    let overridden := default.override lookup
    let calm := default.override fun name => (lookup name).filter (· == "yes")
    default.override shouted = overridden ∧
    overridden.asked =
      ["TAGOPT_SHOW_PROGRESS", "TAGOPT_VALUE_PROPAGATION", "TAGOPT_MODULE_MODE"] ∧
    overridden.settings = { default with showProgress := true } ∧
    overridden.verdict = .error (.settings (.notBoolean "TAGOPT_MODULE_MODE" "\uFF2Fn")) ∧
    calm.verdict = .ok () ∧
    calm.settings.override (fun name => (lookup name).filter (· == "yes")) = calm := by
  intro lookup shouted overridden calm
  have loud : Respelled "yes" "\u2003YeS\n" :=
    ⟨"\u2003", "YeS", "\n", by decide, by decide, by decide, Text.lowercase_eq_iff.mp (by decide)⟩
  have padded : Respelled "\uFF2Fn" "\uFF2FN " :=
    ⟨"", "\uFF2FN", " ", by decide, by decide, by decide, Text.lowercase_eq_iff.mp (by decide)⟩
  have related : ∀ chosen : Variable,
      Option.Rel Respelled (lookup chosen.name) (shouted chosen.name) := by
    intro chosen
    cases chosen with
    | showProgress => exact .some loud
    | valuePropagation => exact .none
    | moduleMode => exact .some padded
  obtain ⟨_, _, _, same, _⟩ := overridden_in_order default lookup
  obtain ⟨_, _, _, _, again⟩ := overridden_in_order default fun name =>
    (lookup name).filter (· == "yes")
  have ok : calm.verdict = .ok () := rfl
  exact ⟨same shouted related, rfl, rfl, rfl, ok, again ok⟩

end PassEngine.Settings
