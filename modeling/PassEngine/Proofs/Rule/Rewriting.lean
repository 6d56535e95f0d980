import Mathlib.Logic.Relation
import PassEngine.Proofs.Run.Agreement
import PassEngine.Proofs.Text.Words

/-!
# Tables that say the same in other words

A table may be written in many ways. A rule can be said again later on, its predicate and its guards
can be reordered, repeated and spaced otherwise, its targets can be given a rule each, and it can be
told apart by any flag. None of this changes what is eligible, nor the order, whatever the tags and
the settings are, so that an engine runs the same with the one table and the other.
-/

namespace PassEngine

variable {ρ : Type}

/-- The guard that asks for the other value of the same flag. -/
def Guard.negated : Guard → Guard
  | .enabled flag => .disabled flag
  | .disabled flag => .enabled flag

theorem Guard.holds_negated (guard : Guard) (settings : Settings) :
    guard.negated.holds settings = !guard.holds settings := by
  cases guard <;> simp [negated, holds]

namespace RuleTable

/-! ## Rewriting -/

/-- Rules that say together what a rule says. -/
inductive Recast : Rule ρ → List (Rule ρ) → Prop where
  /-- A predicate with the same words, in whatever order, however often and however spaced. -/
  | predicate (rule : Rule ρ) {predicate other : String}
      (made : rule.required = Text.words predicate)
      (same : ∀ word, Text.MaximalRun other word ↔ Text.MaximalRun predicate word) :
      Recast rule [.ofPredicate other rule.targets rule.guards]
  /-- The same guards, in whatever order and however often. -/
  | guards (rule : Rule ρ) {guards : List Guard}
      (same : ∀ guard, guard ∈ guards ↔ guard ∈ rule.guards) :
      Recast rule [{ rule with guards }]
  /-- One rule for each target. -/
  | targets (rule : Rule ρ) :
      Recast rule (rule.targets.map fun target => { rule with targets := [target] })
  /-- One rule for each value of a flag. -/
  | flag (rule : Rule ρ) (guard : Guard) :
      Recast rule [rule.guardedBy guard, rule.guardedBy guard.negated]

/-- Lists of rules of which the second says the same as the first. -/
inductive Rewrite : List (Rule ρ) → List (Rule ρ) → Prop where
  /-- A rule is said again somewhere behind its place. -/
  | again (before between after : List (Rule ρ)) (rule : Rule ρ) :
      Rewrite (before ++ rule :: (between ++ after)) (before ++ rule :: (between ++ rule :: after))
  /-- A rule is said differently at its place. -/
  | recast (before after : List (Rule ρ)) {rule : Rule ρ} {rules : List (Rule ρ)}
      (recast : Recast rule rules) :
      Rewrite (before ++ rule :: after) (before ++ (rules ++ after))

/-! ## What rewriting contributes -/

section

variable {rule : Rule ρ} {rules before after : List (Rule ρ)} {tags : TagSet} {settings : Settings}

theorem contributions_singleton (rule : Rule ρ) (tags : TagSet) (settings : Settings) :
    contributions [rule] tags settings = if rule.fires tags settings then rule.targets else [] := by
  rw [contributions_cons]
  exact List.append_nil _

theorem contributions_targets (rule : Rule ρ) (targets : List ρ) (tags : TagSet)
    (settings : Settings) :
    contributions (targets.map fun target => { rule with targets := [target] }) tags settings =
      if rule.fires tags settings then targets else [] := by
  induction targets with
  | nil => simp
  | cons target rest ih =>
      rw [List.map_cons, contributions_cons, ih]
      show (if rule.fires tags settings then [target] else []) ++ _ = _
      split <;> rfl

theorem fires_guardedBy (rule : Rule ρ) (guard : Guard) (tags : TagSet) (settings : Settings) :
    (rule.guardedBy guard).fires tags settings =
      (rule.fires tags settings && guard.holds settings) := by
  simp [Rule.fires, Rule.guardedBy, Bool.and_right_comm]

/-- Neither the order nor the number of guards and required tags counts. -/
theorem fires_congr {first second : Rule ρ}
    (guards : ∀ guard, guard ∈ first.guards ↔ guard ∈ second.guards)
    (required : ∀ tag, tag ∈ first.required ↔ tag ∈ second.required)
    (tags : TagSet) (settings : Settings) :
    first.fires tags settings = second.fires tags settings := by
  rw [Bool.eq_iff_iff, Rule.fires_iff, Rule.fires_iff]
  simp only [guards, required]

theorem Recast.contributions_eq (recast : Recast rule rules) (tags : TagSet) (settings : Settings) :
    contributions rules tags settings = contributions [rule] tags settings := by
  cases recast with
  | @predicate predicate other made same =>
      have required : ∀ word, word ∈ Text.words other ↔ word ∈ rule.required := by
        simpa only [made, Text.mem_words_iff] using same
      have fires : (Rule.ofPredicate other rule.targets rule.guards).fires tags settings =
          rule.fires tags settings := by
        apply fires_congr
        · exact fun _ => Iff.rfl
        · exact required
      rw [contributions_singleton, contributions_singleton, fires]
      rfl
  | @guards guards same =>
      have fires : Rule.fires { rule with guards } tags settings = rule.fires tags settings := by
        apply fires_congr
        · exact same
        · exact fun _ => Iff.rfl
      rw [contributions_singleton, contributions_singleton, fires]
  | targets => rw [contributions_targets, contributions_singleton]
  | flag guard =>
      rw [contributions_cons, contributions_singleton, contributions_singleton, fires_guardedBy,
        fires_guardedBy, Guard.holds_negated]
      cases rule.fires tags settings <;> cases guard.holds settings <;> simp [Rule.guardedBy]

theorem Recast.wellFormed (recast : Recast rule rules) (sound : rule.WellFormed) :
    ∀ other ∈ rules, other.WellFormed := by
  cases recast with
  | @predicate predicate other made same =>
      apply wellFormed_singleton
      refine ⟨sound.1, ?_⟩
      obtain ⟨word, hword⟩ := List.exists_mem_of_ne_nil rule.required sound.2
      rw [made, Text.mem_words_iff, ← same, ← Text.mem_words_iff] at hword
      exact List.ne_nil_of_mem hword
  | guards => exact wellFormed_singleton sound
  | targets =>
      intro other hother
      obtain ⟨target, _, rfl⟩ := List.mem_map.mp hother
      exact ⟨List.cons_ne_nil target [], sound.2⟩
  | flag guard =>
      intro other hother
      simp only [List.mem_cons, List.not_mem_nil, or_false] at hother
      rcases hother with rfl | rfl
      · exact sound
      · exact sound

end

/-! ## What is eligible -/

section

variable [DecidableEq ρ] {before after : List (Rule ρ)}

theorem Rewrite.eligible_eq (rewrite : Rewrite before after) (tags : TagSet)
    (settings : Settings) :
    (contributions after tags settings).eraseDups =
      (contributions before tags settings).eraseDups := by
  cases rewrite with
  | again first between last rule =>
      have known : contributions [rule] tags settings ⊆
          contributions (first ++ rule :: between) tags settings := by
        intro pass hpass
        rw [contributions_append, contributions_cons, ← contributions_singleton]
        exact List.mem_append_right _ (List.mem_append_left _ hpass)
      have whole : first ++ rule :: (between ++ rule :: last) =
          (first ++ rule :: between) ++ ([rule] ++ last) := by simp
      have short : first ++ rule :: (between ++ last) =
          (first ++ rule :: between) ++ last := by simp
      rw [whole, short, contributions_append, contributions_append [rule],
        eraseDups_append_of_subset known, ← contributions_append]
  | @recast first last rule rules recast =>
      have here : first ++ rule :: last = first ++ ([rule] ++ last) := rfl
      simp only [here, contributions_append, recast.contributions_eq]

omit [DecidableEq ρ] in
theorem Rewrite.wellFormed (rewrite : Rewrite before after)
    (sound : ∀ rule ∈ before, rule.WellFormed) : ∀ rule ∈ after, rule.WellFormed := by
  cases rewrite with
  | again first between last rule =>
      have fewer : first ++ rule :: (between ++ rule :: last) ⊆
          first ++ rule :: (between ++ last) := by
        intro other hother
        simp only [List.mem_append, List.mem_cons] at hother ⊢
        tauto
      intro other hother
      exact sound other (fewer hother)
  | @recast first last rule rules recast =>
      have here : rule.WellFormed := sound rule (by simp)
      intro other hother
      rcases List.mem_append.mp hother with front | behind
      · exact sound other (List.mem_append_left _ front)
      · rcases List.mem_append.mp behind with new | back
        · exact recast.wellFormed here other new
        · exact sound other (List.mem_append_right _ (List.mem_cons_of_mem _ back))

/-- Rewriting may go on for as long as one likes. -/
theorem kept_by_rewriting (rewriting : Relation.ReflTransGen Rewrite before after)
    (sound : ∀ rule ∈ before, rule.WellFormed) :
    (∀ rule ∈ after, rule.WellFormed) ∧ ∀ tags settings,
      (contributions after tags settings).eraseDups =
      (contributions before tags settings).eraseDups := by
  induction rewriting with
  | refl => exact ⟨sound, fun _ _ => rfl⟩
  | tail _ rewrite ih =>
      refine ⟨rewrite.wellFormed ih.1, ?_⟩
      intro tags settings
      rw [rewrite.eligible_eq tags settings, ih.2 tags settings]

/-- A table may be rewritten in any of these ways, and in any number of them one after the other.
The rules that come of it are accepted, the same passes are eligible in the same order, whatever the
tags and the settings are, and every run is the same run. -/
theorem rewriting_keeps_meaning (table : RuleTable ρ) {rules : List (Rule ρ)}
    (rewriting : Relation.ReflTransGen Rewrite table.rules rules) :
    ∃ other : RuleTable ρ, ofRules rules = .ok other ∧ other.rules = rules ∧
      (∀ tags settings, other.eligible tags settings = table.eligible tags settings) ∧
      ∀ {τ : Type} (settings : Settings) (valid : settings.Valid) (suite : PassSuite ρ τ)
        (fuel : Nat) (subject : Subject) (tree : τ) (store : ModuleStore τ),
        Engine.run ⟨other, settings, valid⟩ suite fuel subject tree store =
          Engine.run ⟨table, settings, valid⟩ suite fuel subject tree store := by
  obtain ⟨sound, same⟩ := kept_by_rewriting rewriting table.wellFormed
  refine ⟨⟨rules, sound⟩, ofRules_rules ⟨rules, sound⟩, rfl, same, ?_⟩
  intro τ settings valid suite fuel subject tree store
  have agree : Engine.Agree ⟨⟨rules, sound⟩, settings, valid⟩ ⟨table, settings, valid⟩ :=
    { eligible := fun tags => same tags settings
      limit := rfl }
  exact agree.run_eq suite fuel subject tree store

end

end RuleTable

/-! ## A table in two wordings -/

namespace Rewording

/-- A rule with two tags and two guards. -/
def both : Rule Bool :=
  .ofPredicate "new_code new_import" [true] [.enabled .optimizeStringExec, .disabled .moduleMode]

/-- A rule with two targets. -/
def one : Rule Bool := .ofPredicate "new_code" [false, true]

theorem wellFormed_both_one : ∀ rule ∈ [both, one], rule.WellFormed := by
  intro rule hrule
  simp only [List.mem_cons, List.not_mem_nil, or_false] at hrule
  rcases hrule with rfl | rfl
  · exact ⟨by decide, by decide⟩
  · exact ⟨by decide, by decide⟩

def table : RuleTable Bool := ⟨[both, one], wellFormed_both_one⟩

/-- The rule `both` with other blanks, and one word more often. -/
def spaced : Rule Bool :=
  .ofPredicate "\u2003new_import\tnew_code new_import\n" both.targets both.guards

/-- The rule `spaced` with guards that repeat themselves. -/
def repeated : Rule Bool :=
  { spaced with
    guards := [.disabled .moduleMode, .enabled .optimizeStringExec, .disabled .moduleMode] }

/-- The rules of the table in other words, with `both` once more at the end. -/
def rules : List (Rule Bool) :=
  [repeated, { one with targets := [false] },
    .guardedBy { one with targets := [true] } (.disabled .valuePropagation),
    .guardedBy { one with targets := [true] } (.enabled .valuePropagation), both]

theorem rewriting : Relation.ReflTransGen RuleTable.Rewrite table.rules rules := by
  have made : both.required = Text.words "new_code new_import" := rfl
  have predicate : RuleTable.Recast both [spaced] := by
    apply RuleTable.Recast.predicate both made
    intro word
    have three : Text.words "\u2003new_import\tnew_code new_import\n" =
        ["new_import", "new_code", "new_import"] := rfl
    have two : Text.words "new_code new_import" = ["new_code", "new_import"] := rfl
    rw [← Text.mem_words_iff, ← Text.mem_words_iff, three, two]
    grind
  have guards : RuleTable.Recast spaced [repeated] := by
    apply RuleTable.Recast.guards spaced
    intro guard
    simp only [spaced, both, Rule.ofPredicate]
    grind
  have again : RuleTable.Rewrite table.rules [both, one, both] := .again [] [one] [] both
  have respaced : RuleTable.Rewrite [both, one, both] [spaced, one, both] :=
    .recast [] [one, both] predicate
  have reordered : RuleTable.Rewrite [spaced, one, both] [repeated, one, both] :=
    .recast [] [one, both] guards
  have split : RuleTable.Rewrite [repeated, one, both]
      [repeated, { one with targets := [false] }, { one with targets := [true] }, both] :=
    .recast [repeated] [both] (.targets one)
  have apart : RuleTable.Rewrite
      [repeated, { one with targets := [false] }, { one with targets := [true] }, both] rules :=
    .recast [repeated, { one with targets := [false] }] [both]
      (.flag _ (.disabled .valuePropagation))
  have reworded : Relation.ReflTransGen RuleTable.Rewrite table.rules [repeated, one, both] :=
    ((Relation.ReflTransGen.single again).tail respaced).tail reordered
  exact (reworded.tail split).tail apart

end Rewording

namespace RuleTable

/-- All five ways of rewriting one after the other, on a table whose order depends on the tags. -/
theorem rewriting_keeps_meaning_rewording :
    Relation.ReflTransGen Rewrite Rewording.table.rules Rewording.rules ∧
    ∃ other : RuleTable Bool, ofRules Rewording.rules = .ok other ∧
      other.eligible (.ofList ["new_code", "new_import"]) .default = [true, false] ∧
      other.eligible (.ofList ["new_code"]) .default = [false, true] ∧
      (Engine.run ⟨other, .default, Settings.valid_default⟩ Folding.suite 2 Folding.subject 3
          .empty).verdict? Folding.suite Folding.subject =
        some (.ok ⟨Folding.subject, [⟨"fold", 1⟩, ⟨"unroll", 0⟩], 2⟩) := by
  obtain ⟨other, accepted, _, same, runs⟩ :=
    rewriting_keeps_meaning Rewording.table Rewording.rewriting
  refine ⟨Rewording.rewriting, other, accepted, ?_, ?_, ?_⟩
  · rw [same]
    decide
  · rw [same]
    decide
  · rw [runs]
    decide

end RuleTable

end PassEngine
