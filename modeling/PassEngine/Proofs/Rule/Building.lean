import PassEngine.Rule.Table
import PassEngine.Proofs.Text.Words

/-!
# Tables clause by clause

A list of clauses is a list of rules, each followed by its guards, and perhaps some guards before
all of them. Reading the clauses one after the other gives the same table as handing in the rules
with their guards at once, unless a guard stands before every rule: the first such guard is reported
then, whatever else is wrong. Rules that are handed in are refused for the first one that queues
nothing or requires nothing, and otherwise make up the table as they are.
-/

namespace PassEngine.RuleTable

variable {ρ : Type}

/-! ## Clauses -/

/-- A rule and the guards that are written behind it. -/
structure Stanza (ρ : Type) where
  predicate : String
  targets : List ρ
  guards : List Guard

namespace Stanza

/-- The clauses of a stanza. -/
def clauses (stanza : Stanza ρ) : List (Clause ρ) :=
  .rule stanza.predicate stanza.targets :: stanza.guards.map .guard

/-- The rule of a stanza, with its guards in order. -/
def rule (stanza : Stanza ρ) : Rule ρ :=
  stanza.guards.foldl Rule.guardedBy (.ofPredicate stanza.predicate stanza.targets)

theorem rule_eq (stanza : Stanza ρ) :
    stanza.rule = .ofPredicate stanza.predicate stanza.targets stanza.guards := by
  unfold rule
  rw [Rule.foldl_guardedBy]
  rfl

end Stanza

/-- Guards that are written before every rule, and then stanzas. -/
def spelledOut (stray : List Guard) (stanzas : List (Stanza ρ)) : List (Clause ρ) :=
  stray.map .guard ++ stanzas.flatMap Stanza.clauses

/-- Each guard belongs to the rule before it that is closest, or stands before every rule. -/
theorem exists_spelledOut (clauses : List (Clause ρ)) :
    ∃ stray stanzas, clauses = spelledOut stray stanzas := by
  induction clauses with
  | nil => exact ⟨[], [], rfl⟩
  | cons clause rest ih =>
      obtain ⟨stray, stanzas, hrest⟩ := ih
      cases clause with
      | guard guard => exact ⟨guard :: stray, stanzas, by rw [hrest]; rfl⟩
      | rule predicate targets =>
          refine ⟨[], ⟨predicate, targets, stray⟩ :: stanzas, ?_⟩
          rw [hrest]
          rfl

/-! ## Reading clauses -/

namespace Builder

variable {builder : Builder ρ}

theorem foldl_guards {latest : Rule ρ} {earlier : List (Rule ρ)}
    (rules : builder.rules = latest :: earlier) (guards : List Guard) :
    (guards.map .guard).foldl read builder =
      { builder with rules := guards.foldl Rule.guardedBy latest :: earlier } := by
  induction guards generalizing builder latest with
  | nil => simp [← rules]
  | cons guard rest ih =>
      have guarded : builder.guard guard =
          { builder with rules := latest.guardedBy guard :: earlier } := by
        simp only [Builder.guard, rules]
      rw [List.map_cons, List.foldl_cons, read, guarded, ih rfl, List.foldl_cons]

theorem foldl_stanza (builder : Builder ρ) (stanza : Stanza ρ) :
    stanza.clauses.foldl read builder = { builder with rules := stanza.rule :: builder.rules } := by
  rw [Stanza.clauses, List.foldl_cons, foldl_guards rfl]
  rfl

theorem foldl_stanzas (builder : Builder ρ) (stanzas : List (Stanza ρ)) :
    (stanzas.flatMap Stanza.clauses).foldl read builder =
      { builder with rules := (stanzas.map Stanza.rule).reverse ++ builder.rules } := by
  induction stanzas generalizing builder with
  | nil => rfl
  | cons stanza rest ih =>
      rw [List.flatMap_cons, List.foldl_append, foldl_stanza, ih]
      simp

/-- Nothing that comes later takes the place of a fault. -/
theorem fault_foldl {fault : RuleFault} (h : builder.fault = some fault)
    (clauses : List (Clause ρ)) : (clauses.foldl read builder).fault = some fault := by
  induction clauses generalizing builder with
  | nil => exact h
  | cons clause rest ih =>
      apply ih
      cases clause with
      | rule predicate targets => exact h
      | guard guard =>
          rw [read, Builder.guard]
          split
          · exact h
          · simp [h]

theorem build_of_fault {fault : RuleFault} (h : builder.fault = some fault) :
    builder.build = .error fault := by
  unfold build
  rw [h]

end Builder

theorem ofClauses_spelledOut (stray : List Guard) (stanzas : List (Stanza ρ)) :
    ofClauses (spelledOut stray stanzas) =
      match stray with
      | [] => ofRules (stanzas.map Stanza.rule)
      | guard :: _ => .error (.strayGuard guard) := by
  cases stray with
  | nil =>
      show ((stanzas.flatMap Stanza.clauses).foldl Builder.read {}).build = _
      rw [Builder.foldl_stanzas]
      simp [Builder.build]
  | cons guard stray =>
      have reported : (Builder.guard ({} : Builder ρ) guard).fault = some (.strayGuard guard) := rfl
      exact Builder.build_of_fault (Builder.fault_foldl reported _)

/-! ## Checking rules -/

/-- What is wrong with a rule that is not well-formed. -/
theorem fault?_of_not_wellFormed {rule : Rule ρ} (faulty : ¬rule.WellFormed) (index : Nat) :
    rule.fault? index =
      some (if rule.targets = [] then .noTargets index else .noTags index) := by
  unfold Rule.WellFormed at faulty
  unfold Rule.fault?
  cases targets : rule.targets with
  | nil => simp
  | cons target rest =>
      cases required : rule.required with
      | nil => simp
      | cons tag more => simp [targets, required] at faulty

theorem checkFrom_of_faulty (index : Nat) {before after : List (Rule ρ)} {rule : Rule ρ}
    {fault : RuleFault} (sound : ∀ other ∈ before, other.WellFormed)
    (faulty : rule.fault? (index + before.length) = some fault) :
    checkFrom index (before ++ rule :: after) = .error fault := by
  induction before generalizing index with
  | nil =>
      have here : rule.fault? index = some fault := faulty
      rw [List.nil_append, checkFrom]
      split <;> simp_all
  | cons first rest ih =>
      have here : first.fault? index = none :=
        Rule.fault?_eq_none_iff.mpr (sound first List.mem_cons_self)
      have position : index + (first :: rest).length = index + 1 + rest.length := by
        rw [List.length_cons]
        omega
      rw [position] at faulty
      have there := ih (index + 1) (fun other hother => sound other (List.mem_cons_of_mem _ hother))
        faulty
      rw [List.cons_append, checkFrom]
      split
      · simp_all
      · rw [there]

/-- Rules are all well-formed, or there is a first one that is not. -/
theorem wellFormed_or_first_faulty (rules : List (Rule ρ)) :
    (∀ rule ∈ rules, rule.WellFormed) ∨ ∃ before rule after, rules = before ++ rule :: after ∧
      (∀ other ∈ before, other.WellFormed) ∧ ¬rule.WellFormed := by
  induction rules with
  | nil => exact Or.inl (by simp)
  | cons rule rest ih =>
      by_cases sound : rule.WellFormed
      · rcases ih with all | ⟨before, faulty, after, hrest, earlier, fault⟩
        · exact Or.inl (List.forall_mem_cons.mpr ⟨sound, all⟩)
        · refine Or.inr ⟨rule :: before, faulty, after, by rw [hrest]; rfl, ?_, fault⟩
          exact List.forall_mem_cons.mpr ⟨sound, earlier⟩
      · exact Or.inr ⟨[], rule, rest, rfl, by simp, sound⟩

theorem ofRules_of_first_faulty {before after : List (Rule ρ)} {rule : Rule ρ}
    (sound : ∀ other ∈ before, other.WellFormed) (faulty : ¬rule.WellFormed) :
    ofRules (before ++ rule :: after) = .error
      (if rule.targets = [] then .noTargets before.length else .noTags before.length) := by
  have position : 0 + before.length = before.length := Nat.zero_add _
  unfold ofRules
  rw [checkFrom_of_faulty 0 sound (fault?_of_not_wellFormed faulty _), position]

/-- Rules make up a table, or the first faulty one is reported. -/
theorem ofRules_cases (rules : List (Rule ρ)) :
    (∃ table, ofRules rules = .ok table ∧ table.rules = rules) ∨
    ∃ before rule after, rules = before ++ rule :: after ∧
      (∀ other ∈ before, other.WellFormed) ∧ ¬rule.WellFormed ∧ ofRules rules = .error
        (if rule.targets = [] then .noTargets before.length else .noTags before.length) := by
  rcases wellFormed_or_first_faulty rules with sound | faulty
  · exact Or.inl ⟨⟨rules, sound⟩, ofRules_rules ⟨rules, sound⟩, rfl⟩
  · obtain ⟨before, rule, after, rfl, sound, faulty⟩ := faulty
    exact Or.inr ⟨before, rule, after, rfl, sound, faulty, ofRules_of_first_faulty sound faulty⟩

theorem ofRules_eq_ok_iff {rules : List (Rule ρ)} {table : RuleTable ρ} :
    ofRules rules = .ok table ↔ table.rules = rules := by
  constructor
  · intro accepted
    rcases ofRules_cases rules with ⟨other, answer, same⟩ | ⟨_, _, _, _, _, _, answer⟩
    · rw [accepted] at answer
      cases answer
      exact same
    · rw [accepted] at answer
      cases answer
  · intro h
    rw [← h]
    exact table.ofRules_rules

theorem ofRules_eq_error_iff {rules : List (Rule ρ)} {fault : RuleFault} :
    ofRules rules = .error fault ↔ ∃ before rule after, rules = before ++ rule :: after ∧
      (∀ other ∈ before, other.WellFormed) ∧ ¬rule.WellFormed ∧
      fault = if rule.targets = [] then .noTargets before.length else .noTags before.length := by
  constructor
  · intro refused
    rcases ofRules_cases rules with ⟨_, answer, _⟩ | h
    · rw [refused] at answer
      cases answer
    · obtain ⟨before, rule, after, split, sound, faulty, answer⟩ := h
      rw [refused] at answer
      exact ⟨before, rule, after, split, sound, faulty, Except.error.inj answer⟩
  · intro h
    obtain ⟨before, rule, after, split, sound, faulty, hfault⟩ := h
    rw [split, hfault, ofRules_of_first_faulty sound faulty]

theorem refused_iff {rules : List (Rule ρ)} :
    (∃ fault, ofRules rules = .error fault) ↔ ∃ rule ∈ rules, ¬rule.WellFormed := by
  constructor
  · intro h
    obtain ⟨fault, refused⟩ := h
    obtain ⟨before, rule, after, hrules, _, faulty, _⟩ := ofRules_eq_error_iff.mp refused
    exact ⟨rule, by simp [hrules], faulty⟩
  · intro h
    obtain ⟨rule, hrule, faulty⟩ := h
    cases answer : ofRules rules with
    | error fault => exact ⟨fault, rfl⟩
    | ok table =>
        rw [← ofRules_eq_ok_iff.mp answer] at hrule
        exact absurd (table.wellFormed rule hrule) faulty

/-- Clauses are stray guards and stanzas, and what comes of reading them is this: with a stray
guard, a report of the first one, and without, what comes of the rules of the stanzas, each with its
guards in order. Of rules the first one is reported that has no targets or, failing that, a
predicate of blanks; if there is none, they make up the table. -/
theorem reads_as_attached :
    (∀ clauses : List (Clause ρ), ∃ stray stanzas, clauses = spelledOut stray stanzas) ∧
    (∀ guard stray, ∀ stanzas : List (Stanza ρ),
      ofClauses (spelledOut (guard :: stray) stanzas) = .error (.strayGuard guard)) ∧
    (∀ stanzas : List (Stanza ρ),
      ofClauses (spelledOut [] stanzas) = ofRules (stanzas.map Stanza.rule)) ∧
    (∀ stanza : Stanza ρ,
      stanza.rule.required = Text.words stanza.predicate ∧ stanza.rule.guards = stanza.guards ∧
      stanza.rule.targets = stanza.targets ∧
      (stanza.rule.required = [] ↔ Text.Blank stanza.predicate)) ∧
    ∀ rules : List (Rule ρ),
      ((∃ fault, ofRules rules = .error fault) ↔
        ∃ rule ∈ rules, rule.targets = [] ∨ rule.required = []) ∧
      (∀ fault, ofRules rules = .error fault ↔ ∃ before rule after,
        rules = before ++ rule :: after ∧
        (∀ other ∈ before, other.targets ≠ [] ∧ other.required ≠ []) ∧
        (rule.targets = [] ∨ rule.required = []) ∧
        fault = if rule.targets = [] then .noTargets before.length else .noTags before.length) ∧
      ∀ table, ofRules rules = .ok table ↔ table.rules = rules := by
  have faulty_iff : ∀ rule : Rule ρ, ¬rule.WellFormed ↔ rule.targets = [] ∨ rule.required = [] := by
    intro rule
    unfold Rule.WellFormed
    rw [not_and_or, not_not, not_not]
  refine ⟨exists_spelledOut, ?_, ?_, ?_, ?_⟩
  · intro guard stray stanzas
    exact ofClauses_spelledOut (guard :: stray) stanzas
  · intro stanzas
    exact ofClauses_spelledOut [] stanzas
  · intro stanza
    rw [stanza.rule_eq]
    exact ⟨rfl, rfl, rfl, Text.words_eq_nil_iff⟩
  · intro rules
    refine ⟨?_, ?_, fun table => ofRules_eq_ok_iff⟩
    · simp only [refused_iff, faulty_iff]
    · intro fault
      simp only [← faulty_iff]
      exact ofRules_eq_error_iff

/-- The guard in the middle belongs to the first rule, and those at the end to the second. -/
example : (ofClauses [.rule "new_code" [1, 2], .guard (.enabled .moduleMode),
      .rule "new_code  new_import" [3], .guard (.disabled .moduleMode),
      .guard (.enabled .valuePropagation)]).toOption.map
        (fun table => table.rules.map fun rule => (rule.required, rule.guards, rule.targets)) =
    some [(["new_code"], [.enabled .moduleMode], [1, 2]),
      (["new_code", "new_import"], [.disabled .moduleMode, .enabled .valuePropagation], [3])] := by
  rfl

end PassEngine.RuleTable
