import PassEngine.Rule
import PassEngine.Agenda

/-!
# Tables of rules

A table is read from top to bottom on every refresh. Every rule that fires contributes its
targets; the agenda keeps the first occurrence of each. What is eligible depends on the tags
and the settings alone.
-/

namespace PassEngine

/-- A list of rules each of which queues something, and not always. -/
structure RuleTable (ρ : Type) where
  rules : List (Rule ρ)
  wellFormed : ∀ rule ∈ rules, rule.WellFormed

namespace RuleTable

variable {ρ : Type}

/-! ## Making a table -/

theorem wellFormed_singleton {rule : Rule ρ} (h : rule.WellFormed) :
    ∀ other ∈ [rule], other.WellFormed := by
  intro other hother
  cases List.mem_singleton.mp hother
  exact h

/-- Check rules from a position on; the first faulty rule is reported. -/
def checkFrom : Nat → (rules : List (Rule ρ)) →
    Except RuleFault { checked : List (Rule ρ) // ∀ rule ∈ checked, rule.WellFormed }
  | _, [] => .ok ⟨[], by simp⟩
  | index, rule :: rest =>
      match h : rule.fault? index with
      | some fault => .error fault
      | none =>
          match checkFrom (index + 1) rest with
          | .error fault => .error fault
          | .ok checked =>
              .ok ⟨rule :: checked.1, by
                intro r hr
                rcases List.mem_cons.mp hr with rfl | hr
                · exact Rule.fault?_eq_none_iff.mp h
                · exact checked.2 r hr⟩

def ofRules (rules : List (Rule ρ)) : Except RuleFault (RuleTable ρ) :=
  match checkFrom 0 rules with
  | .error fault => .error fault
  | .ok checked => .ok ⟨checked.1, checked.2⟩

theorem checkFrom_of_wellFormed (index : Nat) {rules : List (Rule ρ)}
    (h : ∀ rule ∈ rules, rule.WellFormed) : checkFrom index rules = .ok ⟨rules, h⟩ := by
  induction rules generalizing index with
  | nil => rfl
  | cons rule rest ih =>
      have here : rule.fault? index = none :=
        Rule.fault?_eq_none_iff.mpr (h rule List.mem_cons_self)
      rw [checkFrom]
      split
      · simp_all
      · rw [ih (index + 1) fun other hother => h other (List.mem_cons_of_mem rule hother)]

/-- The rules of a table are accepted, and make up the table again. -/
theorem ofRules_rules (table : RuleTable ρ) : ofRules table.rules = .ok table := by
  unfold ofRules
  rw [checkFrom_of_wellFormed 0 table.wellFormed]

/-! ## Clause by clause -/

/-- One clause of a table as it is written down: a rule, or a guard for the rule before it. -/
inductive Clause (ρ : Type) where
  | rule (predicate : String) (targets : List ρ)
  | guard (guard : Guard)

structure Builder (ρ : Type) where
  rules : List (Rule ρ) := []
  fault : Option RuleFault := none

namespace Builder

def rule (builder : Builder ρ) (predicate : String) (targets : List ρ) : Builder ρ :=
  { builder with rules := .ofPredicate predicate targets :: builder.rules }

/-- Give the latest rule a guard. It is a fault if there is no rule yet, and only the first fault
is remembered. -/
def guard (builder : Builder ρ) (guard : Guard) : Builder ρ :=
  match builder.rules with
  | latest :: earlier => { builder with rules := latest.guardedBy guard :: earlier }
  | [] => { builder with fault := some (builder.fault.getD (.strayGuard guard)) }

def read (builder : Builder ρ) : Clause ρ → Builder ρ
  | .rule predicate targets => builder.rule predicate targets
  | .guard guard => builder.guard guard

/-- The table of what was written down. A fault on the way comes before those of the rules. -/
def build (builder : Builder ρ) : Except RuleFault (RuleTable ρ) :=
  match builder.fault with
  | some fault => .error fault
  | none => ofRules builder.rules.reverse

end Builder

def ofClauses (clauses : List (Clause ρ)) : Except RuleFault (RuleTable ρ) :=
  (clauses.foldl Builder.read {}).build

/-! ## Consulting a table -/

structure Refreshed (ρ : Type) where
  added : Nat
  tags : TagSet
  agenda : Agenda ρ

variable [DecidableEq ρ]

/-- The targets of the rules that fire, each once, in the order of the rules. -/
def eligible (table : RuleTable ρ) (tags : TagSet) (settings : Settings) : List ρ :=
  ((table.rules.filter (·.fires tags settings)).flatMap (·.targets)).eraseDups

/-- Queue every eligible pass that is not pending yet, and use up the tags. -/
def refresh (table : RuleTable ρ) (tags : TagSet) (settings : Settings) (agenda : Agenda ρ) :
    Refreshed ρ :=
  let pushed := agenda.pushAll (table.eligible tags settings)
  { added := pushed.1, tags := .empty, agenda := pushed.2 }

theorem mem_eligible {table : RuleTable ρ} {tags : TagSet} {settings : Settings} {pass : ρ} :
    pass ∈ table.eligible tags settings ↔
      ∃ rule ∈ table.rules, rule.fires tags settings = true ∧ pass ∈ rule.targets := by
  simp [eligible, and_assoc]

end RuleTable

end PassEngine
