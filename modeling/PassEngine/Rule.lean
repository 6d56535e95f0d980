import PassEngine.TagSet
import PassEngine.Settings

/-!
# Rules

A rule queues its target passes when all the tags it requires were emitted and the settings
give each of its guards what it asks for.
-/

namespace PassEngine

structure Rule (ρ : Type) where
  required : List Tag
  guards : List Guard
  targets : List ρ
  /-- Required tags come from a predicate, so that each is a single word. -/
  required_isWord : ∀ tag ∈ required, Text.IsWord tag

namespace Rule

variable {ρ : Type}

def ofPredicate (predicate : String) (targets : List ρ) (guards : List Guard := []) : Rule ρ :=
  ⟨Text.words predicate, guards, targets, fun _ => Text.isWord_of_mem_words⟩

/-- The rule with one more guard behind those it has. -/
def guardedBy (rule : Rule ρ) (guard : Guard) : Rule ρ :=
  { rule with guards := rule.guards ++ [guard] }

def fires (rule : Rule ρ) (tags : TagSet) (settings : Settings) : Bool :=
  rule.guards.all (·.holds settings) && tags.containsAll rule.required

/-- A rule that queues something, and not always. -/
def WellFormed (rule : Rule ρ) : Prop := rule.targets ≠ [] ∧ rule.required ≠ []

/-- What is wrong with a rule, given its position: missing targets come first. -/
def fault? (rule : Rule ρ) (index : Nat) : Option RuleFault :=
  if rule.targets.isEmpty then some (.noTargets index)
  else if rule.required.isEmpty then some (.noTags index)
  else none

/-- Guards that come one by one stand behind those the rule has, in the order in which they come. -/
theorem foldl_guardedBy (rule : Rule ρ) (guards : List Guard) :
    guards.foldl guardedBy rule = { rule with guards := rule.guards ++ guards } := by
  induction guards generalizing rule with
  | nil => simp
  | cons guard rest ih => simp [ih, guardedBy]

theorem fault?_eq_none_iff {rule : Rule ρ} {index : Nat} :
    rule.fault? index = none ↔ rule.WellFormed := by
  unfold fault? WellFormed
  cases rule.targets <;> cases rule.required <;> simp

theorem fires_iff {rule : Rule ρ} {tags : TagSet} {settings : Settings} :
    rule.fires tags settings = true ↔
      (∀ guard ∈ rule.guards, guard.holds settings = true) ∧ ∀ tag ∈ rule.required, tag ∈ tags := by
  simp [fires]

end Rule

end PassEngine
