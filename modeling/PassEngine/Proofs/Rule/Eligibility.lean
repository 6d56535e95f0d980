import PassEngine.Proofs.FirstOccurrence
import PassEngine.Proofs.Rule.Scope

/-!
# What a table makes eligible

A table is read from top to bottom, and every rule that fires contributes its targets. What is
eligible are these targets, each once, in the order in which they occur first. A table put behind
another one adds what the other does not have already. More tags take no pass away, even if they
may change the order, and without tags nothing is eligible.
-/

namespace PassEngine.RuleTable

variable {ρ : Type}

/-- The rules of one table and behind them those of another. -/
def append (first second : RuleTable ρ) : RuleTable ρ where
  rules := first.rules ++ second.rules
  wellFormed := by
    intro rule hrule
    rcases List.mem_append.mp hrule with here | there
    · exact first.wellFormed rule here
    · exact second.wellFormed rule there

variable [DecidableEq ρ]

/-- Of the second table only what the first one does not make eligible is added. -/
theorem eligible_append (first second : RuleTable ρ) (tags : TagSet) (settings : Settings) :
    (first.append second).eligible tags settings = first.eligible tags settings ++
      (second.eligible tags settings).filter (· ∉ first.eligible tags settings) := by
  have rules : (first.append second).rules = first.rules ++ second.rules := rfl
  rw [eligible_eq, rules, contributions_append]
  exact eraseDups_append_eq _ _

end PassEngine.RuleTable

/-! ## A table whose order depends on the tags -/

namespace PassEngine.Sharing

/-- Both rules queue the pass `true`, and only the second one queues `false` before it. -/
def rules : List (Rule Bool) :=
  [.ofPredicate "new_import" [true], .ofPredicate " new_code\tnew_code" [false, true, false]]

def table : RuleTable Bool where
  rules := rules
  wellFormed := by
    intro rule hrule
    simp only [rules, List.mem_cons, List.not_mem_nil, or_false] at hrule
    rcases hrule with rfl | rfl
    · exact ⟨by decide, by decide⟩
    · exact ⟨by decide, by decide⟩

def fewer : TagSet := .ofList ["new_code"]

def more : TagSet := .ofList ["new_code", "new_import"]

theorem mem_more : ∀ tag ∈ fewer, tag ∈ more := by
  intro tag htag
  simp only [fewer, more, TagSet.mem_ofList, List.mem_cons] at htag ⊢
  exact htag.imp_right fun none => absurd none List.not_mem_nil

theorem eligible_fewer (settings : Settings) : table.eligible fewer settings = [false, true] := rfl

theorem eligible_more (settings : Settings) : table.eligible more settings = [true, false] := rfl

end PassEngine.Sharing

namespace PassEngine.RuleTable

variable {ρ : Type} [DecidableEq ρ]

/-- What a table makes eligible: the targets of the rules that fire, each once, in the order of
their first occurrences. Two tables make up one that adds behind what the first makes eligible what
only the second does. With more tags no pass is lost, though the order may be another one, and
nothing is queued without tags. -/
theorem eligible_by_first_occurrence (table : RuleTable ρ) (tags : TagSet) (settings : Settings) :
    (table.eligible tags settings).Nodup ∧
    (∀ pass, pass ∈ table.eligible tags settings ↔ ∃ rule ∈ table.rules, pass ∈ rule.targets ∧
      (∀ guard ∈ rule.guards, guard.holds settings = true) ∧ ∀ tag ∈ rule.required, tag ∈ tags) ∧
    ((table.eligible tags settings).Pairwise fun first second =>
      (contributions table.rules tags settings).idxOf first <
        (contributions table.rules tags settings).idxOf second) ∧
    (∀ behind : RuleTable ρ,
      ofRules (table.rules ++ behind.rules) = .ok (table.append behind) ∧
      (table.append behind).eligible tags settings = table.eligible tags settings ++
        (behind.eligible tags settings).filter (· ∉ table.eligible tags settings)) ∧
    (∀ more : TagSet, (∀ tag ∈ tags, tag ∈ more) →
      table.eligible tags settings ⊆ table.eligible more settings) ∧
    (∃ (sharing : RuleTable Bool) (fewer more : TagSet), (∀ tag ∈ fewer, tag ∈ more) ∧
      sharing.eligible fewer settings = [false, true] ∧
      sharing.eligible more settings = [true, false]) ∧
    table.eligible .empty settings = [] ∧
    ∀ agenda, table.refresh .empty settings agenda = ⟨0, .empty, agenda⟩ := by
  refine ⟨nodup_eraseDups _, ?_, pairwise_idxOf_eraseDups _, ?_, ?_, ?_,
    table.eligible_empty settings, table.refresh_empty settings⟩
  · intro pass
    simp only [mem_eligible, Rule.fires_iff, and_comm]
  · intro behind
    exact ⟨(table.append behind).ofRules_rules, eligible_append table behind tags settings⟩
  · intro more le
    exact table.eligible_mono settings le
  · exact ⟨Sharing.table, Sharing.fewer, Sharing.more, Sharing.mem_more,
      Sharing.eligible_fewer settings, Sharing.eligible_more settings⟩

/-- The two passes stay eligible when there is news of an import, the other way round. -/
theorem eligible_by_first_occurrence_sharing :
    (∀ tag ∈ Sharing.fewer, tag ∈ Sharing.more) ∧
      Sharing.table.eligible Sharing.fewer .default = [false, true] ∧
      Sharing.table.eligible Sharing.fewer .default ⊆
        Sharing.table.eligible Sharing.more .default ∧
      Sharing.table.eligible Sharing.more .default = [true, false] := by
  obtain ⟨_, _, _, _, mono, _⟩ :=
    eligible_by_first_occurrence Sharing.table Sharing.fewer .default
  exact ⟨Sharing.mem_more, Sharing.eligible_fewer _, mono Sharing.more Sharing.mem_more,
    Sharing.eligible_more _⟩

end PassEngine.RuleTable
