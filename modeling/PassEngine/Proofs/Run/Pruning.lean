import PassEngine.Proofs.Run.Agreement
import PassEngine.Proofs.Run.Chronicle

/-!
# Rules that a run has no use for

A rule is dead in a run if the settings deny it a guard, or if it waits for a tag that no pass
emits. A refresh hears of nothing but new code and what was emitted before it, so that a dead rule
never fires, and the run is the same without it.
-/

namespace PassEngine

variable {ρ τ : Type}

/-- A guard of the rule does not hold, or the rule requires a tag, other than the one for new code,
that none of the executions emitted. -/
def Rule.Dead (rule : Rule ρ) (settings : Settings) (executions : List (Execution ρ)) : Prop :=
  (∃ guard ∈ rule.guards, guard.holds settings = false) ∨
    ∃ tag ∈ rule.required, tag ≠ newCode ∧ ∀ execution ∈ executions, tag ∉ execution.emitted

/-! ## Tables with rules removed -/

namespace RuleTable

/-- The rules except those at the positions that are removed. -/
def pruned (removed : Nat → Bool) (rules : List (Rule ρ)) : List (Rule ρ) :=
  (rules.zipIdx.filter fun entry => !removed entry.2).map Prod.fst

theorem pruned_subset (removed : Nat → Bool) (rules : List (Rule ρ)) :
    pruned removed rules ⊆ rules := by
  intro rule hrule
  obtain ⟨⟨_, index⟩, hentry, rfl⟩ := List.mem_map.mp hrule
  exact List.mem_of_getElem? (List.mem_zipIdx_iff_getElem?.mp (List.mem_filter.mp hentry).1)

/-- The table without the rules at some positions. -/
def prune (table : RuleTable ρ) (removed : Nat → Bool) : RuleTable ρ :=
  ⟨pruned removed table.rules, fun rule hrule =>
    table.wellFormed rule (pruned_subset removed table.rules hrule)⟩

variable {table : RuleTable ρ} {removed : Nat → Bool} {tags : TagSet} {settings : Settings}

theorem filter_pruned {rules : List (Rule ρ)} {fires : Rule ρ → Bool}
    (idle : ∀ index rule, rules[index]? = some rule → removed index = true → fires rule = false) :
    (pruned removed rules).filter fires = rules.filter fires := by
  have alike : ∀ entry ∈ rules.zipIdx, (fires entry.1 && !removed entry.2) = fires entry.1 := by
    intro entry hentry
    have here := idle entry.2 entry.1 (List.mem_zipIdx_iff_getElem?.mp hentry)
    cases h : removed entry.2 with
    | true => simp [here h]
    | false => simp
  calc
    (pruned removed rules).filter fires =
        (rules.zipIdx.filter fun entry => fires entry.1 && !removed entry.2).map Prod.fst := by
      simp [pruned, List.filter_map, List.filter_filter, Function.comp_def]
    _ = (rules.zipIdx.filter fun entry => fires entry.1).map Prod.fst := by
      rw [List.filter_congr alike]
    _ = (rules.zipIdx.map Prod.fst).filter fires := by
      simp only [List.filter_map, Function.comp_def]
    _ = rules.filter fires := by simp

theorem eligible_prune [DecidableEq ρ]
    (idle : ∀ index rule, table.rules[index]? = some rule → removed index = true →
      rule.fires tags settings = false) :
    (table.prune removed).eligible tags settings = table.eligible tags settings := by
  unfold eligible prune
  dsimp only
  rw [filter_pruned idle]

end RuleTable

/-! ## Runs -/

namespace Engine

variable [DecidableEq ρ] {engine : Engine ρ} {run : Run ρ τ} {tags : TagSet} {eligible : List ρ}

theorem emitted_of_consulted (chronicle : Chronicle engine run)
    (consulted : .refresh tags eligible ∈ run.past) {tag : Tag} (heard : tag ∈ tags) :
    tag = newCode ∨ ∃ execution ∈ run.executions, tag ∈ execution.emitted := by
  obtain ⟨later, earlier, hpast⟩ := List.append_of_mem consulted
  rw [(chronicle.consulted later tags eligible earlier hpast).1, TagSet.mem_ofList] at heard
  rcases emitted_of_mem_unheard heard with fresh | ⟨execution, hmem, emits⟩
  · exact Or.inl fresh
  · refine Or.inr ⟨execution, ?_, emits⟩
    have happened : .executed execution ∈ run.past := by simp [hpast, hmem]
    rw [Run.executions_eq, List.mem_reverse, List.mem_filterMap]
    exact ⟨_, happened, rfl⟩

theorem not_fires_of_dead (chronicle : Chronicle engine run)
    (consulted : .refresh tags eligible ∈ run.past) {rule : Rule ρ}
    (dead : rule.Dead engine.settings run.executions) :
    rule.fires tags engine.settings = false := by
  rw [Bool.eq_false_iff, ne_eq, Rule.fires_iff]
  rintro ⟨holds, emitted⟩
  rcases dead with ⟨guard, hguard, denied⟩ | ⟨tag, required, other, unemitted⟩
  · simp [holds guard hguard] at denied
  · rcases emitted_of_consulted chronicle consulted (emitted tag required) with
      fresh | ⟨execution, hmem, emits⟩
    · exact other fresh
    · exact unemitted execution hmem emits

/-- The engine without some rules of its table. -/
def prune (engine : Engine ρ) (removed : Nat → Bool) : Engine ρ :=
  { engine with table := engine.table.prune removed }

/-- Rules that are dead in a run can be removed, whichever and however many: the rest is accepted as
a table, and its run is the same run. The same passes are executed in the same order and emit the
same, the rules are consulted as often, tree and store are the same, and so is the way it stands. -/
theorem dead_rules_removable (engine : Engine ρ) (suite : PassSuite ρ τ) (fuel : Nat)
    (subject : Subject) (tree : τ) (store : ModuleStore τ) (removed : Nat → Bool)
    (dead : ∀ index rule, engine.table.rules[index]? = some rule → removed index = true →
      rule.Dead engine.settings (engine.run suite fuel subject tree store).executions) :
    RuleTable.ofRules (RuleTable.pruned removed engine.table.rules) =
        .ok (engine.table.prune removed) ∧
      (engine.prune removed).run suite fuel subject tree store =
        engine.run suite fuel subject tree store := by
  refine ⟨(engine.table.prune removed).ofRules_rules, ?_⟩
  have limit : engine.settings.refreshLimit = (engine.prune removed).settings.refreshLimit := rfl
  have chronicle := chronicle_run engine suite subject tree store fuel
  refine run_eq_of_consulted limit suite subject tree store fuel ?_
  intro tags eligible consulted
  exact (RuleTable.eligible_prune fun index rule hrule hremoved =>
    not_fires_of_dead chronicle consulted (dead index rule hrule hremoved)).symm

end Engine

/-! ## A table with idle rules -/

namespace Idling

/-- The rules of `Folding`, a rule that waits for an import before them, and one behind the first
that a guard keeps back. -/
def rules : List (Rule Bool) :=
  [.ofPredicate "new_code new_import" [false],
    .ofPredicate "new_code" [true, false],
    .ofPredicate "new_constant" [true] [.enabled .valuePropagation],
    .ofPredicate "new_constant" [false]]

def engine : Engine Bool where
  table :=
    { rules
      wellFormed := by
        intro rule hrule
        simp only [rules, List.mem_cons, List.not_mem_nil, or_false] at hrule
        rcases hrule with rfl | rfl | rfl | rfl
        all_goals exact ⟨by decide, by decide⟩ }
  settings := Settings.default
  valid := Settings.valid_default

/-- The positions of the two rules. -/
def idle (index : Nat) : Bool := index == 0 || index == 2

end Idling

namespace Engine

/-- Nothing is imported and values are not propagated, so that the rules of `Folding` do. -/
theorem dead_rules_removable_folding :
    let run := Idling.engine.run Folding.suite 6 Folding.subject 3 .empty
    (∀ index rule, Idling.engine.table.rules[index]? = some rule → Idling.idle index = true →
      rule.Dead Idling.engine.settings run.executions) ∧
    RuleTable.pruned Idling.idle Idling.engine.table.rules = Folding.table.rules ∧
    (Idling.engine.prune Idling.idle).run Folding.suite 6 Folding.subject 3 .empty = run ∧
    run.verdict? Folding.suite Folding.subject = some (.ok ⟨Folding.subject,
      [⟨"unroll", 1⟩, ⟨"fold", 1⟩, ⟨"unroll", 0⟩, ⟨"fold", 1⟩, ⟨"fold", 1⟩, ⟨"fold", 0⟩], 6⟩) := by
  intro run
  have unimported : ∀ execution ∈ run.executions, "new_import" ∉ execution.emitted := by decide
  have dead : ∀ index rule, Idling.engine.table.rules[index]? = some rule →
      Idling.idle index = true → rule.Dead Idling.engine.settings run.executions := by
    intro index rule hrule hidle
    have position : index = 0 ∨ index = 2 := by simpa [Idling.idle] using hidle
    rcases position with rfl | rfl
    · cases hrule
      exact Or.inr ⟨"new_import", by decide, by decide, unimported⟩
    · cases hrule
      exact Or.inl ⟨.enabled .valuePropagation, by decide, by decide⟩
  have removed := dead_rules_removable Idling.engine Folding.suite 6 Folding.subject 3 .empty
    Idling.idle dead
  exact ⟨dead, rfl, removed.2, by decide⟩

end Engine

end PassEngine
