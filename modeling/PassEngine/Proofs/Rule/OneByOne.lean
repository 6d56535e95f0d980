import PassEngine.Proofs.Run.Step

/-!
# Refreshing one by one

A refresh collects the eligible passes without repetitions first and pushes that list then. It might
as well go through the rules and add each target of each rule that fires as it comes, whether the
target was added before or not: the agenda that this leaves is the same, and the count of a refresh
is the number of times that the agenda took a target.
-/

namespace PassEngine

namespace RuleTable

variable {ρ : Type} [DecidableEq ρ]

/-- Go through the rules and add each target of each rule that fires on the tags, with the answers
of the agenda. Nothing is remembered but the agenda. -/
def addTargets (tags : TagSet) (settings : Settings) :
    List (Rule ρ) → Agenda ρ → List Bool × Agenda ρ
  | [], agenda => ([], agenda)
  | rule :: rest, agenda =>
      if rule.fires tags settings then
        let (answers, grown) := agenda.addEach rule.targets
        let (more, final) := addTargets tags settings rest grown
        (answers ++ more, final)
      else addTargets tags settings rest agenda

theorem addTargets_eq (tags : TagSet) (settings : Settings) (rules : List (Rule ρ))
    (agenda : Agenda ρ) :
    addTargets tags settings rules agenda =
      agenda.addEach (contributions rules tags settings) := by
  induction rules generalizing agenda with
  | nil => rfl
  | cons rule rest ih =>
      rw [contributions_cons]
      cases fires : rule.fires tags settings with
      | true => simp [addTargets, fires, ih, Agenda.addEach_append]
      | false => simp [addTargets, fires, ih]

theorem refresh_eq_addTargets (table : RuleTable ρ) (tags : TagSet) (settings : Settings)
    (agenda : Agenda ρ) :
    table.refresh tags settings agenda =
      { added := (addTargets tags settings table.rules agenda).1.count true
        tags := .empty
        agenda := (addTargets tags settings table.rules agenda).2 } := by
  rw [refresh, eligible_eq, Agenda.pushAll_eraseDups, Agenda.pushAll_eq_addEach, addTargets_eq]

/-- A refresh is as good as adding the targets of the rules that fire one by one, repetitions and
all: the agenda is the same, the count is that of the targets that were taken, and the agenda grows
by so many. What was pending keeps its place in front. All rules see the tags that were there before
the refresh, in a run as anywhere else, and none are there after it. -/
theorem refresh_one_by_one (table : RuleTable ρ) (tags : TagSet) (settings : Settings)
    (agenda : Agenda ρ) :
    let refreshed := table.refresh tags settings agenda
    let plain := addTargets tags settings table.rules agenda
    refreshed.agenda = plain.2 ∧
    refreshed.added = plain.1.count true ∧
    refreshed.agenda.size = agenda.size + refreshed.added ∧
    agenda.toList <+: refreshed.agenda.toList ∧
    refreshed.tags = .empty ∧
    ∀ {τ : Type} (engine : Engine ρ) (run : Run ρ τ),
      (engine.refresh run).agenda =
        (addTargets run.tags engine.settings engine.table.rules run.agenda).2 ∧
      (engine.refresh run).tags = .empty := by
  intro refreshed plain
  have h : refreshed = ⟨plain.1.count true, .empty, plain.2⟩ :=
    refresh_eq_addTargets table tags settings agenda
  refine ⟨congrArg Refreshed.agenda h, congrArg Refreshed.added h, Agenda.size_pushAll _ _,
    Agenda.prefix_pushAll _ _, rfl, ?_⟩
  intro τ engine run
  rw [Engine.agenda_refresh, refresh_eq_addTargets]
  exact ⟨rfl, rfl⟩

/-- The pass 1 is pending and is refused, and 2 is taken once. -/
example : addTargets (.ofList [newCode]) .default
    [.ofPredicate "new_code" [2, 1, 2], .ofPredicate "new_import" [3], .ofPredicate "new_code" [2]]
    (Agenda.empty.push 1) = ([true, false, false, false], (Agenda.empty.push 1).push 2) := by
  decide

end RuleTable

end PassEngine
