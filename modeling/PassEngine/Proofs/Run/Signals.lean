import PassEngine.Proofs.Run.Chronicle

/-!
# No signal is lost

Tags pile up over several executions, a refresh may come early, and a pass that is pending already
is not queued twice. In a run that settles, none of this lets a signal slip: the targets of every
rule whose tags were all emitted between two refreshes are executed after the second one.
-/

namespace PassEngine

variable {ρ τ : Type}

/-- The window holds the executions between two refreshes that follow each other. -/
def IsWindow (events before : List (Event ρ)) (window : List (Execution ρ))
    (after : List (Event ρ)) : Prop :=
  ∃ opening closing, opening.isRefresh = true ∧ closing.isRefresh = true ∧
    events = before ++ opening :: window.map .executed ++ closing :: after

theorem eq_refresh_of_isRefresh {event : Event ρ} (h : event.isRefresh = true) :
    ∃ tags eligible, event = .refresh tags eligible := by
  cases event with
  | refresh tags eligible => exact ⟨tags, eligible, rfl⟩
  | executed execution => cases h

/-! ## Cutting the past -/

theorem Run.past_eq_of_events {run : Run ρ τ} {before after : List (Event ρ)} {event : Event ρ}
    (h : run.events = before ++ event :: after) :
    run.past = after.reverse ++ event :: before.reverse := by
  have hreverse : run.past = run.events.reverse := (List.reverse_reverse run.past).symm
  rw [hreverse, h]
  simp

/-- Events are executions only, or there is an earliest refresh among them. -/
theorem executions_or_refresh (later : List (Event ρ)) :
    (∃ window : List (Execution ρ), later = window.map .executed) ∨
      ∃ latest tags eligible, ∃ window : List (Execution ρ),
        later = latest ++ .refresh tags eligible :: window.map .executed := by
  induction later with
  | nil => exact Or.inl ⟨[], rfl⟩
  | cons event later ih =>
      rcases ih with ⟨window, rfl⟩ | ⟨latest, tags, eligible, window, rfl⟩
      · cases event with
        | refresh tags eligible => exact Or.inr ⟨[], tags, eligible, window, rfl⟩
        | executed execution => exact Or.inl ⟨execution :: window, rfl⟩
      · exact Or.inr ⟨event :: latest, tags, eligible, window, rfl⟩

/-- Either no execution emits the tag, or one of them is the last to do so. -/
theorem silent_or_last_emission (tag : Tag) (events : List (Event ρ)) :
    (∀ execution, .executed execution ∈ events → tag ∉ execution.emitted) ∨
      ∃ before execution after, events = before ++ .executed execution :: after ∧
        tag ∈ execution.emitted ∧
        ∀ later, .executed later ∈ after → tag ∉ later.emitted := by
  induction events with
  | nil => exact Or.inl (by simp)
  | cons event events ih =>
      rcases ih with silent | ⟨before, execution, after, rfl, emits, last⟩
      · cases event with
        | refresh tags eligible => exact Or.inl (by simpa using silent)
        | executed execution =>
            by_cases emits : tag ∈ execution.emitted
            · exact Or.inr ⟨[], execution, events, rfl, emits, silent⟩
            · refine Or.inl ?_
              intro other hother
              rcases List.mem_cons.mp hother with heq | hother
              · cases heq
                exact emits
              · exact silent other hother
      · exact Or.inr ⟨event :: before, execution, after, rfl, emits, last⟩

/-- In a settled run every execution has a refresh after it; the earliest of these closes the
window of the execution. -/
theorem exists_closing [DecidableEq ρ] {engine : Engine ρ} {run : Run ρ τ}
    (quiet : Engine.Quiet engine run) {later earlier : List (Event ρ)} {execution : Execution ρ}
    (h : run.past = later ++ .executed execution :: earlier) :
    ∃ latest tags eligible, ∃ window : List (Execution ρ),
      later = latest ++ .refresh tags eligible :: window.map .executed := by
  obtain ⟨_, _, tags, before, hpast, _⟩ := quiet
  rcases executions_or_refresh later with ⟨window, rfl⟩ | found
  · rw [hpast] at h
    cases window with
    | nil => simp at h
    | cons execution window => simp at h
  · exact found

/-! ## Rules that were triggered -/

namespace Engine

variable [DecidableEq ρ] {engine : Engine ρ} {suite : PassSuite ρ τ} {subject : Subject}
  {run : Run ρ τ}

theorem mem_eligible_of_unheard (chronicle : Chronicle engine run)
    {later earlier : List (Event ρ)} {tags : TagSet} {eligible : List ρ}
    (h : run.past = later ++ .refresh tags eligible :: earlier) {rule : Rule ρ}
    (hrule : rule ∈ engine.table.rules) (allowed : rule.allowed engine.settings = true)
    (hrequired : ∀ tag ∈ rule.required, tag ∈ unheard earlier) {pass : ρ}
    (hpass : pass ∈ rule.targets) : pass ∈ eligible := by
  obtain ⟨rfl, rfl⟩ := chronicle.consulted later tags eligible earlier h
  have fires : rule.fires (TagSet.ofList (unheard earlier)) engine.settings = true := by
    rw [Rule.fires_eq_true_iff]
    exact ⟨allowed, fun tag htag => TagSet.mem_ofList.mpr (hrequired tag htag)⟩
  exact RuleTable.mem_eligible.mpr ⟨rule, hrule, fires, hpass⟩

/-- What a rule demands was waiting for a refresh, so its targets were executed since. -/
theorem executes_of_unheard (chronicle : Chronicle engine run) (idle : run.agenda.toList = [])
    {later earlier : List (Event ρ)} {tags : TagSet} {eligible : List ρ}
    (h : run.past = later ++ .refresh tags eligible :: earlier) {rule : Rule ρ}
    (hrule : rule ∈ engine.table.rules) (allowed : rule.allowed engine.settings = true)
    (hrequired : ∀ tag ∈ rule.required, tag ∈ unheard earlier) {pass : ρ}
    (hpass : pass ∈ rule.targets) : Executes pass later := by
  have heligible := mem_eligible_of_unheard chronicle h hrule allowed hrequired hpass
  rcases chronicle.served later tags eligible earlier h pass heligible with pending | executed
  · rw [idle] at pending
    cases pending
  · exact executed

theorem executes_after_window (chronicle : Chronicle engine run) (quiet : Quiet engine run)
    {rule : Rule ρ} (hrule : rule ∈ engine.table.rules)
    (allowed : rule.allowed engine.settings = true) {before after : List (Event ρ)}
    {window : List (Execution ρ)} (h : IsWindow run.events before window after)
    (emitted : ∀ tag ∈ rule.required, ∃ execution ∈ window, tag ∈ execution.emitted)
    {pass : ρ} (hpass : pass ∈ rule.targets) : Executes pass after := by
  obtain ⟨opening, closing, hopening, hclosing, hevents⟩ := h
  obtain ⟨tags, eligible, rfl⟩ := eq_refresh_of_isRefresh hclosing
  obtain ⟨first, found, rfl⟩ := eq_refresh_of_isRefresh hopening
  have hpast : run.past = after.reverse ++ .refresh tags eligible ::
      (window.reverse.map .executed ++ .refresh first found :: before.reverse) := by
    rw [Run.past_eq_of_events hevents]
    simp
  refine executes_reverse.mp
    (executes_of_unheard chronicle quiet.2.1 hpast hrule allowed ?_ hpass)
  intro tag htag
  obtain ⟨execution, hexecution, hemits⟩ := emitted tag htag
  exact mem_unheard_executions.mpr (Or.inr ⟨execution, List.mem_reverse.mpr hexecution, hemits⟩)

theorem executes_after_emission (chronicle : Chronicle engine run) (quiet : Quiet engine run)
    {rule : Rule ρ} (hrule : rule ∈ engine.table.rules)
    (allowed : rule.allowed engine.settings = true) {tag : Tag}
    (single : ∀ required ∈ rule.required, required = tag) {before after : List (Event ρ)}
    {execution : Execution ρ} (h : run.events = before ++ .executed execution :: after)
    (emits : tag ∈ execution.emitted) {pass : ρ} (hpass : pass ∈ rule.targets) :
    Executes pass after := by
  have hpast := Run.past_eq_of_events h
  obtain ⟨latest, tags, eligible, window, hlater⟩ := exists_closing quiet hpast
  have hclosing : run.past = latest ++ .refresh tags eligible ::
      (window.map .executed ++ .executed execution :: before.reverse) := by
    rw [hpast, hlater, List.append_assoc, List.cons_append]
  have hexecutes : Executes pass latest := by
    refine executes_of_unheard chronicle quiet.2.1 hclosing hrule allowed ?_ hpass
    intro required hrequired
    rw [single required hrequired, mem_unheard_executions, mem_unheard_executed]
    exact Or.inl (Or.inr emits)
  rw [← executes_reverse, hlater]
  obtain ⟨served, hserved, heq⟩ := hexecutes
  exact ⟨served, List.mem_append_left _ hserved, heq⟩

/-- The first refresh sees the tag for new code, so that a rule that demands nothing else is
served even if no pass ever emits it. -/
theorem executes_after_new_code (fuel : Nat) {tree : τ} {store : ModuleStore τ}
    (hrun : run = engine.run suite fuel subject tree store) (quiet : Quiet engine run)
    {rule : Rule ρ} (hrule : rule ∈ engine.table.rules)
    (allowed : rule.allowed engine.settings = true)
    (single : ∀ required ∈ rule.required, required = newCode) {pass : ρ}
    (hpass : pass ∈ rule.targets) :
    ∃ before execution after, run.events = before ++ .executed execution :: after ∧
      execution.pass = pass ∧ newCode ∉ execution.emitted ∧
      ∀ later, .executed later ∈ after → newCode ∉ later.emitted := by
  have chronicle : Chronicle engine run := by
    rw [hrun]
    exact chronicle_run engine suite subject tree store fuel
  rcases silent_or_last_emission newCode run.events with
    silent | ⟨before, emitter, after, hevents, emits, last⟩
  · obtain ⟨later, tags, eligible, hpast⟩ := first_refresh engine suite subject tree store fuel
    rw [← hrun] at hpast
    have hexecutes : Executes pass later := by
      refine executes_of_unheard chronicle quiet.2.1 hpast hrule allowed ?_ hpass
      intro required hrequired
      rw [single required hrequired, unheard_nil]
      exact List.mem_singleton_self newCode
    obtain ⟨execution, hmem, heq⟩ := hexecutes
    have hevent : .executed execution ∈ run.events := by
      rw [Run.events, hpast]
      exact List.mem_reverse.mpr (List.mem_append_left _ hmem)
    obtain ⟨before, after, hevents⟩ := List.append_of_mem hevent
    refine ⟨before, execution, after, hevents, heq, silent execution hevent, ?_⟩
    intro later hlater
    apply silent later
    rw [hevents]
    exact List.mem_append_right _ (List.mem_cons_of_mem _ hlater)
  · obtain ⟨execution, hmem, heq⟩ :=
      executes_after_emission chronicle quiet hrule allowed single hevents emits hpass
    obtain ⟨between, rest, hafter⟩ := List.append_of_mem hmem
    refine ⟨before ++ .executed emitter :: between, execution, rest, ?_, heq,
      last execution hmem, ?_⟩
    · rw [hevents, hafter, List.append_assoc, List.cons_append]
    · intro later hlater
      apply last later
      rw [hafter]
      exact List.mem_append_right _ (List.mem_cons_of_mem _ hlater)

/-! ## Runs that settle -/

/-- What it takes that no signal of a run was lost. -/
structure NoSignalLost (engine : Engine ρ) (run : Run ρ τ) : Prop where
  /-- If all the tags of a rule were emitted in one window, its targets run after the window. -/
  window : ∀ rule ∈ engine.table.rules, rule.allowed engine.settings = true →
    ∀ before window after, IsWindow run.events before window after →
      (∀ tag ∈ rule.required, ∃ execution ∈ window, tag ∈ execution.emitted) →
      ∀ pass ∈ rule.targets, Executes pass after
  /-- If a rule requires a single tag, its targets run after every execution that emitted it. -/
  emission : ∀ rule ∈ engine.table.rules, rule.allowed engine.settings = true →
    ∀ tag, (∀ required ∈ rule.required, required = tag) →
    ∀ before execution after, run.events = before ++ .executed execution :: after →
      tag ∈ execution.emitted → ∀ pass ∈ rule.targets, Executes pass after
  /-- The targets of a rule for new code run when new code has been emitted for the last time. -/
  newCode : ∀ rule ∈ engine.table.rules, rule.allowed engine.settings = true →
    (∀ required ∈ rule.required, required = PassEngine.newCode) → ∀ pass ∈ rule.targets,
    ∃ before execution after, run.events = before ++ .executed execution :: after ∧
      execution.pass = pass ∧ PassEngine.newCode ∉ execution.emitted ∧
      ∀ later, .executed later ∈ after → PassEngine.newCode ∉ later.emitted
  tags : run.tags = .empty
  agenda : run.agenda = .empty
  /-- The run ends with a refresh that found nothing eligible. -/
  closing : ∃ before tags, run.events = before ++ [.refresh tags []] ∧
    engine.table.eligible tags engine.settings = []

/-- A run that settles has lost no signal, whatever the passes do. -/
theorem no_signal_lost (engine : Engine ρ) (suite : PassSuite ρ τ) (fuel : Nat)
    (subject : Subject) (tree : τ) (store : ModuleStore τ) (report : ModuleReport)
    (settled : (engine.run suite fuel subject tree store).verdict? suite subject =
      some (.ok report)) :
    NoSignalLost engine (engine.run suite fuel subject tree store) := by
  have chronicle := chronicle_run engine suite subject tree store fuel
  have quiet := quiet_of_settled engine suite subject tree store fuel
    (Run.verdict?_eq_ok_iff.mp settled).1
  exact
    { window := fun rule hrule allowed before window after hwindow emitted pass hpass =>
        executes_after_window chronicle quiet hrule allowed hwindow emitted hpass
      emission := fun rule hrule allowed tag single before execution after hevents emits pass
          hpass =>
        executes_after_emission chronicle quiet hrule allowed single hevents emits hpass
      newCode := fun rule hrule allowed single pass hpass =>
        executes_after_new_code fuel rfl quiet hrule allowed single hpass
      tags := quiet.1
      agenda := Agenda.eq_empty_iff.mpr quiet.2.1
      closing := by
        obtain ⟨_, _, tags, earlier, hpast, hnone⟩ := quiet
        exact ⟨earlier.reverse, tags, by rw [Run.events, hpast, List.reverse_cons], hnone⟩ }

/-- Unrolling forces a refresh while folding is still pending. -/
theorem no_signal_lost_folding :
    let engine := Folding.engine 10 (by decide)
    let run := engine.run Folding.suite 6 Folding.subject 3 .empty
    run.verdict? Folding.suite Folding.subject = some (.ok
      ⟨Folding.subject, [⟨"unroll", 1⟩, ⟨"fold", 1⟩, ⟨"unroll", 0⟩, ⟨"fold", 1⟩, ⟨"fold", 1⟩,
        ⟨"fold", 0⟩], 6⟩) ∧
      NoSignalLost engine run := by
  intro engine run
  have settled : run.verdict? Folding.suite Folding.subject = some (.ok
      ⟨Folding.subject, [⟨"unroll", 1⟩, ⟨"fold", 1⟩, ⟨"unroll", 0⟩, ⟨"fold", 1⟩, ⟨"fold", 1⟩,
        ⟨"fold", 0⟩], 6⟩) := by decide
  exact ⟨settled, no_signal_lost engine Folding.suite 6 Folding.subject 3 .empty _ settled⟩

end Engine

end PassEngine
