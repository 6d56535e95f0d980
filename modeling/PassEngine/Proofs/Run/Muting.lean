import PassEngine.Proofs.Run.Step
import PassEngine.Proofs.TagSet

/-!
# Tags that nobody asks for

A tag that no rule requires, and that is not the one for new code, is inert: no consultation of the
rules notices it, and it does not bring one about. To mute a conversation is to leave the emissions
of such tags out of it. The runs of a muted suite are the muted runs of the suite, so that suites
which differ in inert tags only do the same.
-/

namespace PassEngine

variable {ρ τ α : Type}

/-! ## Inert tags -/

namespace RuleTable

/-- Whether a tag is neither the one for new code nor required by any rule. -/
def inert (table : RuleTable ρ) (tag : Tag) : Bool :=
  tag != newCode && table.rules.all fun rule => !rule.required.contains tag

variable {table : RuleTable ρ} {tag : Tag} {rule : Rule ρ}

theorem inert_iff :
    table.inert tag = true ↔ tag ≠ newCode ∧ ∀ rule ∈ table.rules, tag ∉ rule.required := by
  simp [inert]

theorem inert_newCode (table : RuleTable ρ) : table.inert newCode = false := by
  simp [inert]

theorem inert_of_required (hrule : rule ∈ table.rules) (required : tag ∈ rule.required) :
    table.inert tag = false := by
  rw [Bool.eq_false_iff, ne_eq, inert_iff]
  exact fun ⟨_, unasked⟩ => unasked rule hrule required

/-- What rules require are words, and so is the tag for new code. -/
theorem inert_of_not_isWord (h : ¬Text.IsWord tag) : table.inert tag = true := by
  rw [inert_iff]
  constructor
  · rintro rfl
    have word : newCode ∈ Text.words "new_code" := by decide
    exact h (Text.isWord_of_mem_words word)
  · exact fun rule _ required => h (rule.required_isWord tag required)

/-- No consultation of the rules notices inert tags. -/
theorem eligible_without [DecidableEq ρ] (table : RuleTable ρ) (tags : TagSet)
    (settings : Settings) :
    table.eligible (tags.without table.inert) settings = table.eligible tags settings := by
  rw [eligible_eq, eligible_eq]
  apply congrArg List.eraseDups
  apply contributions_congr
  intro rule hrule
  rw [Bool.eq_iff_iff, Rule.fires_eq_true_iff, Rule.fires_eq_true_iff]
  constructor
  · rintro ⟨allowed, emitted⟩
    exact ⟨allowed, fun tag required => (TagSet.mem_without.mp (emitted tag required)).1⟩
  · rintro ⟨allowed, emitted⟩
    refine ⟨allowed, fun tag required => TagSet.mem_without.mpr ⟨emitted tag required, ?_⟩⟩
    exact inert_of_required hrule required

end RuleTable

/-! ## Muted conversations -/

/-- The conversation without the emissions of idle tags. -/
def Dialogue.muted (idle : Tag → Bool) : Dialogue τ α → Dialogue τ α
  | .done result => .done result
  | .emit tag next =>
      if idle tag then (next ()).muted idle else .emit tag fun answer => (next answer).muted idle
  | .ask name next => .ask name fun answer => (next answer).muted idle
  | .register name tree next => .register name tree fun answer => (next answer).muted idle

theorem Dialogue.muted_bind {β : Type} (idle : Tag → Bool) (dialogue : Dialogue τ α)
    (rest : α → Dialogue τ β) :
    (dialogue.bind rest).muted idle = (dialogue.muted idle).bind fun a => (rest a).muted idle := by
  induction dialogue with
  | done result => rfl
  | emit tag next ih =>
      cases h : idle tag with
      | true => simp [bind, muted, h, ih]
      | false => simp [bind, muted, h, ih]
  | ask name next ih => simp [bind, muted, ih]
  | register name tree next ih => simp [bind, muted, ih]

/-- The scene without idle tags. -/
def Scene.muted (scene : Scene τ) (idle : Tag → Bool) : Scene τ :=
  { scene with
    tags := scene.tags.without idle
    emitted := scene.emitted.filter (!idle ·) }

variable {idle : Tag → Bool}

theorem Scene.muted_emit_of_idle {tag : Tag} (h : idle tag = true) (scene : Scene τ) :
    (scene.emit tag).muted idle = scene.muted idle := by
  simp [emit, muted, TagSet.insert_without_of_idle h, h]

theorem Scene.muted_emit {tag : Tag} (h : idle tag = false) (scene : Scene τ) :
    (scene.emit tag).muted idle = (scene.muted idle).emit tag := by
  simp [emit, muted, TagSet.insert_without h, h]

theorem Scene.muted_register (scene : Scene τ) (idle : Tag → Bool) (name : String) (tree : τ) :
    (scene.muted idle).register name tree =
      ((scene.register name tree).1, (scene.register name tree).2.muted idle) := by
  unfold register muted
  cases scene.store.register name tree with
  | none => rfl
  | some added => rfl

/-- A muted conversation comes to the same, and leaves the scene without idle tags. -/
theorem Dialogue.perform_muted (idle : Tag → Bool) (dialogue : Dialogue τ α) (scene : Scene τ) :
    (dialogue.muted idle).perform (scene.muted idle) =
      ((dialogue.perform scene).1, (dialogue.perform scene).2.muted idle) := by
  induction dialogue generalizing scene with
  | done result => rfl
  | emit tag next ih =>
      cases h : idle tag with
      | true =>
          rw [muted, if_pos h, perform, ← ih, Scene.muted_emit_of_idle h]
      | false =>
          rw [muted, if_neg (by simp [h]), perform, perform, ← ih, Scene.muted_emit h]
  | ask name next ih => exact ih (scene.store.knows name) scene
  | register name tree next ih =>
      rw [muted, perform, perform, Scene.muted_register]
      exact ih (scene.register name tree).1 (scene.register name tree).2

/-! ## Muted runs -/

/-- The suite whose passes emit no idle tags. -/
def PassSuite.muted (suite : PassSuite ρ τ) (idle : Tag → Bool) : PassSuite ρ τ :=
  { suite with apply := fun pass subject tree => (suite.apply pass subject tree).muted idle }

/-- The execution without the idle tags that it emitted. -/
def Execution.muted (execution : Execution ρ) (idle : Tag → Bool) : Execution ρ :=
  { execution with emitted := execution.emitted.filter (!idle ·) }

/-- The event without idle tags. -/
def Event.muted (idle : Tag → Bool) : Event ρ → Event ρ
  | .refresh tags eligible => .refresh (tags.without idle) eligible
  | .executed execution => .executed (execution.muted idle)

/-- The report without the numbers of emissions. -/
def ModuleReport.withoutEmissions (report : ModuleReport) : ModuleReport :=
  { report with passes := report.passes.map fun pass => { pass with emissions := 0 } }

/-- The run without idle tags. -/
def Run.muted (run : Run ρ τ) (idle : Tag → Bool) : Run ρ τ :=
  { run with tags := run.tags.without idle, past := run.past.map (Event.muted idle) }

@[simp] theorem Run.tree_muted (run : Run ρ τ) : (run.muted idle).tree = run.tree := rfl

@[simp] theorem Run.store_muted (run : Run ρ τ) : (run.muted idle).store = run.store := rfl

@[simp] theorem Run.refreshes_muted (run : Run ρ τ) :
    (run.muted idle).refreshes = run.refreshes := rfl

@[simp] theorem Run.status_muted (run : Run ρ τ) : (run.muted idle).status = run.status := rfl

@[simp] theorem Run.events_muted (run : Run ρ τ) :
    (run.muted idle).events = run.events.map (Event.muted idle) := by
  simp [events, muted]

theorem Run.executions_muted (run : Run ρ τ) (idle : Tag → Bool) :
    (run.muted idle).executions = run.executions.map (·.muted idle) := by
  rw [executions_eq, executions_eq, List.map_reverse, List.map_filterMap]
  unfold muted
  rw [List.filterMap_map]
  congr 2
  funext event
  cases event with
  | refresh tags eligible => rfl
  | executed execution => rfl

theorem Run.passes_muted (run : Run ρ τ) (idle : Tag → Bool) :
    (run.muted idle).executions.map (·.pass) = run.executions.map (·.pass) := by
  rw [executions_muted, List.map_map]
  rfl

/-- Without the numbers of emissions, what a run comes to is told by its passes, its refreshes and
its status. -/
theorem Run.withoutEmissions_congr {first second : PassSuite ρ τ} {run twin : Run ρ τ}
    (named : second.name = first.name) (status : twin.status = run.status)
    (passes : twin.executions.map (·.pass) = run.executions.map (·.pass))
    (refreshes : twin.refreshes = run.refreshes) (subject : Subject) :
    (twin.verdict? second subject).map (Except.map ModuleReport.withoutEmissions) =
      (run.verdict? first subject).map (Except.map ModuleReport.withoutEmissions) := by
  have silenced : ∀ (suite : PassSuite ρ τ) (run : Run ρ τ),
      (run.report suite subject).withoutEmissions =
        ⟨subject, (run.executions.map (·.pass)).map (⟨suite.name ·, 0⟩), run.refreshes⟩ := by
    intro suite run
    simp [report, ModuleReport.withoutEmissions, Execution.report, Function.comp_def]
  have reports : (twin.report second subject).withoutEmissions =
      (run.report first subject).withoutEmissions := by
    rw [silenced, silenced, named, passes, refreshes]
  unfold verdict?
  rw [status]
  cases run.status with
  | running => rfl
  | settled => exact congrArg (some ∘ Except.ok) reports
  | failed fault => rfl
  | capped limit => rfl

namespace Engine

theorem execute_muted (suite : PassSuite ρ τ) (idle : Tag → Bool) (subject : Subject) (pass : ρ)
    (run : Run ρ τ) :
    execute (suite.muted idle) subject pass (run.muted idle) =
      (execute suite subject pass run).muted idle := by
  have hperform := (suite.apply pass subject run.tree).perform_muted idle
    { tags := run.tags, store := run.store }
  have hscene : ((suite.muted idle).apply pass subject (run.muted idle).tree).perform
        { tags := (run.muted idle).tags, store := (run.muted idle).store } =
      (((suite.apply pass subject run.tree).perform { tags := run.tags, store := run.store }).1,
        ((suite.apply pass subject run.tree).perform
          { tags := run.tags, store := run.store }).2.muted idle) := hperform
  unfold execute
  rw [hscene]
  cases h : ((suite.apply pass subject run.tree).perform
    { tags := run.tags, store := run.store }).1.1 with
  | ok value => simp [h, Run.muted, Scene.muted, Event.muted, Execution.muted]
  | error fault => simp [h, Run.muted, Scene.muted, Event.muted, Execution.muted]

variable [DecidableEq ρ]

theorem refresh_muted (engine : Engine ρ) (run : Run ρ τ) :
    engine.refresh (run.muted engine.table.inert) =
      (engine.refresh run).muted engine.table.inert := by
  have eligible := engine.table.eligible_without run.tags engine.settings
  have refreshed := RuleTable.refresh_congr eligible run.agenda
  unfold refresh Run.muted
  simp only [eligible, refreshed]
  rfl

/-- A run goes side by side with the run of the muted suite. -/
theorem coupling_muted (engine : Engine ρ) (suite : PassSuite ρ τ) (subject : Subject) :
    Coupling engine engine suite (suite.muted engine.table.inert) subject fun run other =>
      other = run.muted engine.table.inert where
  agenda := by
    rintro run _ rfl
    rfl
  status := by
    rintro run _ rfl
    rfl
  heard := by
    rintro run _ rfl
    -- the tag that brings a consultation about is never muted
    simp [Run.muted, engine.table.inert_newCode]
  executed := by
    rintro pass rest run _ rfl
    exact execute_muted suite engine.table.inert subject pass { run with agenda := rest }
  refreshed := by
    rintro run _ rfl
    exact refresh_muted engine run

/-- The runs of a muted suite are the muted runs of the suite. -/
theorem run_muted (engine : Engine ρ) (suite : PassSuite ρ τ) (fuel : Nat) (subject : Subject)
    (tree : τ) (store : ModuleStore τ) :
    engine.run (suite.muted engine.table.inert) fuel subject tree store =
      (engine.run suite fuel subject tree store).muted engine.table.inert := by
  have loud : (TagSet.empty.insert newCode).without engine.table.inert =
      TagSet.empty.insert newCode :=
    TagSet.insert_without engine.table.inert_newCode
  have start : engine.start tree store = (engine.start tree store).muted engine.table.inert := by
    unfold Engine.start
    rw [← refresh_muted]
    unfold Run.muted
    rw [loud]
    rfl
  exact (coupling_muted engine suite subject).related_run start fuel

/-- Inert tags go unnoticed; the empty tag is inert, and so is each that holds a blank. Suites that
are the same but for the emission of inert tags have the same runs: the same passes are executed in
the same order, the rules are consulted as often, with the same result, and tree, store and verdict
are the same but for the numbers of emissions. -/
theorem inert_tags_unnoticed (engine : Engine ρ) (first second : PassSuite ρ τ)
    (same : second.muted engine.table.inert = first.muted engine.table.inert) :
    (∀ tag : Tag, tag = "" ∨ (∃ char ∈ tag.toList, Text.isBlank char = true) →
      engine.table.inert tag = true) ∧
    ∀ fuel subject tree store,
      let run := engine.run first fuel subject tree store
      let twin := engine.run second fuel subject tree store
      twin.executions.map (·.pass) = run.executions.map (·.pass) ∧
        twin.events.map (Event.muted engine.table.inert) =
          run.events.map (Event.muted engine.table.inert) ∧
        twin.refreshes = run.refreshes ∧ twin.tree = run.tree ∧ twin.store = run.store ∧
        twin.status = run.status ∧
        (twin.verdict? second subject).map (Except.map ModuleReport.withoutEmissions) =
          (run.verdict? first subject).map (Except.map ModuleReport.withoutEmissions) := by
  constructor
  · intro tag h
    apply RuleTable.inert_of_not_isWord
    rintro ⟨nonempty, unbroken⟩
    rcases h with rfl | ⟨char, hchar, blank⟩
    · exact nonempty rfl
    · rw [unbroken char hchar] at blank
      cases blank
  · intro fuel subject tree store run twin
    have alike : twin.muted engine.table.inert = run.muted engine.table.inert := by
      rw [← run_muted, ← run_muted, same]
    have passes : twin.executions.map (·.pass) = run.executions.map (·.pass) := by
      rw [← twin.passes_muted engine.table.inert, alike, run.passes_muted]
    have events := congrArg Run.events alike
    have refreshes := congrArg Run.refreshes alike
    have trees := congrArg Run.tree alike
    have stores := congrArg Run.store alike
    have status := congrArg Run.status alike
    have named := congrArg PassSuite.name same
    simp only [Run.events_muted, Run.refreshes_muted, Run.tree_muted, Run.store_muted,
      Run.status_muted] at events refreshes trees stores status
    exact ⟨passes, events, refreshes, trees, stores, status,
      Run.withoutEmissions_congr named status passes refreshes subject⟩

end Engine

/-! ## A suite that talks -/

namespace Chatty

/-- The suite of `Folding`, but its passes talk when they begin and when they end. -/
def suite : PassSuite Bool Nat where
  name := Folding.suite.name
  apply unrolls subject tree := .emit "looked at" fun _ =>
    (Folding.suite.apply unrolls subject tree).bind fun result => .emit "" fun _ => .done result

theorem muted_suite : suite.muted Folding.table.inert = Folding.suite.muted Folding.table.inert := by
  have silent : Folding.table.inert "looked at" = true ∧ Folding.table.inert "" = true := by decide
  have talks : ∀ unrolls subject tree, suite.apply unrolls subject tree =
      .emit "looked at" fun _ => (Folding.suite.apply unrolls subject tree).bind fun result =>
        .emit "" fun _ => .done result := fun _ _ _ => rfl
  unfold PassSuite.muted
  rw [PassSuite.mk.injEq]
  refine ⟨rfl, rfl, ?_⟩
  funext unrolls subject tree
  rw [talks, Dialogue.muted, if_pos silent.1, Dialogue.muted_bind]
  simp [Dialogue.muted, silent.2]

end Chatty

namespace Engine

/-- The talk shows in the report, and nowhere else. -/
theorem inert_tags_unnoticed_chatty :
    let engine := Folding.engine 9 (by decide)
    let run := engine.run Folding.suite 6 Folding.subject 3 .empty
    let twin := engine.run Chatty.suite 6 Folding.subject 3 .empty
    Chatty.suite.muted engine.table.inert = Folding.suite.muted engine.table.inert ∧
    engine.table.inert "looked at" = true ∧
    twin.executions.map (·.pass) = run.executions.map (·.pass) ∧ twin.tree = run.tree ∧
    ∃ report loud, run.verdict? Folding.suite Folding.subject = some (.ok report) ∧
      twin.verdict? Chatty.suite Folding.subject = some (.ok loud) ∧
      loud ≠ report ∧ loud.withoutEmissions = report.withoutEmissions := by
  intro engine run twin
  obtain ⟨inert, alike⟩ :=
    inert_tags_unnoticed engine Folding.suite Chatty.suite Chatty.muted_suite
  have blank : ∃ char ∈ "looked at".toList, Text.isBlank char = true :=
    ⟨' ', by decide, rfl⟩
  obtain ⟨passes, _, _, tree, _, _, verdicts⟩ := alike 6 Folding.subject 3 .empty
  have report : run.verdict? Folding.suite Folding.subject = some (.ok ⟨Folding.subject,
      [⟨"unroll", 1⟩, ⟨"fold", 1⟩, ⟨"unroll", 0⟩, ⟨"fold", 1⟩, ⟨"fold", 1⟩, ⟨"fold", 0⟩], 6⟩) := by
    decide
  have loud : twin.verdict? Chatty.suite Folding.subject = some (.ok ⟨Folding.subject,
      [⟨"unroll", 3⟩, ⟨"fold", 3⟩, ⟨"unroll", 2⟩, ⟨"fold", 3⟩, ⟨"fold", 3⟩, ⟨"fold", 2⟩], 6⟩) := by
    decide
  rw [report, loud] at verdicts
  exact ⟨Chatty.muted_suite, inert "looked at" (Or.inr blank), passes, tree, _, _, report, loud,
    by decide, Except.ok.inj (Option.some.inj verdicts)⟩

end Engine

end PassEngine
