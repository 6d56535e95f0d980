import PassEngine.Run
import PassEngine.Proofs.Rule.Scope

/-!
# What a step does

One lemma for each part of a step: a conversation only adds to the tags, an execution moves one
pass from the agenda to the past, a refresh uses the tags up. `Engine.step_cases` puts them
together, and the two induction principles at the end carry an invariant through a whole run.
-/

namespace PassEngine

variable {ρ τ : Type}

/-! ## Conversations -/

theorem TagSet.insertAll_concat (tags : TagSet) (more : List Tag) (tag : Tag) :
    tags.insertAll (more ++ [tag]) = (tags.insertAll more).insert tag := by
  simp [insertAll]

/-- The tags of a scene are those it began with and those it records as emitted. -/
theorem Dialogue.tags_perform {α : Type} (dialogue : Dialogue τ α) (base : TagSet) {scene : Scene τ}
    (h : scene.tags = base.insertAll scene.emitted.reverse) :
    (dialogue.perform scene).2.tags =
      base.insertAll (dialogue.perform scene).2.emitted.reverse := by
  induction dialogue generalizing scene with
  | done result => exact h
  | emit tag next ih =>
      apply ih
      simp only [Scene.emit, List.reverse_cons]
      rw [TagSet.insertAll_concat, h]
  | ask name next ih => exact ih _ h
  | register name tree next ih =>
      apply ih
      change (scene.register name tree).2.tags =
        base.insertAll (scene.register name tree).2.emitted.reverse
      unfold Scene.register
      split
      · exact h
      · exact h

/-! ## Events -/

/-- Whether the rules were consulted. -/
def Event.isRefresh : Event ρ → Bool
  | .refresh .. => true
  | .executed _ => false

theorem Run.executions_eq (run : Run ρ τ) :
    run.executions = (run.past.filterMap Event.execution?).reverse := by
  simp [executions, events]

theorem Run.verdict?_eq_ok_iff {run : Run ρ τ} {suite : PassSuite ρ τ} {subject : Subject}
    {report : ModuleReport} :
    run.verdict? suite subject = some (.ok report) ↔
      run.status = .settled ∧ run.report suite subject = report := by
  unfold verdict?
  cases run.status <;> simp

theorem Run.verdict?_eq_none_iff {run : Run ρ τ} {suite : PassSuite ρ τ} {subject : Subject} :
    run.verdict? suite subject = none ↔ run.status = .running := by
  unfold verdict?
  cases run.status <;> simp

/-- A run before the rules were consulted for the first time. -/
def Run.initial (tree : τ) (store : ModuleStore τ) : Run ρ τ :=
  { tree, store, agenda := .empty, tags := TagSet.empty.insert newCode, refreshes := 0,
    status := .running, past := [] }

namespace Engine

/-! ## Executions -/

/-- What a run records of a pass that it executes. -/
def execution (suite : PassSuite ρ τ) (subject : Subject) (pass : ρ) (run : Run ρ τ) :
    Execution ρ :=
  let scene := (suite.apply pass subject run.tree).perform { tags := run.tags, store := run.store }
  { pass
    emitted := scene.2.emitted.reverse
    discovered := scene.2.discovered.reverse
    fault :=
      match scene.1.1 with
      | .ok () => none
      | .error fault => some fault }

variable (suite : PassSuite ρ τ) (subject : Subject) (pass : ρ) (run : Run ρ τ)

@[simp] theorem agenda_execute : (execute suite subject pass run).agenda = run.agenda := rfl

@[simp] theorem refreshes_execute :
    (execute suite subject pass run).refreshes = run.refreshes := rfl

theorem tree_execute :
    (execute suite subject pass run).tree =
      ((suite.apply pass subject run.tree).perform
        { tags := run.tags, store := run.store }).1.2 := rfl

theorem past_execute :
    (execute suite subject pass run).past =
      .executed (execution suite subject pass run) :: run.past := by
  unfold execute execution
  cases h : ((suite.apply pass subject run.tree).perform
    { tags := run.tags, store := run.store }).1.1 <;> simp [h]

theorem executions_execute :
    (execute suite subject pass run).executions =
      run.executions ++ [execution suite subject pass run] := by
  simp [Run.executions_eq, past_execute, Event.execution?]

theorem status_execute :
    (execute suite subject pass run).status =
      match (execution suite subject pass run).fault with
      | none => .running
      | some fault => .failed fault := by
  unfold execute execution
  cases h : ((suite.apply pass subject run.tree).perform
    { tags := run.tags, store := run.store }).1.1 <;> simp [h]

theorem tags_execute :
    (execute suite subject pass run).tags =
      run.tags.insertAll (execution suite subject pass run).emitted :=
  Dialogue.tags_perform _ run.tags rfl

/-- A run goes on after a pass that did not give up. -/
theorem running_execute_iff :
    (execute suite subject pass run).status = .running ↔
      ((suite.apply pass subject run.tree).perform
        { tags := run.tags, store := run.store }).1.1 = .ok () := by
  unfold execute
  cases h : ((suite.apply pass subject run.tree).perform
    { tags := run.tags, store := run.store }).1.1 <;> simp [h]

theorem failed_execute_iff {fault : Fault} :
    (execute suite subject pass run).status = .failed fault ↔
      ((suite.apply pass subject run.tree).perform
        { tags := run.tags, store := run.store }).1.1 = .error fault := by
  unfold execute
  cases h : ((suite.apply pass subject run.tree).perform
    { tags := run.tags, store := run.store }).1.1 <;> simp [h]

/-- A pass that is executed either gives up or leaves the run going. -/
theorem status_execute_cases :
    (execute suite subject pass run).status = .running ∨
      ∃ fault, (execute suite subject pass run).status = .failed fault := by
  rw [status_execute]
  cases (execution suite subject pass run).fault with
  | none => exact Or.inl rfl
  | some fault => exact Or.inr ⟨fault, rfl⟩

theorem not_settled_execute : (execute suite subject pass run).status ≠ .settled := by
  rcases status_execute_cases suite subject pass run with going | ⟨fault, failed⟩
  · simp [going]
  · simp [failed]

theorem not_capped_execute {limit : Nat} :
    (execute suite subject pass run).status ≠ .capped limit := by
  rcases status_execute_cases suite subject pass run with going | ⟨fault, failed⟩
  · simp [going]
  · simp [failed]

/-! ## Standings -/

section Standing

variable {engine : Engine ρ} {refreshes limit : Nat} {agenda : Agenda ρ}

theorem statusAfter_eq_settled_iff :
    engine.statusAfter refreshes agenda = .settled ↔ agenda.toList = [] := by
  unfold statusAfter
  split
  · rename_i h
    simpa using h
  · rename_i h
    have hne : agenda.toList ≠ [] := by simpa using h
    split
    · simp [hne]
    · split <;> simp [hne]

theorem statusAfter_eq_capped_iff :
    engine.statusAfter refreshes agenda = .capped limit ↔
      agenda.toList ≠ [] ∧ engine.settings.refreshLimit = some limit ∧ limit < refreshes := by
  unfold statusAfter
  split
  · rename_i h
    have hnil : agenda.toList = [] := by simpa using h
    simp [hnil]
  · rename_i h
    have hne : agenda.toList ≠ [] := by simpa using h
    split
    · rename_i hl
      simp [hl]
    · rename_i bound hl
      by_cases hb : bound < refreshes
      · simp only [if_pos hb, Status.capped.injEq, hl, Option.some.injEq]
        constructor
        · rintro rfl
          exact ⟨hne, rfl, hb⟩
        · rintro ⟨_, rfl, _⟩
          rfl
      · simp only [if_neg hb, hl, Option.some.injEq]
        constructor
        · intro hs
          cases hs
        · rintro ⟨_, rfl, hlt⟩
          exact absurd hlt hb

theorem statusAfter_eq_running_iff :
    engine.statusAfter refreshes agenda = .running ↔
      agenda.toList ≠ [] ∧
        ∀ limit, engine.settings.refreshLimit = some limit → refreshes ≤ limit := by
  unfold statusAfter
  split
  · rename_i h
    have hnil : agenda.toList = [] := by simpa using h
    simp [hnil]
  · rename_i h
    have hne : agenda.toList ≠ [] := by simpa using h
    split
    · rename_i hl
      simp [hne, hl]
    · rename_i bound hl
      by_cases hb : bound < refreshes
      · simp [hl, hne, hb]
      · simp [if_neg hb, hl, hne, Nat.not_lt.mp hb]

end Standing

/-! ## Refreshes -/

variable [DecidableEq ρ] (engine : Engine ρ)

@[simp] theorem refreshes_refresh : (engine.refresh run).refreshes = run.refreshes + 1 := rfl

@[simp] theorem past_refresh :
    (engine.refresh run).past =
      .refresh run.tags (engine.table.eligible run.tags engine.settings) :: run.past := rfl

@[simp] theorem agenda_refresh :
    (engine.refresh run).agenda =
      (engine.table.refresh run.tags engine.settings run.agenda).agenda := rfl

@[simp] theorem executions_refresh : (engine.refresh run).executions = run.executions := by
  simp [Run.executions_eq, List.filterMap_cons, Event.execution?]

variable {run engine}

/-- A refresh that hears nothing queues nothing. -/
theorem agenda_refresh_of_silent (silent : run.tags = .empty) :
    (engine.refresh run).agenda = run.agenda := by
  rw [agenda_refresh, silent, RuleTable.refresh_empty]

theorem settled_refresh_iff :
    (engine.refresh run).status = .settled ↔ (engine.refresh run).agenda.toList = [] :=
  statusAfter_eq_settled_iff

theorem capped_refresh_iff {limit : Nat} :
    (engine.refresh run).status = .capped limit ↔
      (engine.refresh run).agenda.toList ≠ [] ∧ engine.settings.refreshLimit = some limit ∧
        limit < run.refreshes + 1 :=
  statusAfter_eq_capped_iff

theorem running_refresh_iff :
    (engine.refresh run).status = .running ↔
      (engine.refresh run).agenda.toList ≠ [] ∧
        ∀ limit, engine.settings.refreshLimit = some limit → run.refreshes + 1 ≤ limit :=
  statusAfter_eq_running_iff

theorem not_failed_refresh {fault : Fault} : (engine.refresh run).status ≠ .failed fault := by
  intro failed
  change engine.statusAfter _ _ = _ at failed
  unfold statusAfter at failed
  split at failed
  · cases failed
  · split at failed
    · cases failed
    · split at failed
      · cases failed
      · cases failed

/-! ## Steps -/

variable {suite subject pass}

theorem step_of_pop? {rest : Agenda ρ} (popped : run.agenda.pop? = some (pass, rest)) :
    engine.step suite subject run =
      match (execute suite subject pass { run with agenda := rest }).status with
      | .running =>
          if rest.isEmpty ||
              (execute suite subject pass { run with agenda := rest }).tags.contains newCode then
            engine.refresh (execute suite subject pass { run with agenda := rest })
          else execute suite subject pass { run with agenda := rest }
      | _ => execute suite subject pass { run with agenda := rest } := by
  simp only [step, popped]
  rfl

/-- The rules are consulted after a pass if nothing is left or new code was emitted. -/
theorem step_eq_refresh {rest : Agenda ρ} (popped : run.agenda.pop? = some (pass, rest))
    (going : (execute suite subject pass { run with agenda := rest }).status = .running)
    (consult : rest.toList = [] ∨
      newCode ∈ (execute suite subject pass { run with agenda := rest }).tags) :
    engine.step suite subject run =
      engine.refresh (execute suite subject pass { run with agenda := rest }) := by
  rw [step_of_pop? popped]
  simp only [going]
  rw [if_pos (by simpa using consult)]

theorem step_eq_execute {rest : Agenda ρ} (popped : run.agenda.pop? = some (pass, rest))
    (h : (execute suite subject pass { run with agenda := rest }).status = .running →
      ¬ (rest.toList = [] ∨
        newCode ∈ (execute suite subject pass { run with agenda := rest }).tags)) :
    engine.step suite subject run = execute suite subject pass { run with agenda := rest } := by
  rw [step_of_pop? popped]
  rcases status_execute_cases suite subject pass { run with agenda := rest } with
    going | ⟨fault, failed⟩
  · simp only [going]
    rw [if_neg (by simpa using h going)]
  · simp only [failed]

variable (suite subject run engine)

/-- A step takes the pass at the front. If the pass gives up, the run has failed; otherwise the
rules are consulted exactly if nothing is left or new code was emitted. -/
theorem step_cases (pending : run.agenda.toList ≠ []) :
    ∃ pass rest, run.agenda.pop? = some (pass, rest) ∧
      let executed := execute suite subject pass { run with agenda := rest }
      (((∃ fault, executed.status = .failed fault) ∧
          engine.step suite subject run = executed) ∨
        (executed.status = .running ∧ rest.toList ≠ [] ∧ newCode ∉ executed.tags ∧
          engine.step suite subject run = executed) ∨
        (executed.status = .running ∧ (rest.toList = [] ∨ newCode ∈ executed.tags) ∧
          engine.step suite subject run = engine.refresh executed)) := by
  obtain ⟨pass, rest, popped⟩ := Agenda.exists_pop pending
  refine ⟨pass, rest, popped, ?_⟩
  intro executed
  rcases status_execute_cases suite subject pass { run with agenda := rest } with
    going | ⟨fault, failed⟩
  · by_cases consult : rest.toList = [] ∨ newCode ∈ executed.tags
    · exact Or.inr (Or.inr ⟨going, consult, step_eq_refresh popped going consult⟩)
    · have hstep : engine.step suite subject run = executed :=
        step_eq_execute popped fun _ => consult
      rw [not_or] at consult
      exact Or.inr (Or.inl ⟨going, consult.1, consult.2, hstep⟩)
  · refine Or.inl ⟨⟨fault, failed⟩, step_eq_execute popped ?_⟩
    intro going
    rw [failed] at going
    cases going

variable {suite subject run engine}

/-- What an execution establishes and a refresh keeps holds after a step. -/
theorem step_induction {P : Run ρ τ → Prop} (pending : run.agenda.toList ≠ [])
    (executed : ∀ pass rest, run.agenda.pop? = some (pass, rest) →
      P (execute suite subject pass { run with agenda := rest }))
    (refreshed : ∀ run, P run → P (engine.refresh run)) : P (engine.step suite subject run) := by
  obtain ⟨pass, rest, popped, ⟨_, hstep⟩ | ⟨_, _, _, hstep⟩ | ⟨_, _, hstep⟩⟩ :=
    step_cases suite subject run engine pending
  · rw [hstep]
    exact executed pass rest popped
  · rw [hstep]
    exact executed pass rest popped
  · rw [hstep]
    exact refreshed _ (executed pass rest popped)

/-- A step ends with a refresh, or it leaves the run going or failed. -/
theorem refreshes_step_cases (pending : run.agenda.toList ≠ []) :
    (∃ executed, executed.refreshes = run.refreshes ∧
        engine.step suite subject run = engine.refresh executed) ∨
      ((engine.step suite subject run).refreshes = run.refreshes ∧
        ((engine.step suite subject run).status = .running ∨
          ∃ fault, (engine.step suite subject run).status = .failed fault)) := by
  obtain ⟨pass, rest, _, ⟨failed, hstep⟩ | ⟨going, _, _, hstep⟩ | ⟨_, _, hstep⟩⟩ :=
    step_cases suite subject run engine pending
  · rw [hstep]
    exact Or.inr ⟨rfl, Or.inr failed⟩
  · rw [hstep]
    exact Or.inr ⟨rfl, Or.inl going⟩
  · exact Or.inl ⟨execute suite subject pass { run with agenda := rest }, rfl, hstep⟩

/-! ## Whole runs -/

variable {tree : τ} {store : ModuleStore τ} {fuel : Nat}

theorem run_succ_of_running
    (running : (engine.run suite fuel subject tree store).status = .running) :
    engine.run suite (fuel + 1) subject tree store =
      engine.step suite subject (engine.run suite fuel subject tree store) := by
  unfold Engine.run at running ⊢
  rw [runFor_add, runFor_succ engine suite subject 0 running, runFor_zero]

theorem run_of_stopped {more : Nat} (le : fuel ≤ more)
    (stopped : (engine.run suite fuel subject tree store).status ≠ .running) :
    engine.run suite more subject tree store = engine.run suite fuel subject tree store := by
  obtain ⟨extra, rfl⟩ := Nat.exists_eq_add_of_le le
  unfold Engine.run at stopped ⊢
  rw [runFor_add, runFor_of_stopped engine suite subject extra stopped]

/-- A run that goes on has gone on all the time. -/
theorem running_of_le {more : Nat} (le : fuel ≤ more)
    (running : (engine.run suite more subject tree store).status = .running) :
    (engine.run suite fuel subject tree store).status = .running := by
  by_contra stopped
  rw [run_of_stopped le stopped] at running
  exact stopped running

/-- A run stops in one way only. -/
theorem run_eq_of_stopped {more : Nat}
    (stopped : (engine.run suite fuel subject tree store).status ≠ .running)
    (stopped' : (engine.run suite more subject tree store).status ≠ .running) :
    engine.run suite fuel subject tree store = engine.run suite more subject tree store := by
  rcases Nat.le_total fuel more with le | ge
  · exact (run_of_stopped le stopped).symm
  · exact run_of_stopped ge stopped'

theorem past_suffix_step (engine : Engine ρ) (suite : PassSuite ρ τ) (subject : Subject)
    (run : Run ρ τ) : run.past <:+ (engine.step suite subject run).past := by
  by_cases pending : run.agenda.toList = []
  · simp only [step, Agenda.pop?_eq_none_iff.mpr pending]
    exact List.suffix_rfl
  · refine step_induction (P := fun after => run.past <:+ after.past) pending ?_ ?_
    · intro pass rest _
      rw [past_execute]
      exact List.suffix_cons _ _
    · intro executed h
      rw [past_refresh]
      exact h.trans (List.suffix_cons _ _)

theorem pending_of_step (pending : run.agenda.toList ≠ [])
    (running : (engine.step suite subject run).status = .running) :
    (engine.step suite subject run).agenda.toList ≠ [] := by
  obtain ⟨pass, rest, _, ⟨⟨fault, failed⟩, hstep⟩ | ⟨_, hrest, _, hstep⟩ | ⟨_, _, hstep⟩⟩ :=
    step_cases suite subject run engine pending
  · rw [hstep, failed] at running
    cases running
  · rw [hstep, agenda_execute]
    exact hrest
  · rw [hstep] at running ⊢
    exact (running_refresh_iff.mp running).1

/-- A run that goes on has a pass pending. -/
theorem pending_of_running (fuel : Nat)
    (running : (engine.run suite fuel subject tree store).status = .running) :
    (engine.run suite fuel subject tree store).agenda.toList ≠ [] := by
  induction fuel with
  | zero => exact (running_refresh_iff.mp running).1
  | succ fuel ih =>
      have before := running_of_le (Nat.le_succ fuel) running
      rw [run_succ_of_running before] at running ⊢
      exact pending_of_step (ih before) running

/-- A run that has stopped went on up to some step and stood still since then. -/
theorem exists_stop (stopped : (engine.run suite fuel subject tree store).status ≠ .running) :
    ∃ count ≤ fuel, (∀ k < count, (engine.run suite k subject tree store).status = .running) ∧
      engine.run suite count subject tree store = engine.run suite fuel subject tree store := by
  induction fuel with
  | zero => exact ⟨0, Nat.le_refl 0, by simp, rfl⟩
  | succ fuel ih =>
      by_cases before : (engine.run suite fuel subject tree store).status = .running
      · refine ⟨fuel + 1, Nat.le_refl _, ?_, rfl⟩
        intro k hk
        exact running_of_le (Nat.le_of_lt_succ hk) before
      · obtain ⟨count, hle, running, hrun⟩ := ih before
        refine ⟨count, Nat.le_succ_of_le hle, running, ?_⟩
        rw [hrun, run_of_stopped (Nat.le_succ fuel) before]

/-- What holds at the start and is kept by every step holds throughout. -/
theorem run_invariant {P : Run ρ τ → Prop} (start : P (engine.start tree store))
    (step : ∀ run, run.status = .running → run.agenda.toList ≠ [] → P run →
      P (engine.step suite subject run))
    (fuel : Nat) : P (engine.run suite fuel subject tree store) := by
  induction fuel with
  | zero => exact start
  | succ fuel ih =>
      by_cases running : (engine.run suite fuel subject tree store).status = .running
      · rw [run_succ_of_running running]
        exact step _ running (pending_of_running fuel running) ih
      · rw [run_of_stopped (Nat.le_succ fuel) running]
        exact ih

/-- What holds before the first refresh and is kept by refreshes and by executions holds
throughout. -/
theorem run_induction {P : Run ρ τ → Prop} (initial : P (Run.initial tree store))
    (refresh : ∀ run, P run → P (engine.refresh run))
    (execute : ∀ run pass rest, run.agenda.pop? = some (pass, rest) → P run →
      P (execute suite subject pass { run with agenda := rest }))
    (fuel : Nat) : P (engine.run suite fuel subject tree store) := by
  refine run_invariant (refresh _ initial) ?_ fuel
  intro run _ pending h
  exact step_induction pending (fun pass rest popped => execute run pass rest popped h) refresh

/-! ## Two runs side by side -/

/-- A relation that carries two runs along side by side: related runs have the same passes pending
and stand alike, and executions and refreshes keep them related. -/
structure Coupling (first second : Engine ρ) (suite twin : PassSuite ρ τ) (subject : Subject)
    (R : Run ρ τ → Run ρ τ → Prop) : Prop where
  agenda : ∀ run other, R run other → other.agenda = run.agenda
  status : ∀ run other, R run other → other.status = run.status
  heard : ∀ run other, R run other → (newCode ∈ other.tags ↔ newCode ∈ run.tags)
  executed : ∀ pass rest run other, R run other →
    R (execute suite subject pass { run with agenda := rest })
      (execute twin subject pass { other with agenda := rest })
  refreshed : ∀ run other, R run other → R (first.refresh run) (second.refresh other)

section Coupled

variable {first second : Engine ρ} {twin : PassSuite ρ τ} {R : Run ρ τ → Run ρ τ → Prop}

theorem Coupling.related_step (coupling : Coupling first second suite twin subject R) {other : Run ρ τ}
    (pending : run.agenda.toList ≠ []) (related : R run other) :
    R (first.step suite subject run) (second.step twin subject other) := by
  obtain ⟨pass, rest, popped⟩ := Agenda.exists_pop pending
  have popped' : other.agenda.pop? = some (pass, rest) := by
    rw [coupling.agenda run other related]
    exact popped
  -- one pass is at the front of both, and both consult the rules after it or neither does
  have executed := coupling.executed pass rest run other related
  have status := coupling.status _ _ executed
  have heard := coupling.heard _ _ executed
  by_cases consult : (execute suite subject pass { run with agenda := rest }).status = .running ∧
      (rest.toList = [] ∨
        newCode ∈ (execute suite subject pass { run with agenda := rest }).tags)
  · have hother : second.step twin subject other =
        second.refresh (execute twin subject pass { other with agenda := rest }) :=
      step_eq_refresh popped' (status.trans consult.1) (by rw [heard]; exact consult.2)
    rw [hother, step_eq_refresh popped consult.1 consult.2]
    exact coupling.refreshed _ _ executed
  · have silent := not_and.mp consult
    have hother : second.step twin subject other =
        execute twin subject pass { other with agenda := rest } :=
      step_eq_execute popped' (by rw [status, heard]; exact silent)
    rw [hother, step_eq_execute popped silent]
    exact executed

/-- Runs that start related are related after any number of steps. -/
theorem Coupling.related_run (coupling : Coupling first second suite twin subject R) {tree' : τ}
    {store' : ModuleStore τ} (start : R (first.start tree store) (second.start tree' store'))
    (fuel : Nat) :
    R (first.run suite fuel subject tree store) (second.run twin fuel subject tree' store') := by
  induction fuel with
  | zero => exact start
  | succ fuel ih =>
      have status := coupling.status _ _ ih
      by_cases running : (first.run suite fuel subject tree store).status = .running
      · rw [run_succ_of_running running, run_succ_of_running (status.trans running)]
        exact coupling.related_step (pending_of_running fuel running) ih
      · rw [run_of_stopped (Nat.le_succ fuel) running,
          run_of_stopped (Nat.le_succ fuel) (status ▸ running)]
        exact ih

end Coupled

end Engine

/-! ## A small suite -/

namespace Folding

/-- The pass `true` unrolls a tree of three into new code, the pass `false` folds one constant. -/
def suite : PassSuite Bool Nat where
  name unrolls := if unrolls then "unroll" else "fold"
  apply unrolls _ tree :=
    if unrolls then
      if tree = 3 then .emit newCode fun _ => .done (.ok (), tree) else .done (.ok (), tree)
    else if 0 < tree then .emit "new_constant" fun _ => .done (.ok (), tree - 1)
    else .done (.ok (), tree)

/-- New code is unrolled and folded, and a new constant is folded. -/
def table : RuleTable Bool where
  rules := [.ofPredicate "new_code" [true, false], .ofPredicate "new_constant" [false]]
  wellFormed := by
    intro rule hrule
    simp only [List.mem_cons, List.not_mem_nil, or_false] at hrule
    rcases hrule with rfl | rfl
    · exact ⟨by decide, by decide⟩
    · exact ⟨by decide, by decide⟩

def engine (limit : Nat) (positive : 0 < limit) : Engine Bool where
  table := table
  settings := { refreshLimit := some limit }
  valid := by
    intro h
    simp only [Option.some.injEq] at h
    omega

def subject : Subject := ⟨⟨0⟩, "main"⟩

end Folding

end PassEngine
