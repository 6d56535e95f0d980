import PassEngine.Proofs.FirstOccurrence
import PassEngine.Proofs.Run.Budget
import PassEngine.Proofs.Run.Chronicle

/-!
# Nominations and executions

A refresh nominates the passes that it finds eligible and that are not pending. What has been
executed, followed by what is pending, is what has been nominated, in the same order: no pass runs
without a nomination of its own, none is forgotten, and a pending pass keeps its turn.
-/

namespace PassEngine

variable {ρ τ : Type}

/-- The tags emitted since the rules were last consulted; before the first time this is the tag for
new code. -/
def Run.signals (run : Run ρ τ) : TagSet := TagSet.ofList (unheard run.past)

/-- The passes that were executed, in order, one that gave up included. -/
def Run.passes (run : Run ρ τ) : List ρ := run.executions.map (·.pass)

namespace Engine

variable [DecidableEq ρ]

/-- What a refresh of the run nominates: the targets of the rules that fire on its signals, in the
order of the rules and of their targets, unless they are pending, each at its first occurrence. -/
def nominees (engine : Engine ρ) (run : Run ρ τ) : List ρ :=
  (((engine.table.rules.filter (·.fires run.signals engine.settings)).flatMap
    (·.targets)).filter (· ∉ run.agenda.toList)).eraseDups

/-- The run with its next pass executed and the rules not consulted yet. -/
def midway (suite : PassSuite ρ τ) (subject : Subject) (run : Run ρ τ) : Run ρ τ :=
  match run.agenda.pop? with
  | none => run
  | some (pass, rest) => execute suite subject pass { run with agenda := rest }

/-- The consultations of the rules in so many steps, each as the run that it found. The rules were
consulted in a step if the run counts one more refresh after it. -/
def consultations (engine : Engine ρ) (suite : PassSuite ρ τ) (subject : Subject) (tree : τ)
    (store : ModuleStore τ) : Nat → List (Run ρ τ)
  | 0 => [Run.initial tree store]
  | fuel + 1 =>
      let before := engine.run suite fuel subject tree store
      let after := engine.run suite (fuel + 1) subject tree store
      if before.refreshes < after.refreshes then
        consultations engine suite subject tree store fuel ++ [midway suite subject before]
      else consultations engine suite subject tree store fuel

variable {engine : Engine ρ} {suite : PassSuite ρ τ} {subject : Subject} {run : Run ρ τ}

/-! ## One consultation -/

theorem mem_nominees {pass : ρ} :
    pass ∈ engine.nominees run ↔
      pass ∉ run.agenda.toList ∧ ∃ rule ∈ engine.table.rules,
        rule.fires run.signals engine.settings = true ∧ pass ∈ rule.targets := by
  unfold nominees
  rw [List.mem_eraseDups, List.mem_filter, List.mem_flatMap, decide_eq_true_iff, and_comm]
  simp only [List.mem_filter, and_assoc]

theorem agenda_refresh_eq (tags : run.tags = run.signals) :
    (engine.refresh run).agenda.toList = run.agenda.toList ++ engine.nominees run := by
  rw [agenda_refresh, tags, RuleTable.refresh_agenda]
  unfold RuleTable.eligible nominees
  rw [Agenda.toList_pushAll, addNew_eraseDups, addNew_eq]

/-- The agenda, the executions and the log agree with the consultations. -/
structure Ledger (engine : Engine ρ) (run : Run ρ τ) (moments : List (Run ρ τ)) : Prop where
  served : run.passes ++ run.agenda.toList = moments.flatMap engine.nominees
  logged : run.events.filter Event.isRefresh = moments.map fun moment =>
    .refresh moment.signals (engine.table.eligible moment.signals engine.settings)

theorem ledger_refresh {moments : List (Run ρ τ)} (tags : run.tags = run.signals)
    (h : Ledger engine run moments) : Ledger engine (engine.refresh run) (moments ++ [run]) where
  served := by
    have hpasses : (engine.refresh run).passes = run.passes := by simp [Run.passes]
    rw [hpasses, agenda_refresh_eq tags, ← List.append_assoc, h.served, List.flatMap_append,
      List.flatMap_singleton]
  logged := by
    have hevents : (engine.refresh run).events = run.events ++
        [.refresh run.tags (engine.table.eligible run.tags engine.settings)] := by
      rw [Run.events, past_refresh, List.reverse_cons]
      rfl
    rw [hevents, List.filter_append, h.logged, List.map_append, tags]
    rfl

omit [DecidableEq ρ] in
theorem passes_execute (pass : ρ) :
    (execute suite subject pass run).passes = run.passes ++ [pass] := by
  simp [Run.passes, executions_execute, execution]

theorem ledger_execute {pass : ρ} {rest : Agenda ρ} {moments : List (Run ρ τ)}
    (popped : run.agenda.pop? = some (pass, rest)) (h : Ledger engine run moments) :
    Ledger engine (execute suite subject pass { run with agenda := rest }) moments where
  served := by
    have hserved := h.served
    rw [Agenda.toList_of_pop? popped] at hserved
    rw [passes_execute, agenda_execute, ← hserved, List.append_assoc]
    rfl
  logged := by
    rw [← h.logged, Run.events, past_execute, List.reverse_cons, List.filter_append]
    exact List.append_nil _

/-! ## Whole runs -/

variable {tree : τ} {store : ModuleStore τ} {fuel : Nat}

omit [DecidableEq ρ] in
theorem midway_of_pop? {pass : ρ} {rest : Agenda ρ}
    (popped : run.agenda.pop? = some (pass, rest)) :
    midway suite subject run = execute suite subject pass { run with agenda := rest } := by
  unfold midway
  rw [popped]

theorem consultations_of_eq
    (same : (engine.run suite (fuel + 1) subject tree store).refreshes =
      (engine.run suite fuel subject tree store).refreshes) :
    engine.consultations suite subject tree store (fuel + 1) =
      engine.consultations suite subject tree store fuel := by
  rw [consultations, if_neg (by omega)]

theorem consultations_of_lt
    (grown : (engine.run suite fuel subject tree store).refreshes <
      (engine.run suite (fuel + 1) subject tree store).refreshes) :
    engine.consultations suite subject tree store (fuel + 1) =
      engine.consultations suite subject tree store fuel ++
        [midway suite subject (engine.run suite fuel subject tree store)] := by
  rw [consultations, if_pos grown]

theorem ledger_run (engine : Engine ρ) (suite : PassSuite ρ τ) (subject : Subject) (tree : τ)
    (store : ModuleStore τ) (fuel : Nat) :
    Ledger engine (engine.run suite fuel subject tree store)
      (engine.consultations suite subject tree store fuel) := by
  induction fuel with
  | zero =>
      have initial : Ledger engine (Run.initial tree store) [] := ⟨rfl, rfl⟩
      have chronicle : Chronicle engine (Run.initial tree store) := chronicle_initial tree store
      exact ledger_refresh chronicle.tags initial
  | succ fuel ih =>
      by_cases running : (engine.run suite fuel subject tree store).status = .running
      · have hrun := run_succ_of_running running
        have chronicle := chronicle_run engine suite subject tree store fuel
        obtain ⟨pass, rest, popped, ⟨_, hstep⟩ | ⟨_, _, _, hstep⟩ | ⟨_, _, hstep⟩⟩ :=
          step_cases suite subject (engine.run suite fuel subject tree store) engine
            (pending_of_running fuel running)
        · rw [consultations_of_eq (by rw [hrun, hstep]; rfl), hrun, hstep]
          exact ledger_execute popped ih
        · rw [consultations_of_eq (by rw [hrun, hstep]; rfl), hrun, hstep]
          exact ledger_execute popped ih
        · have grown : (engine.run suite fuel subject tree store).refreshes <
              (engine.run suite (fuel + 1) subject tree store).refreshes := by
            rw [hrun, hstep]
            exact Nat.lt_succ_self _
          rw [consultations_of_lt grown, midway_of_pop? popped, hrun, hstep]
          exact ledger_refresh (chronicle_execute popped chronicle).tags
            (ledger_execute popped ih)
      · have hrun := run_of_stopped (Nat.le_succ fuel) running
        rw [consultations_of_eq (by rw [hrun]), hrun]
        exact ih

theorem consultations_prefix (engine : Engine ρ) (suite : PassSuite ρ τ) (subject : Subject)
    (tree : τ) (store : ModuleStore τ) {more : Nat} (le : fuel ≤ more) :
    engine.consultations suite subject tree store fuel <+:
      engine.consultations suite subject tree store more := by
  induction more with
  | zero =>
      cases Nat.le_zero.mp le
      exact List.prefix_rfl
  | succ more ih =>
      rcases Nat.lt_or_ge more fuel with hlt | hge
      · have heq : fuel = more + 1 := by omega
        subst heq
        exact List.prefix_rfl
      · rw [consultations]
        split
        · exact (ih hge).trans (List.prefix_append _ _)
        · exact ih hge

theorem served_prefix (engine : Engine ρ) (suite : PassSuite ρ τ) (subject : Subject) (tree : τ)
    (store : ModuleStore τ) {more : Nat} (le : fuel ≤ more) :
    (engine.run suite fuel subject tree store).passes ++
        (engine.run suite fuel subject tree store).agenda.toList <+:
      (engine.run suite more subject tree store).passes ++
        (engine.run suite more subject tree store).agenda.toList := by
  rw [(ledger_run engine suite subject tree store fuel).served,
    (ledger_run engine suite subject tree store more).served]
  obtain ⟨later, hlater⟩ := consultations_prefix engine suite subject tree store le
  rw [← hlater, List.flatMap_append]
  exact List.prefix_append _ _

/-- The pass at a position of the agenda runs when those in front of it have run, unless the run is
not that far yet or has ended in a fault before. -/
theorem executes_in_turn {more position : Nat} {pass : ρ} (le : fuel ≤ more)
    (pending : (engine.run suite fuel subject tree store).agenda.toList[position]? = some pass) :
    let turn := (engine.run suite fuel subject tree store).passes.length + position
    let later := engine.run suite more subject tree store
    later.passes[turn]? = some pass ∨
      (later.passes.length ≤ turn ∧ ((later.status = .running ∧ more ≤ turn) ∨
        ∃ fault, later.verdict? suite subject = some (.error fault))) := by
  intro turn later
  have hturn : (later.passes ++ later.agenda.toList)[turn]? = some pass := by
    obtain ⟨rest, hrest⟩ := served_prefix engine suite subject tree store le
    have hlater : later.passes ++ later.agenda.toList =
        (engine.run suite fuel subject tree store).passes ++
          ((engine.run suite fuel subject tree store).agenda.toList ++ rest) := by
      rw [← List.append_assoc]
      exact hrest.symm
    rw [hlater, List.getElem?_append_right (Nat.le_add_right _ _), Nat.add_sub_cancel_left,
      List.getElem?_append_left (List.getElem?_eq_some_iff.mp pending).1]
    exact pending
  rcases Nat.lt_or_ge turn later.passes.length with hlt | hge
  · rw [List.getElem?_append_left hlt] at hturn
    exact Or.inl hturn
  · refine Or.inr ⟨hge, ?_⟩
    unfold Run.verdict?
    cases hstatus : later.status with
    | running =>
        have hlength : later.passes.length = more := by
          unfold Run.passes
          rw [List.length_map]
          exact length_executions_of_running more hstatus
        rw [hlength] at hge
        exact Or.inl ⟨rfl, hge⟩
    | settled =>
        have hidle : later.agenda.toList = [] :=
          (quiet_of_settled engine suite subject tree store more hstatus).2.1
        rw [hidle, List.append_nil, List.getElem?_eq_none hge] at hturn
        cases hturn
    | failed fault => exact Or.inr ⟨fault, rfl⟩
    | capped limit => exact Or.inr ⟨.refreshLimit subject.name limit, rfl⟩

/-- Executed and then pending is what the consultations of the log nominated, in order. So each
execution has a nomination by a rule that matched, and a pending pass runs when its turn comes. -/
theorem executions_earned (engine : Engine ρ) (suite : PassSuite ρ τ) (subject : Subject)
    (tree : τ) (store : ModuleStore τ) (fuel : Nat) :
    let run := engine.run suite fuel subject tree store
    let moments := engine.consultations suite subject tree store fuel
    (run.events.filter Event.isRefresh = moments.map fun moment =>
      .refresh moment.signals (engine.table.eligible moment.signals engine.settings)) ∧
    run.passes ++ run.agenda.toList = moments.flatMap engine.nominees ∧
    (∀ pass ∈ run.passes, ∃ moment ∈ moments, pass ∉ moment.agenda.toList ∧
      ∃ rule ∈ engine.table.rules,
        rule.fires moment.signals engine.settings = true ∧ pass ∈ rule.targets) ∧
    ∀ position pass, run.agenda.toList[position]? = some pass → ∀ more, fuel ≤ more →
      let later := engine.run suite more subject tree store
      let turn := run.passes.length + position
      later.passes[turn]? = some pass ∨
        (later.passes.length ≤ turn ∧ ((later.status = .running ∧ more ≤ turn) ∨
          ∃ fault, later.verdict? suite subject = some (.error fault))) := by
  intro run moments
  have ledger := ledger_run engine suite subject tree store fuel
  refine ⟨ledger.logged, ledger.served, ?_, ?_⟩
  · intro pass hpass
    have hnominated : pass ∈ moments.flatMap engine.nominees := by
      rw [← ledger.served]
      exact List.mem_append_left _ hpass
    obtain ⟨moment, hmoment, hnominee⟩ := List.mem_flatMap.mp hnominated
    exact ⟨moment, hmoment, mem_nominees.mp hnominee⟩
  · intro position pass pending more le
    exact executes_in_turn le pending

/-- Unrolling the tree of three makes new code while folding is still pending, so that unrolling is
nominated again, and folding is not. -/
theorem executions_earned_folding :
    let engine := Folding.engine 10 (by decide)
    let early := engine.run Folding.suite 1 Folding.subject 3 .empty
    let late := engine.run Folding.suite 6 Folding.subject 3 .empty
    early.agenda.toList = [false, true] ∧
      early.passes ++ early.agenda.toList =
        (engine.consultations Folding.suite Folding.subject 3 .empty 1).flatMap engine.nominees ∧
      late.passes[early.passes.length + 1]? = some true := by
  intro engine early late
  have pending : early.agenda.toList[1]? = some true := by decide
  have executed : 6 ≤ late.passes.length := by decide
  obtain ⟨_, served, _, turns⟩ :=
    executions_earned engine Folding.suite Folding.subject 3 .empty 1
  refine ⟨by decide, served, ?_⟩
  rcases turns 1 true pending 6 (by decide) with inTurn | ⟨short, _⟩
  · exact inTurn
  · exact absurd (Nat.le_trans executed short) (by decide)

end Engine

end PassEngine
