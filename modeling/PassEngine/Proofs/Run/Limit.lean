import PassEngine.Proofs.Run.Budget

/-!
# The limit only truncates

Two engines that differ in their limit alone run in lockstep until the tighter limit ends one of
the runs; from then on the other run has all that happened in the first one behind it.
-/

namespace PassEngine

variable {ρ τ : Type}

namespace Engine

/-- The engine with another limit, or with none. -/
def withLimit (engine : Engine ρ) (limit : Option Nat) (valid : limit ≠ some 0) : Engine ρ where
  table := engine.table
  settings := { engine.settings with refreshLimit := limit }
  valid := valid

/-- The engine under this limit. -/
def capped (engine : Engine ρ) (limit : Nat) (positive : 0 < limit) : Engine ρ :=
  engine.withLimit (some limit) (by
    intro h
    cases h
    exact Nat.lt_irrefl 0 positive)

/-- The engine without a limit. -/
def uncapped (engine : Engine ρ) : Engine ρ := engine.withLimit none (by simp)

variable [DecidableEq ρ] {engine : Engine ρ} {suite : PassSuite ρ τ} {subject : Subject}
  {run : Run ρ τ}

/-! ## One refresh under two limits -/

theorem eligible_withLimit (limit : Option Nat) (valid : limit ≠ some 0) (tags : TagSet) :
    (engine.withLimit limit valid).table.eligible tags (engine.withLimit limit valid).settings =
      engine.table.eligible tags engine.settings := by
  apply RuleTable.eligible_congr
  intro rule _ guard _
  cases guard.flag with
  | valuePropagation => rfl
  | moduleMode => rfl
  | optimizeStringExec => rfl

theorem table_refresh_withLimit (limit : Option Nat) (valid : limit ≠ some 0) (tags : TagSet)
    (agenda : Agenda ρ) :
    (engine.withLimit limit valid).table.refresh tags (engine.withLimit limit valid).settings
      agenda = engine.table.refresh tags engine.settings agenda :=
  RuleTable.refresh_congr (eligible_withLimit limit valid tags) agenda

theorem past_refresh_withLimit (limit : Option Nat) (valid : limit ≠ some 0) :
    ((engine.withLimit limit valid).refresh run).past = (engine.refresh run).past := by
  rw [past_refresh, past_refresh, eligible_withLimit]

theorem agenda_refresh_withLimit (limit : Option Nat) (valid : limit ≠ some 0) :
    ((engine.withLimit limit valid).refresh run).agenda = (engine.refresh run).agenda := by
  rw [agenda_refresh, agenda_refresh, table_refresh_withLimit]

/-- Of what a refresh does, only the standing of the run can depend on the limit. -/
theorem refresh_withLimit_eq {first second : Option Nat} {hfirst : first ≠ some 0}
    {hsecond : second ≠ some 0}
    (h : ((engine.withLimit first hfirst).refresh run).status =
      ((engine.withLimit second hsecond).refresh run).status) :
    (engine.withLimit first hfirst).refresh run =
      (engine.withLimit second hsecond).refresh run := by
  have hpast : ((engine.withLimit first hfirst).refresh run).past =
      ((engine.withLimit second hsecond).refresh run).past := by
    rw [past_refresh_withLimit, past_refresh_withLimit]
  unfold refresh at h hpast ⊢
  dsimp only at h hpast ⊢
  rw [hpast, h, table_refresh_withLimit, table_refresh_withLimit]

/-- How a run stands to the run that a limit has ended. -/
structure Outlasts (limit : Nat) (ended other : Run ρ τ) : Prop where
  past : ended.past <:+ other.past
  refreshes : limit < other.refreshes
  /-- The refresh that settles the other run is one that the ended run never saw. -/
  settled : other.status = .settled → limit + 1 < other.refreshes

variable {limit : Nat} {positive : 0 < limit} {looser : Option Nat} {valid : looser ≠ some 0}

/-- Either both engines go on alike after a refresh, or the tighter limit ends the run here. -/
theorem refresh_lockstep (room : run.refreshes ≤ limit)
    (hle : ∀ larger, looser = some larger → limit ≤ larger) :
    ((∀ reached, ((engine.capped limit positive).refresh run).status ≠ .capped reached) ∧
        (engine.withLimit looser valid).refresh run = (engine.capped limit positive).refresh run) ∨
      ((∃ reached, ((engine.capped limit positive).refresh run).status = .capped reached) ∧
        Outlasts limit ((engine.capped limit positive).refresh run)
          ((engine.withLimit looser valid).refresh run)) := by
  have hagenda : ((engine.withLimit looser valid).refresh run).agenda =
      ((engine.capped limit positive).refresh run).agenda := by
    unfold capped
    rw [agenda_refresh_withLimit, agenda_refresh_withLimit]
  by_cases hnil : ((engine.capped limit positive).refresh run).agenda.toList = []
  · have htight := settled_refresh_iff.mpr hnil
    rw [← hagenda] at hnil
    have hloose := settled_refresh_iff.mpr hnil
    refine Or.inl ⟨by simp [htight], refresh_withLimit_eq ?_⟩
    exact hloose.trans htight.symm
  · by_cases within : run.refreshes + 1 ≤ limit
    · have htight : ((engine.capped limit positive).refresh run).status = .running := by
        refine running_refresh_iff.mpr ⟨hnil, ?_⟩
        intro bound hbound
        cases hbound
        exact within
      have hloose : ((engine.withLimit looser valid).refresh run).status = .running := by
        refine running_refresh_iff.mpr ⟨by rw [hagenda]; exact hnil, ?_⟩
        intro bound hbound
        exact Nat.le_trans within (hle bound hbound)
      refine Or.inl ⟨by simp [htight], refresh_withLimit_eq ?_⟩
      exact hloose.trans htight.symm
    · have hlt : limit < run.refreshes + 1 := by omega
      refine Or.inr ⟨⟨limit, capped_refresh_iff.mpr ⟨hnil, rfl, hlt⟩⟩, ?_, hlt, ?_⟩
      · have hpast : ((engine.capped limit positive).refresh run).past =
            ((engine.withLimit looser valid).refresh run).past := by
          unfold capped
          rw [past_refresh_withLimit, past_refresh_withLimit]
        exact ⟨[], hpast⟩
      · intro settled
        have hempty := settled_refresh_iff.mp settled
        rw [hagenda] at hempty
        exact absurd hempty hnil

/-! ## Whole runs under two limits -/

theorem refreshes_le_step (pending : run.agenda.toList ≠ []) :
    run.refreshes ≤ (engine.step suite subject run).refreshes ∧
      ((engine.step suite subject run).status = .settled →
        run.refreshes < (engine.step suite subject run).refreshes) := by
  rcases refreshes_step_cases pending with
    ⟨executed, hrefreshes, hstep⟩ | ⟨hrefreshes, hstatus⟩
  · rw [hstep, refreshes_refresh, hrefreshes]
    exact ⟨Nat.le_succ _, fun _ => Nat.lt_succ_self _⟩
  · refine ⟨Nat.le_of_eq hrefreshes.symm, ?_⟩
    intro settled
    rcases hstatus with going | ⟨fault, failed⟩
    · rw [going] at settled
      cases settled
    · rw [failed] at settled
      cases settled

theorem outlasts_step {ended other : Run ρ τ} (pending : other.agenda.toList ≠ [])
    (h : Outlasts limit ended other) :
    Outlasts limit ended (engine.step suite subject other) where
  past := h.past.trans (past_suffix_step engine suite subject other)
  refreshes := Nat.lt_of_lt_of_le h.refreshes (refreshes_le_step pending).1
  settled := by
    intro settled
    have hgrown := (refreshes_le_step pending).2 settled
    have hbeyond := h.refreshes
    omega

theorem step_lockstep (pending : run.agenda.toList ≠ []) (room : run.refreshes ≤ limit)
    (hle : ∀ larger, looser = some larger → limit ≤ larger) :
    ((∀ reached,
          ((engine.capped limit positive).step suite subject run).status ≠ .capped reached) ∧
        (engine.withLimit looser valid).step suite subject run =
          (engine.capped limit positive).step suite subject run) ∨
      ((∃ reached,
          ((engine.capped limit positive).step suite subject run).status = .capped reached) ∧
        Outlasts limit ((engine.capped limit positive).step suite subject run)
          ((engine.withLimit looser valid).step suite subject run)) := by
  obtain ⟨pass, rest, popped⟩ := Agenda.exists_pop pending
  by_cases consult :
      (execute suite subject pass { run with agenda := rest }).status = .running ∧
        (rest.toList = [] ∨ newCode ∈ (execute suite subject pass { run with agenda := rest }).tags)
  · rw [step_eq_refresh popped consult.1 consult.2, step_eq_refresh popped consult.1 consult.2]
    exact refresh_lockstep room hle
  · have hno := not_and.mp consult
    rw [step_eq_execute popped hno, step_eq_execute popped hno]
    exact Or.inl ⟨fun _ => not_capped_execute suite subject pass _, rfl⟩

/-- The two runs are the same, or the tighter limit has ended one of them. -/
theorem run_lockstep (engine : Engine ρ) (suite : PassSuite ρ τ) (subject : Subject) (tree : τ)
    (store : ModuleStore τ) (positive : 0 < limit) (valid : looser ≠ some 0) (fuel : Nat)
    (hle : ∀ larger, looser = some larger → limit ≤ larger) :
    ((∀ reached, ((engine.capped limit positive).run suite fuel subject tree store).status ≠
          .capped reached) ∧
        (engine.withLimit looser valid).run suite fuel subject tree store =
          (engine.capped limit positive).run suite fuel subject tree store) ∨
      ((∃ reached, ((engine.capped limit positive).run suite fuel subject tree store).status =
          .capped reached) ∧
        Outlasts limit ((engine.capped limit positive).run suite fuel subject tree store)
          ((engine.withLimit looser valid).run suite fuel subject tree store)) := by
  induction fuel with
  | zero => exact refresh_lockstep (Nat.zero_le _) hle
  | succ fuel ih =>
      rcases ih with ⟨uncapped, same⟩ | ⟨⟨reached, ended⟩, outlasts⟩
      · by_cases running :
            ((engine.capped limit positive).run suite fuel subject tree store).status = .running
        · have running' :
              ((engine.withLimit looser valid).run suite fuel subject tree store).status =
                .running := by
            rw [same, running]
          rw [run_succ_of_running running, run_succ_of_running running', same]
          have within :=
            withinLimit_run (engine.capped limit positive) suite fuel subject tree store rfl
          exact step_lockstep (pending_of_running fuel running) (within.running running) hle
        · have stopped' :
              ((engine.withLimit looser valid).run suite fuel subject tree store).status ≠
                .running := by
            rw [same]
            exact running
          rw [run_of_stopped (Nat.le_succ fuel) running,
            run_of_stopped (Nat.le_succ fuel) stopped']
          exact Or.inl ⟨uncapped, same⟩
      · have stopped :
            ((engine.capped limit positive).run suite fuel subject tree store).status ≠
              .running := by
          rw [ended]
          simp
        rw [run_of_stopped (Nat.le_succ fuel) stopped]
        refine Or.inr ⟨⟨reached, ended⟩, ?_⟩
        by_cases running' :
            ((engine.withLimit looser valid).run suite fuel subject tree store).status = .running
        · rw [run_succ_of_running running']
          exact outlasts_step (pending_of_running fuel running') outlasts
        · rw [run_of_stopped (Nat.le_succ fuel) running']
          exact outlasts

theorem past_suffix_run {fuel more : Nat} (le : fuel ≤ more) (tree : τ) (store : ModuleStore τ) :
    (engine.run suite fuel subject tree store).past <:+
      (engine.run suite more subject tree store).past := by
  induction more with
  | zero =>
      cases Nat.le_zero.mp le
      exact List.suffix_rfl
  | succ more ih =>
      rcases Nat.lt_or_ge more fuel with hlt | hge
      · have heq : fuel = more + 1 := by omega
        subst heq
        exact List.suffix_rfl
      · by_cases running : (engine.run suite more subject tree store).status = .running
        · rw [run_succ_of_running running]
          exact (ih hge).trans (past_suffix_step engine suite subject _)
        · rw [run_of_stopped (Nat.le_succ more) running]
          exact ih hge

omit [DecidableEq ρ] in
theorem executions_prefix_of_past {first second : Run ρ τ} (h : first.past <:+ second.past) :
    first.executions <+: second.executions := by
  rw [Run.executions_eq, Run.executions_eq, List.reverse_prefix]
  exact h.filterMap Event.execution?

/-- What was executed until the tighter limit ended the run is executed under the other one too. -/
theorem executions_prefix_of_capped {fuel more reached : Nat} (le : fuel ≤ more) {tree : τ}
    {store : ModuleStore τ} (hle : ∀ larger, looser = some larger → limit ≤ larger)
    (ended : ((engine.capped limit positive).run suite fuel subject tree store).status =
      .capped reached) :
    ((engine.capped limit positive).run suite fuel subject tree store).executions <+:
      ((engine.withLimit looser valid).run suite more subject tree store).executions := by
  rcases run_lockstep engine suite subject tree store positive valid fuel hle with
    ⟨uncapped, _⟩ | ⟨_, outlasts⟩
  · exact absurd ended (uncapped reached)
  · exact executions_prefix_of_past (outlasts.past.trans (past_suffix_run le tree store))

theorem run_eq_of_not_capped {fuel : Nat} {tree : τ} {store : ModuleStore τ}
    (hle : ∀ larger, looser = some larger → limit ≤ larger)
    (uncapped : ∀ reached,
      ((engine.capped limit positive).run suite fuel subject tree store).status ≠
        .capped reached) :
    (engine.withLimit looser valid).run suite fuel subject tree store =
      (engine.capped limit positive).run suite fuel subject tree store := by
  rcases run_lockstep engine suite subject tree store positive valid fuel hle with
    ⟨_, same⟩ | ⟨⟨reached, ended⟩, _⟩
  · exact same
  · exact absurd ended (uncapped reached)

/-- If the run without a limit settles, the number of its refreshes decides what becomes of the
run under a limit: the refresh that settles it is not counted. -/
theorem verdict_of_settled {fuel : Nat} {tree : τ} {store : ModuleStore τ} (positive : 0 < limit)
    (settled : (engine.uncapped.run suite fuel subject tree store).status = .settled) :
    ((engine.uncapped.run suite fuel subject tree store).refreshes ≤ limit + 1 ∧
        (engine.capped limit positive).run suite fuel subject tree store =
          engine.uncapped.run suite fuel subject tree store) ∨
      (limit + 1 < (engine.uncapped.run suite fuel subject tree store).refreshes ∧
        ((engine.capped limit positive).run suite fuel subject tree store).status =
          .capped limit) := by
  have hfree : ∀ bound, none = some bound → limit ≤ bound := by
    intro bound hbound
    cases hbound
  have within := withinLimit_run (engine.capped limit positive) suite fuel subject tree store rfl
  rcases run_lockstep engine suite subject tree store positive (by simp) fuel hfree with
    ⟨_, same⟩ | ⟨⟨reached, ended⟩, outlasts⟩
  · refine Or.inl ⟨?_, same.symm⟩
    have hrefreshes := within.refreshes
    rw [← same] at hrefreshes
    exact hrefreshes
  · obtain ⟨rfl, _, _⟩ := within.capped reached ended
    exact Or.inr ⟨outlasts.settled settled, ended⟩

/-- A limit that does not end the run makes no difference; one that does has cut a longer run short,
and how often the unlimited run consults the rules decides which of the two it is. -/
theorem limit_only_truncates (engine : Engine ρ) (suite : PassSuite ρ τ) (subject : Subject)
    (tree : τ) (store : ModuleStore τ) {limit larger : Nat} (positive : 0 < limit)
    (le : limit ≤ larger) :
    let tight fuel := (engine.capped limit positive).run suite fuel subject tree store
    let loose fuel := (engine.capped larger (Nat.lt_of_lt_of_le positive le)).run suite fuel
      subject tree store
    let free fuel := engine.uncapped.run suite fuel subject tree store
    (∀ fuel, (∀ reached, (tight fuel).status ≠ .capped reached) →
      loose fuel = tight fuel ∧ free fuel = tight fuel) ∧
    (∀ fuel reached, (tight fuel).status = .capped reached → ∀ more, fuel ≤ more →
      (tight fuel).executions <+: (loose more).executions ∧
        (tight fuel).executions <+: (free more).executions) ∧
    (∀ fuel report, (free fuel).verdict? suite subject = some (.ok report) →
      ((∃ more settled, (tight more).verdict? suite subject = some (.ok settled)) ↔
        report.refreshes - 1 ≤ limit) ∧
      (¬ report.refreshes - 1 ≤ limit → (tight fuel).verdict? suite subject =
        some (.error (.refreshLimit subject.name limit)))) := by
  intro tight loose free
  have hloose : ∀ bound, some larger = some bound → limit ≤ bound := by
    intro bound hbound
    cases hbound
    exact le
  have hfree : ∀ bound, none = some bound → limit ≤ bound := by
    intro bound hbound
    cases hbound
  refine ⟨?_, ?_, ?_⟩
  · intro fuel uncapped
    exact ⟨run_eq_of_not_capped hloose uncapped, run_eq_of_not_capped hfree uncapped⟩
  · intro fuel reached ended more hmore
    exact ⟨executions_prefix_of_capped hmore hloose ended,
      executions_prefix_of_capped hmore hfree ended⟩
  · intro fuel report hreport
    obtain ⟨settled, rfl⟩ := Run.verdict?_eq_ok_iff.mp hreport
    rcases verdict_of_settled positive settled with ⟨within, same⟩ | ⟨beyond, ended⟩
    · have hwithin : ((free fuel).report suite subject).refreshes - 1 ≤ limit :=
        Nat.sub_le_of_le_add within
      have hsame : tight fuel = free fuel := same
      refine ⟨⟨fun _ => hwithin, fun _ => ⟨fuel, (free fuel).report suite subject, ?_⟩⟩,
        fun h => absurd hwithin h⟩
      rw [hsame]
      exact hreport
    · have hbeyond : ¬ ((free fuel).report suite subject).refreshes - 1 ≤ limit := by
        intro h
        exact Nat.not_le_of_lt beyond (Nat.le_add_of_sub_le h)
      refine ⟨⟨?_, fun h => absurd h hbeyond⟩, fun _ => ?_⟩
      · rintro ⟨more, report, hmore⟩
        have hsettled := (Run.verdict?_eq_ok_iff.mp hmore).1
        have hsame : tight fuel = tight more :=
          run_eq_of_stopped (by rw [ended]; simp) (by rw [hsettled]; simp)
        rw [← hsame] at hsettled
        exact absurd (ended.symm.trans hsettled) (by simp)
      · have hended : (tight fuel).status = .capped limit := ended
        simp only [Run.verdict?, hended]

/-- A tree of three takes six refreshes: a limit of five lets it settle, one of four does not. -/
theorem limit_only_truncates_folding :
    let engine := Folding.engine 1 (by decide)
    let four := engine.capped 4 (by decide)
    let five := engine.capped 5 (by decide)
    0 < 4 ∧ 4 ≤ 5 ∧
      (four.run Folding.suite 5 Folding.subject 3 .empty).status = .capped 4 ∧
      (four.run Folding.suite 5 Folding.subject 3 .empty).executions <+:
        (five.run Folding.suite 6 Folding.subject 3 .empty).executions ∧
      (four.run Folding.suite 6 Folding.subject 3 .empty).verdict? Folding.suite
        Folding.subject = some (.error (.refreshLimit "main" 4)) ∧
      engine.uncapped.run Folding.suite 6 Folding.subject 3 .empty =
        five.run Folding.suite 6 Folding.subject 3 .empty := by
  intro engine four five
  have tight := limit_only_truncates engine Folding.suite Folding.subject 3 .empty
    (show 0 < 4 by decide) (show 4 ≤ 5 by decide)
  have loose := limit_only_truncates engine Folding.suite Folding.subject 3 .empty
    (show 0 < 5 by decide) (Nat.le_refl 5)
  have ended : (four.run Folding.suite 5 Folding.subject 3 .empty).status = .capped 4 := by decide
  have settled : (five.run Folding.suite 6 Folding.subject 3 .empty).status = .settled := by decide
  have report : (engine.uncapped.run Folding.suite 6 Folding.subject 3 .empty).verdict?
      Folding.suite Folding.subject = some (.ok ⟨Folding.subject, [⟨"unroll", 1⟩, ⟨"fold", 1⟩,
        ⟨"unroll", 0⟩, ⟨"fold", 1⟩, ⟨"fold", 1⟩, ⟨"fold", 0⟩], 6⟩) := by decide
  refine ⟨by decide, by decide, ended, ?_, ?_, ?_⟩
  · exact (tight.2.1 5 4 ended 6 (by decide)).1
  · exact (tight.2.2 6 _ report).2 (by decide)
  · exact (loose.1 6 (by rw [settled]; simp)).2

end Engine

end PassEngine
