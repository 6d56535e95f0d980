import PassEngine.Proofs.Run.Step

/-!
# What the past of a run tells

The past lists refreshes and executions, latest first. It determines the tags that a run holds,
and with the agenda it accounts for every pass that was ever found eligible: since then the pass
was executed, or it is pending. `Chronicle` is this invariant and `chronicle_run` carries it
through whole runs.
-/

namespace PassEngine

variable {ρ τ : Type}

/-- The tags that the next refresh will see, given what has happened, latest first. Before
anything has happened this is the tag for new code. -/
def unheard : List (Event ρ) → List Tag
  | [] => [newCode]
  | .refresh .. :: _ => []
  | .executed execution :: earlier => unheard earlier ++ execution.emitted

@[simp] theorem unheard_nil : unheard ([] : List (Event ρ)) = [newCode] := rfl

theorem mem_unheard_executed {execution : Execution ρ} {earlier : List (Event ρ)} {tag : Tag} :
    tag ∈ unheard (.executed execution :: earlier) ↔
      tag ∈ unheard earlier ∨ tag ∈ execution.emitted := by
  simp [unheard]

/-- Apart from the tag for new code, only what was emitted waits for a refresh. -/
theorem emitted_of_mem_unheard {past : List (Event ρ)} {tag : Tag} (h : tag ∈ unheard past) :
    tag = newCode ∨ ∃ execution, .executed execution ∈ past ∧ tag ∈ execution.emitted := by
  induction past with
  | nil => simpa using h
  | cons event earlier ih =>
      cases event with
      | refresh tags eligible => simp [unheard] at h
      | executed execution =>
          rcases mem_unheard_executed.mp h with before | here
          · rcases ih before with fresh | ⟨emitter, hmem, emits⟩
            · exact Or.inl fresh
            · exact Or.inr ⟨emitter, List.mem_cons_of_mem _ hmem, emits⟩
          · exact Or.inr ⟨execution, List.mem_cons_self, here⟩

theorem mem_unheard_executions {window : List (Execution ρ)} {earlier : List (Event ρ)}
    {tag : Tag} :
    tag ∈ unheard (window.map .executed ++ earlier) ↔
      tag ∈ unheard earlier ∨ ∃ execution ∈ window, tag ∈ execution.emitted := by
  induction window with
  | nil => simp
  | cons execution window ih =>
      rw [List.map_cons, List.cons_append, mem_unheard_executed, ih]
      simp only [List.mem_cons, exists_eq_or_imp, or_assoc]
      constructor
      · rintro (h | h | h)
        · exact Or.inl h
        · exact Or.inr (Or.inr h)
        · exact Or.inr (Or.inl h)
      · rintro (h | h | h)
        · exact Or.inl h
        · exact Or.inr (Or.inr h)
        · exact Or.inr (Or.inl h)

/-- One of the events is an execution of the pass. -/
def Executes (pass : ρ) (events : List (Event ρ)) : Prop :=
  ∃ execution, .executed execution ∈ events ∧ execution.pass = pass

theorem Executes.cons {pass : ρ} {events : List (Event ρ)} (event : Event ρ)
    (h : Executes pass events) : Executes pass (event :: events) := by
  obtain ⟨execution, hmem, hpass⟩ := h
  exact ⟨execution, List.mem_cons_of_mem event hmem, hpass⟩

theorem executes_reverse {pass : ρ} {events : List (Event ρ)} :
    Executes pass events.reverse ↔ Executes pass events := by
  simp [Executes]

/-- The tags of a run are those that nobody has heard of yet, each refresh saw what it had to
see, and what it found eligible has been executed since or is pending. -/
structure Chronicle [DecidableEq ρ] (engine : Engine ρ) (run : Run ρ τ) : Prop where
  tags : run.tags = TagSet.ofList (unheard run.past)
  consulted : ∀ later tags eligible earlier,
    run.past = later ++ .refresh tags eligible :: earlier →
      tags = TagSet.ofList (unheard earlier) ∧
      eligible = engine.table.eligible tags engine.settings
  served : ∀ later tags eligible earlier,
    run.past = later ++ .refresh tags eligible :: earlier →
      ∀ pass ∈ eligible, pass ∈ run.agenda.toList ∨ Executes pass later

namespace Engine

variable [DecidableEq ρ] {engine : Engine ρ} {suite : PassSuite ρ τ} {subject : Subject}
  {run : Run ρ τ}

theorem chronicle_initial (tree : τ) (store : ModuleStore τ) :
    Chronicle engine (Run.initial tree store) where
  tags := rfl
  consulted := by
    intro later tags eligible earlier h
    simp [Run.initial] at h
  served := by
    intro later tags eligible earlier h
    simp [Run.initial] at h

theorem chronicle_refresh (h : Chronicle engine run) : Chronicle engine (engine.refresh run) where
  tags := rfl
  consulted := by
    intro later tags eligible earlier hpast
    rw [past_refresh] at hpast
    cases later with
    | nil =>
        simp only [List.nil_append, List.cons.injEq, Event.refresh.injEq] at hpast
        obtain ⟨⟨rfl, rfl⟩, rfl⟩ := hpast
        exact ⟨h.tags, rfl⟩
    | cons event later =>
        simp only [List.cons_append, List.cons.injEq] at hpast
        exact h.consulted later tags eligible earlier hpast.2
  served := by
    intro later tags eligible earlier hpast pass hpass
    rw [past_refresh] at hpast
    rw [agenda_refresh, RuleTable.mem_refresh]
    cases later with
    | nil =>
        simp only [List.nil_append, List.cons.injEq, Event.refresh.injEq] at hpast
        obtain ⟨⟨rfl, rfl⟩, rfl⟩ := hpast
        exact Or.inl (Or.inr hpass)
    | cons event later =>
        simp only [List.cons_append, List.cons.injEq] at hpast
        rcases h.served later tags eligible earlier hpast.2 pass hpass with pending | executed
        · exact Or.inl (Or.inl pending)
        · exact Or.inr (executed.cons event)

theorem chronicle_execute {pass : ρ} {rest : Agenda ρ}
    (popped : run.agenda.pop? = some (pass, rest)) (h : Chronicle engine run) :
    Chronicle engine (execute suite subject pass { run with agenda := rest }) where
  tags := by
    rw [tags_execute, past_execute, h.tags]
    simp [unheard, TagSet.ofList, TagSet.insertAll]
  consulted := by
    intro later tags eligible earlier hpast
    rw [past_execute] at hpast
    cases later with
    | nil => simp at hpast
    | cons event later =>
        simp only [List.cons_append, List.cons.injEq] at hpast
        exact h.consulted later tags eligible earlier hpast.2
  served := by
    intro later tags eligible earlier hpast other hother
    rw [past_execute] at hpast
    cases later with
    | nil => simp at hpast
    | cons event later =>
        simp only [List.cons_append, List.cons.injEq] at hpast
        obtain ⟨rfl, hpast⟩ := hpast
        rw [agenda_execute]
        rcases h.served later tags eligible earlier hpast other hother with pending | executed
        · rw [Agenda.toList_of_pop? popped] at pending
          -- the pass that stood in front is the one that this execution serves
          rcases List.mem_cons.mp pending with rfl | pending
          · exact Or.inr ⟨_, List.mem_cons_self, rfl⟩
          · exact Or.inl pending
        · exact Or.inr (executed.cons _)

theorem chronicle_run (engine : Engine ρ) (suite : PassSuite ρ τ) (subject : Subject) (tree : τ)
    (store : ModuleStore τ) (fuel : Nat) :
    Chronicle engine (engine.run suite fuel subject tree store) :=
  run_induction (chronicle_initial tree store) (fun _ => chronicle_refresh)
    (fun _ _ _ => chronicle_execute) fuel

/-- A run that has failed did so in its last execution. -/
theorem last_of_failed (engine : Engine ρ) (suite : PassSuite ρ τ) (subject : Subject) (tree : τ)
    (store : ModuleStore τ) (fuel : Nat) {fault : Fault}
    (failed : (engine.run suite fuel subject tree store).status = .failed fault) :
    ∃ execution earlier, (engine.run suite fuel subject tree store).past =
      .executed execution :: earlier ∧ execution.fault = some fault := by
  refine run_invariant (P := fun run => run.status = .failed fault → ∃ execution earlier,
    run.past = .executed execution :: earlier ∧ execution.fault = some fault) ?_ ?_ fuel failed
  · intro failed
    exact absurd failed not_failed_refresh
  · intro run _ pending _ failed
    obtain ⟨pass, rest, _, ⟨_, hstep⟩ | ⟨going, _, _, hstep⟩ | ⟨_, _, hstep⟩⟩ :=
      step_cases suite subject run engine pending
    · rw [hstep] at failed ⊢
      refine ⟨_, _, past_execute suite subject pass _, ?_⟩
      rw [status_execute] at failed
      cases hfault : (execution suite subject pass { run with agenda := rest }).fault with
      | none =>
          rw [hfault] at failed
          cases failed
      | some given =>
          rw [hfault] at failed
          cases failed
          rfl
    · rw [hstep, going] at failed
      cases failed
    · rw [hstep] at failed
      exact absurd failed not_failed_refresh

/-! ## The two ends of a run -/

/-- The first thing that happens is a refresh. -/
theorem first_refresh (engine : Engine ρ) (suite : PassSuite ρ τ) (subject : Subject) (tree : τ)
    (store : ModuleStore τ) (fuel : Nat) :
    ∃ later tags eligible, (engine.run suite fuel subject tree store).past =
      later ++ [.refresh tags eligible] := by
  refine run_invariant (P := fun run => ∃ later tags eligible, run.past =
    later ++ [Event.refresh tags eligible]) ⟨[], _, _, rfl⟩ ?_ fuel
  intro run _ _ ⟨later, tags, eligible, hpast⟩
  obtain ⟨more, hmore⟩ := past_suffix_step engine suite subject run
  exact ⟨more ++ later, tags, eligible, by rw [← hmore, hpast, List.append_assoc]⟩

/-- What is left when a refresh finds nothing to do. -/
def Quiet (engine : Engine ρ) (run : Run ρ τ) : Prop :=
  run.tags = .empty ∧ run.agenda.toList = [] ∧
    ∃ tags earlier, run.past = .refresh tags [] :: earlier ∧
      engine.table.eligible tags engine.settings = []

theorem quiet_refresh (settled : (engine.refresh run).status = .settled) :
    Quiet engine (engine.refresh run) := by
  have hnil := settled_refresh_iff.mp settled
  have hnone : engine.table.eligible run.tags engine.settings = [] := by
    apply List.eq_nil_iff_forall_not_mem.mpr
    intro pass hpass
    have hmem : pass ∈ (engine.refresh run).agenda.toList := by
      rw [agenda_refresh, RuleTable.mem_refresh]
      exact Or.inr hpass
    rw [hnil] at hmem
    cases hmem
  exact ⟨rfl, hnil, run.tags, run.past, by rw [past_refresh, hnone], hnone⟩

theorem quiet_of_settled (engine : Engine ρ) (suite : PassSuite ρ τ) (subject : Subject) (tree : τ)
    (store : ModuleStore τ) (fuel : Nat)
    (settled : (engine.run suite fuel subject tree store).status = .settled) :
    Quiet engine (engine.run suite fuel subject tree store) := by
  refine run_invariant (P := fun run => run.status = .settled → Quiet engine run)
    quiet_refresh ?_ fuel settled
  intro run _ pending _
  rcases refreshes_step_cases pending with ⟨executed, _, hstep⟩ | ⟨_, going | ⟨fault, failed⟩⟩
  · rw [hstep]
    exact quiet_refresh
  · rw [going]
    intro h
    cases h
  · rw [failed]
    intro h
    cases h

end Engine

end PassEngine
