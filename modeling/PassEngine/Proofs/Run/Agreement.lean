import PassEngine.Proofs.Attempt

/-!
# What a run sees of its engine

A run asks its engine which passes are eligible and what the limit is, and nothing else. Two engines
that agree on these two have the same runs on every tree, and the same attempts on every module.
-/

namespace PassEngine.Engine

variable {ρ τ : Type} [DecidableEq ρ]

/-- The same passes are eligible for both engines, whatever the tags are, and the limit is one. -/
structure Agree (first second : Engine ρ) : Prop where
  eligible : ∀ tags,
    first.table.eligible tags first.settings = second.table.eligible tags second.settings
  limit : first.settings.refreshLimit = second.settings.refreshLimit

variable {first second : Engine ρ}

/-- Rules see of the settings the flags that their guards mention. -/
theorem agree_of_flags (table : first.table = second.table)
    (limit : first.settings.refreshLimit = second.settings.refreshLimit)
    (flags : ∀ rule ∈ first.table.rules, ∀ guard ∈ rule.guards,
      first.settings.flag guard.flag = second.settings.flag guard.flag) :
    first.Agree second where
  eligible tags := by
    rw [← table]
    exact RuleTable.eligible_congr flags tags
  limit := limit

/-! ## Runs -/

section Consulted

variable {suite : PassSuite ρ τ} {subject : Subject} {run : Run ρ τ}

omit [DecidableEq ρ] in
theorem statusAfter_congr (limit : first.settings.refreshLimit = second.settings.refreshLimit)
    (refreshes : Nat) (agenda : Agenda ρ) :
    second.statusAfter refreshes agenda = first.statusAfter refreshes agenda := by
  unfold statusAfter
  rw [limit]

theorem refresh_congr (limit : first.settings.refreshLimit = second.settings.refreshLimit)
    (same : first.table.eligible run.tags first.settings =
      second.table.eligible run.tags second.settings) :
    second.refresh run = first.refresh run := by
  simp only [refresh, same, RuleTable.refresh_congr same, statusAfter_congr limit]

theorem step_congr (limit : first.settings.refreshLimit = second.settings.refreshLimit)
    (pending : run.agenda.toList ≠ [])
    (consulted : ∀ tags eligible, .refresh tags eligible ∈ (first.step suite subject run).past →
      first.table.eligible tags first.settings = second.table.eligible tags second.settings) :
    second.step suite subject run = first.step suite subject run := by
  obtain ⟨pass, rest, popped, ⟨⟨fault, failed⟩, hstep⟩ | ⟨_, busy, unheard, hstep⟩ |
    ⟨going, consult, hstep⟩⟩ := step_cases suite subject run first pending
  · rw [hstep, step_eq_execute popped]
    simp [failed]
  · rw [hstep, step_eq_execute popped]
    simp [busy, unheard]
  · rw [hstep, step_eq_refresh popped going consult]
    apply refresh_congr limit
    rw [hstep, past_refresh] at consulted
    exact consulted _ _ List.mem_cons_self

/-- Engines with one limit that find the same passes eligible whenever a run of the first one
consults the rules have this run in common. -/
theorem run_eq_of_consulted (limit : first.settings.refreshLimit = second.settings.refreshLimit)
    (suite : PassSuite ρ τ) (subject : Subject) (tree : τ) (store : ModuleStore τ) (fuel : Nat)
    (consulted : ∀ tags eligible,
      .refresh tags eligible ∈ (first.run suite fuel subject tree store).past →
      first.table.eligible tags first.settings = second.table.eligible tags second.settings) :
    second.run suite fuel subject tree store = first.run suite fuel subject tree store := by
  induction fuel with
  | zero => exact refresh_congr limit (consulted _ _ List.mem_cons_self)
  | succ fuel ih =>
      by_cases running : (first.run suite fuel subject tree store).status = .running
      · rw [run_succ_of_running running] at consulted ⊢
        -- what was consulted before the step is in the past of the step as well
        have before := ih fun tags eligible hmem => consulted tags eligible
          ((past_suffix_step first suite subject _).subset hmem)
        rw [run_succ_of_running (before ▸ running), before]
        exact step_congr limit (pending_of_running fuel running) consulted
      · rw [run_of_stopped (Nat.le_succ fuel) running] at consulted ⊢
        have before := ih consulted
        rw [run_of_stopped (Nat.le_succ fuel) (before ▸ running), before]

end Consulted

theorem Agree.run_eq (agree : first.Agree second) (suite : PassSuite ρ τ) (fuel : Nat)
    (subject : Subject) (tree : τ) (store : ModuleStore τ) :
    first.run suite fuel subject tree store = second.run suite fuel subject tree store :=
  (run_eq_of_consulted agree.limit suite subject tree store fuel
    fun tags _ _ => agree.eligible tags).symm

theorem Agree.attempt_eq (agree : first.Agree second) (suite : PassSuite ρ τ) (fuel : Nat)
    (id : ModuleId) (store : ModuleStore τ) :
    first.attempt suite fuel id store = second.attempt suite fuel id store := by
  simp only [attempt, agree.run_eq]

end PassEngine.Engine
