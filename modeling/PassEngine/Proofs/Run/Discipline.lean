import PassEngine.Proofs.Run.Budget

/-!
# Disciplined passes converge

A pass is expected to use up what made it eligible. If every emission is paid for by a decrease of
some measure of the tree, a window without emissions is the last one, because every rule requires a
tag, and the measure pays for every other window. This ends the run even without a limit, and a
limit that leaves room for the measure is never what ends it.
-/

namespace PassEngine

variable {ρ τ : Type}

/-- An execution on the subject that does not give up is silent and does not raise the measure, or
it emits a tag and lowers the measure. -/
def PassSuite.Disciplined (suite : PassSuite ρ τ) (subject : Subject) (measure : τ → Nat) : Prop :=
  ∀ pass tree tags store,
    let result := (suite.apply pass subject tree).perform { tags, store }
    result.1.1 = .ok () →
      (result.2.emitted = [] ∧ measure result.1.2 ≤ measure tree) ∨
        (result.2.emitted ≠ [] ∧ measure result.1.2 < measure tree)

/-- The refreshes of a run so far and those that it can still pay for: what is left of the measure,
and one more if a tag is waiting to be heard. -/
def Run.potential (measure : τ → Nat) (run : Run ρ τ) : Nat :=
  run.refreshes + measure run.tree + if run.tags = .empty then 0 else 1

theorem Run.le_potential (measure : τ → Nat) (run : Run ρ τ) :
    run.refreshes ≤ run.potential measure := by
  unfold potential
  omega

namespace Engine

variable {suite : PassSuite ρ τ} {subject : Subject} {measure : τ → Nat} {run : Run ρ τ}

theorem potential_execute_le (disciplined : suite.Disciplined subject measure) (pass : ρ)
    (run : Run ρ τ) (going : (execute suite subject pass run).status = .running) :
    (execute suite subject pass run).potential measure ≤ run.potential measure := by
  have htags := tags_execute suite subject pass run
  have htree := tree_execute suite subject pass run
  unfold Run.potential
  rw [refreshes_execute]
  rcases disciplined pass run.tree run.tags run.store
      ((running_execute_iff suite subject pass run).mp going) with
    ⟨silent, hmeasure⟩ | ⟨_, hmeasure⟩
  · have hsilent : (execution suite subject pass run).emitted = [] := by
      show List.reverse _ = []
      rw [silent, List.reverse_nil]
    rw [hsilent] at htags
    rw [← htree] at hmeasure
    have hsame : (execute suite subject pass run).tags = run.tags := htags
    rw [hsame]
    omega
  · rw [← htree] at hmeasure
    split <;> omega

variable [DecidableEq ρ] {engine : Engine ρ}

theorem potential_refresh (heard : run.tags ≠ .empty) :
    (engine.refresh run).potential measure = run.potential measure := by
  have htags : (engine.refresh run).tags = .empty := rfl
  have htree : (engine.refresh run).tree = run.tree := rfl
  unfold Run.potential
  rw [if_pos htags, if_neg heard, htree, refreshes_refresh]
  omega

/-- A run that goes on is within what the measure pays for, and only a limit below that ends it. -/
structure Converging (engine : Engine ρ) (measure : τ → Nat) (bound : Nat) (run : Run ρ τ) :
    Prop where
  running : run.status = .running → run.potential measure ≤ bound
  capped : ∀ limit, run.status = .capped limit →
    engine.settings.refreshLimit = some limit ∧ limit < bound

theorem converging_refresh {bound : Nat} (within : run.potential measure ≤ bound)
    (consult : run.tags = .empty → run.agenda.toList = []) :
    Converging engine measure bound (engine.refresh run) := by
  by_cases silent : run.tags = .empty
  · have hidle : (engine.refresh run).agenda.toList = [] := by
      rw [agenda_refresh_of_silent silent]
      exact consult silent
    have settled := settled_refresh_iff.mpr hidle
    exact ⟨by simp [settled], by simp [settled]⟩
  · have hpotential : (engine.refresh run).potential measure ≤ bound := by
      rw [potential_refresh silent]
      exact within
    refine ⟨fun _ => hpotential, ?_⟩
    intro limit hcapped
    obtain ⟨_, hlimit, hlt⟩ := capped_refresh_iff.mp hcapped
    exact ⟨hlimit, Nat.lt_of_lt_of_le hlt
      (Nat.le_trans (Run.le_potential measure (engine.refresh run)) hpotential)⟩

theorem converging_step {bound : Nat} (disciplined : suite.Disciplined subject measure)
    (running : run.status = .running) (pending : run.agenda.toList ≠ [])
    (h : Converging engine measure bound run) :
    Converging engine measure bound (engine.step suite subject run) := by
  obtain ⟨pass, rest, popped, ⟨⟨fault, failed⟩, hstep⟩ | ⟨going, _, _, hstep⟩ |
      ⟨going, consult, hstep⟩⟩ := step_cases suite subject run engine pending
  · rw [hstep]
    exact ⟨by simp [failed], by simp [failed]⟩
  · have hle := potential_execute_le disciplined pass { run with agenda := rest } going
    rw [hstep]
    exact ⟨fun _ => Nat.le_trans hle (h.running running), by simp [going]⟩
  · have hle := potential_execute_le disciplined pass { run with agenda := rest } going
    rw [hstep]
    refine converging_refresh (Nat.le_trans hle (h.running running)) ?_
    intro silent
    rw [silent] at consult
    rcases consult with idle | heard
    · exact idle
    · exact absurd heard (TagSet.not_mem_empty newCode)

theorem converging_run (engine : Engine ρ) (tree : τ) (store : ModuleStore τ)
    (disciplined : suite.Disciplined subject measure) (fuel : Nat) :
    Converging engine measure (measure tree + 1)
      (engine.run suite fuel subject tree store) := by
  refine run_invariant (P := Converging engine measure (measure tree + 1)) ?_
    (fun _ running pending => converging_step disciplined running pending) fuel
  -- the first refresh hears the tag for new code
  have heard : (Run.initial tree store : Run ρ τ).tags ≠ .empty := by
    show TagSet.empty.insert newCode ≠ .empty
    decide
  have hpotential : (Run.initial tree store : Run ρ τ).potential measure = measure tree + 1 := by
    unfold Run.potential
    rw [if_neg heard]
    exact congrArg (· + 1) (Nat.zero_add (measure tree))
  exact converging_refresh (Nat.le_of_eq hpotential) fun silent => absurd silent heard

/-- Disciplined passes come to an end, whatever the limit and even if there is none, and the measure
of the tree bounds how much they do. A limit that leaves room for the measure never fires. -/
theorem disciplined_converges (engine : Engine ρ) (suite : PassSuite ρ τ) (subject : Subject)
    (tree : τ) (store : ModuleStore τ) (measure : τ → Nat)
    (disciplined : suite.Disciplined subject measure) :
    let bound := (measure tree + 1) * (engine.table.scope engine.settings).length
    (∃ verdict,
      (engine.run suite bound subject tree store).verdict? suite subject = some verdict) ∧
    (∀ fuel, let run := engine.run suite fuel subject tree store
      run.executions.length ≤ bound ∧ run.refreshes ≤ measure tree + 2 ∧
      run.refreshes = run.events.countP Event.isRefresh) ∧
    ((∀ limit, engine.settings.refreshLimit = some limit → measure tree + 1 ≤ limit) →
      (∀ fuel limit, (engine.run suite fuel subject tree store).status ≠ .capped limit) ∧
      let run := engine.run suite bound subject tree store
      (∃ report, run.verdict? suite subject = some (.ok report)) ∨
        ∃ fault, run.status = .failed fault ∧
          run.verdict? suite subject = some (.error fault)) := by
  intro bound
  have room : ∀ fuel, (engine.run suite fuel subject tree store).status = .running →
      (engine.run suite fuel subject tree store).refreshes ≤ measure tree + 1 := by
    intro fuel running
    exact Nat.le_trans (Run.le_potential measure _)
      ((converging_run engine tree store disciplined fuel).running running)
  have stopped : (engine.run suite bound subject tree store).status ≠ .running :=
    stopped_of_room room
  refine ⟨?_, ?_, ?_⟩
  · apply Option.isSome_iff_exists.mp
    rw [Option.isSome_iff_ne_none, ne_eq, Run.verdict?_eq_none_iff]
    exact stopped
  · intro fuel run
    have within := within_of_room room fuel
    exact ⟨within.1, within.2, (budget_run engine suite fuel subject tree store).counted⟩
  · intro allowed
    have uncapped : ∀ fuel limit,
        (engine.run suite fuel subject tree store).status ≠ .capped limit := by
      intro fuel limit hcapped
      obtain ⟨hlimit, hlt⟩ :=
        (converging_run engine tree store disciplined fuel).capped limit hcapped
      have hallowed := allowed limit hlimit
      omega
    refine ⟨uncapped, ?_⟩
    intro run
    unfold Run.verdict?
    cases hstatus : run.status with
    | running => exact absurd hstatus stopped
    | settled => exact Or.inl ⟨_, rfl⟩
    | failed fault => exact Or.inr ⟨fault, rfl, rfl⟩
    | capped limit => exact absurd hstatus (uncapped bound limit)

/-- Every emission takes one off the tree, and an empty tree is left alone. -/
def thriftySuite : PassSuite Bool Nat where
  name := Folding.suite.name
  apply unrolls _ tree :=
    match tree with
    | 0 => .done (.ok (), 0)
    | rest + 1 =>
        .emit (if unrolls then newCode else "new_constant") fun _ => .done (.ok (), rest)

theorem disciplined_thriftySuite (subject : Subject) : thriftySuite.Disciplined subject id := by
  intro unrolls tree tags store result _
  cases tree with
  | zero => exact Or.inl ⟨rfl, Nat.le_refl 0⟩
  | succ rest => exact Or.inr ⟨List.cons_ne_nil _ _, Nat.lt_succ_self rest⟩

/-- A tree of two is given all the refreshes that the bound speaks of, one of them forced by new
code, and the tightest limit allowed lets the last of them pass. -/
theorem disciplined_converges_thrifty :
    let engine := Folding.engine 3 (by decide)
    let run := engine.run thriftySuite 6 Folding.subject 2 .empty
    thriftySuite.Disciplined Folding.subject id ∧
      (∀ limit, engine.settings.refreshLimit = some limit → id 2 + 1 ≤ limit) ∧
      run.refreshes = 4 ∧ run.refreshes ≤ id 2 + 2 ∧
      run.executions.length ≤ (id 2 + 1) * (engine.table.scope engine.settings).length ∧
      (∀ limit, run.status ≠ .capped limit) ∧ run.status = .settled := by
  intro engine run
  have disciplined := disciplined_thriftySuite Folding.subject
  have allowed : ∀ limit, engine.settings.refreshLimit = some limit → id 2 + 1 ≤ limit := by
    intro limit hlimit
    cases hlimit
    exact Nat.le_refl 3
  obtain ⟨_, bounds, uncapped⟩ :=
    disciplined_converges engine thriftySuite Folding.subject 2 .empty id disciplined
  exact ⟨disciplined, allowed, by decide, (bounds 6).2.1, (bounds 6).1, (uncapped allowed).1 6,
    by decide⟩

end Engine

end PassEngine
