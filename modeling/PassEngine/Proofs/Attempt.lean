import PassEngine.Attempt
import PassEngine.Proofs.Exchanges
import PassEngine.Proofs.Run.Step

/-!
# Attempts

An attempt that gets hold of a tree puts back what the run made of it, however the run ended. The
other slots stay as they are, and behind them stands what the passes registered. More fuel does
not change what an attempt comes to.
-/

namespace PassEngine

variable {ρ τ : Type}

/-- The executions of a run that has stopped, in order. -/
def Transcript.executions (transcript : Transcript ρ) : List (Execution ρ) :=
  transcript.events.filterMap Event.execution?

namespace Engine

/-! ## What is said in a run -/

/-- What the next pass of a run says and asks. -/
def heard (suite : PassSuite ρ τ) (subject : Subject) (run : Run ρ τ) : List (Exchange τ) :=
  match run.agenda.pop? with
  | none => []
  | some (pass, _) =>
      (suite.apply pass subject run.tree).exchanges { tags := run.tags, store := run.store }

variable [DecidableEq ρ]

/-- What the passes of a run say and ask in so many steps, in order. -/
def exchanges (engine : Engine ρ) (suite : PassSuite ρ τ) (subject : Subject) (tree : τ)
    (store : ModuleStore τ) : Nat → List (Exchange τ)
  | 0 => []
  | fuel + 1 =>
      let before := engine.run suite fuel subject tree store
      if before.status = .running then
        exchanges engine suite subject tree store fuel ++ heard suite subject before
      else exchanges engine suite subject tree store fuel

/-- What the passes say and ask in an attempt on a module: nothing if its tree is not there. -/
def exchangesAt (engine : Engine ρ) (suite : PassSuite ρ τ) (fuel : Nat) (id : ModuleId)
    (store : ModuleStore τ) : List (Exchange τ) :=
  match store.slot? id with
  | some ⟨name, some tree⟩ =>
      engine.exchanges suite ⟨id, name⟩ tree (store.putTree id none) fuel
  | _ => []

variable {engine : Engine ρ} {suite : PassSuite ρ τ} {subject : Subject} {tree : τ}
  {store : ModuleStore τ} {fuel : Nat}

theorem exchanges_of_running
    (running : (engine.run suite fuel subject tree store).status = .running) :
    engine.exchanges suite subject tree store (fuel + 1) =
      engine.exchanges suite subject tree store fuel ++
        heard suite subject (engine.run suite fuel subject tree store) := by
  rw [exchanges, if_pos running]

theorem exchanges_of_stopped {more : Nat} (le : fuel ≤ more)
    (stopped : (engine.run suite fuel subject tree store).status ≠ .running) :
    engine.exchanges suite subject tree store more =
      engine.exchanges suite subject tree store fuel := by
  obtain ⟨extra, rfl⟩ := Nat.exists_eq_add_of_le le
  induction extra with
  | zero => rfl
  | succ extra ih =>
      have still : (engine.run suite (fuel + extra) subject tree store).status ≠ .running := by
        rw [run_of_stopped (Nat.le_add_right fuel extra) stopped]
        exact stopped
      rw [← Nat.add_assoc, exchanges, if_neg still]
      exact ih (Nat.le_add_right fuel extra)

theorem answers_step {run : Run ρ τ} (pending : run.agenda.toList ≠ []) :
    run.store.Answers (heard suite subject run) (engine.step suite subject run).store := by
  obtain ⟨pass, rest, popped, cases⟩ := step_cases suite subject run engine pending
  -- consulting the rules leaves the store alone
  have hstore : (engine.step suite subject run).store =
      (execute suite subject pass { run with agenda := rest }).store := by
    rcases cases with ⟨_, hstep⟩ | ⟨_, _, _, hstep⟩ | ⟨_, _, hstep⟩
    · rw [hstep]
    · rw [hstep]
    · rw [hstep]
      rfl
  unfold heard
  rw [hstore, popped]
  exact ModuleStore.answers_perform (suite.apply pass subject run.tree)
    { tags := run.tags, store := run.store }

theorem answers_run (engine : Engine ρ) (suite : PassSuite ρ τ) (subject : Subject) (tree : τ)
    (store : ModuleStore τ) (fuel : Nat) :
    store.Answers (engine.exchanges suite subject tree store fuel)
      (engine.run suite fuel subject tree store).store := by
  induction fuel with
  | zero => exact .nil
  | succ fuel ih =>
      by_cases running : (engine.run suite fuel subject tree store).status = .running
      · rw [run_succ_of_running running, exchanges_of_running running]
        exact ih.trans (answers_step (pending_of_running fuel running))
      · rw [run_of_stopped (Nat.le_succ fuel) running,
          exchanges_of_stopped (Nat.le_succ fuel) running]
        exact ih

/-! ## Attempts -/

variable {id : ModuleId} {name : String} {attempt : Attempt ρ τ}

/-- While its tree is lent out, a module stays registered under its name. -/
theorem slot?_run (engine : Engine ρ) (suite : PassSuite ρ τ) (fuel : Nat) (subject : Subject)
    (held : store.slot? id = some ⟨name, some tree⟩) :
    ∃ slot, (engine.run suite fuel subject tree (store.putTree id none)).store.slot? id =
      some slot ∧ slot.name = name := by
  have lent : (store.putTree id none).slot? id = some ⟨name, none⟩ := by
    rw [ModuleStore.slot?_putTree, if_pos rfl, held]
    rfl
  exact (answers_run engine suite subject tree (store.putTree id none) fuel).grows.named id _ lent

omit [DecidableEq ρ] in
/-- A registered module gets back what the run made of its tree. -/
theorem conclude_eq {slot : Slot τ} {run : Run ρ τ}
    (present : run.store.slot? subject.id = some slot) :
    conclude suite subject run = (run.verdict? suite subject).map fun verdict =>
      ⟨verdict, run.store.putTree subject.id (some run.tree), some (run.transcript subject)⟩ := by
  have hrestore : run.store.restore subject.id run.tree =
      .ok (run.store.putTree subject.id (some run.tree)) := by
    simp only [ModuleStore.restore, ModuleStore.slot, present]
  unfold conclude
  simp only [hrestore]

omit [DecidableEq ρ] in
theorem conclude_of_slot {slot : Slot τ} {run : Run ρ τ}
    (present : run.store.slot? subject.id = some slot)
    (h : conclude suite subject run = some attempt) :
    run.verdict? suite subject = some attempt.verdict ∧
      attempt.store = run.store.putTree subject.id (some run.tree) ∧
      attempt.transcript = some (run.transcript subject) := by
  rw [conclude_eq present] at h
  obtain ⟨verdict, hverdict, rfl⟩ := Option.map_eq_some_iff.mp h
  exact ⟨hverdict, rfl, rfl⟩

theorem attempt_eq (engine : Engine ρ) (suite : PassSuite ρ τ) (fuel : Nat) (id : ModuleId)
    (store : ModuleStore τ) :
    engine.attempt suite fuel id store =
      match store.slot? id with
      | none => some (refuse store (.unknownModule id))
      | some ⟨name, none⟩ => some (refuse store (.moduleInUse name))
      | some ⟨name, some tree⟩ =>
          conclude suite ⟨id, name⟩
            (engine.run suite fuel ⟨id, name⟩ tree (store.putTree id none)) := by
  unfold Engine.attempt ModuleStore.nameOf ModuleStore.lend ModuleStore.slot
  cases store.slot? id with
  | none => rfl
  | some slot =>
      obtain ⟨name, held⟩ := slot
      cases held with
      | none => rfl
      | some tree => rfl

/-- An attempt is refused for want of the module or of its tree, or it is a run on the tree that
was in the slot, and the slot holds what the run made of it. -/
theorem attempt_spec (h : engine.attempt suite fuel id store = some attempt) :
    (store.slot? id = none ∧ attempt = refuse store (.unknownModule id)) ∨
      (∃ name, store.slot? id = some ⟨name, none⟩ ∧
        attempt = refuse store (.moduleInUse name)) ∨
      ∃ name tree, store.slot? id = some ⟨name, some tree⟩ ∧
        let run := engine.run suite fuel ⟨id, name⟩ tree (store.putTree id none)
        run.verdict? suite ⟨id, name⟩ = some attempt.verdict ∧
          attempt.store = run.store.putTree id (some run.tree) ∧
          attempt.transcript = some (run.transcript ⟨id, name⟩) := by
  rw [attempt_eq] at h
  cases hslot : store.slot? id with
  | none =>
      rw [hslot] at h
      cases h
      exact Or.inl ⟨rfl, rfl⟩
  | some slot =>
      rw [hslot] at h
      obtain ⟨name, held⟩ := slot
      cases held with
      | none =>
          cases h
          exact Or.inr (Or.inl ⟨name, rfl, rfl⟩)
      | some tree =>
          obtain ⟨slot, hpresent, _⟩ := slot?_run engine suite fuel ⟨id, name⟩ hslot
          exact Or.inr (Or.inr ⟨name, tree, rfl, conclude_of_slot hpresent h⟩)

theorem slot?_restored (engine : Engine ρ) (suite : PassSuite ρ τ) (fuel : Nat)
    (subject : Subject) (held : store.slot? id = some ⟨name, some tree⟩) :
    let run := engine.run suite fuel subject tree (store.putTree id none)
    (run.store.putTree id (some run.tree)).slot? id = some ⟨name, some run.tree⟩ := by
  intro run
  obtain ⟨slot, hpresent, rfl⟩ := slot?_run engine suite fuel subject held
  rw [ModuleStore.slot?_putTree, if_pos rfl, hpresent]
  rfl

/-- An attempt on a module changes its slot, and the store otherwise grows by what is said. -/
theorem grows_attempt (h : engine.attempt suite fuel id store = some attempt) :
    store.Grows [id] (engine.exchangesAt suite fuel id store) attempt.store := by
  unfold exchangesAt
  rcases attempt_spec h with
    ⟨hslot, rfl⟩ | ⟨name, hslot, rfl⟩ | ⟨name, tree, hslot, _, hstore, _⟩
  · rw [hslot]
    exact ModuleStore.Grows.refl store [id]
  · rw [hslot]
    exact ModuleStore.Grows.refl store [id]
  · rw [hslot, hstore]
    -- the tree is lent, the passes talk to the store, and the tree is put back
    have lent := ModuleStore.grows_putTree store id none
    have ran := (answers_run engine suite ⟨id, name⟩ tree (store.putTree id none) fuel).grows
    have restored := ModuleStore.grows_putTree
      (engine.run suite fuel ⟨id, name⟩ tree (store.putTree id none)).store id
      (some (engine.run suite fuel ⟨id, name⟩ tree (store.putTree id none)).tree)
    have whole := (lent.trans ran).trans restored
    rw [List.nil_append, List.append_nil, List.append_nil] at whole
    exact whole.mono (by simp)

theorem size_le_attempt (h : engine.attempt suite fuel id store = some attempt) :
    store.size ≤ attempt.store.size :=
  (grows_attempt h).size

/-- Only a registered module can be optimized, and the report is about that module. -/
theorem attempt_of_ok (h : engine.attempt suite fuel id store = some attempt)
    {report : ModuleReport} (ok : attempt.verdict = .ok report) :
    id.index < store.size ∧ report.subject.id = id := by
  rcases attempt_spec h with ⟨_, rfl⟩ | ⟨_, _, rfl⟩ | ⟨name, tree, hslot, hverdict, _⟩
  · cases ok
  · cases ok
  · rw [ok] at hverdict
    obtain ⟨_, rfl⟩ := Run.verdict?_eq_ok_iff.mp hverdict
    exact ⟨ModuleStore.lt_size_iff.mpr ⟨_, hslot⟩, rfl⟩

/-- What passes do in an attempt they do to the module that is attempted. -/
theorem subject_of_attempt (h : engine.attempt suite fuel id store = some attempt)
    {transcript : Transcript ρ} (ran : attempt.transcript = some transcript) :
    transcript.subject.id = id := by
  rcases attempt_spec h with ⟨_, rfl⟩ | ⟨_, _, rfl⟩ | ⟨name, tree, _, _, _, htranscript⟩
  · cases ran
  · cases ran
  · rw [ran] at htranscript
    cases htranscript
    rfl

omit [DecidableEq ρ] in
theorem stopped_of_conclude {run : Run ρ τ} (h : conclude suite subject run = some attempt) :
    run.status ≠ .running := by
  intro running
  unfold conclude at h
  rw [Run.verdict?_eq_none_iff.mpr running] at h
  cases h

theorem attempt_of_le {more : Nat} (le : fuel ≤ more)
    (h : engine.attempt suite fuel id store = some attempt) :
    engine.attempt suite more id store = some attempt := by
  rw [attempt_eq] at h ⊢
  cases hslot : store.slot? id with
  | none =>
      rw [hslot] at h
      exact h
  | some slot =>
      rw [hslot] at h
      obtain ⟨name, held⟩ := slot
      cases held with
      | none => exact h
      | some tree =>
          have stopped := stopped_of_conclude h
          simp only [run_of_stopped le stopped]
          exact h

end Engine

end PassEngine
