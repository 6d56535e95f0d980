import Mathlib.Data.Finset.Empty
import PassEngine.Proofs.Attempt.Confinement
import PassEngine.Proofs.Run.Isolation

/-!
# Attempts that have nothing to do with each other

If passes register nothing, an attempt changes the slot of its module and nothing else, and all that
it takes from a store are the names and that slot. Two attempts on different modules can then be
made in either order.
-/

namespace PassEngine

variable {ρ τ : Type}

/-- No pass ever registers a module. It may ask for names, and it knows its own module. -/
def PassSuite.RegistersNothing (suite : PassSuite ρ τ) : Prop :=
  suite.KeepsWithin ∅ fun _ => True

namespace ModuleStore

variable {store grown other : ModuleStore τ} {said : List (Exchange τ)} {first second : ModuleId}

theorem Answers.eq_of_unoffered (h : Answers store said grown)
    (unoffered : ∀ name tree answer, .offered name tree answer ∉ said) : grown = store := by
  induction h with
  | nil => rfl
  | emitted tag _ ih => exact ih (by simpa using unoffered)
  | asked name _ ih => exact ih (by simpa using unoffered)
  | known tree _ _ _ => exact absurd List.mem_cons_self (unoffered _ tree none)
  | registered _ _ _ => exact absurd List.mem_cons_self (unoffered _ _ (some _))

theorem putTree_comm (ne : first ≠ second) (tree tree' : Option τ) :
    (store.putTree first tree).putTree second tree' =
      (store.putTree second tree').putTree first tree := by
  apply ext_slot?
  intro id
  by_cases here : first = id
  · have aside : second ≠ id := fun h => ne (here.trans h.symm)
    simp [slot?_putTree, here, aside]
  · simp [slot?_putTree, here]

end ModuleStore

namespace Engine

variable [DecidableEq ρ] {engine : Engine ρ} {suite : PassSuite ρ τ} {fuel : Nat}
  {store other : ModuleStore τ} {id first second : ModuleId} {attempt attempt' : Attempt ρ τ}
  {report report' : ModuleReport}

theorem store_run (alone : suite.RegistersNothing) (subject : Subject) (tree : τ) :
    (engine.run suite fuel subject tree store).store = store := by
  apply (answers_run engine suite subject tree store fuel).eq_of_unoffered
  intro name offered answer hsaid
  have within := (offered_run alone trivial hsaid).1
  simp at within

/-- An attempt that goes well would go as well over each store with the same names and the same
slot, and leave the same tree there. -/
theorem attempt_elsewhere (alone : suite.RegistersNothing) (names : other.names = store.names)
    (slot : other.slot? id = store.slot? id)
    (h : engine.attempt suite fuel id store = some attempt) (ok : attempt.verdict = .ok report) :
    ∃ tree, attempt.store = store.putTree id (some tree) ∧
      engine.attempt suite fuel id other =
        some { attempt with store := other.putTree id (some tree) } := by
  rcases attempt_spec h with ⟨_, rfl⟩ | ⟨_, _, rfl⟩ | ⟨name, tree, held, _⟩
  · cases ok
  · cases ok
  · obtain ⟨grown, hrun, _⟩ := run_alike engine suite ⟨id, name⟩ tree names.symm fuel
    have hgrown := congrArg Run.store hrun
    rw [store_run alone] at hgrown
    have held' : other.slot? id = some ⟨name, some tree⟩ := slot.trans held
    rw [attempt_eq_of_copy engine suite fuel held] at h
    rw [attempt_eq_of_copy engine suite fuel held', hrun]
    obtain ⟨verdict, hverdict, rfl⟩ := Option.map_eq_some_iff.mp h
    refine ⟨(engine.run suite fuel ⟨id, name⟩ tree store).tree, ?_, ?_⟩
    · rw [store_run alone]
    · rw [Option.map_eq_some_iff]
      exact ⟨verdict, hverdict, by rw [hgrown]; rfl⟩

/-- Two attempts on different modules that go well one after the other would go as well in the other
order, and leave the same store. -/
theorem attempt_swap (alone : suite.RegistersNothing) (ne : first ≠ second)
    (hfirst : engine.attempt suite fuel first store = some attempt)
    (ok : attempt.verdict = .ok report)
    (hsecond : engine.attempt suite fuel second attempt.store = some attempt')
    (ok' : attempt'.verdict = .ok report') :
    ∃ middle, engine.attempt suite fuel second store = some { attempt' with store := middle } ∧
      engine.attempt suite fuel first middle = some { attempt with store := attempt'.store } := by
  obtain ⟨tree, hstore, _⟩ := attempt_elsewhere alone rfl rfl hfirst ok
  have names : store.names = attempt.store.names := by simp [hstore]
  have slot : store.slot? second = attempt.store.slot? second := by
    simp [hstore, ModuleStore.slot?_putTree, ne]
  obtain ⟨tree', hstore', early⟩ := attempt_elsewhere alone names slot hsecond ok'
  have names' : (store.putTree second (some tree')).names = store.names := by simp
  have slot' : (store.putTree second (some tree')).slot? first = store.slot? first := by
    simp [ModuleStore.slot?_putTree, ne.symm]
  obtain ⟨again, hagain, late⟩ := attempt_elsewhere alone names' slot' hfirst ok
  refine ⟨_, early, ?_⟩
  rw [late, hstore', hagain, ModuleStore.putTree_comm ne]

end Engine

end PassEngine
