import Mathlib.Data.Finset.Defs
import PassEngine.Proofs.Attempt

/-!
# Passes that keep within a set of names

A suite keeps within a set of names if what its passes register bears a name of the set, as long as
they work on trees that fit, and if they leave and register fitting trees. Then a whole run
registers only names of the set, and a store of fitting trees remains one.
-/

namespace PassEngine

variable {ρ τ α β : Type}

/-! ## Conversations -/

namespace Dialogue

/-- Whatever the answers are, what is registered is as required, and so is the result. -/
def Within (offers : String → τ → Prop) (result : α → Prop) : Dialogue τ α → Prop
  | done value => result value
  | emit _ next => (next ()).Within offers result
  | ask _ next => ∀ known, (next known).Within offers result
  | register name tree next => offers name tree ∧ ∀ answer, (next answer).Within offers result

variable {offers : String → τ → Prop} {result result' : α → Prop} {dialogue : Dialogue τ α}

theorem Within.mono (h : dialogue.Within offers result)
    (weaker : ∀ value, result value → result' value) : dialogue.Within offers result' := by
  induction dialogue with
  | done value => exact weaker value h
  | emit tag next ih => exact ih () h
  | ask name next ih => exact fun known => ih known (h known)
  | register name tree next ih => exact ⟨h.1, fun answer => ih answer (h.2 answer)⟩

theorem within_bind {rest : α → Dialogue τ β} {final : β → Prop} :
    (dialogue.bind rest).Within offers final ↔
      dialogue.Within offers fun value => (rest value).Within offers final := by
  induction dialogue with
  | done value => exact Iff.rfl
  | emit tag next ih => exact ih ()
  | ask name next ih => exact forall_congr' ih
  | register name tree next ih => exact and_congr_right fun _ => forall_congr' ih

theorem Within.perform (h : dialogue.Within offers result) (scene : Scene τ) :
    result (dialogue.perform scene).1 := by
  induction dialogue generalizing scene with
  | done value => exact h
  | emit tag next ih => exact ih () h (scene.emit tag)
  | ask name next ih => exact ih _ (h _) scene
  | register name tree next ih => exact ih _ (h.2 _) (scene.register name tree).2

theorem Within.exchanges (h : dialogue.Within offers result) {scene : Scene τ} {name : String}
    {tree : τ} {answer : Option ModuleId}
    (hsaid : .offered name tree answer ∈ dialogue.exchanges scene) : offers name tree := by
  induction dialogue generalizing scene with
  | done value => cases hsaid
  | emit tag next ih => exact ih () h ((List.mem_cons.mp hsaid).resolve_left (by simp))
  | ask other next ih => exact ih _ (h _) ((List.mem_cons.mp hsaid).resolve_left (by simp))
  | register other tree' next ih =>
      rcases List.mem_cons.mp hsaid with heq | hsaid
      · cases heq
        exact h.1
      · exact ih _ (h.2 _) hsaid

end Dialogue

/-! ## Suites -/

/-- On a tree that fits, every pass leaves a tree that fits, and it registers nothing but fitting
trees under names of the set. -/
def PassSuite.KeepsWithin (suite : PassSuite ρ τ) (names : Finset String) (Fits : τ → Prop) :
    Prop :=
  ∀ pass subject tree, Fits tree →
    (suite.apply pass subject tree).Within (fun name tree => name ∈ names ∧ Fits tree)
      fun result => Fits result.2

/-- Whatever trees a store has fit. -/
def ModuleStore.AllFit (store : ModuleStore τ) (Fits : τ → Prop) : Prop :=
  ∀ id name tree, store.slot? id = some ⟨name, some tree⟩ → Fits tree

namespace Engine

variable [DecidableEq ρ] {engine : Engine ρ} {suite : PassSuite ρ τ} {names : Finset String}
  {Fits : τ → Prop} {fuel : Nat} {subject : Subject} {id : ModuleId} {tree : τ}
  {store : ModuleStore τ}

theorem fits_run (within : suite.KeepsWithin names Fits) (fits : Fits tree) (fuel : Nat) :
    Fits (engine.run suite fuel subject tree store).tree := by
  refine run_induction (P := fun run => Fits run.tree) fits (fun run h => h) ?_ fuel
  intro run pass rest _ h
  rw [tree_execute]
  exact (within pass subject run.tree h).perform _

theorem offered_run (within : suite.KeepsWithin names Fits) (fits : Fits tree) {name : String}
    {offered : τ} {answer : Option ModuleId}
    (hsaid : .offered name offered answer ∈ engine.exchanges suite subject tree store fuel) :
    name ∈ names ∧ Fits offered := by
  induction fuel with
  | zero => cases hsaid
  | succ fuel ih =>
      by_cases running : (engine.run suite fuel subject tree store).status = .running
      · rw [exchanges_of_running running] at hsaid
        rcases List.mem_append.mp hsaid with hbefore | hnext
        · exact ih hbefore
        · unfold heard at hnext
          split at hnext
          · cases hnext
          · exact (within _ subject _ (fits_run within fits fuel)).exchanges hnext
      · rw [exchanges_of_stopped (Nat.le_succ fuel) running] at hsaid
        exact ih hsaid

/-! ## Attempts -/

theorem offered_attempt (within : suite.KeepsWithin names Fits) (fits : store.AllFit Fits)
    {name : String} {offered : τ} {answer : Option ModuleId}
    (hsaid : .offered name offered answer ∈ engine.exchangesAt suite fuel id store) :
    name ∈ names ∧ Fits offered := by
  unfold exchangesAt at hsaid
  split at hsaid
  · rename_i held
    exact offered_run within (fits id _ _ held) hsaid
  · cases hsaid

theorem fits_attempt (within : suite.KeepsWithin names Fits) (fits : store.AllFit Fits)
    {attempt : Attempt ρ τ} (h : engine.attempt suite fuel id store = some attempt) :
    attempt.store.AllFit Fits := by
  intro other name tree hslot
  rcases (grows_attempt h).slot_cases hslot with here | hkept | ⟨called, offered, hnew, hsaid⟩
  · cases List.mem_singleton.mp here
    rcases attempt_spec h with
      ⟨_, rfl⟩ | ⟨_, _, rfl⟩ | ⟨called, before, held, _, hstore, _⟩
    · exact fits id name tree hslot
    · exact fits id name tree hslot
    · rw [hstore, slot?_restored engine suite fuel ⟨id, called⟩ held] at hslot
      cases hslot
      exact fits_run within (fits id _ before held) fuel
  · exact fits other name tree hkept
  · cases hnew
    exact (offered_attempt within fits hsaid).2

end Engine

end PassEngine
