import PassEngine.Proofs.Attempt

/-!
# What an attempt discovers

A run records which modules its passes register, and these are the ones that the store has at its
end and did not have at its beginning, in the order of registration.
-/

namespace PassEngine

variable {ρ τ : Type}

/-- The modules that were registered in a run so far, in order. -/
def Run.discovered (run : Run ρ τ) : List ModuleId :=
  run.executions.flatMap fun execution => execution.discovered.map Prod.snd

/-- The modules that were registered in a run, in order. -/
def Transcript.discovered (transcript : Transcript ρ) : List ModuleId :=
  transcript.executions.flatMap fun execution => execution.discovered.map Prod.snd

/-! ## Conversations -/

namespace ModuleStore

variable {store grown : ModuleStore τ}

theorem ids_of_register {name : String} {tree : τ} {id : ModuleId}
    (h : store.register name tree = some (id, grown)) : grown.ids = store.ids ++ [id] := by
  unfold ids
  rw [size_of_register h, List.range_succ, List.map_append, (slots_of_register h).1]
  rfl

@[simp] theorem ids_putTree (store : ModuleStore τ) (id : ModuleId) (tree : Option τ) :
    (store.putTree id tree).ids = store.ids := by
  simp [ids]

end ModuleStore

theorem Dialogue.ids_perform {α : Type} (dialogue : Dialogue τ α) (base : List ModuleId)
    {scene : Scene τ} (h : scene.store.ids = base ++ scene.discovered.reverse.map Prod.snd) :
    (dialogue.perform scene).2.store.ids =
      base ++ (dialogue.perform scene).2.discovered.reverse.map Prod.snd := by
  induction dialogue generalizing scene with
  | done result => exact h
  | emit tag next ih => exact ih () h
  | ask name next ih => exact ih _ h
  | register name tree next ih =>
      apply ih
      change (scene.register name tree).2.store.ids =
        base ++ (scene.register name tree).2.discovered.reverse.map Prod.snd
      unfold Scene.register
      cases hregister : scene.store.register name tree with
      | none => exact h
      | some added =>
          obtain ⟨id, grown⟩ := added
          simp [ModuleStore.ids_of_register hregister, h]

/-! ## Runs and attempts -/

namespace Engine

theorem discovered_execute (suite : PassSuite ρ τ) (subject : Subject) (pass : ρ) (run : Run ρ τ) :
    (execute suite subject pass run).discovered = run.discovered ++
      (execution suite subject pass run).discovered.map Prod.snd := by
  simp [Run.discovered, executions_execute]

theorem ids_execute (suite : PassSuite ρ τ) (subject : Subject) (pass : ρ) (run : Run ρ τ) :
    (execute suite subject pass run).store.ids = run.store.ids ++
      (execution suite subject pass run).discovered.map Prod.snd :=
  Dialogue.ids_perform _ run.store.ids (by simp)

variable [DecidableEq ρ] {engine : Engine ρ} {suite : PassSuite ρ τ} {fuel : Nat}

@[simp] theorem discovered_refresh (engine : Engine ρ) (run : Run ρ τ) :
    (engine.refresh run).discovered = run.discovered := by
  simp [Run.discovered]

theorem ids_run (engine : Engine ρ) (suite : PassSuite ρ τ) (fuel : Nat) (subject : Subject)
    (tree : τ) (store : ModuleStore τ) :
    (engine.run suite fuel subject tree store).store.ids =
      store.ids ++ (engine.run suite fuel subject tree store).discovered := by
  refine run_induction (P := fun run => run.store.ids = store.ids ++ run.discovered) ?_ ?_ ?_ fuel
  · simp [Run.initial, Run.discovered, Run.executions, Run.events]
  · intro run h
    rw [discovered_refresh]
    exact h
  · intro run pass rest _ h
    rw [ids_execute, discovered_execute, ← List.append_assoc]
    exact congrArg (· ++ _) h

/-- An attempt adds to the modules what its transcript records, and nothing without one. -/
theorem ids_attempt {id : ModuleId} {store : ModuleStore τ} {attempt : Attempt ρ τ}
    (h : engine.attempt suite fuel id store = some attempt) :
    attempt.store.ids =
      store.ids ++ (attempt.transcript.map Transcript.discovered).getD [] := by
  rcases attempt_spec h with
    ⟨_, rfl⟩ | ⟨_, _, rfl⟩ | ⟨name, tree, _, _, hstore, htranscript⟩
  · simp [refuse]
  · simp [refuse]
  · rw [hstore, htranscript, ModuleStore.ids_putTree, ids_run, ModuleStore.ids_putTree]
    rfl

end Engine

end PassEngine
