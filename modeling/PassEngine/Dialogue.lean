import PassEngine.TagSet
import PassEngine.ModuleStore

/-!
# Dialogues

While a pass works on its tree it may tell the engine what it changed, ask whether a module is
known and register a module. A `Dialogue` is such a conversation as data, up to its result:
nothing else of the engine is within a pass's reach, and least of all the tree of another module.
`Dialogue.perform` holds the conversation with a set of tags and a store of modules.
-/

namespace PassEngine

/-- What a pass says and asks, and what it makes of the answers. -/
inductive Dialogue (τ α : Type) where
  | done (result : α)
  | emit (tag : Tag) (next : Unit → Dialogue τ α)
  | ask (name : String) (next : Bool → Dialogue τ α)
  /-- Register a module; the answer is its identity, or nothing if the name is known. -/
  | register (name : String) (tree : τ) (next : Option ModuleId → Dialogue τ α)

namespace Dialogue

variable {τ α β : Type}

def bind : Dialogue τ α → (α → Dialogue τ β) → Dialogue τ β
  | done result, rest => rest result
  | emit tag next, rest => emit tag fun answer => (next answer).bind rest
  | ask name next, rest => ask name fun answer => (next answer).bind rest
  | register name tree next, rest => register name tree fun answer => (next answer).bind rest

instance : Monad (Dialogue τ) where
  pure := done
  bind := bind

@[simp] theorem bind_done (dialogue : Dialogue τ α) : dialogue.bind done = dialogue := by
  induction dialogue with
  | done result => rfl
  | emit tag next ih => simp [bind, ih]
  | ask name next ih => simp [bind, ih]
  | register name tree next ih => simp [bind, ih]

theorem bind_assoc {γ : Type} (dialogue : Dialogue τ α) (second : α → Dialogue τ β)
    (third : β → Dialogue τ γ) :
    (dialogue.bind second).bind third = dialogue.bind fun a => (second a).bind third := by
  induction dialogue with
  | done result => rfl
  | emit tag next ih => simp [bind, ih]
  | ask name next ih => simp [bind, ih]
  | register name tree next ih => simp [bind, ih]

instance : LawfulMonad (Dialogue τ) :=
  LawfulMonad.mk' (Dialogue τ) bind_done (fun _ _ => rfl) bind_assoc

end Dialogue

/-- What a conversation can see and change, and what it has said so far, latest first. -/
structure Scene (τ : Type) where
  tags : TagSet
  store : ModuleStore τ
  emitted : List Tag := []
  discovered : List (String × ModuleId) := []

namespace Scene

variable {τ : Type}

def emit (scene : Scene τ) (tag : Tag) : Scene τ :=
  { scene with tags := scene.tags.insert tag, emitted := tag :: scene.emitted }

def register (scene : Scene τ) (name : String) (tree : τ) : Option ModuleId × Scene τ :=
  match scene.store.register name tree with
  | none => (none, scene)
  | some (id, store) =>
      (some id, { scene with store, discovered := (name, id) :: scene.discovered })

end Scene

/-- Hold a conversation: its result, and the scene that it leaves. -/
def Dialogue.perform {τ α : Type} : Dialogue τ α → Scene τ → α × Scene τ
  | .done result, scene => (result, scene)
  | .emit tag next, scene => (next ()).perform (scene.emit tag)
  | .ask name next, scene => (next (scene.store.knows name)).perform scene
  | .register name tree next, scene =>
      let (answer, scene) := scene.register name tree
      (next answer).perform scene

theorem Dialogue.perform_bind {τ α β : Type} (dialogue : Dialogue τ α) (rest : α → Dialogue τ β)
    (scene : Scene τ) :
    (dialogue.bind rest).perform scene =
      (rest (dialogue.perform scene).1).perform (dialogue.perform scene).2 := by
  induction dialogue generalizing scene with
  | done result => rfl
  | emit tag next ih => simp [bind, perform, ih]
  | ask name next ih => simp [bind, perform, ih]
  | register name tree next ih => simp [bind, perform, ih]

end PassEngine
