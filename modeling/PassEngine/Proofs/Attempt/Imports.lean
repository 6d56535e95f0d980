import PassEngine.Proofs.Attempt
import PassEngine.Proofs.FirstOccurrence

/-!
# Attempts that follow imports

Let every tree have a list of imports that no pass changes, and let the passes of a run that
settles go through that list and register what is on it. An attempt that ends well then adds to
the names of the store the imports of its module, each unless it is there by then.
-/

namespace PassEngine

variable {ρ τ : Type}

/-- What is said and asked goes through names in order: it registers them, each at its turn and
with the tree that it has by the template, or leaves one out because it is told to be known, and
it registers nothing else. -/
inductive GoesThrough (template : String → τ) : List (Exchange τ) → List String → Prop where
  | nil : GoesThrough template [] []
  | emitted {said names} (tag : Tag) :
      GoesThrough template said names → GoesThrough template (.emitted tag :: said) names
  | asked {said names} (name : String) (known : Bool) :
      GoesThrough template said names → GoesThrough template (.asked name known :: said) names
  | skipped {said names} (name : String) :
      GoesThrough template said names →
        GoesThrough template (.asked name true :: said) (name :: names)
  | offered {said names} (name : String) (answer : Option ModuleId) :
      GoesThrough template said names →
        GoesThrough template (.offered name (template name) answer :: said) (name :: names)

/-- No pass changes the imports of a tree, and in a run that settles the passes together go through
the imports in order, repetitions apart. -/
structure Engine.Follows [DecidableEq ρ] (engine : Engine ρ) (suite : PassSuite ρ τ)
    (imports : τ → List String) (template : String → τ) : Prop where
  kept : ∀ pass subject tree scene,
    imports ((suite.apply pass subject tree).perform scene).1.2 = imports tree
  through : ∀ fuel subject tree store,
    (engine.run suite fuel subject tree store).status = .settled →
      ∃ names, GoesThrough template (engine.exchanges suite subject tree store fuel) names ∧
        names.eraseDups = (imports tree).eraseDups

/-- Every module has its tree, with the imports that a graph gives for its name. -/
def ModuleStore.Agrees (store : ModuleStore τ) (imports : τ → List String)
    (graph : String → List String) : Prop :=
  ∀ id slot, store.slot? id = some slot →
    ∃ tree, slot.tree = some tree ∧ imports tree = graph slot.name

variable {template : String → τ} {store grown : ModuleStore τ} {said : List (Exchange τ)}
  {names : List String}

theorem GoesThrough.tree_eq {name : String} {tree : τ} {answer : Option ModuleId}
    (h : GoesThrough template said names) (hsaid : .offered name tree answer ∈ said) :
    tree = template name := by
  induction h with
  | nil => cases hsaid
  | emitted tag _ ih => exact ih ((List.mem_cons.mp hsaid).resolve_left (by simp))
  | asked other known _ ih => exact ih ((List.mem_cons.mp hsaid).resolve_left (by simp))
  | skipped other _ ih => exact ih ((List.mem_cons.mp hsaid).resolve_left (by simp))
  | offered other answer' _ ih =>
      rcases List.mem_cons.mp hsaid with heq | hsaid
      · cases heq
        rfl
      · exact ih hsaid

theorem GoesThrough.names_eq (h : GoesThrough template said names)
    (answers : store.Answers said grown) : grown.names = addNew store.names names := by
  induction h generalizing store with
  | nil =>
      cases answers
      rfl
  | emitted tag _ ih =>
      cases answers with
      | emitted _ rest => exact ih rest
  | asked name known _ ih =>
      cases answers with
      | asked _ rest => exact ih rest
  | skipped name _ ih =>
      generalize hknown : true = known at answers
      cases answers with
      | asked _ rest =>
          rw [addNew_cons, if_pos (ModuleStore.knows_iff.mp hknown.symm)]
          exact ih rest
  | offered name answer _ ih =>
      cases answers with
      | known _ hknown rest =>
          rw [addNew_cons, if_pos hknown]
          exact ih rest
      | registered hregister rest =>
          rw [addNew_cons, if_neg (ModuleStore.unknown_of_register hregister),
            ← ModuleStore.names_of_register hregister]
          exact ih rest

theorem ModuleStore.Agrees.grow {imports : τ → List String} {graph : String → List String}
    {id : ModuleId} (agrees : store.Agrees imports graph) (grows : store.Grows [id] said grown)
    (worked : ∀ slot, grown.slot? id = some slot →
      ∃ tree, slot.tree = some tree ∧ imports tree = graph slot.name)
    (offered : ∀ name tree other, .offered name tree (some other) ∈ said →
      imports tree = graph name) : grown.Agrees imports graph := by
  intro other slot hslot
  rcases grows.slot_cases hslot with here | hkept | ⟨name, tree, rfl, hsaid⟩
  · cases List.mem_singleton.mp here
    exact worked slot hslot
  · exact agrees other slot hkept
  · exact ⟨tree, rfl, offered name tree other hsaid⟩

namespace Engine

variable [DecidableEq ρ] {engine : Engine ρ} {suite : PassSuite ρ τ} {imports : τ → List String}
  {graph : String → List String} {fuel : Nat} {id : ModuleId} {attempt : Attempt ρ τ}

theorem Follows.imports_run (follows : engine.Follows suite imports template) (fuel : Nat)
    (subject : Subject) (tree : τ) (store : ModuleStore τ) :
    imports (engine.run suite fuel subject tree store).tree = imports tree := by
  refine run_induction (P := fun run => imports run.tree = imports tree) rfl (fun _ h => h) ?_ fuel
  intro run pass rest _ h
  rw [tree_execute, follows.kept]
  exact h

/-- An attempt that ends well adds the imports of its module to the names, and keeps what the trees
have to do with the graph. -/
theorem Follows.adds_imports (follows : engine.Follows suite imports template)
    (agrees : store.Agrees imports graph)
    (new : ∀ name ∉ store.names, graph name = imports (template name))
    (h : engine.attempt suite fuel id store = some attempt) {report : ModuleReport}
    (ok : attempt.verdict = .ok report) :
    report.subject.id = id ∧
      (∃ slot, store.slot? id = some slot ∧ slot.name = report.subject.name) ∧
      attempt.store.names = addNew store.names (graph report.subject.name) ∧
      attempt.store.Agrees imports graph := by
  have grows := grows_attempt h
  rcases attempt_spec h with
    ⟨_, rfl⟩ | ⟨_, _, rfl⟩ | ⟨name, tree, hslot, hverdict, hstore, _⟩
  · cases ok
  · cases ok
  · rw [ok] at hverdict
    obtain ⟨settled, rfl⟩ := Run.verdict?_eq_ok_iff.mp hverdict
    obtain ⟨names, through, hnames⟩ := follows.through fuel _ tree _ settled
    obtain ⟨_, htree, himports⟩ := agrees id _ hslot
    cases htree
    have himports : imports tree = graph name := himports
    have answers := answers_run engine suite ⟨id, name⟩ tree (store.putTree id none) fuel
    have hsaid : engine.exchangesAt suite fuel id store =
        engine.exchanges suite ⟨id, name⟩ tree (store.putTree id none) fuel := by
      unfold exchangesAt
      rw [hslot]
    refine ⟨rfl, ⟨_, hslot, rfl⟩, ?_, agrees.grow grows ?_ ?_⟩
    -- how often the passes go through the imports makes no difference to what is added
    · have hadded := through.names_eq answers
      rw [ModuleStore.names_putTree, ← addNew_eraseDups, hnames, addNew_eraseDups,
        himports] at hadded
      rw [hstore, ModuleStore.names_putTree]
      exact hadded
    · intro slot hworked
      rw [hstore, slot?_restored engine suite fuel ⟨id, name⟩ hslot] at hworked
      cases hworked
      exact ⟨_, rfl, (follows.imports_run fuel _ tree _).trans himports⟩
    · intro added planted other hoffered
      rw [hsaid] at hoffered
      have hnew := answers.fresh hoffered
      rw [ModuleStore.names_putTree] at hnew
      rw [through.tree_eq hoffered]
      exact (new added hnew).symm

end Engine

end PassEngine
