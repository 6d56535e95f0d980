import PassEngine.Script
import PassEngine.Proofs.Attempt.Imports

/-!
# A scripted pass that follows imports

A pass whose only act is to register the imports of its tree emits nothing. If it is what new code
makes eligible, a run executes it once, and so goes through the imports once.
-/

namespace PassEngine

namespace Script

variable {context : Context}

/-! ## What the act says and asks -/

theorem run_bind {α β : Type} (task : Task α) (rest : α → Task β) (state : State) :
    (task >>= rest).run.run state =
      (task.run.run state).bind fun result =>
        match result with
        | (.ok value, state) => (rest value).run.run state
        | (.error fault, state) => .done (.error fault, state) := by
  have hrest : ∀ result : Except Fault α × State,
      (ExceptT.bindCont rest result.1).run result.2 =
        match result with
        | (.ok value, state) => (rest value).run.run state
        | (.error fault, state) => .done (.error fault, state) := by
    intro result
    obtain ⟨verdict, state⟩ := result
    cases verdict with
    | ok value => rfl
    | error fault => rfl
  exact congrArg (task.run.run state).bind (funext hrest)

/-- The state with a note of what came of a registration. -/
def noted (state : State) (name : String) (answer : Option ModuleId) : State :=
  { state with
    tree := state.tree.note
      (match answer with
      | some id => "register " ++ name ++ "=" ++ id.text
      | none => "register " ++ name ++ "=none") }

theorem run_register (name : String) (state : State) :
    (register context name).run.run state =
      .register name (context.template name) fun answer =>
        .done (.ok (), noted state name answer) := by
  have hnote : ∀ answer, (match answer with
      | some id => edit (·.note ("register " ++ name ++ "=" ++ ModuleId.text id))
      | none => edit (·.note ("register " ++ name ++ "=none")) : Task Unit).run.run state =
      .done (.ok (), noted state name answer) := by
    intro answer
    cases answer with
    | none => rfl
    | some id => rfl
  exact congrArg (Dialogue.register name (context.template name)) (funext hnote)

theorem run_registerEach_cons (name : String) (rest : List String) (state : State) :
    (registerEach context false (name :: rest)).run.run state =
      .register name (context.template name) fun answer =>
        (registerEach context false rest).run.run (noted state name answer) := by
  have h : (registerEach context false (name :: rest)).run.run state =
      (register context name >>= fun _ => registerEach context false rest).run.run state := rfl
  rw [h, run_bind, run_register]
  rfl

theorem run_registerEach_cons_unknown (name : String) (rest : List String) (state : State) :
    (registerEach context true (name :: rest)).run.run state =
      .ask name fun known =>
        if known then (registerEach context true rest).run.run state
        else .register name (context.template name) fun answer =>
          (registerEach context true rest).run.run (noted state name answer) := by
  have h : registerEach context true (name :: rest) =
      (say (.ask name .done) >>= fun known =>
        if known then registerEach context true rest
        else register context name >>= fun _ => registerEach context true rest) := rfl
  have hsay : (say (.ask name .done)).run.run state =
      .ask name fun known => .done (.ok known, state) := rfl
  rw [h, run_bind, hsay]
  apply congrArg (Dialogue.ask name)
  funext known
  cases known with
  | true => rfl
  | false =>
      have hregister := run_bind (register context name)
        (fun _ => registerEach context true rest) state
      rw [run_register] at hregister
      exact hregister

/-! ## Conversations that go through imports -/

/-- A conversation that goes through names, tells of no change, and ends well with a tree that has
the given imports. -/
structure Imports (template : String → ScriptTree) (imports names : List String)
    (dialogue : Dialogue ScriptTree (Except Fault Unit × State)) : Prop where
  through : ∀ scene, GoesThrough template (dialogue.exchanges scene) names
  tags : ∀ scene, (dialogue.perform scene).2.tags = scene.tags
  ends : ∀ scene, ∃ state, (dialogue.perform scene).1 = (.ok (), state) ∧
    state.tree.imports = imports

section Conversations

variable {template : String → ScriptTree} {imports names : List String}

theorem tags_register (scene : Scene ScriptTree) (name : String) (tree : ScriptTree) :
    (scene.register name tree).2.tags = scene.tags := by
  unfold Scene.register
  split
  · rfl
  · rfl

theorem Imports.done {state : State} (h : state.tree.imports = imports) :
    Imports template imports [] (.done (.ok (), state)) where
  through := fun _ => .nil
  tags := fun _ => rfl
  ends := fun _ => ⟨state, rfl, h⟩

theorem Imports.register {name : String}
    {next : Option ModuleId → Dialogue ScriptTree (Except Fault Unit × State)}
    (h : ∀ answer, Imports template imports names (next answer)) :
    Imports template imports (name :: names) (.register name (template name) next) where
  through := fun scene => .offered name _ ((h _).through (scene.register name (template name)).2)
  tags := fun scene =>
    ((h _).tags (scene.register name (template name)).2).trans
      (tags_register scene name (template name))
  ends := fun scene => (h _).ends (scene.register name (template name)).2

theorem Imports.registerUnknown {name : String}
    {skip register : Dialogue ScriptTree (Except Fault Unit × State)}
    (hskip : Imports template imports names skip)
    (hregister : Imports template imports (name :: names) register) :
    Imports template imports (name :: names)
      (.ask name fun known => if known then skip else register) where
  through := by
    intro scene
    unfold Dialogue.exchanges
    cases scene.store.knows name with
    | true => exact .skipped name (hskip.through scene)
    | false => exact .asked name false (hregister.through scene)
  tags := by
    intro scene
    unfold Dialogue.perform
    cases scene.store.knows name with
    | true => exact hskip.tags scene
    | false => exact hregister.tags scene
  ends := by
    intro scene
    unfold Dialogue.perform
    cases scene.store.knows name with
    | true => exact hskip.ends scene
    | false => exact hregister.ends scene

theorem imports_registerEach (context : Context) (onlyUnknown : Bool) (names : List String)
    (state : State) (h : state.tree.imports = imports) :
    Imports context.template imports names
      ((registerEach context onlyUnknown names).run.run state) := by
  induction names generalizing state with
  | nil => exact .done h
  | cons name rest ih =>
      have hregister : Imports context.template imports (name :: rest)
          (.register name (context.template name) fun answer =>
            (registerEach context onlyUnknown rest).run.run (noted state name answer)) :=
        .register fun answer => ih (noted state name answer) h
      cases onlyUnknown with
      | false =>
          rw [run_registerEach_cons]
          exact hregister
      | true =>
          rw [run_registerEach_cons_unknown]
          exact .registerUnknown (ih state h) hregister

end Conversations

/-! ## The pass -/

/-- The suite whose only pass registers imports. -/
def importing (onlyUnknown : Bool) (template : String → ScriptTree) : PassSuite Nat ScriptTree :=
  suite [⟨"import", "Registers what a tree imports", [.registerImports onlyUnknown]⟩] template

theorem execute_registerImports (onlyUnknown : Bool) (tree : ScriptTree) :
    execute context [.registerImports onlyUnknown] tree =
      ((registerEach context onlyUnknown tree.imports).run.run
        { tree := tree.note context.pass }).bind fun result =>
          .done (result.1, result.2.tree) := by
  have hperform : (performAll context [.registerImports onlyUnknown]).run.run
      { tree := tree.note context.pass } =
      (registerEach context onlyUnknown tree.imports).run.run
        { tree := tree.note context.pass } := by
    have h : performAll context [.registerImports onlyUnknown] =
        (perform context (.registerImports onlyUnknown) >>= fun _ => pure ()) := rfl
    rw [h, run_bind]
    -- nothing follows the only act
    refine (congrArg (Dialogue.bind _) (funext ?_)).trans (Dialogue.bind_done _)
    intro result
    obtain ⟨verdict, state⟩ := result
    cases verdict with
    | ok value => rfl
    | error fault => rfl
  have h : execute context [.registerImports onlyUnknown] tree =
      ((performAll context [.registerImports onlyUnknown]).run.run
        { tree := tree.note context.pass }).bind fun result =>
          .done (result.1, result.2.tree) := rfl
  rw [h, hperform]

theorem importing_spec (onlyUnknown : Bool) (template : String → ScriptTree) (subject : Subject)
    (tree : ScriptTree) (scene : Scene ScriptTree) :
    let dialogue := (importing onlyUnknown template).apply 0 subject tree
    GoesThrough template (dialogue.exchanges scene) tree.imports ∧
      (dialogue.perform scene).2.tags = scene.tags ∧
      (dialogue.perform scene).1.1 = .ok () ∧
      (dialogue.perform scene).1.2.imports = tree.imports := by
  intro dialogue
  let context : Context := { pass := "import", subject, template }
  have imports : Imports template tree.imports tree.imports
      ((registerEach context onlyUnknown tree.imports).run.run
        { tree := tree.note context.pass }) :=
    imports_registerEach context onlyUnknown tree.imports { tree := tree.note context.pass } rfl
  have hdialogue : dialogue = ((registerEach context onlyUnknown tree.imports).run.run
      { tree := tree.note context.pass }).bind fun result => .done (result.1, result.2.tree) :=
    execute_registerImports onlyUnknown tree
  obtain ⟨state, hresult, himports⟩ := imports.ends scene
  rw [hdialogue, Dialogue.exchanges_bind, Dialogue.perform_bind, hresult]
  refine ⟨?_, imports.tags scene, rfl, himports⟩
  rw [Dialogue.exchanges, List.append_nil]
  exact imports.through scene

section Run

variable {engine : Engine Nat}
  (first : engine.table.eligible (TagSet.empty.insert newCode) engine.settings = [0])
  (onlyUnknown : Bool) (template : String → ScriptTree) (subject : Subject) (tree : ScriptTree)
  (store : ModuleStore ScriptTree)

include first

theorem start_importing :
    (engine.run (importing onlyUnknown template) 0 subject tree store).status = .running ∧
      (engine.run (importing onlyUnknown template) 0 subject tree store).agenda.toList = [0] := by
  have hagenda : (engine.start tree store : Run Nat ScriptTree).agenda.toList = [0] := by
    have h : (engine.start tree store : Run Nat ScriptTree).agenda =
        (Agenda.empty.pushAll
          (engine.table.eligible (TagSet.empty.insert newCode) engine.settings)).2 := rfl
    rw [h, first]
    rfl
  refine ⟨Engine.running_refresh_iff.mpr ⟨?_, ?_⟩, hagenda⟩
  · intro hidle
    cases hagenda.symm.trans hidle
  · intro limit hlimit
    have hpositive : limit ≠ 0 := by
      intro hzero
      rw [hzero] at hlimit
      exact engine.valid hlimit
    exact Nat.pos_of_ne_zero hpositive

theorem run_importing :
    (engine.run (importing onlyUnknown template) 1 subject tree store).status = .settled ∧
      engine.exchanges (importing onlyUnknown template) subject tree store 1 =
        ((importing onlyUnknown template).apply 0 subject tree).exchanges
          { tags := .empty, store } := by
  obtain ⟨running, hagenda⟩ := start_importing first onlyUnknown template subject tree store
  obtain ⟨pass, rest, popped⟩ :=
    Agenda.exists_pop (Engine.pending_of_running 0 running)
  have hpopped := Agenda.toList_of_pop? popped
  rw [hagenda] at hpopped
  obtain ⟨rfl, hrest⟩ := List.cons.inj hpopped
  obtain ⟨_, silent, ok, _⟩ :=
    importing_spec onlyUnknown template subject tree { tags := .empty, store }
  constructor
  · have going := (Engine.running_execute_iff (importing onlyUnknown template) subject 0
      { (engine.run (importing onlyUnknown template) 0 subject tree store) with
        agenda := rest }).mpr ok
    -- the pass is silent, so that the refresh behind it finds nothing eligible
    rw [Engine.run_succ_of_running running, Engine.step_eq_refresh popped going (Or.inl hrest.symm),
      Engine.settled_refresh_iff, Engine.agenda_refresh_of_silent silent]
    exact hrest.symm
  · rw [Engine.exchanges_of_running running]
    unfold Engine.heard
    rw [popped]
    rfl

end Run

/-- An engine for which new code makes the pass eligible, and nothing else, follows imports. -/
theorem follows_imports {engine : Engine Nat}
    (first : engine.table.eligible (TagSet.empty.insert newCode) engine.settings = [0])
    (onlyUnknown : Bool) (template : String → ScriptTree) :
    engine.Follows (importing onlyUnknown template) ScriptTree.imports template where
  kept := by
    intro pass subject tree scene
    cases pass with
    | zero => exact (importing_spec onlyUnknown template subject tree scene).2.2.2
    | succ pass => rfl
  through := by
    intro fuel subject tree store settled
    cases fuel with
    | zero =>
        rw [(start_importing first onlyUnknown template subject tree store).1] at settled
        cases settled
    | succ fuel =>
        obtain ⟨ended, hsaid⟩ := run_importing first onlyUnknown template subject tree store
        have stopped : (engine.run (importing onlyUnknown template) 1 subject tree store).status ≠
            .running := by
          rw [ended]
          simp
        refine ⟨tree.imports, ?_, rfl⟩
        rw [Engine.exchanges_of_stopped (Nat.le_add_left 1 fuel) stopped, hsaid]
        exact (importing_spec onlyUnknown template subject tree _).1

end Script

end PassEngine
