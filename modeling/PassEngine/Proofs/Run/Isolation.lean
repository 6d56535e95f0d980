import PassEngine.Proofs.Attempt

/-!
# Runs do not see other trees

A pass asks for names and registers modules, but no tree is in its reach except the one that it is
given. Of a store a run therefore notices the names alone: over two stores of the same names it does
the same, adds the same modules behind them, and leaves the slots that are there as they are. In
particular it makes no difference to a run whether the tree of its module is lent out.
-/

namespace PassEngine

variable {ρ τ α : Type}

namespace ModuleStore

/-! ## Stores with the same modules added -/

/-- The store has become another one by registering modules with their trees. -/
def Adds (store : ModuleStore τ) (added : List (String × τ)) (grown : ModuleStore τ) : Prop :=
  grown.slots = store.slots ++ added.map fun (name, tree) => ⟨name, some tree⟩

/-- Two stores have become two others by registering the same modules. -/
def GrowAlike (first second grown other : ModuleStore τ) : Prop :=
  ∃ added, first.Adds added grown ∧ second.Adds added other

variable {first second store grown other : ModuleStore τ} {added : List (String × τ)}
  {name : String} {tree : τ} {id : ModuleId}

theorem eq_of_slots (h : first.slots = second.slots) : first = second := by
  cases first
  cases second
  cases h
  rfl

theorem ext_slot? (h : ∀ id, first.slot? id = second.slot? id) : first = second :=
  eq_of_slots (List.ext_getElem? fun index => h ⟨index⟩)

theorem names_of_adds (h : store.Adds added grown) :
    grown.names = store.names ++ added.map Prod.fst := by
  unfold names
  rw [h, List.map_append, List.map_map]
  rfl

theorem Adds.trans {later : List (String × τ)} (h : store.Adds added grown)
    (h' : grown.Adds later other) : store.Adds (added ++ later) other := by
  unfold Adds at h h' ⊢
  rw [h', h, List.map_append, List.append_assoc]

theorem Adds.unique (h : store.Adds added grown) (h' : store.Adds added other) : grown = other :=
  eq_of_slots (Eq.trans h (Eq.symm h'))

/-- A store that answers takes in what is registered in the exchanges, and nothing else. -/
theorem Answers.adds {said : List (Exchange τ)} (h : Answers store said grown) :
    store.Adds (said.filterMap Exchange.newcomer?) grown := by
  induction h with
  | nil => exact (List.append_nil _).symm
  | emitted tag _ ih => exact ih
  | asked name _ ih => exact ih
  | known tree _ _ ih => exact ih
  | @registered store middle _ _ name tree _ hregister _ ih =>
      have first : store.Adds [(name, tree)] middle := (slots_of_register hregister).2
      exact first.trans ih

theorem GrowAlike.refl (first second : ModuleStore τ) : GrowAlike first second first second :=
  ⟨[], (List.append_nil _).symm, (List.append_nil _).symm⟩

theorem GrowAlike.names_eq (h : GrowAlike first second grown other)
    (same : first.names = second.names) : grown.names = other.names := by
  obtain ⟨added, hgrown, hother⟩ := h
  rw [names_of_adds hgrown, names_of_adds hother, same]

theorem knows_congr (h : first.names = second.names) (name : String) :
    first.knows name = second.knows name := by
  rw [Bool.eq_iff_iff, knows_iff, knows_iff, h]

theorem size_congr (h : first.names = second.names) : first.size = second.size := by
  have hlength := congrArg List.length h
  simpa [names, size] using hlength

theorem adds_register (h : store.Adds added grown) {after : ModuleStore τ}
    (hregister : grown.register name tree = some (id, after)) :
    store.Adds (added ++ [(name, tree)]) after := by
  unfold Adds at h ⊢
  rw [(slots_of_register hregister).2, h, List.map_append, List.append_assoc]
  rfl

/-- A name is new to both stores or to neither, and a new module gets the same identity. -/
theorem register_alike (same : first.names = second.names)
    (alike : GrowAlike first second grown other) (name : String) (tree : τ) :
    (grown.register name tree = none ∧ other.register name tree = none) ∨
      ∃ id after after', grown.register name tree = some (id, after) ∧
        other.register name tree = some (id, after') ∧ GrowAlike first second after after' := by
  have hnames := alike.names_eq same
  cases h : grown.register name tree with
  | none =>
      refine Or.inl ⟨rfl, ?_⟩
      rw [register_eq_none_iff, ← hnames]
      exact register_eq_none_iff.mp h
  | some result =>
      obtain ⟨id, after⟩ := result
      cases h' : other.register name tree with
      | none =>
          rw [register_eq_none_iff, ← hnames] at h'
          exact absurd h' (unknown_of_register h)
      | some result =>
          obtain ⟨id', after'⟩ := result
          have hid : id' = id := by
            rw [(slots_of_register h).1, (slots_of_register h').1, size_congr hnames]
          subst hid
          obtain ⟨added, hgrown, hother⟩ := alike
          exact Or.inr ⟨id', after, after', rfl, rfl, added ++ [(name, tree)],
            adds_register hgrown h, adds_register hother h'⟩

/-! ## Slots that are filled -/

theorem putTree_putTree (store : ModuleStore τ) (id : ModuleId) (old new : Option τ) :
    (store.putTree id old).putTree id new = store.putTree id new := by
  apply eq_of_slots
  unfold putTree
  dsimp only
  rw [List.modify_modify_eq]
  rfl

theorem adds_putTree (h : store.Adds added grown) (registered : id.index < store.size)
    (tree : Option τ) : (store.putTree id tree).Adds added (grown.putTree id tree) := by
  unfold Adds putTree at *
  unfold size at registered
  dsimp only
  apply List.ext_getElem?
  intro index
  rw [h, List.getElem?_modify]
  rcases Nat.lt_or_ge index store.slots.length with hlt | hge
  · rw [List.getElem?_append_left hlt, List.getElem?_append_left (by rwa [List.length_modify]),
      List.getElem?_modify]
  · have aside : id.index ≠ index := by omega
    rw [List.getElem?_append_right hge,
      List.getElem?_append_right (by rwa [List.length_modify]), List.length_modify]
    simp [aside]

end ModuleStore

/-! ## Conversations -/

/-- The scene with another store. -/
def Scene.withStore (scene : Scene τ) (store : ModuleStore τ) : Scene τ := { scene with store }

/-- The run with another store. -/
def Run.withStore (run : Run ρ τ) (store : ModuleStore τ) : Run ρ τ := { run with store }

section

variable {first second other : ModuleStore τ}

theorem Dialogue.perform_alike (same : first.names = second.names) (dialogue : Dialogue τ α)
    {scene : Scene τ} (alike : ModuleStore.GrowAlike first second scene.store other) :
    ∃ grown, dialogue.perform (scene.withStore other) =
        ((dialogue.perform scene).1, (dialogue.perform scene).2.withStore grown) ∧
      ModuleStore.GrowAlike first second (dialogue.perform scene).2.store grown := by
  induction dialogue generalizing scene other with
  | done result => exact ⟨other, rfl, alike⟩
  | emit tag next ih =>
      have emitted : ModuleStore.GrowAlike first second (scene.emit tag).store other := alike
      exact ih () emitted
  | ask name next ih =>
      have known : other.knows name = scene.store.knows name :=
        ModuleStore.knows_congr (alike.names_eq same).symm name
      have asked : (ask name next).perform (scene.withStore other) =
          (next (other.knows name)).perform (scene.withStore other) := rfl
      rw [asked, known]
      exact ih (scene.store.knows name) alike
  | register name tree next ih =>
      have registered : ∃ grown, (scene.withStore other).register name tree =
            ((scene.register name tree).1, (scene.register name tree).2.withStore grown) ∧
          ModuleStore.GrowAlike first second (scene.register name tree).2.store grown := by
        unfold Scene.register Scene.withStore
        rcases ModuleStore.register_alike same alike name tree with
          ⟨hscene, hother⟩ | ⟨id, after, after', hscene, hother, grew⟩
        · rw [hscene, hother]
          exact ⟨other, rfl, alike⟩
        · rw [hscene, hother]
          exact ⟨after', rfl, grew⟩
      obtain ⟨grown, hregister, grew⟩ := registered
      unfold perform
      rw [hregister]
      exact ih (scene.register name tree).1 grew

namespace Engine

/-! ## Runs -/

theorem execute_alike (same : first.names = second.names) (suite : PassSuite ρ τ)
    (subject : Subject) (pass : ρ) {run : Run ρ τ}
    (alike : ModuleStore.GrowAlike first second run.store other) :
    ∃ grown, execute suite subject pass (run.withStore other) =
        (execute suite subject pass run).withStore grown ∧
      ModuleStore.GrowAlike first second (execute suite subject pass run).store grown := by
  have scene : ModuleStore.GrowAlike first second
      ({ tags := run.tags, store := run.store } : Scene τ).store other := alike
  obtain ⟨grown, hperform, grew⟩ :=
    (suite.apply pass subject run.tree).perform_alike same scene
  refine ⟨grown, ?_, grew⟩
  unfold Scene.withStore at hperform
  unfold execute Run.withStore
  dsimp only at hperform ⊢
  rw [hperform]

variable [DecidableEq ρ]

/-- Runs over stores with the same names go side by side, and their stores grow alike. -/
theorem coupling_alike (engine : Engine ρ) (suite : PassSuite ρ τ) (subject : Subject)
    (same : first.names = second.names) :
    Coupling engine engine suite suite subject fun run other => ∃ grown,
      other = run.withStore grown ∧ ModuleStore.GrowAlike first second run.store grown where
  agenda := by
    rintro run _ ⟨grown, rfl, _⟩
    rfl
  status := by
    rintro run _ ⟨grown, rfl, _⟩
    rfl
  heard := by
    rintro run _ ⟨grown, rfl, _⟩
    rfl
  executed := by
    rintro pass rest run _ ⟨grown, rfl, grew⟩
    have taken : ModuleStore.GrowAlike first second { run with agenda := rest }.store grown := grew
    exact execute_alike same suite subject pass taken
  refreshed := by
    rintro run _ ⟨grown, rfl, grew⟩
    exact ⟨grown, rfl, grew⟩

/-- Two runs over stores with the same names differ in their stores alone, and these grow alike. -/
theorem run_alike (engine : Engine ρ) (suite : PassSuite ρ τ) (subject : Subject) (tree : τ)
    (same : first.names = second.names) (fuel : Nat) :
    ∃ grown, engine.run suite fuel subject tree second =
        (engine.run suite fuel subject tree first).withStore grown ∧
      ModuleStore.GrowAlike first second (engine.run suite fuel subject tree first).store grown := by
  have start : engine.start tree second = (engine.start tree first).withStore second := rfl
  exact (coupling_alike engine suite subject same).related_run
    ⟨second, start, ModuleStore.GrowAlike.refl first second⟩ fuel

/-! ## Attempts -/

variable {store : ModuleStore τ} {id : ModuleId} {name : String} {tree : τ}

theorem putTree_eq_of_adds {added : List (String × τ)} {grown : ModuleStore τ}
    (registered : id.index < store.size) (h : store.Adds added grown)
    (hlent : (store.putTree id none).Adds added other) (held : Option τ) :
    other.putTree id held = grown.putTree id held := by
  apply ModuleStore.eq_of_slots
  have lent : id.index < (store.putTree id none).size := by rwa [ModuleStore.size_putTree]
  rw [ModuleStore.adds_putTree h registered, ModuleStore.adds_putTree hlent lent,
    ModuleStore.putTree_putTree]

/-- An attempt on a module whose tree is there comes to what a run on a copy of the tree comes to,
and leaves in the slot what the run makes of the copy. -/
theorem attempt_eq_of_copy (engine : Engine ρ) (suite : PassSuite ρ τ) (fuel : Nat)
    (held : store.slot? id = some ⟨name, some tree⟩) :
    let run := engine.run suite fuel ⟨id, name⟩ tree store
    engine.attempt suite fuel id store = (run.verdict? suite ⟨id, name⟩).map fun verdict =>
      ⟨verdict, run.store.putTree id (some run.tree), some (run.transcript ⟨id, name⟩)⟩ := by
  intro run
  have registered := ModuleStore.lt_size_iff.mpr ⟨_, held⟩
  obtain ⟨grown, hlent, added, hadded, hgrown⟩ := run_alike engine suite ⟨id, name⟩ tree
    (store.names_putTree id none).symm fuel
  obtain ⟨slot, hslot, _⟩ := slot?_run engine suite fuel ⟨id, name⟩ held
  have hconclude : engine.attempt suite fuel id store =
      conclude suite ⟨id, name⟩ (run.withStore grown) := by
    rw [attempt_eq, held]
    dsimp only
    rw [hlent]
  rw [hlent] at hslot
  rw [hconclude, conclude_eq hslot, ← putTree_eq_of_adds registered hadded hgrown]
  rfl

/-- Runs over stores with the same names do the same, whatever trees the stores hold, and add the
same modules behind the slots that are there. Hence an attempt on a module, whose tree is lent out
meanwhile, does what a run on a copy of the tree does. -/
theorem trees_isolated (engine : Engine ρ) (suite : PassSuite ρ τ) (subject : Subject) (tree : τ)
    (same : first.names = second.names) :
    (∀ fuel,
      let run := engine.run suite fuel subject tree first
      let twin := engine.run suite fuel subject tree second
      twin.verdict? suite subject = run.verdict? suite subject ∧ twin.tree = run.tree ∧
        twin.events = run.events ∧
        ∃ added, first.Adds added run.store ∧ second.Adds added twin.store) ∧
    ∀ fuel id name copy, first.slot? id = some ⟨name, some copy⟩ →
      let run := engine.run suite fuel ⟨id, name⟩ copy first
      engine.attempt suite fuel id first = ((run.verdict? suite ⟨id, name⟩).map fun verdict =>
          ⟨verdict, run.store.putTree id (some run.tree), some (run.transcript ⟨id, name⟩)⟩) ∧
        ∃ added, first.Adds added run.store ∧
          (first.putTree id (some run.tree)).Adds added (run.store.putTree id (some run.tree)) := by
  refine ⟨?_, ?_⟩
  · intro fuel run twin
    obtain ⟨grown, htwin, grew⟩ := run_alike engine suite subject tree same fuel
    have htwin : twin = run.withStore grown := htwin
    rw [htwin]
    exact ⟨rfl, rfl, rfl, grew⟩
  · intro fuel id name copy held run
    refine ⟨attempt_eq_of_copy engine suite fuel held, ?_⟩
    obtain ⟨_, _, added, hadded, _⟩ := run_alike engine suite ⟨id, name⟩ copy rfl fuel
    exact ⟨added, hadded,
      ModuleStore.adds_putTree hadded (ModuleStore.lt_size_iff.mpr ⟨_, held⟩) _⟩

end Engine

end

/-! ## A pass that asks -/

namespace Asking

/-- The pass takes the first name of a tree off it and registers it, unless it is known; then it
gives up. -/
def suite : PassSuite Unit (List String) where
  name _ := "ask"
  apply _ subject tree :=
    match tree with
    | [] => .done (.ok (), [])
    | name :: rest => .ask name fun known =>
        if known then .done (.error (.passFailed "ask" subject.name name), tree)
        else .register name rest fun _ => .emit newCode fun _ => .done (.ok (), rest)

theorem wellFormed_rules : ∀ rule ∈ [Rule.ofPredicate "new_code" [()]], rule.WellFormed :=
  RuleTable.wellFormed_singleton ⟨by decide, by decide⟩

def engine : Engine Unit where
  table := ⟨[.ofPredicate "new_code" [()]], wellFormed_rules⟩
  settings := Settings.default
  valid := Settings.valid_default

theorem main_fresh : "main" ∉ (ModuleStore.singleton "util" ([] : List String)).names := by decide

def store : ModuleStore (List String) :=
  (ModuleStore.singleton "util" []).append "main" ["new", "util"] main_fresh

/-- The store with another tree in the first slot, and the second tree lent out. -/
def other : ModuleStore (List String) :=
  (store.putTree ⟨0⟩ (some ["secret"])).putTree ⟨1⟩ none

end Asking

namespace Engine

/-- Over both stores the pass registers one name and gives up at the next one, and so does an attempt
on the module that holds the tree. -/
theorem trees_isolated_asking :
    let run := Asking.engine.run Asking.suite 2 ⟨⟨1⟩, "main"⟩ ["new", "util"] Asking.store
    let twin := Asking.engine.run Asking.suite 2 ⟨⟨1⟩, "main"⟩ ["new", "util"] Asking.other
    Asking.store.names = Asking.other.names ∧
      run.verdict? Asking.suite ⟨⟨1⟩, "main"⟩ =
        some (.error (.passFailed "ask" "main" "util")) ∧
      twin.verdict? Asking.suite ⟨⟨1⟩, "main"⟩ = run.verdict? Asking.suite ⟨⟨1⟩, "main"⟩ ∧
      (∃ added, Asking.store.Adds added run.store ∧ Asking.other.Adds added twin.store) ∧
      Asking.store.slot? ⟨1⟩ = some ⟨"main", some ["new", "util"]⟩ ∧
      Asking.engine.attempt Asking.suite 2 ⟨1⟩ Asking.store =
        some ⟨.error (.passFailed "ask" "main" "util"), run.store.putTree ⟨1⟩ (some ["util"]),
          some (run.transcript ⟨⟨1⟩, "main"⟩)⟩ := by
  intro run twin
  have same : Asking.store.names = Asking.other.names := rfl
  have held : Asking.store.slot? ⟨1⟩ = some ⟨"main", some ["new", "util"]⟩ := rfl
  have failed : run.verdict? Asking.suite ⟨⟨1⟩, "main"⟩ =
      some (.error (.passFailed "ask" "main" "util")) := rfl
  have edited : run.tree = ["util"] := rfl
  obtain ⟨alike, copied⟩ := trees_isolated Asking.engine Asking.suite ⟨⟨1⟩, "main"⟩
    ["new", "util"] same
  obtain ⟨hverdict, _, _, added⟩ := alike 2
  obtain ⟨hattempt, _⟩ := copied 2 ⟨1⟩ "main" ["new", "util"] held
  refine ⟨same, failed, hverdict, added, held, ?_⟩
  rw [hattempt, failed, edited]
  rfl

end Engine

end PassEngine
