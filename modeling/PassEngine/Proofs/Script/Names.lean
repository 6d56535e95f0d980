import Mathlib.Data.Finset.Dedup
import PassEngine.Proofs.Attempt.Confinement
import PassEngine.Proofs.Script.Imports

/-!
# The names that scripted passes register

A scripted pass registers modules under names that its acts spell out and under names that the tree
at hand imports. No act changes the imports of a tree, and a new module gets its template, so that
all names are written in acts or in import lists.
-/

namespace PassEngine

namespace Script

/-! ## Names that are written somewhere -/

mutual

/-- The names that an act spells out and registers. -/
def written : Act → List String
  | .register name => [name]
  | .ifKnown _ yes no => writtenAll yes ++ writtenAll no
  | .ifNamed _ yes no => writtenAll yes ++ writtenAll no
  | .ifIndex _ yes no => writtenAll yes ++ writtenAll no
  | .countDown _ yes no => writtenAll yes ++ writtenAll no
  | .times _ body => writtenAll body
  | _ => []

/-- The names that acts spell out and register. -/
def writtenAll : List Act → List String
  | [] => []
  | act :: rest => written act ++ writtenAll rest

end

/-- The tree that a list of templates gives for a name. -/
def lookup (templates : List (String × ScriptTree)) (name : String) : ScriptTree :=
  ((templates.find? (·.1 == name)).map Prod.snd).getD {}

/-- The names of the modules of a program, and those written in acts and in import lists. -/
def mentioned (passes : List ScriptedPass) (templates : List (String × ScriptTree))
    (store : ModuleStore ScriptTree) : List String :=
  store.names ++ passes.flatMap (writtenAll ·.acts) ++
    (templates.map Prod.snd ++ store.trees.map Prod.snd).flatMap ScriptTree.imports

/-! ## Tasks -/

/-- Whatever a tree imports bears a name of a set. -/
def ImportsWithin (names : Finset String) (tree : ScriptTree) : Prop :=
  ∀ name ∈ tree.imports, name ∈ names

/-- On a tree with imports of a set, a task registers names of the set, with trees whose imports are
of the set, and leaves such a tree. -/
def Keeps {α : Type} (names : Finset String) (task : Task α) : Prop :=
  ∀ state : State, ImportsWithin names state.tree →
    (task.run.run state).Within (fun name tree => name ∈ names ∧ ImportsWithin names tree)
      fun result => ImportsWithin names result.2.tree

section Tasks

variable {α β : Type} {names : Finset String} {context : Context}

theorem Keeps.bind {task : Task α} {rest : α → Task β} (first : Keeps names task)
    (second : ∀ value, Keeps names (rest value)) : Keeps names (task >>= rest) := by
  intro state fits
  rw [run_bind, Dialogue.within_bind]
  refine (first state fits).mono ?_
  rintro ⟨verdict, after⟩ hafter
  cases verdict with
  | error fault => exact hafter
  | ok value => exact second value after hafter

theorem keeps_pure (value : α) : Keeps names (pure value) := fun _ fits => fits

theorem keeps_throw (fault : Fault) : Keeps names (throw fault : Task α) := fun _ fits => fits

theorem keeps_setCounter (counter : String) (value : Int) :
    Keeps names (edit (·.setCounter counter value)) := fun _ fits => fits

theorem keeps_ask (name : String) : Keeps names (say (.ask name .done)) := fun _ fits _ => fits

theorem keeps_register {name : String} (hname : name ∈ names)
    (template : ImportsWithin names (context.template name)) :
    Keeps names (register context name) := by
  intro state fits
  rw [run_register]
  exact ⟨⟨hname, template⟩, fun _ => fits⟩

theorem keeps_ite {p : Prop} [Decidable p] {yes no : Task α} (hyes : Keeps names yes)
    (hno : Keeps names no) : Keeps names (if p then yes else no) := by
  split
  · exact hyes
  · exact hno

theorem keeps_repeatTask {task : Task Unit} (h : Keeps names task) (count : Nat) :
    Keeps names (repeatTask task count) := by
  induction count with
  | zero => exact keeps_pure ()
  | succ count ih => exact h.bind fun _ => ih

theorem keeps_registerEach (templates : ∀ name, ImportsWithin names (context.template name))
    (onlyUnknown : Bool) {list : List String} (hlist : ∀ name ∈ list, name ∈ names) :
    Keeps names (registerEach context onlyUnknown list) := by
  induction list with
  | nil => exact keeps_pure ()
  | cons name rest ih =>
      have hregister : Keeps names (register context name) :=
        keeps_register (hlist name List.mem_cons_self) (templates name)
      have hrest := ih fun other hother => hlist other (List.mem_cons_of_mem name hother)
      cases onlyUnknown with
      | false => exact hregister.bind fun _ => hrest
      | true =>
          refine (keeps_ask name).bind fun known => ?_
          exact keeps_ite hrest (hregister.bind fun _ => hrest)

mutual

theorem keeps_perform (templates : ∀ name, ImportsWithin names (context.template name))
    (act : Act) (h : ∀ name ∈ written act, name ∈ names) :
    Keeps names (perform context act) := by
  cases act with
  | emit tag =>
      intro state fits
      exact fits
  | register name => exact keeps_register (h name (List.mem_singleton_self name)) (templates name)
  | registerImports onlyUnknown =>
      -- the imports are those of the tree as it is at this turn
      intro state fits
      exact keeps_registerEach templates onlyUnknown fits state fits
  | ifKnown name yes no =>
      obtain ⟨hyes, hno⟩ := List.forall_mem_append.mp h
      refine (keeps_ask name).bind fun known => ?_
      exact keeps_ite (keeps_performAll templates yes hyes) (keeps_performAll templates no hno)
  | ifNamed name yes no =>
      obtain ⟨hyes, hno⟩ := List.forall_mem_append.mp h
      exact keeps_ite (keeps_performAll templates yes hyes) (keeps_performAll templates no hno)
  | ifIndex index yes no =>
      obtain ⟨hyes, hno⟩ := List.forall_mem_append.mp h
      exact keeps_ite (keeps_performAll templates yes hyes) (keeps_performAll templates no hno)
  | countDown counter yes no =>
      obtain ⟨hyes, hno⟩ := List.forall_mem_append.mp h
      intro state fits
      let value := (state.tree.counter? counter).getD 0
      have hcounted : Keeps names (edit (·.setCounter counter (value - 1)) >>= fun _ =>
          performAll context yes) :=
        (keeps_setCounter counter _).bind fun _ => keeps_performAll templates yes hyes
      have hspent : Keeps names (edit (·.setCounter counter value) >>= fun _ =>
          performAll context no) :=
        (keeps_setCounter counter _).bind fun _ => keeps_performAll templates no hno
      have hchoice : Keeps names (if 0 < value then _ else _) := keeps_ite hcounted hspent
      exact hchoice state fits
  | set counter value => exact keeps_setCounter counter value
  | times count body => exact keeps_repeatTask (keeps_performAll templates body h) count
  | noteSelf =>
      intro state fits
      exact fits
  | fail message => exact keeps_throw _
  | throw fault => exact keeps_throw fault

theorem keeps_performAll (templates : ∀ name, ImportsWithin names (context.template name))
    (acts : List Act) (h : ∀ name ∈ writtenAll acts, name ∈ names) :
    Keeps names (performAll context acts) := by
  cases acts with
  | nil => exact keeps_pure ()
  | cons act rest =>
      obtain ⟨hact, hrest⟩ := List.forall_mem_append.mp h
      exact (keeps_perform templates act hact).bind fun _ => keeps_performAll templates rest hrest

end

end Tasks

/-! ## Suites -/

section Suites

variable {names : Finset String} {passes : List ScriptedPass} {template : String → ScriptTree}

theorem within_execute {context : Context}
    (templates : ∀ name, ImportsWithin names (context.template name)) {acts : List Act}
    (hacts : ∀ name ∈ writtenAll acts, name ∈ names) {tree : ScriptTree}
    (fits : ImportsWithin names tree) :
    (execute context acts tree).Within (fun name tree => name ∈ names ∧ ImportsWithin names tree)
      fun result => ImportsWithin names result.2 := by
  have hstart := keeps_performAll templates acts hacts { tree := tree.note context.pass } fits
  exact Dialogue.within_bind.mpr hstart

theorem keepsWithin_suite (templates : ∀ name, ImportsWithin names (template name))
    (hpasses : ∀ pass ∈ passes, ∀ name ∈ writtenAll pass.acts, name ∈ names) :
    (suite passes template).KeepsWithin names (ImportsWithin names) := by
  intro index subject tree fits
  unfold suite
  dsimp only
  cases hpass : passes[index]? with
  | none => exact fits
  | some pass =>
      exact within_execute templates (hpasses pass (List.mem_of_getElem? hpass)) fits

variable {templates : List (String × ScriptTree)} {store : ModuleStore ScriptTree}

/-- Scripted passes keep within the names that are mentioned. -/
theorem keepsWithin_mentioned :
    (suite passes (lookup templates)).KeepsWithin (mentioned passes templates store).toFinset
      (ImportsWithin (mentioned passes templates store).toFinset) := by
  refine keepsWithin_suite ?_ ?_
  · intro name imported himported
    unfold lookup at himported
    cases hfound : templates.find? (·.1 == name) with
    | none =>
        rw [hfound] at himported
        cases himported
    | some found =>
        rw [hfound] at himported
        have hfound := List.mem_map_of_mem (f := Prod.snd) (List.mem_of_find?_eq_some hfound)
        rw [List.mem_toFinset]
        refine List.mem_append_right _ (List.mem_flatMap.mpr ⟨found.2, ?_, himported⟩)
        exact List.mem_append_left _ hfound
  · intro pass hpass name hname
    rw [List.mem_toFinset]
    refine List.mem_append_left _ (List.mem_append_right _ ?_)
    exact List.mem_flatMap.mpr ⟨pass, hpass, hname⟩

theorem allFit_mentioned :
    store.AllFit (ImportsWithin (mentioned passes templates store).toFinset) := by
  intro id name tree held imported himported
  have htree : (name, tree) ∈ store.trees := by
    unfold ModuleStore.trees
    exact List.mem_filterMap.mpr ⟨_, List.mem_of_getElem? held, rfl⟩
  rw [List.mem_toFinset]
  refine List.mem_append_right _ (List.mem_flatMap.mpr ⟨tree, ?_, himported⟩)
  exact List.mem_append_right _ (List.mem_map_of_mem (f := Prod.snd) htree)

end Suites

end Script

end PassEngine
