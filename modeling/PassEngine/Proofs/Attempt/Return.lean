import PassEngine.Proofs.Run.Isolation

/-!
# What an attempt gives back

A module whose tree is lent out stays registered, whatever the passes do, so that its tree can
always be put back and nothing stands between the caller and what the run came to. Each pass passes
on the tree as it leaves it, also when it gives up, and the tree of the last one is put back.
-/

namespace PassEngine

variable {ρ τ : Type}

namespace ModuleStore

variable {store after : ModuleStore τ} {newcomers : List (String × τ)} {id : ModuleId}
  {name : String}

/-- Afterwards a module has another slot, and newcomers with new names stand behind the modules that
were there; nothing else is different. -/
structure Succeeds (after store : ModuleStore τ) (id : ModuleId) (slot : Slot τ)
    (newcomers : List (String × τ)) : Prop where
  slot : after.slot? id = some slot
  others : ∀ other : ModuleId, other.index < store.size → other ≠ id →
    after.slot? other = store.slot? other
  appended : after.slots.drop store.size = newcomers.map fun (name, tree) => ⟨name, some tree⟩
  fresh : (store.names ++ newcomers.map Prod.fst).Nodup

theorem succeeds_of_adds {held : Option τ} {tree : τ}
    (present : store.slot? id = some ⟨name, held⟩)
    (h : (store.putTree id (some tree)).Adds newcomers after) :
    after.Succeeds store id ⟨name, some tree⟩ newcomers := by
  have length : (store.putTree id (some tree)).slots.length = store.size :=
    store.size_putTree id (some tree)
  have old : ∀ other : ModuleId, other.index < store.size →
      after.slot? other = (store.putTree id (some tree)).slot? other := by
    intro other hlt
    unfold slot?
    rw [h, List.getElem?_append_left (by rwa [length])]
  have names := names_of_adds h
  rw [names_putTree] at names
  exact
    { slot := by
        rw [old id (lt_size_iff.mpr ⟨_, present⟩), slot?_putTree, if_pos rfl, present]
        rfl
      others := by
        intro other hlt aside
        rw [old other hlt, slot?_putTree, if_neg aside.symm]
      appended := by
        rw [h, ← length, List.drop_left]
      fresh := by
        rw [← names]
        exact after.names_nodup }

end ModuleStore

namespace Engine

/-! ## How a run ends -/

/-- What the next pass of a run comes to: whether it gives up, and the tree that it leaves. -/
def turn (suite : PassSuite ρ τ) (subject : Subject) (run : Run ρ τ) :
    Option (Except Fault Unit × τ) :=
  run.agenda.pop?.map fun (pass, _) =>
    ((suite.apply pass subject run.tree).perform { tags := run.tags, store := run.store }).1

variable [DecidableEq ρ] {engine : Engine ρ} {suite : PassSuite ρ τ} {subject : Subject}
  {run : Run ρ τ}

theorem tree_step (pending : run.agenda.toList ≠ []) :
    (turn suite subject run).map Prod.snd = some (engine.step suite subject run).tree := by
  refine step_induction
    (P := fun after => (turn suite subject run).map Prod.snd = some after.tree) pending ?_ ?_
  · intro pass rest popped
    rw [turn, popped, tree_execute]
    rfl
  · intro executed h
    exact h

/-- A run fails with the fault of the pass that gives up. -/
theorem turn_of_failed {fault : Fault} (pending : run.agenda.toList ≠ [])
    (failed : (engine.step suite subject run).status = .failed fault) :
    turn suite subject run = some (.error fault, (engine.step suite subject run).tree) := by
  obtain ⟨pass, rest, popped, ⟨_, hstep⟩ | ⟨going, _, _, hstep⟩ | ⟨_, _, hstep⟩⟩ :=
    step_cases suite subject run engine pending
  · rw [hstep] at failed ⊢
    rw [failed_execute_iff] at failed
    rw [turn, popped, tree_execute, ← failed]
    rfl
  · rw [hstep, going] at failed
    cases failed
  · rw [hstep] at failed
    exact absurd failed not_failed_refresh

variable {tree : τ} {store : ModuleStore τ} {fuel : Nat}

theorem turn_of_failed_run {fault : Fault}
    (failed : (engine.run suite fuel subject tree store).status = .failed fault) :
    ∃ k < fuel, (engine.run suite k subject tree store).status = .running ∧
      turn suite subject (engine.run suite k subject tree store) =
        some (.error fault, (engine.run suite fuel subject tree store).tree) := by
  induction fuel with
  | zero => exact absurd failed not_failed_refresh
  | succ fuel ih =>
      by_cases running : (engine.run suite fuel subject tree store).status = .running
      · rw [run_succ_of_running running] at failed ⊢
        exact ⟨fuel, Nat.lt_succ_self fuel, running,
          turn_of_failed (pending_of_running fuel running) failed⟩
      · rw [run_of_stopped (Nat.le_succ fuel) running] at failed ⊢
        obtain ⟨k, hk, rest⟩ := ih failed
        exact ⟨k, Nat.lt_succ_of_lt hk, rest⟩

/-- It is the limit of the settings that ends a run. -/
theorem capped_run {limit : Nat}
    (capped : (engine.run suite fuel subject tree store).status = .capped limit) :
    engine.settings.refreshLimit = some limit ∧
      limit < (engine.run suite fuel subject tree store).refreshes ∧
      (engine.run suite fuel subject tree store).agenda.toList ≠ [] := by
  refine run_induction (P := fun run => run.status = .capped limit →
    engine.settings.refreshLimit = some limit ∧ limit < run.refreshes ∧ run.agenda.toList ≠ [])
    ?_ ?_ ?_ fuel capped
  · intro capped
    cases capped
  · intro run _ capped
    obtain ⟨pending, limited, beyond⟩ := capped_refresh_iff.mp capped
    exact ⟨limited, beyond, pending⟩
  · intro run pass rest _ _ capped
    exact absurd capped (not_capped_execute suite subject pass _)

/-- How a run comes to a verdict in so many steps: it settled and is reported, a pass gave up and
its fault is passed on, or the limit was exceeded with something pending. -/
inductive Concludes (engine : Engine ρ) (suite : PassSuite ρ τ) (subject : Subject)
    (moment : Nat → Run ρ τ) (fuel : Nat) : Except Fault ModuleReport → Prop where
  | settled : (moment fuel).status = .settled →
      Concludes engine suite subject moment fuel (.ok ((moment fuel).report suite subject))
  | gaveUp {k : Nat} {fault : Fault} : k < fuel → (moment k).status = .running →
      turn suite subject (moment k) = some (.error fault, (moment fuel).tree) →
      Concludes engine suite subject moment fuel (.error fault)
  | capped {limit : Nat} : engine.settings.refreshLimit = some limit →
      limit < (moment fuel).refreshes → (moment fuel).agenda.toList ≠ [] →
      Concludes engine suite subject moment fuel (.error (.refreshLimit subject.name limit))

theorem concludes_run {verdict : Except Fault ModuleReport}
    (h : (engine.run suite fuel subject tree store).verdict? suite subject = some verdict) :
    Concludes engine suite subject (engine.run suite · subject tree store) fuel verdict := by
  unfold Run.verdict? at h
  cases hstatus : (engine.run suite fuel subject tree store).status with
  | running =>
      rw [hstatus] at h
      cases h
  | settled =>
      rw [hstatus] at h
      cases h
      exact .settled hstatus
  | failed fault =>
      rw [hstatus] at h
      cases h
      obtain ⟨k, hk, running, hturn⟩ := turn_of_failed_run hstatus
      exact .gaveUp hk running hturn
  | capped limit =>
      rw [hstatus] at h
      cases h
      obtain ⟨limited, beyond, pending⟩ := capped_run hstatus
      exact .capped limited beyond pending

/-! ## Attempts -/

/-- An attempt on a module that is unknown or whose tree is lent out is refused, and the store stays
as it is. Otherwise the tree can be put back whatever the passes did: the attempt comes to what the
run comes to, the module has the tree that the last pass left, also if that pass gave up, no other
module is different, and behind them stand the modules that were registered, each with a new name
and with its tree. -/
theorem attempt_gives_back (engine : Engine ρ) (suite : PassSuite ρ τ) (fuel : Nat)
    (id : ModuleId) (store : ModuleStore τ) :
    (store.slot? id = none →
      engine.attempt suite fuel id store = some ⟨.error (.unknownModule id), store, none⟩) ∧
    (∀ name, store.slot? id = some ⟨name, none⟩ →
      engine.attempt suite fuel id store = some ⟨.error (.moduleInUse name), store, none⟩) ∧
    ∀ name tree, store.slot? id = some ⟨name, some tree⟩ →
      let subject : Subject := ⟨id, name⟩
      let moment := fun k => engine.run suite k subject tree (store.putTree id none)
      let last := moment fuel
      let newcomers := (engine.exchangesAt suite fuel id store).filterMap Exchange.newcomer?
      ∃ after, last.store.restore id last.tree = .ok after ∧
        after.Succeeds store id ⟨name, some last.tree⟩ newcomers ∧
        engine.attempt suite fuel id store = ((last.verdict? suite subject).map fun verdict =>
          ⟨verdict, after, some (last.transcript subject)⟩) ∧
        (∀ verdict, last.verdict? suite subject = some verdict →
          Concludes engine suite subject moment fuel verdict) ∧
        (moment 0).tree = tree ∧
        ∀ k, (moment k).status = .running →
          (turn suite subject (moment k)).map Prod.snd = some (moment (k + 1)).tree := by
  refine ⟨?_, ?_, ?_⟩
  · intro unknown
    rw [attempt_eq, unknown]
    rfl
  · intro name lent
    rw [attempt_eq, lent]
    rfl
  · intro name tree held subject moment last newcomers
    obtain ⟨slot, registered, _⟩ := slot?_run engine suite fuel subject held
    have said : newcomers = (engine.exchanges suite subject tree (store.putTree id none)
        fuel).filterMap Exchange.newcomer? := by
      simp only [newcomers, exchangesAt, held, subject]
    have lent : id.index < (store.putTree id none).size := by
      rw [ModuleStore.size_putTree]
      exact ModuleStore.lt_size_iff.mpr ⟨_, held⟩
    have added : (store.putTree id (some last.tree)).Adds newcomers
        (last.store.putTree id (some last.tree)) := by
      rw [said, ← ModuleStore.putTree_putTree store id none]
      exact ModuleStore.adds_putTree
        (answers_run engine suite subject tree (store.putTree id none) fuel).adds lent _
    refine ⟨last.store.putTree id (some last.tree), ModuleStore.restore_of_known registered,
      ModuleStore.succeeds_of_adds held added, ?_, fun verdict => concludes_run, rfl, ?_⟩
    · rw [attempt_eq, held]
      exact conclude_eq registered
    · intro k running
      show _ = some (engine.run suite (k + 1) subject tree (store.putTree id none)).tree
      rw [run_succ_of_running running]
      exact tree_step (pending_of_running k running)

end Engine

/-! ## A pass that gives up half way -/

namespace Asking

/-- The pass takes the first name off a tree and registers it, and gives up if names are left. -/
def hasty : PassSuite Unit (List String) where
  name _ := "register"
  apply _ subject tree :=
    match tree with
    | [] => .done (.ok (), [])
    | name :: rest => .register name [] fun _ =>
        if rest.isEmpty then .done (.ok (), rest)
        else .done (.error (.passFailed "register" subject.name "names left"), rest)

/-- The store with the first tree lent out. -/
def lending : ModuleStore (List String) := store.putTree ⟨0⟩ none

end Asking

namespace Engine

/-- A module that is not there, one that is lent out, and one on which the pass gives up: what the
pass has done by then is in the store. -/
theorem attempt_gives_back_hasty :
    let attempt := fun id => Asking.engine.attempt Asking.hasty 1 id Asking.lending
    attempt ⟨7⟩ = some ⟨.error (.unknownModule ⟨7⟩), Asking.lending, none⟩ ∧
      attempt ⟨0⟩ = some ⟨.error (.moduleInUse "util"), Asking.lending, none⟩ ∧
      ∃ after transcript,
        attempt ⟨1⟩ =
          some ⟨.error (.passFailed "register" "main" "names left"), after, transcript⟩ ∧
        after.Succeeds Asking.lending ⟨1⟩ ⟨"main", some ["util"]⟩ [("new", [])] := by
  intro attempt
  obtain ⟨unknown, _⟩ := attempt_gives_back Asking.engine Asking.hasty 1 ⟨7⟩ Asking.lending
  obtain ⟨_, lent, _⟩ := attempt_gives_back Asking.engine Asking.hasty 1 ⟨0⟩ Asking.lending
  obtain ⟨_, _, present⟩ := attempt_gives_back Asking.engine Asking.hasty 1 ⟨1⟩ Asking.lending
  obtain ⟨after, _, succeeds, comes, _⟩ := present "main" ["new", "util"] rfl
  exact ⟨unknown rfl, lent "util" rfl, after, _, comes, succeeds⟩

end Engine

end PassEngine
