import Mathlib.Logic.Relation
import PassEngine.Proofs.Program.Bookkeeping
import PassEngine.Proofs.Program.Imports

/-!
# Identities for good

Whatever is done to a store, the names that it has stay where they are: every operation leaves a
store whose names begin with the names that were there. Everything that identities are good for
follows from that, since names are different from each other in every store.

A list of modules can be offered to a store one by one. Those that it takes are the first of each
name that it does not know, and asking first makes no difference.
-/

namespace PassEngine

variable {τ : Type}

namespace ModuleStore

variable {store grown last : ModuleStore τ} {id : ModuleId} {name : String} {tree : τ}

/-! ## Names and identities -/

theorem find?_eq_some_iff : store.find? name = some id ↔ store.nameOf id = .ok name := by
  rw [nameOf_eq_ok_iff]
  constructor
  · intro h
    by_cases known : name ∈ store.names
    · obtain ⟨id', slot, hslot, rfl⟩ := mem_names_iff.mp known
      cases (find?_of_slot? hslot).symm.trans h
      exact ⟨slot, hslot, rfl⟩
    · simp [find?_of_unknown known] at h
  · rintro ⟨slot, hslot, rfl⟩
    exact find?_of_slot? hslot

/-- Names and identities belong together one to one. -/
structure Identified (store : ModuleStore τ) : Prop where
  names_nodup : store.names.Nodup
  find?_nameOf : ∀ id : ModuleId, id.index < store.size →
    ∃ name, store.nameOf id = .ok name ∧ store.find? name = some id
  nameOf_find? : ∀ name, store.knows name = true →
    ∃ id, store.find? name = some id ∧ store.nameOf id = .ok name
  knows_iff : ∀ name, store.knows name = true ↔ (store.find? name).isSome = true

theorem identified (store : ModuleStore τ) : store.Identified where
  names_nodup := store.names_nodup
  find?_nameOf := by
    intro id hid
    obtain ⟨slot, hslot⟩ := lt_size_iff.mp hid
    exact ⟨slot.name, nameOf_eq_ok_iff.mpr ⟨slot, hslot, rfl⟩, find?_of_slot? hslot⟩
  nameOf_find? := by
    intro name known
    obtain ⟨id, slot, hslot, rfl⟩ := mem_names_iff.mp (ModuleStore.knows_iff.mp known)
    exact ⟨id, find?_of_slot? hslot, nameOf_eq_ok_iff.mpr ⟨slot, hslot, rfl⟩⟩
  knows_iff := by
    intro name
    rw [ModuleStore.knows_iff]
    by_cases known : name ∈ store.names
    · obtain ⟨id, slot, hslot, rfl⟩ := mem_names_iff.mp known
      simp [known, find?_of_slot? hslot]
    · simp [known, find?_of_unknown known]

/-! ## Operations -/

/-- What can become of a store by one operation that changes it, be it on the store itself, by a run
that is not over yet, by an attempt on a module, or by a call for a program. -/
inductive Operation : ModuleStore τ → ModuleStore τ → Prop where
  | register {store grown : ModuleStore τ} {name : String} {tree : τ} {id : ModuleId} :
      store.register name tree = some (id, grown) → Operation store grown
  | lend {store lent : ModuleStore τ} {id : ModuleId} {tree : τ} :
      store.lend id = .ok (tree, lent) → Operation store lent
  | restore {store restored : ModuleStore τ} {id : ModuleId} {tree : τ} :
      store.restore id tree = .ok restored → Operation store restored
  | update {store updated : ModuleStore τ} {id : ModuleId} {change : τ → τ} :
      store.updateTree id change = some updated → Operation store updated
  | run {ρ : Type} [DecidableEq ρ] {store : ModuleStore τ} (engine : Engine ρ)
      (suite : PassSuite ρ τ) (fuel : Nat) (subject : Subject) (tree : τ) :
      Operation store (engine.run suite fuel subject tree store).store
  | attempt {ρ : Type} [DecidableEq ρ] {store : ModuleStore τ} {engine : Engine ρ}
      {suite : PassSuite ρ τ} {fuel : Nat} {id : ModuleId} {attempt : Attempt ρ τ} :
      engine.attempt suite fuel id store = some attempt → Operation store attempt.store
  | call {ρ : Type} [DecidableEq ρ] {program : Program ρ τ} {suite : PassSuite ρ τ} {fuel : Nat}
      {entry : ModuleId} {outcome : ProgramOutcome ρ τ} :
      program.optimize suite fuel entry = some outcome →
        Operation program.store outcome.program.store

/-- What can become of a store by operations in a row. -/
def Evolves : ModuleStore τ → ModuleStore τ → Prop := Relation.ReflTransGen Operation

theorem Intact.names_kept (h : Intact store grown) : store.names <+: grown.names := by
  obtain ⟨added, hadded, _⟩ := h.names
  exact ⟨added, hadded.symm⟩

theorem names_kept_of_operation (h : Operation store grown) : store.names <+: grown.names := by
  cases h with
  | register h =>
      rw [names_of_register h]
      exact List.prefix_append _ _
  | lend h =>
      obtain ⟨_, rfl⟩ := lend_eq_ok_iff.mp h
      simp
  | restore h =>
      obtain ⟨_, rfl⟩ := restore_eq_ok_iff.mp h
      simp
  | update h =>
      obtain ⟨_, _, rfl⟩ := Option.map_eq_some_iff.mp h
      simp
  | run engine suite fuel subject tree =>
      rw [names_of_adds (Engine.answers_run engine suite subject tree store fuel).adds]
      exact List.prefix_append _ _
  | attempt h => exact (Engine.intact_attempt h).names_kept
  | call h => exact (Program.intact_optimize h).names_kept

theorem Evolves.names_kept (h : Evolves store last) : store.names <+: last.names := by
  induction h with
  | refl => exact List.prefix_refl _
  | tail _ operation ih => exact ih.trans (names_kept_of_operation operation)

/-- An identity is good for ever. -/
theorem Evolves.nameOf_eq (h : Evolves store last) (hname : store.nameOf id = .ok name) :
    last.nameOf id = .ok name := by
  rw [nameOf_eq_ok_iff_getElem?] at hname ⊢
  obtain ⟨hlt, rfl⟩ := List.getElem?_eq_some_iff.mp hname
  exact List.prefix_iff_getElem?.mp h.names_kept id.index hlt

theorem Evolves.size_le (h : Evolves store last) : store.size ≤ last.size := by
  simpa [names, size] using h.names_kept.length_le

/-! ## Lists of modules -/

theorem knows_eq_contains (store : ModuleStore τ) (name : String) :
    store.knows name = store.names.contains name := by
  rw [Bool.eq_iff_iff, ModuleStore.knows_iff, List.contains_iff_mem]

/-- Those of the modules that have names that are not known, and of those of one name the first. -/
def newcomers (store : ModuleStore τ) (modules : List (String × τ)) : List (String × τ) :=
  (modules.filter fun module => !store.knows module.1).eraseDupsBy fun later earlier =>
    later.1 == earlier.1

/-- Register a module if it is new. If the offer is guarded, this is asked first. -/
def offer (store : ModuleStore τ) (guarded : Bool) (name : String) (tree : τ) : ModuleStore τ :=
  if guarded && store.knows name then store
  else (store.register name tree).elim store Prod.snd

/-- Offer modules one by one. -/
def offerAll (store : ModuleStore τ) (offers : List (Bool × String × τ)) : ModuleStore τ :=
  offers.foldl (fun store (guarded, name, tree) => store.offer guarded name tree) store

theorem offer_of_known (guarded : Bool) (tree : τ) (known : name ∈ store.names) :
    store.offer guarded name tree = store := by
  simp [offer, register_eq_none_iff.mpr known]

theorem offer_of_register (guarded : Bool) (h : store.register name tree = some (id, grown)) :
    store.offer guarded name tree = grown := by
  simp [offer, unknown_of_register h, h]

theorem knows_of_register (h : store.register name tree = some (id, grown)) (other : String) :
    grown.knows other = (store.knows other || other == name) := by
  simp [knows, (slots_of_register h).2, Bool.beq_comm]

theorem newcomers_of_known {modules : List (String × τ)} (known : name ∈ store.names) :
    store.newcomers ((name, tree) :: modules) = store.newcomers modules := by
  simp [newcomers, known]

theorem newcomers_of_register {modules : List (String × τ)}
    (h : store.register name tree = some (id, grown)) :
    store.newcomers ((name, tree) :: modules) = (name, tree) :: grown.newcomers modules := by
  have unknown : store.knows name = false := by
    simpa [knows_eq_contains] using unknown_of_register h
  have remaining : (modules.filter fun module => !store.knows module.1).filter
      (fun later => decide ((later.1 == name) = false)) =
        modules.filter fun module => !grown.knows module.1 := by
    rw [List.filter_filter]
    apply List.filter_congr
    intro module _
    by_cases same : module.1 = name
    all_goals simp [knows_of_register h, same]
  unfold newcomers
  rw [List.filter_cons_of_pos (by simp [unknown]), List.eraseDupsBy_cons, remaining]

/-- The store takes the newcomers, in order, and nothing else. -/
theorem adds_offerAll (store : ModuleStore τ) (offers : List (Bool × String × τ)) :
    store.Adds (store.newcomers (offers.map Prod.snd)) (store.offerAll offers) := by
  induction offers generalizing store with
  | nil => simp [Adds, offerAll, newcomers]
  | cons first rest ih =>
      obtain ⟨guarded, name, tree⟩ := first
      show store.Adds (store.newcomers ((name, tree) :: rest.map Prod.snd))
        ((store.offer guarded name tree).offerAll rest)
      cases h : store.register name tree with
      | none =>
          have known := register_eq_none_iff.mp h
          rw [newcomers_of_known known, offer_of_known guarded tree known]
          exact ih store
      | some result =>
          obtain ⟨id, grown⟩ := result
          have first : store.Adds [(name, tree)] grown := (slots_of_register h).2
          rw [newcomers_of_register h, offer_of_register guarded h]
          exact first.trans (ih grown)

end ModuleStore

/-- A pass registers modules one by one. Where a registration is guarded, it asks first. -/
def Dialogue.offerAll : List (Bool × String × τ) → Dialogue τ Unit
  | [] => .done ()
  | (false, name, tree) :: rest => .register name tree fun _ => offerAll rest
  | (true, name, tree) :: rest => .ask name fun known =>
      if known then offerAll rest else .register name tree fun _ => offerAll rest

theorem Scene.store_register (scene : Scene τ) (name : String) (tree : τ) :
    (scene.register name tree).2.store = scene.store.offer false name tree := by
  unfold Scene.register
  cases h : scene.store.register name tree with
  | none =>
      have known := ModuleStore.register_eq_none_iff.mp h
      exact (ModuleStore.offer_of_known false tree known).symm
  | some result => exact (ModuleStore.offer_of_register false h).symm

theorem Dialogue.store_offerAll (offers : List (Bool × String × τ)) (scene : Scene τ) :
    ((offerAll offers).perform scene).2.store = scene.store.offerAll offers := by
  induction offers generalizing scene with
  | nil => rfl
  | cons first rest ih =>
      obtain ⟨guarded, name, tree⟩ := first
      have registered := ih (scene.register name tree).2
      rw [scene.store_register] at registered
      cases guarded with
      | false => exact registered
      | true =>
          show ((if scene.store.knows name then offerAll rest
            else .register name tree fun _ => offerAll rest).perform scene).2.store =
              (scene.store.offer true name tree).offerAll rest
          by_cases known : name ∈ scene.store.names
          · rw [if_pos (by simpa using known), ModuleStore.offer_of_known true tree known]
            exact ih scene
          · rw [if_neg (by simpa using known)]
            have unguarded :
                scene.store.offer true name tree = scene.store.offer false name tree := by
              simp [ModuleStore.offer, known]
            rw [unguarded]
            exact registered

namespace ModuleStore

variable {store last : ModuleStore τ}

/-- Whatever has been done to a store, be it by its owner or by passes, names and identities belong
together one to one, every name that was known has the identity that it had, the store has not
become smaller, and a new module gets the next identity. Of modules that are offered one by one it
takes the first of each name that is not known, whether the passes or the owner ask before or
not. -/
theorem identities_stable (h : Evolves store last) :
    last.Identified ∧
    (∀ name id, store.find? name = some id → last.find? name = some id) ∧
    store.size ≤ last.size ∧
    (∀ name tree id grown, last.register name tree = some (id, grown) → id = ⟨last.size⟩) ∧
    ∀ offers : List (Bool × String × τ),
      last.Adds (last.newcomers (offers.map Prod.snd)) (last.offerAll offers) ∧
      (∀ others : List (Bool × String × τ), others.map Prod.snd = offers.map Prod.snd →
        last.offerAll others = last.offerAll offers) ∧
      ∀ scene : Scene τ, scene.store = last →
        ((Dialogue.offerAll offers).perform scene).2.store = last.offerAll offers := by
  refine ⟨last.identified, ?_, h.size_le, fun _ _ _ _ hregister => (slots_of_register hregister).1,
    ?_⟩
  · intro name id hfind
    rw [find?_eq_some_iff] at hfind ⊢
    exact h.nameOf_eq hfind
  · intro offers
    have taken := last.adds_offerAll offers
    refine ⟨taken, ?_, ?_⟩
    · intro others same
      have taken' := last.adds_offerAll others
      rw [same] at taken'
      exact taken'.unique taken
    · rintro scene rfl
      exact Dialogue.store_offerAll offers scene

end ModuleStore

/-! ## A store that is at work -/

namespace Asking

theorem util_fresh : "util" ∉ (ModuleStore.singleton "main" ["late", "main"]).names := by decide

/-- A module with work to do, and another one behind it. -/
def busy : ModuleStore (List String) :=
  (ModuleStore.singleton "main" ["late", "main"]).append "util" [] util_fresh

/-- Some of what is offered to the store is known by then, and one name is offered twice. -/
def offers : List (Bool × String × List String) :=
  [(true, "late", []), (false, "extra", ["first"]), (true, "extra", ["second"]),
    (false, "main", [])]

end Asking

namespace ModuleStore

/-- While a module is lent out, a pass registers another one and gives up then. -/
theorem identities_stable_asking :
    ∃ last, (singleton "main" ["late", "main"]).Evolves last ∧
      last.names = ["main", "util", "late"] ∧ last.Identified ∧
      last.find? "main" = some ⟨0⟩ ∧
      last.Adds [("extra", ["first"])] (last.offerAll Asking.offers) := by
  have failed : (Asking.engine.attempt Asking.suite 2 ⟨0⟩ (Asking.busy.putTree ⟨1⟩ none)).map
      (fun attempt => (attempt.verdict, attempt.store.names)) =
        some (.error (.passFailed "ask" "main" "main"), ["main", "util", "late"]) := by
    decide
  obtain ⟨attempt, hattempt, hseen⟩ := Option.map_eq_some_iff.mp failed
  have names : attempt.store.names = ["main", "util", "late"] := congrArg Prod.snd hseen
  have hregister : (singleton "main" ["late", "main"]).register "util" [] =
    some (⟨1⟩, Asking.busy) := rfl
  have hlend : Asking.busy.slot? ⟨1⟩ = some ⟨"util", some []⟩ := rfl
  have hname : attempt.store.nameOf ⟨1⟩ = .ok "util" := by
    rw [nameOf_eq_ok_iff_getElem?, names]
    rfl
  obtain ⟨slot, hslot, _⟩ := nameOf_eq_ok_iff.mp hname
  have registered : Operation (singleton "main" ["late", "main"]) Asking.busy := .register hregister
  have lent : Operation Asking.busy (Asking.busy.putTree ⟨1⟩ none) := .lend (lend_of_present hlend)
  have attempted : Operation (Asking.busy.putTree ⟨1⟩ none) attempt.store := .attempt hattempt
  have restored : Operation attempt.store (attempt.store.putTree ⟨1⟩ (some ["kept"])) :=
    .restore (restore_of_known hslot)
  have evolves : (singleton "main" ["late", "main"]).Evolves
      (attempt.store.putTree ⟨1⟩ (some ["kept"])) :=
    (((Relation.ReflTransGen.single registered).tail lent).tail attempted).tail restored
  obtain ⟨identified, stable, _, _, taken⟩ := identities_stable evolves
  refine ⟨_, evolves, by rw [names_putTree, names], identified, stable "main" ⟨0⟩ rfl, ?_⟩
  have newcomers : (attempt.store.putTree ⟨1⟩ (some ["kept"])).newcomers
      (Asking.offers.map Prod.snd) = [("extra", ["first"])] := by
    unfold newcomers
    simp only [knows_eq_contains, names_putTree, names]
    rfl
  rw [← newcomers]
  exact (taken Asking.offers).1

end ModuleStore

end PassEngine
