import PassEngine.Dialogue

/-!
# What conversations do to a store

A conversation is a list of exchanges, each with the answer that the store gave at its turn. The
exchanges tell how the store grew: what was there stays, and behind it stands what was registered,
with the tree that it was registered with.
-/

namespace PassEngine

variable {τ α : Type}

/-- What a pass said or asked, and the answer. -/
inductive Exchange (τ : Type) where
  | emitted (tag : Tag)
  | asked (name : String) (known : Bool)
  | offered (name : String) (tree : τ) (answer : Option ModuleId)

/-- The exchanges of a conversation that is held in a scene, in order. -/
def Dialogue.exchanges : Dialogue τ α → Scene τ → List (Exchange τ)
  | .done _, _ => []
  | .emit tag next, scene => .emitted tag :: (next ()).exchanges (scene.emit tag)
  | .ask name next, scene =>
      .asked name (scene.store.knows name) :: (next (scene.store.knows name)).exchanges scene
  | .register name tree next, scene =>
      .offered name tree (scene.register name tree).1 ::
        (next (scene.register name tree).1).exchanges (scene.register name tree).2

theorem Dialogue.exchanges_bind {β : Type} (dialogue : Dialogue τ α) (rest : α → Dialogue τ β)
    (scene : Scene τ) :
    (dialogue.bind rest).exchanges scene = dialogue.exchanges scene ++
      (rest (dialogue.perform scene).1).exchanges (dialogue.perform scene).2 := by
  induction dialogue generalizing scene with
  | done result => rfl
  | emit tag next ih => simp [bind, exchanges, perform, ih]
  | ask name next ih => simp [bind, exchanges, perform, ih]
  | register name tree next ih => simp [bind, exchanges, perform, ih]

/-- The tag that an exchange emits, if it emits one. -/
def Exchange.tag? : Exchange τ → Option Tag
  | .emitted tag => some tag
  | .asked .. => none
  | .offered .. => none

/-- The module that an exchange registers, if it registers one. -/
def Exchange.newcomer? : Exchange τ → Option (String × τ)
  | .emitted _ => none
  | .asked .. => none
  | .offered name tree answer => answer.map fun _ => (name, tree)

/-- A scene records the emissions of a conversation one by one, repetitions included. -/
theorem Dialogue.emitted_perform (dialogue : Dialogue τ α) (scene : Scene τ) :
    (dialogue.perform scene).2.emitted.reverse =
      scene.emitted.reverse ++ (dialogue.exchanges scene).filterMap Exchange.tag? := by
  induction dialogue generalizing scene with
  | done result => simp [perform, exchanges]
  | emit tag next ih => simp [perform, exchanges, ih, Scene.emit, Exchange.tag?]
  | ask name next ih => simp [perform, exchanges, ih, List.filterMap_cons, Exchange.tag?]
  | register name tree next ih =>
      have silent : (scene.register name tree).2.emitted = scene.emitted := by
        unfold Scene.register
        split
        · rfl
        · rfl
      simp [perform, exchanges, ih, silent, List.filterMap_cons, Exchange.tag?]

namespace ModuleStore

/-! ## Registering -/

section Registering

variable {store grown : ModuleStore τ} {name : String} {tree : τ} {id : ModuleId}

theorem names_of_register (h : store.register name tree = some (id, grown)) :
    grown.names = store.names ++ [name] := by
  unfold names
  rw [(slots_of_register h).2, List.map_append]
  rfl

theorem size_of_register (h : store.register name tree = some (id, grown)) :
    grown.size = store.size + 1 := by
  unfold size
  rw [(slots_of_register h).2, List.length_append]
  rfl

theorem unknown_of_register (h : store.register name tree = some (id, grown)) :
    name ∉ store.names := by
  intro known
  rw [register_eq_none_iff.mpr known] at h
  cases h

end Registering

/-! ## Stores that answer -/

/-- The store gives the answers of these exchanges and becomes another store on the way. -/
inductive Answers : ModuleStore τ → List (Exchange τ) → ModuleStore τ → Prop where
  | nil {store} : Answers store [] store
  | emitted {store grown said} (tag : Tag) :
      Answers store said grown → Answers store (.emitted tag :: said) grown
  | asked {store grown said} (name : String) :
      Answers store said grown → Answers store (.asked name (store.knows name) :: said) grown
  | known {store grown said name} (tree : τ) :
      name ∈ store.names → Answers store said grown →
        Answers store (.offered name tree none :: said) grown
  | registered {store middle grown said name tree id} :
      store.register name tree = some (id, middle) → Answers middle said grown →
        Answers store (.offered name tree (some id) :: said) grown

theorem answers_perform (dialogue : Dialogue τ α) (scene : Scene τ) :
    Answers scene.store (dialogue.exchanges scene) (dialogue.perform scene).2.store := by
  induction dialogue generalizing scene with
  | done result => exact .nil
  | emit tag next ih => exact .emitted tag (ih () (scene.emit tag))
  | ask name next ih => exact .asked name (ih (scene.store.knows name) scene)
  | register name tree next ih =>
      have rest := ih (scene.register name tree).1 (scene.register name tree).2
      unfold Dialogue.exchanges Dialogue.perform
      cases h : scene.store.register name tree with
      | none =>
          have hscene : scene.register name tree = (none, scene) := by
            unfold Scene.register
            rw [h]
          rw [hscene] at rest ⊢
          exact .known tree (register_eq_none_iff.mp h) rest
      | some added =>
          obtain ⟨id, grown⟩ := added
          have hscene : scene.register name tree =
              (some id, { scene with
                store := grown, discovered := (name, id) :: scene.discovered }) := by
            unfold Scene.register
            rw [h]
          rw [hscene] at rest ⊢
          exact .registered h rest

variable {store middle grown : ModuleStore τ} {said later : List (Exchange τ)}

theorem Answers.trans (h : Answers store said middle) (h' : Answers middle later grown) :
    Answers store (said ++ later) grown := by
  induction h with
  | nil => exact h'
  | emitted tag _ ih => exact .emitted tag (ih h')
  | asked name _ ih => exact .asked name (ih h')
  | known tree hknown _ ih => exact .known tree hknown (ih h')
  | registered hregister _ ih => exact .registered hregister (ih h')

theorem Answers.fresh {name : String} {tree : τ} {id : ModuleId} (h : Answers store said grown)
    (hsaid : .offered name tree (some id) ∈ said) : name ∉ store.names := by
  induction h with
  | nil => cases hsaid
  | emitted tag _ ih => exact ih ((List.mem_cons.mp hsaid).resolve_left (by simp))
  | asked other _ ih => exact ih ((List.mem_cons.mp hsaid).resolve_left (by simp))
  | known tree' _ _ ih => exact ih ((List.mem_cons.mp hsaid).resolve_left (by simp))
  | registered hregister _ ih =>
      rcases List.mem_cons.mp hsaid with heq | hsaid
      · cases heq
        exact unknown_of_register hregister
      · intro hknown
        refine ih hsaid ?_
        rw [names_of_register hregister]
        exact List.mem_append_left _ hknown

/-! ## Stores that grow -/

/-- The store grew by what was said to be registered, and other slots changed only where somebody
was at work. -/
structure Grows (store : ModuleStore τ) (worked : List ModuleId) (said : List (Exchange τ))
    (grown : ModuleStore τ) : Prop where
  size : store.size ≤ grown.size
  named : ∀ id slot, store.slot? id = some slot →
    ∃ slot', grown.slot? id = some slot' ∧ slot'.name = slot.name
  kept : ∀ id ∉ worked, id.index < store.size → grown.slot? id = store.slot? id
  offered : ∀ name tree id, .offered name tree (some id) ∈ said →
    store.size ≤ id.index ∧ (∃ slot, grown.slot? id = some slot ∧ slot.name = name) ∧
      (id ∉ worked → grown.slot? id = some ⟨name, some tree⟩)
  covered : ∀ id : ModuleId, store.size ≤ id.index → id.index < grown.size →
    ∃ name tree, .offered name tree (some id) ∈ said

theorem lt_size_iff {id : ModuleId} : id.index < store.size ↔ ∃ slot, store.slot? id = some slot := by
  unfold size slot?
  constructor
  · intro h
    exact ⟨_, List.getElem?_eq_getElem h⟩
  · rintro ⟨slot, hslot⟩
    exact (List.getElem?_eq_some_iff.mp hslot).1

theorem mem_names_iff {name : String} :
    name ∈ store.names ↔ ∃ id slot, store.slot? id = some slot ∧ slot.name = name := by
  unfold names slot?
  rw [List.mem_map]
  constructor
  · rintro ⟨slot, hslot, hname⟩
    obtain ⟨index, hindex⟩ := List.mem_iff_getElem?.mp hslot
    exact ⟨⟨index⟩, slot, hindex, hname⟩
  · rintro ⟨id, slot, hslot, hname⟩
    exact ⟨slot, List.mem_of_getElem? hslot, hname⟩

theorem nameOf_eq_ok_iff {id : ModuleId} {name : String} :
    store.nameOf id = .ok name ↔ ∃ slot, store.slot? id = some slot ∧ slot.name = name := by
  unfold nameOf ModuleStore.slot
  cases store.slot? id with
  | none => simp [Except.map]
  | some slot => simp [Except.map]

theorem nameOf_eq_ok_iff_getElem? {id : ModuleId} {name : String} :
    store.nameOf id = .ok name ↔ store.names[id.index]? = some name := by
  rw [nameOf_eq_ok_iff]
  simp [names, slot?]

theorem Grows.refl (store : ModuleStore τ) (worked : List ModuleId) :
    Grows store worked [] store where
  size := Nat.le_refl _
  named := fun _ slot hslot => ⟨slot, hslot, rfl⟩
  kept := fun _ _ _ => rfl
  offered := by
    intro name tree id hsaid
    cases hsaid
  covered := fun _ hge hlt => absurd hlt (Nat.not_lt.mpr hge)

theorem Grows.trans {worked further : List ModuleId} (h : Grows store worked said middle)
    (h' : Grows middle further later grown) :
    Grows store (worked ++ further) (said ++ later) grown where
  size := Nat.le_trans h.size h'.size
  named := by
    intro id slot hslot
    obtain ⟨slot', hslot', hname⟩ := h.named id slot hslot
    obtain ⟨slot'', hslot'', hname'⟩ := h'.named id slot' hslot'
    exact ⟨slot'', hslot'', hname'.trans hname⟩
  kept := by
    intro id hid hlt
    rw [List.mem_append, not_or] at hid
    rw [h'.kept id hid.2 (Nat.lt_of_lt_of_le hlt h.size), h.kept id hid.1 hlt]
  offered := by
    intro name tree id hsaid
    rcases List.mem_append.mp hsaid with hsaid | hlater
    · obtain ⟨hge, ⟨slot, hslot, hname⟩, hkept⟩ := h.offered name tree id hsaid
      obtain ⟨slot', hslot', hname'⟩ := h'.named id slot hslot
      refine ⟨hge, ⟨slot', hslot', hname'.trans hname⟩, ?_⟩
      intro hid
      rw [List.mem_append, not_or] at hid
      rw [h'.kept id hid.2 (lt_size_iff.mpr ⟨slot, hslot⟩), hkept hid.1]
    · obtain ⟨hge, hnamed, hkept⟩ := h'.offered name tree id hlater
      refine ⟨Nat.le_trans h.size hge, hnamed, ?_⟩
      intro hid
      rw [List.mem_append, not_or] at hid
      exact hkept hid.2
  covered := by
    intro id hge hlt
    rcases Nat.lt_or_ge id.index middle.size with hmiddle | hmiddle
    · obtain ⟨name, tree, hsaid⟩ := h.covered id hge hmiddle
      exact ⟨name, tree, List.mem_append_left _ hsaid⟩
    · obtain ⟨name, tree, hlater⟩ := h'.covered id hmiddle hlt
      exact ⟨name, tree, List.mem_append_right _ hlater⟩

theorem Grows.mono {worked more : List ModuleId} (h : Grows store worked said grown)
    (subset : worked ⊆ more) : Grows store more said grown where
  size := h.size
  named := h.named
  kept := fun id hid hlt => h.kept id (fun hworked => hid (subset hworked)) hlt
  offered := by
    intro name tree id hsaid
    obtain ⟨hge, hnamed, hkept⟩ := h.offered name tree id hsaid
    exact ⟨hge, hnamed, fun hid => hkept fun hworked => hid (subset hworked)⟩
  covered := h.covered

theorem grows_putTree (store : ModuleStore τ) (id : ModuleId) (tree : Option τ) :
    Grows store [id] [] (store.putTree id tree) where
  size := Nat.le_of_eq (store.size_putTree id tree).symm
  named := by
    intro other slot hslot
    rw [slot?_putTree, hslot]
    split
    · exact ⟨{ slot with tree }, rfl, rfl⟩
    · exact ⟨slot, rfl, rfl⟩
  kept := by
    intro other hother _
    have hne : id ≠ other := fun heq => hother (heq ▸ List.mem_singleton_self id)
    rw [slot?_putTree, if_neg hne]
  offered := by
    intro name tree id hsaid
    cases hsaid
  covered := by
    intro other hge hlt
    rw [size_putTree] at hlt
    exact absurd hlt (Nat.not_lt.mpr hge)

theorem grows_register {name : String} {tree : τ} {id : ModuleId}
    (h : store.register name tree = some (id, grown)) :
    Grows store [] [.offered name tree (some id)] grown := by
  have hsize := size_of_register h
  obtain ⟨rfl, hslots⟩ := slots_of_register h
  have hnew : grown.slot? ⟨store.size⟩ = some ⟨name, some tree⟩ := by
    unfold slot? size
    rw [hslots, List.getElem?_append_right (Nat.le_refl _), Nat.sub_self]
    rfl
  have hold : ∀ id : ModuleId, id.index < store.size → grown.slot? id = store.slot? id := by
    intro id hlt
    unfold slot?
    rw [hslots, List.getElem?_append_left hlt]
  refine ⟨by omega, ?_, fun id _ hlt => hold id hlt, ?_, ?_⟩
  · intro id slot hslot
    exact ⟨slot, (hold id (lt_size_iff.mpr ⟨slot, hslot⟩)).trans hslot, rfl⟩
  · intro other tree' id hsaid
    cases List.mem_singleton.mp hsaid
    exact ⟨Nat.le_refl _, ⟨_, hnew, rfl⟩, fun _ => hnew⟩
  · intro id hge hlt
    have hindex : id = ⟨store.size⟩ := by
      obtain ⟨index⟩ := id
      have heq : index = store.size := by
        have hge : store.size ≤ index := hge
        have hlt : index < grown.size := hlt
        omega
      rw [heq]
    rw [hindex]
    exact ⟨name, tree, List.mem_singleton_self _⟩

theorem Grows.cons {worked : List ModuleId} {exchange : Exchange τ}
    (h : Grows store worked said grown)
    (silent : ∀ name tree id, exchange ≠ .offered name tree (some id)) :
    Grows store worked (exchange :: said) grown where
  size := h.size
  named := h.named
  kept := h.kept
  offered := by
    intro name tree id hsaid
    rcases List.mem_cons.mp hsaid with heq | hsaid
    · exact absurd heq.symm (silent name tree id)
    · exact h.offered name tree id hsaid
  covered := by
    intro id hge hlt
    obtain ⟨name, tree, hsaid⟩ := h.covered id hge hlt
    exact ⟨name, tree, List.mem_cons_of_mem exchange hsaid⟩

theorem Answers.grows (h : Answers store said grown) : Grows store [] said grown := by
  induction h with
  | nil => exact Grows.refl _ []
  | emitted tag _ ih => exact ih.cons (by simp)
  | asked name _ ih => exact ih.cons (by simp)
  | known tree _ _ ih => exact ih.cons (by simp)
  | registered hregister _ ih => exact (grows_register hregister).trans ih

/-- A slot was worked on, is the one that was there, or was registered with its tree. -/
theorem Grows.slot_cases {worked : List ModuleId} {id : ModuleId} {slot : Slot τ}
    (h : Grows store worked said grown) (hslot : grown.slot? id = some slot) :
    id ∈ worked ∨ store.slot? id = some slot ∨
      ∃ name tree, slot = ⟨name, some tree⟩ ∧ .offered name tree (some id) ∈ said := by
  by_cases here : id ∈ worked
  · exact Or.inl here
  · rcases Nat.lt_or_ge id.index store.size with hlt | hge
    · rw [h.kept id here hlt] at hslot
      exact Or.inr (Or.inl hslot)
    · obtain ⟨name, tree, hsaid⟩ := h.covered id hge (lt_size_iff.mpr ⟨slot, hslot⟩)
      rw [(h.offered name tree id hsaid).2.2 here] at hslot
      cases hslot
      exact Or.inr (Or.inr ⟨name, tree, rfl, hsaid⟩)

/-- A registered module keeps its name. -/
theorem Grows.nameOf_eq {worked : List ModuleId} {id : ModuleId}
    (h : Grows store worked said grown) (registered : id.index < store.size) :
    grown.nameOf id = store.nameOf id := by
  obtain ⟨slot, hslot⟩ := lt_size_iff.mp registered
  obtain ⟨after, hafter, hname⟩ := h.named id slot hslot
  rw [nameOf_eq_ok_iff.mpr ⟨slot, hslot, rfl⟩, nameOf_eq_ok_iff.mpr ⟨after, hafter, hname⟩]

/-- The names of a store that grew are those it had and those that were registered. -/
theorem Grows.mem_names {worked : List ModuleId} (h : Grows store worked said grown) {name : String}
    (hname : name ∈ grown.names) :
    name ∈ store.names ∨ ∃ tree id, .offered name tree (some id) ∈ said := by
  obtain ⟨id, slot, hslot, rfl⟩ := mem_names_iff.mp hname
  rcases Nat.lt_or_ge id.index store.size with hlt | hge
  · obtain ⟨before, hbefore⟩ := lt_size_iff.mp hlt
    obtain ⟨after, hafter, hcalled⟩ := h.named id before hbefore
    cases hslot.symm.trans hafter
    exact Or.inl (mem_names_iff.mpr ⟨id, before, hbefore, hcalled.symm⟩)
  · obtain ⟨name, tree, hsaid⟩ := h.covered id hge (lt_size_iff.mpr ⟨slot, hslot⟩)
    obtain ⟨_, ⟨after, hafter, rfl⟩, _⟩ := h.offered name tree id hsaid
    cases hslot.symm.trans hafter
    exact Or.inr ⟨tree, id, hsaid⟩

end ModuleStore

end PassEngine
