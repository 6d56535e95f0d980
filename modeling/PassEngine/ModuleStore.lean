import PassEngine.Fault

/-!
# Stores of modules

A store keeps modules in the order of registration and never forgets one, so that an identity
stays good for ever. Each module has a slot for its tree; the slot is empty while the tree is
lent out, and a tree is lent to one borrower at a time.
-/

namespace PassEngine

/-- A registered name and the tree of the module, unless the tree is lent out. -/
structure Slot (τ : Type) where
  name : String
  tree : Option τ

/-- Modules in the order of registration, no two of one name. -/
structure ModuleStore (τ : Type) where
  slots : List (Slot τ)
  names_nodup : (slots.map Slot.name).Nodup

namespace ModuleStore

variable {τ : Type}

def empty : ModuleStore τ := ⟨[], by simp⟩

/-! ## Looking up -/

def names (store : ModuleStore τ) : List String := store.slots.map Slot.name

def size (store : ModuleStore τ) : Nat := store.slots.length

def ids (store : ModuleStore τ) : List ModuleId := (List.range store.size).map ModuleId.mk

def knows (store : ModuleStore τ) (name : String) : Bool := store.slots.any (·.name == name)

def find? (store : ModuleStore τ) (name : String) : Option ModuleId :=
  (store.slots.findIdx? (·.name == name)).map ModuleId.mk

def slot? (store : ModuleStore τ) (id : ModuleId) : Option (Slot τ) := store.slots[id.index]?

def slot (store : ModuleStore τ) (id : ModuleId) : Except Fault (Slot τ) :=
  match store.slot? id with
  | some slot => .ok slot
  | none => .error (.unknownModule id)

def nameOf (store : ModuleStore τ) (id : ModuleId) : Except Fault String :=
  (store.slot id).map Slot.name

/-- The tree of a module that is registered and not lent out. -/
def tree? (store : ModuleStore τ) (id : ModuleId) : Option τ := (store.slot? id).bind Slot.tree

/-- The modules whose trees are not lent out, in order. -/
def trees (store : ModuleStore τ) : List (String × τ) :=
  store.slots.filterMap fun slot => slot.tree.map fun tree => (slot.name, tree)

@[simp] theorem knows_iff {store : ModuleStore τ} {name : String} :
    store.knows name = true ↔ name ∈ store.names := by
  simp [knows, names]

/-! ## Registering -/

/-- Add a module under a name that is not known; the new module comes last. -/
def append (store : ModuleStore τ) (name : String) (tree : τ) (fresh : name ∉ store.names) :
    ModuleStore τ :=
  ⟨store.slots ++ [⟨name, some tree⟩], by
    rw [List.map_append, List.nodup_append]
    refine ⟨store.names_nodup, by simp, ?_⟩
    intro a ha b hb hab
    have hb : b = name := by simpa using hb
    exact fresh (by rw [← hb, ← hab]; exact ha)⟩

/-- Register a module. A name that is known is not registered again, and the tree is dropped. -/
def register (store : ModuleStore τ) (name : String) (tree : τ) :
    Option (ModuleId × ModuleStore τ) :=
  if known : store.knows name = true then none
  else some (⟨store.size⟩, store.append name tree (fun h => known (knows_iff.mpr h)))

def singleton (name : String) (tree : τ) : ModuleStore τ :=
  empty.append name tree (by simp [names, empty])

theorem register_eq_none_iff {store : ModuleStore τ} {name : String} {tree : τ} :
    store.register name tree = none ↔ name ∈ store.names := by
  unfold register
  split
  · rename_i h; simpa using knows_iff.mp h
  · rename_i h; simpa using fun hn => h (knows_iff.mpr hn)

theorem slots_of_register {store grown : ModuleStore τ} {name : String} {tree : τ} {id : ModuleId}
    (h : store.register name tree = some (id, grown)) :
    id = ⟨store.size⟩ ∧ grown.slots = store.slots ++ [⟨name, some tree⟩] := by
  unfold register at h
  split at h
  · simp at h
  · simp only [Option.some.injEq, Prod.mk.injEq] at h
    obtain ⟨rfl, rfl⟩ := h
    exact ⟨rfl, rfl⟩

/-! ## Trees in and out -/

theorem map_name_modify (slots : List (Slot τ)) (i : Nat) (tree : Option τ) :
    (slots.modify i fun slot => { slot with tree }).map Slot.name = slots.map Slot.name := by
  apply List.ext_getElem?
  intro j
  simp only [List.getElem?_map, List.getElem?_modify]
  split <;> cases slots[j]? <;> rfl

/-- Put something into the slot of a module; an unknown module changes nothing. -/
def putTree (store : ModuleStore τ) (id : ModuleId) (tree : Option τ) : ModuleStore τ :=
  ⟨store.slots.modify id.index (fun slot => { slot with tree }), by
    rw [map_name_modify]
    exact store.names_nodup⟩

def lend (store : ModuleStore τ) (id : ModuleId) : Except Fault (τ × ModuleStore τ) :=
  match store.slot id with
  | .error fault => .error fault
  | .ok slot =>
      match slot.tree with
      | none => .error (.moduleInUse slot.name)
      | some tree => .ok (tree, store.putTree id none)

def restore (store : ModuleStore τ) (id : ModuleId) (tree : τ) : Except Fault (ModuleStore τ) :=
  match store.slot id with
  | .error fault => .error fault
  | .ok _ => .ok (store.putTree id (some tree))

section

variable {store lent restored : ModuleStore τ} {id : ModuleId} {name : String} {tree : τ}
  {held : Option τ}

theorem lend_of_unknown (h : store.slot? id = none) :
    store.lend id = .error (.unknownModule id) := by
  simp [lend, slot, h]

theorem lend_of_lent (h : store.slot? id = some ⟨name, none⟩) :
    store.lend id = .error (.moduleInUse name) := by
  simp [lend, slot, h]

theorem lend_of_present (h : store.slot? id = some ⟨name, some tree⟩) :
    store.lend id = .ok (tree, store.putTree id none) := by
  simp [lend, slot, h]

theorem lend_eq_ok_iff :
    store.lend id = .ok (tree, lent) ↔
      (∃ name, store.slot? id = some ⟨name, some tree⟩) ∧ lent = store.putTree id none := by
  cases h : store.slot? id with
  | none => simp [lend_of_unknown h]
  | some slot =>
      obtain ⟨name, held⟩ := slot
      cases held with
      | none => simp [lend_of_lent h]
      | some tree => simp [lend_of_present h, eq_comm]

theorem restore_of_unknown (h : store.slot? id = none) :
    store.restore id tree = .error (.unknownModule id) := by
  simp [restore, slot, h]

theorem restore_of_known (h : store.slot? id = some ⟨name, held⟩) :
    store.restore id tree = .ok (store.putTree id (some tree)) := by
  simp [restore, slot, h]

theorem restore_eq_ok_iff :
    store.restore id tree = .ok restored ↔
      (∃ slot, store.slot? id = some slot) ∧ restored = store.putTree id (some tree) := by
  cases h : store.slot? id with
  | none => simp [restore_of_unknown h]
  | some slot => simp [restore_of_known h, eq_comm]

end

def updateTree (store : ModuleStore τ) (id : ModuleId) (change : τ → τ) : Option (ModuleStore τ) :=
  (store.tree? id).map fun tree => store.putTree id (some (change tree))

theorem slot?_putTree (store : ModuleStore τ) (id other : ModuleId) (tree : Option τ) :
    (store.putTree id tree).slot? other =
      if id = other then (store.slot? other).map fun slot => { slot with tree }
      else store.slot? other := by
  obtain ⟨i⟩ := id
  obtain ⟨j⟩ := other
  simp only [slot?, putTree, List.getElem?_modify, ModuleId.mk.injEq]
  split <;> simp

@[simp] theorem names_putTree (store : ModuleStore τ) (id : ModuleId) (tree : Option τ) :
    (store.putTree id tree).names = store.names :=
  map_name_modify store.slots id.index tree

@[simp] theorem size_putTree (store : ModuleStore τ) (id : ModuleId) (tree : Option τ) :
    (store.putTree id tree).size = store.size := by
  simp [size, putTree]

end ModuleStore

end PassEngine
