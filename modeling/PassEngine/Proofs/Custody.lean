import Mathlib.Data.List.Nodup
import PassEngine.Proofs.Program.Tour
import PassEngine.Proofs.Run.Isolation

/-!
# Custody of trees

The owner of a store registers modules, borrows their trees and brings them back. As long as what is
brought back is what was borrowed, no tree is lost and none is there twice: the trees of all modules
that were registered are, one for one, in their slots or with the owner.
-/

namespace PassEngine

variable {τ : Type}

/-! ## Trees in their slots -/

namespace ModuleStore

/-- The trees that are in their slots, each with its module. -/
def inPlace (store : ModuleStore τ) : List (ModuleId × τ) :=
  store.ids.filterMap fun id => (store.tree? id).map fun tree => (id, tree)

variable {store grown lent : ModuleStore τ} {id : ModuleId} {name : String} {tree : τ}

theorem tree?_eq_some_iff :
    store.tree? id = some tree ↔ ∃ name, store.slot? id = some ⟨name, some tree⟩ := by
  unfold tree?
  cases store.slot? id with
  | none => simp
  | some slot =>
      obtain ⟨name, held⟩ := slot
      simp

theorem mem_inPlace : (id, tree) ∈ store.inPlace ↔ store.tree? id = some tree := by
  unfold inPlace
  rw [List.mem_filterMap]
  constructor
  · rintro ⟨other, _, hentry⟩
    obtain ⟨_, htree, hpair⟩ := Option.map_eq_some_iff.mp hentry
    cases hpair
    exact htree
  · intro htree
    obtain ⟨name, hslot⟩ := tree?_eq_some_iff.mp htree
    exact ⟨id, mem_ids.mpr (lt_size_iff.mpr ⟨_, hslot⟩), by rw [htree, Option.map_some]⟩

theorem inPlace_nodup (store : ModuleStore τ) : store.inPlace.Nodup := by
  refine store.ids_nodup.filterMap ?_
  intro first second entry hfirst hsecond
  obtain ⟨_, _, rfl⟩ := Option.map_eq_some_iff.mp hfirst
  obtain ⟨_, _, hpair⟩ := Option.map_eq_some_iff.mp hsecond
  exact (congrArg Prod.fst hpair).symm

/-- A store that differs in one slot, which has got a tree, has one tree more. -/
theorem inPlace_perm_cons (vacant : store.tree? id = none) (filled : grown.tree? id = some tree)
    (others : ∀ other, other ≠ id → grown.tree? other = store.tree? other) :
    grown.inPlace.Perm ((id, tree) :: store.inPlace) := by
  have new : (id, tree) ∉ store.inPlace := by simp [mem_inPlace, vacant]
  have nodup := List.nodup_cons.mpr ⟨new, store.inPlace_nodup⟩
  rw [List.perm_ext_iff_of_nodup grown.inPlace_nodup nodup]
  rintro ⟨other, tree'⟩
  rw [List.mem_cons, mem_inPlace, mem_inPlace]
  by_cases here : other = id
  · simp [here, vacant, filled, eq_comm]
  · simp [here, others other here]

theorem slot?_register (h : store.register name tree = some (id, grown)) (other : ModuleId) :
    grown.slot? other = if other = id then some ⟨name, some tree⟩ else store.slot? other := by
  obtain ⟨rfl, hslots⟩ := slots_of_register h
  obtain ⟨index⟩ := other
  unfold slot? size
  rw [hslots, List.getElem?_append]
  by_cases old : index < store.slots.length
  · have ne : index ≠ store.slots.length := by omega
    simp [old, ne]
  · by_cases here : index = store.slots.length
    · simp [here]
    · have beyond : index - store.slots.length ≠ 0 := by omega
      simp [old, here, beyond]

theorem inPlace_register (h : store.register name tree = some (id, grown)) :
    grown.inPlace.Perm ((id, tree) :: store.inPlace) := by
  have hslot := slot?_register h
  have vacant : store.slot? id = none := by
    rw [(slots_of_register h).1]
    simp [slot?, size]
  apply inPlace_perm_cons
  · simp [tree?, vacant]
  · simp [tree?, hslot]
  · intro other ne
    simp [tree?, hslot, ne]

/-- A tree that is put into an empty slot is one tree more. -/
theorem inPlace_putTree (out : store.slot? id = some ⟨name, none⟩) (tree : τ) :
    (store.putTree id (some tree)).inPlace.Perm ((id, tree) :: store.inPlace) := by
  apply inPlace_perm_cons
  · simp [tree?, out]
  · simp [tree?, slot?_putTree, out]
  · intro other ne
    simp [tree?, slot?_putTree, ne.symm]

theorem putTree_of_held {held : Option τ} (h : store.slot? id = some ⟨name, held⟩) :
    store.putTree id held = store := by
  apply ext_slot?
  intro other
  rw [slot?_putTree]
  by_cases here : id = other
  · rw [if_pos here, ← here, h]
    rfl
  · rw [if_neg here]

/-- A store that has lent a tree is the one before with an empty slot. -/
theorem of_lend (h : store.lend id = .ok (tree, lent)) :
    ∃ name, lent.slot? id = some ⟨name, none⟩ ∧ lent.putTree id (some tree) = store := by
  obtain ⟨⟨name, hslot⟩, rfl⟩ := lend_eq_ok_iff.mp h
  refine ⟨name, by simp [slot?_putTree, hslot], ?_⟩
  rw [putTree_putTree, putTree_of_held hslot]

theorem restore_of_lend (h : store.lend id = .ok (tree, lent)) :
    lent.restore id tree = .ok store := by
  obtain ⟨name, out, back⟩ := of_lend h
  rw [restore_of_known out, back]

theorem inPlace_of_lend (h : store.lend id = .ok (tree, lent)) :
    store.inPlace.Perm ((id, tree) :: lent.inPlace) := by
  obtain ⟨name, out, back⟩ := of_lend h
  rw [← back]
  exact inPlace_putTree out tree

end ModuleStore

/-! ## What the owner does -/

/-- What the owner of a store can do with it. -/
inductive Handling (τ : Type) where
  | register (name : String) (tree : τ)
  | lend (id : ModuleId)
  | restore (id : ModuleId) (tree : τ)

/-- A store and what its owner knows about it. -/
structure Custody (τ : Type) where
  store : ModuleStore τ
  /-- What was registered, in order. -/
  registered : List (String × τ)
  /-- The trees that the owner has borrowed and not brought back, latest first. -/
  held : List (ModuleId × τ) := []

namespace Custody

/-- The modules whose trees are with the owner. -/
def borrowed (custody : Custody τ) : List ModuleId := custody.held.map Prod.fst

/-- The trees of all modules that were registered. The first one registered is the first module. -/
def owed (custody : Custody τ) : List (ModuleId × τ) :=
  custody.registered.zipIdx.map fun entry => (⟨entry.2⟩, entry.1.2)

/-- The custody after the owner has done something, or has tried to. -/
def perform (custody : Custody τ) : Handling τ → Custody τ
  | .register name tree =>
      match custody.store.register name tree with
      | none => custody
      | some (_, store) =>
          { custody with store, registered := custody.registered ++ [(name, tree)] }
  | .lend id =>
      match custody.store.lend id with
      | .error _ => custody
      | .ok (tree, store) => { custody with store, held := (id, tree) :: custody.held }
  | .restore id tree =>
      match custody.store.restore id tree with
      | .error _ => custody
      | .ok store => { custody with store, held := custody.held.eraseP (·.1 == id) }

/-- A tree that the store takes back is the one that was borrowed last from its slot and was not
brought back. -/
def Honest (custody : Custody τ) : Handling τ → Prop
  | .restore id tree => (∃ restored, custody.store.restore id tree = .ok restored) →
      custody.held.lookup id = some tree
  | _ => True

/-- The store refuses what the owner tries. -/
def Refuses (custody : Custody τ) : Handling τ → Prop
  | .register name tree => custody.store.register name tree = none
  | .lend id => ∃ fault, custody.store.lend id = .error fault
  | .restore id tree => ∃ fault, custody.store.restore id tree = .error fault

def performAll : Custody τ → List (Handling τ) → Custody τ := List.foldl perform

def HonestAll : Custody τ → List (Handling τ) → Prop
  | _, [] => True
  | custody, handling :: rest => custody.Honest handling ∧ HonestAll (custody.perform handling) rest

variable {custody : Custody τ} {handling : Handling τ} {id : ModuleId} {name : String} {tree : τ}

theorem perform_of_refuses (h : custody.Refuses handling) : custody.perform handling = custody := by
  cases handling with
  | register name tree =>
      have refused : custody.store.register name tree = none := h
      simp [perform, refused]
  | lend id =>
      obtain ⟨fault, refused⟩ := h
      simp [perform, refused]
  | restore id tree =>
      obtain ⟨fault, refused⟩ := h
      simp [perform, refused]

/-! ## Where the trees are -/

/-- Every registered module is in the store, in order, and its tree is in its slot or with the
owner: no tree is lost, and none is there twice. -/
structure Accounted (custody : Custody τ) : Prop where
  names : custody.store.names = custody.registered.map Prod.fst
  conserved : (custody.store.inPlace ++ custody.held).Perm custody.owed

theorem mem_owed :
    (id, tree) ∈ custody.owed ↔ ∃ name, custody.registered[id.index]? = some (name, tree) := by
  unfold owed
  rw [List.mem_map]
  constructor
  · rintro ⟨⟨⟨name, _⟩, _⟩, hentry, hpair⟩
    cases hpair
    exact ⟨name, List.mem_zipIdx_iff_getElem?.mp hentry⟩
  · rintro ⟨name, hregistered⟩
    exact ⟨((name, tree), id.index), List.mem_zipIdx_iff_getElem?.mpr hregistered, rfl⟩

theorem owed_nodup (custody : Custody τ) : (custody.owed.map Prod.fst).Nodup := by
  have ids : custody.owed.map Prod.fst =
      (List.range' 0 custody.registered.length).map ModuleId.mk := by
    rw [← List.zipIdx_map_snd, owed, List.map_map, List.map_map]
    rfl
  rw [ids]
  exact (List.nodup_range').map fun _ _ h => ModuleId.mk.inj h

namespace Accounted

theorem nodup (accounted : custody.Accounted) :
    ((custody.store.inPlace ++ custody.held).map Prod.fst).Nodup :=
  ((accounted.conserved.map Prod.fst).nodup_iff).mpr custody.owed_nodup

theorem nameOf_iff (accounted : custody.Accounted) :
    custody.store.nameOf id = .ok name ↔
      ∃ tree, custody.registered[id.index]? = some (name, tree) := by
  rw [ModuleStore.nameOf_eq_ok_iff_getElem?, accounted.names, List.getElem?_map,
    Option.map_eq_some_iff]
  constructor
  · rintro ⟨⟨_, tree⟩, hentry, rfl⟩
    exact ⟨tree, hentry⟩
  · rintro ⟨tree, hentry⟩
    exact ⟨(name, tree), hentry, rfl⟩

theorem registered_of_slot? (accounted : custody.Accounted) {held : Option τ}
    (hslot : custody.store.slot? id = some ⟨name, held⟩) :
    ∃ tree, custody.registered[id.index]? = some (name, tree) :=
  accounted.nameOf_iff.mp (ModuleStore.nameOf_eq_ok_iff.mpr ⟨_, hslot, rfl⟩)

/-- A tree in a slot is the one that was registered, and the owner does not hold it. -/
theorem of_present (accounted : custody.Accounted)
    (hslot : custody.store.slot? id = some ⟨name, some tree⟩) :
    custody.registered[id.index]? = some (name, tree) ∧ id ∉ custody.borrowed := by
  have here : (id, tree) ∈ custody.store.inPlace :=
    ModuleStore.mem_inPlace.mpr (ModuleStore.tree?_eq_some_iff.mpr ⟨name, hslot⟩)
  constructor
  · obtain ⟨other, hentry⟩ := mem_owed.mp
      (accounted.conserved.subset (List.mem_append_left _ here))
    obtain ⟨_, hnamed⟩ := accounted.registered_of_slot? hslot
    cases hentry.symm.trans hnamed
    exact hentry
  · intro there
    -- the module would be there twice
    have nodup := accounted.nodup
    rw [List.map_append, List.nodup_append] at nodup
    exact nodup.2.2 id (List.mem_map_of_mem here) id there rfl

/-- A tree that is not in its slot is with the owner. -/
theorem of_lent (accounted : custody.Accounted)
    (hslot : custody.store.slot? id = some ⟨name, none⟩) :
    ∃ tree, custody.registered[id.index]? = some (name, tree) ∧ (id, tree) ∈ custody.held := by
  obtain ⟨tree, hentry⟩ := accounted.registered_of_slot? hslot
  refine ⟨tree, hentry, ?_⟩
  rcases List.mem_append.mp (accounted.conserved.symm.subset (mem_owed.mpr ⟨name, hentry⟩)) with
    here | there
  · simp [ModuleStore.mem_inPlace, ModuleStore.tree?, hslot] at here
  · exact there

theorem mem_borrowed_iff (accounted : custody.Accounted) :
    id ∈ custody.borrowed ↔ ∃ name, custody.store.slot? id = some ⟨name, none⟩ := by
  constructor
  · intro there
    obtain ⟨⟨_, tree⟩, hheld, rfl⟩ := List.mem_map.mp there
    obtain ⟨name, hentry⟩ := mem_owed.mp
      (accounted.conserved.subset (List.mem_append_right _ hheld))
    obtain ⟨slot, hslot, rfl⟩ :=
      ModuleStore.nameOf_eq_ok_iff.mp (accounted.nameOf_iff.mpr ⟨tree, hentry⟩)
    obtain ⟨name, held⟩ := slot
    cases held with
    | none => exact ⟨name, hslot⟩
    | some present => exact absurd there (accounted.of_present hslot).2
  · rintro ⟨name, hslot⟩
    obtain ⟨tree, _, hheld⟩ := accounted.of_lent hslot
    exact List.mem_map_of_mem hheld

end Accounted

/-! ## What is done to them -/

theorem perform_cases (custody : Custody τ) (handling : Handling τ) :
    custody.Refuses handling ∨
      (∃ name tree id grown, handling = .register name tree ∧
        custody.store.register name tree = some (id, grown) ∧
        custody.perform handling =
          ⟨grown, custody.registered ++ [(name, tree)], custody.held⟩) ∨
      (∃ id tree lent, handling = .lend id ∧ custody.store.lend id = .ok (tree, lent) ∧
        custody.perform handling = ⟨lent, custody.registered, (id, tree) :: custody.held⟩) ∨
      ∃ id tree restored, handling = .restore id tree ∧
        custody.store.restore id tree = .ok restored ∧
        custody.perform handling =
          ⟨restored, custody.registered, custody.held.eraseP (·.1 == id)⟩ := by
  cases handling with
  | register name tree =>
      cases h : custody.store.register name tree with
      | none => exact Or.inl h
      | some result =>
          obtain ⟨id, grown⟩ := result
          exact Or.inr (Or.inl ⟨name, tree, id, grown, rfl, h, by simp [perform, h]⟩)
  | lend id =>
      cases h : custody.store.lend id with
      | error fault => exact Or.inl ⟨fault, h⟩
      | ok result =>
          obtain ⟨tree, lent⟩ := result
          exact Or.inr (Or.inr (Or.inl ⟨id, tree, lent, rfl, h, by simp [perform, h]⟩))
  | restore id tree =>
      cases h : custody.store.restore id tree with
      | error fault => exact Or.inl ⟨fault, h⟩
      | ok restored =>
          exact Or.inr (Or.inr (Or.inr ⟨id, tree, restored, rfl, h, by simp [perform, h]⟩))

namespace Accounted

theorem register (accounted : custody.Accounted) {grown : ModuleStore τ}
    (h : custody.store.register name tree = some (id, grown)) :
    (Custody.mk grown (custody.registered ++ [(name, tree)]) custody.held).Accounted where
  names := by simp [ModuleStore.names_of_register h, accounted.names]
  conserved := by
    have hlength : custody.registered.length = custody.store.size := by
      simpa [ModuleStore.names, ModuleStore.size] using
        (congrArg List.length accounted.names).symm
    have owed : (Custody.mk grown (custody.registered ++ [(name, tree)]) custody.held).owed =
        custody.owed ++ [(id, tree)] := by
      simp [Custody.owed, List.zipIdx_append, hlength, (ModuleStore.slots_of_register h).1]
    rw [owed]
    have added : (grown.inPlace ++ custody.held).Perm ((id, tree) :: custody.owed) :=
      ((ModuleStore.inPlace_register h).append_right custody.held).trans
        (accounted.conserved.cons (id, tree))
    exact added.trans (List.perm_append_singleton (id, tree) custody.owed).symm

theorem lend (accounted : custody.Accounted) {lent : ModuleStore τ}
    (h : custody.store.lend id = .ok (tree, lent)) :
    (Custody.mk lent custody.registered ((id, tree) :: custody.held)).Accounted where
  names := by
    obtain ⟨_, rfl⟩ := ModuleStore.lend_eq_ok_iff.mp h
    simp [accounted.names]
  conserved := by
    have moved : (lent.inPlace ++ (id, tree) :: custody.held).Perm
        (custody.store.inPlace ++ custody.held) :=
      List.perm_middle.trans ((ModuleStore.inPlace_of_lend h).symm.append_right custody.held)
    exact moved.trans accounted.conserved

theorem restore (accounted : custody.Accounted) {restored : ModuleStore τ}
    (h : custody.store.restore id tree = .ok restored)
    (last : custody.held.lookup id = some tree) :
    (Custody.mk restored custody.registered (custody.held.eraseP (·.1 == id))).Accounted where
  names := by
    obtain ⟨_, rfl⟩ := ModuleStore.restore_eq_ok_iff.mp h
    simp [accounted.names]
  conserved := by
    -- the tree was out, so that its slot is empty and can be filled
    obtain ⟨later, earlier, hheld, others⟩ := List.lookup_eq_some_iff.mp last
    have there : id ∈ custody.borrowed := by simp [borrowed, hheld]
    obtain ⟨name, hslot⟩ := accounted.mem_borrowed_iff.mp there
    obtain ⟨_, rfl⟩ := ModuleStore.restore_eq_ok_iff.mp h
    have unlike : ∀ entry ∈ later, ¬(entry.1 == id) = true := by
      intro entry hentry same
      simpa [beq_iff_eq.mp same] using others entry hentry
    have returned : custody.held.eraseP (·.1 == id) = later ++ earlier := by
      rw [hheld, List.eraseP_append_right _ unlike]
      simp
    have moved : ((custody.store.putTree id (some tree)).inPlace ++ (later ++ earlier)).Perm
        (custody.store.inPlace ++ custody.held) := by
      rw [hheld]
      exact ((ModuleStore.inPlace_putTree hslot tree).append_right _).trans
        (List.perm_middle.symm.trans (List.perm_middle.symm.append_left _))
    rw [returned]
    exact moved.trans accounted.conserved

end Accounted

theorem Accounted.perform (accounted : custody.Accounted) (honest : custody.Honest handling) :
    (custody.perform handling).Accounted := by
  rcases custody.perform_cases handling with refuses | ⟨name, tree, id, grown, rfl, h, after⟩ |
    ⟨id, tree, lent, rfl, h, after⟩ | ⟨id, tree, restored, rfl, h, after⟩
  · rw [perform_of_refuses refuses]
    exact accounted
  · rw [after]
    exact accounted.register h
  · rw [after]
    exact accounted.lend h
  · rw [after]
    exact accounted.restore h (honest ⟨restored, h⟩)

theorem Accounted.performAll {handlings : List (Handling τ)} (accounted : custody.Accounted)
    (honest : custody.HonestAll handlings) : (custody.performAll handlings).Accounted := by
  induction handlings generalizing custody with
  | nil => exact accounted
  | cons handling rest ih => exact ih (accounted.perform honest.1) honest.2

/-! ## What the owner can rely on -/

namespace Accounted

/-- A module is unknown, or its tree is in its slot, or the owner has borrowed it. -/
theorem cases (accounted : custody.Accounted) (id : ModuleId) :
    (custody.store.slot? id = none ∧ id ∉ custody.store.ids ∧ id ∉ custody.borrowed) ∨
      (∃ name tree, custody.store.slot? id = some ⟨name, some tree⟩ ∧
        id ∈ custody.store.ids ∧ id ∉ custody.borrowed) ∨
      ∃ name, custody.store.slot? id = some ⟨name, none⟩ ∧
        id ∈ custody.store.ids ∧ id ∈ custody.borrowed := by
  rw [ModuleStore.mem_ids, ModuleStore.lt_size_iff, accounted.mem_borrowed_iff]
  cases custody.store.slot? id with
  | none => simp
  | some slot =>
      obtain ⟨name, held⟩ := slot
      cases held with
      | none => simp
      | some tree => simp

theorem lend_ok_iff (accounted : custody.Accounted) :
    (∃ tree lent, custody.store.lend id = .ok (tree, lent)) ↔
      id ∈ custody.store.ids ∧ id ∉ custody.borrowed := by
  rcases accounted.cases id with ⟨h, known, there⟩ | ⟨_, _, h, known, there⟩ | ⟨_, h, known, there⟩
  · simp [ModuleStore.lend_of_unknown h, known]
  · simp [ModuleStore.lend_of_present h, known, there]
  · simp [ModuleStore.lend_of_lent h, there]

theorem lend_unknown_iff (accounted : custody.Accounted) :
    custody.store.lend id = .error (.unknownModule id) ↔ id ∉ custody.store.ids := by
  rcases accounted.cases id with ⟨h, known, _⟩ | ⟨_, _, h, known, _⟩ | ⟨_, h, known, _⟩
  · simp [ModuleStore.lend_of_unknown h, known]
  · simp [ModuleStore.lend_of_present h, known]
  · simp [ModuleStore.lend_of_lent h, known]

theorem lend_inUse_iff (accounted : custody.Accounted) :
    custody.store.lend id = .error (.moduleInUse name) ↔
      custody.store.nameOf id = .ok name ∧ id ∈ custody.borrowed := by
  rw [ModuleStore.nameOf_eq_ok_iff]
  rcases accounted.cases id with ⟨h, _, there⟩ | ⟨_, _, h, _, there⟩ | ⟨_, h, _, there⟩
  · simp [ModuleStore.lend_of_unknown h, there]
  · simp [ModuleStore.lend_of_present h, there]
  · simp [ModuleStore.lend_of_lent h, there, h]

theorem tree?_eq_none_iff (accounted : custody.Accounted) :
    custody.store.tree? id = none ↔ id ∉ custody.store.ids ∨ id ∈ custody.borrowed := by
  rcases accounted.cases id with ⟨h, known, _⟩ | ⟨_, _, h, known, there⟩ | ⟨_, h, _, there⟩
  · simp [ModuleStore.tree?, h, known]
  · simp [ModuleStore.tree?, h, known, there]
  · simp [ModuleStore.tree?, h, there]

theorem slot?_eq (accounted : custody.Accounted) (id : ModuleId) :
    custody.store.slot? id = custody.registered[id.index]?.map fun module =>
      ⟨module.1, if id ∈ custody.borrowed then none else some module.2⟩ := by
  rcases accounted.cases id with ⟨h, _, _⟩ | ⟨name, tree, h, _, there⟩ | ⟨name, h, _, there⟩
  · cases hentry : custody.registered[id.index]? with
    | none => exact h
    | some module =>
        obtain ⟨slot, hslot, _⟩ :=
          ModuleStore.nameOf_eq_ok_iff.mp (accounted.nameOf_iff.mpr ⟨module.2, hentry⟩)
        cases h.symm.trans hslot
  · rw [h, (accounted.of_present h).1]
    simp [there]
  · obtain ⟨tree, hentry⟩ := accounted.registered_of_slot? h
    rw [h, hentry]
    simp [there]

/-- The trees that are there are those that are not borrowed, as they were registered. -/
theorem trees_eq (accounted : custody.Accounted) :
    custody.store.trees = (custody.registered.zipIdx.filter fun entry =>
      (⟨entry.2⟩ : ModuleId) ∉ custody.borrowed).map Prod.fst := by
  have slots : custody.store.slots = custody.registered.zipIdx.map fun entry =>
      ⟨entry.1.1, if ⟨entry.2⟩ ∈ custody.borrowed then none else some entry.1.2⟩ := by
    apply List.ext_getElem?
    intro index
    have hslot : custody.store.slots[index]? = _ := accounted.slot?_eq ⟨index⟩
    rw [hslot]
    simp [List.getElem?_zipIdx, Function.comp_def]
  unfold ModuleStore.trees
  rw [slots, List.filterMap_map, ← List.filterMap_eq_map, List.filterMap_filter]
  apply List.filterMap_congr
  intro entry _
  by_cases there : (⟨entry.2⟩ : ModuleId) ∈ custody.borrowed
  · simp [there]
  · simp [there]

end Accounted

theorem accounted_of_adds {modules : List (String × τ)} {store : ModuleStore τ}
    (h : ModuleStore.empty.Adds modules store) : (Custody.mk store modules []).Accounted where
  names := by simpa [ModuleStore.names, ModuleStore.empty] using ModuleStore.names_of_adds h
  conserved := by
    have slot : ∀ id, store.slot? id =
        modules[id.index]?.map fun module => ⟨module.1, some module.2⟩ := by
      intro id
      simp [ModuleStore.slot?, show store.slots = _ from h, ModuleStore.empty]
    rw [List.append_nil, List.perm_ext_iff_of_nodup store.inPlace_nodup (owed_nodup _).of_map]
    rintro ⟨id, tree⟩
    rw [ModuleStore.mem_inPlace, ModuleStore.tree?_eq_some_iff, mem_owed]
    simp [slot]

/-- Whatever the owner of a new store registers, borrows and brings back, as long as it brings back
what it borrowed: the trees of the registered modules are, one for one, in their slots or with the
owner. A tree can be borrowed if the module is known and the tree is there, and if not, it is said
which of the two it is. What is refused changes nothing, a tree that is borrowed and brought back
at once leaves the store as it was, and the trees to be had in the end are those that are there. -/
theorem trees_conserved {modules : List (String × τ)} {store : ModuleStore τ}
    (new : ModuleStore.empty.Adds modules store) {handlings : List (Handling τ)}
    (honest : (Custody.mk store modules []).HonestAll handlings) :
    let custody := (Custody.mk store modules []).performAll handlings
    custody.store.names = custody.registered.map Prod.fst ∧
    (custody.store.inPlace ++ custody.held).Perm custody.owed ∧
    (∀ id, (∃ tree lent, custody.store.lend id = .ok (tree, lent)) ↔
      id ∈ custody.store.ids ∧ id ∉ custody.borrowed) ∧
    (∀ id, custody.store.lend id = .error (.unknownModule id) ↔ id ∉ custody.store.ids) ∧
    (∀ id name, custody.store.lend id = .error (.moduleInUse name) ↔
      custody.store.nameOf id = .ok name ∧ id ∈ custody.borrowed) ∧
    (∀ handling, custody.Refuses handling → custody.perform handling = custody) ∧
    (∀ id, custody.store.tree? id = none ↔ id ∉ custody.store.ids ∨ id ∈ custody.borrowed) ∧
    (∀ id tree lent, custody.store.lend id = .ok (tree, lent) →
      lent.restore id tree = .ok custody.store) ∧
    custody.store.trees = (custody.registered.zipIdx.filter fun entry =>
      (⟨entry.2⟩ : ModuleId) ∉ custody.borrowed).map Prod.fst := by
  intro custody
  have accounted : custody.Accounted := (accounted_of_adds new).performAll honest
  exact ⟨accounted.names, accounted.conserved, fun _ => accounted.lend_ok_iff,
    fun _ => accounted.lend_unknown_iff, fun _ _ => accounted.lend_inUse_iff,
    fun _ => perform_of_refuses, fun _ => accounted.tree?_eq_none_iff,
    fun _ _ _ => ModuleStore.restore_of_lend, accounted.trees_eq⟩

/-- Two trees are out at a time while another module is registered, and one of them comes back. -/
def errands : List (Handling Nat) :=
  [.register "util" 2, .lend ⟨0⟩, .register "main" 9, .lend ⟨0⟩, .lend ⟨1⟩, .register "late" 3,
    .restore ⟨0⟩ 1, .lend ⟨7⟩]

theorem trees_conserved_errands :
    let start : Custody Nat := ⟨.singleton "main" 1, [("main", 1)], []⟩
    let custody := start.performAll errands
    ModuleStore.empty.Adds [("main", 1)] start.store ∧ start.HonestAll errands ∧
      custody.registered = [("main", 1), ("util", 2), ("late", 3)] ∧ custody.held = [(⟨1⟩, 2)] ∧
      (custody.store.inPlace ++ custody.held).Perm custody.owed ∧
      custody.store.lend ⟨7⟩ = .error (.unknownModule ⟨7⟩) ∧
      custody.store.lend ⟨1⟩ = .error (.moduleInUse "util") ∧
      custody.store.trees = [("main", 1), ("late", 3)] := by
  intro start custody
  have new : ModuleStore.empty.Adds [("main", 1)] start.store := rfl
  have honest : start.HonestAll errands := by
    have returned : (start.performAll (errands.take 6)).held.lookup ⟨0⟩ = some 1 := by decide
    simp only [errands, HonestAll]
    refine ⟨trivial, trivial, trivial, trivial, trivial, trivial, ?_, trivial, trivial⟩
    exact fun _ => returned
  have registered : custody.registered = [("main", 1), ("util", 2), ("late", 3)] := by decide
  have held : custody.held = [(⟨1⟩, 2)] := by decide
  obtain ⟨names, conserved, _, unknown, inUse, _, _, _, trees⟩ := trees_conserved new honest
  have borrowed : custody.borrowed = [⟨1⟩] := by simp [Custody.borrowed, held]
  have out : ⟨1⟩ ∈ custody.borrowed := by simp [borrowed]
  have named : custody.store.nameOf ⟨1⟩ = .ok "util" := by
    rw [ModuleStore.nameOf_eq_ok_iff_getElem?, names, registered]
    rfl
  refine ⟨new, honest, registered, held, conserved, (unknown ⟨7⟩).mpr (by decide),
    (inUse ⟨1⟩ "util").mpr ⟨named, out⟩, ?_⟩
  rw [trees, registered, borrowed]
  decide

end Custody

end PassEngine
