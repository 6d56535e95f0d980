import Mathlib.Data.List.Perm.Subperm
import PassEngine.Agenda
import PassEngine.Proofs.FirstOccurrence

/-!
# Agendas: members and size

What pushing does to membership, and the bound that the absence of repetitions puts on the size.
Pushing a list keeps what is pending in front and adds the first occurrences of what is new.
-/

namespace PassEngine.Agenda

variable {α : Type}

@[simp] theorem isEmpty_iff {agenda : Agenda α} : agenda.isEmpty = true ↔ agenda.toList = [] := by
  simp [isEmpty]

theorem eq_of_toList {agenda other : Agenda α} (h : agenda.toList = other.toList) :
    agenda = other := by
  cases agenda
  cases other
  cases h
  rfl

theorem eq_empty_iff {agenda : Agenda α} : agenda = empty ↔ agenda.toList = [] := by
  constructor
  · intro h
    rw [h, toList_empty]
  · intro h
    exact eq_of_toList h

theorem exists_pop {agenda : Agenda α} (h : agenda.toList ≠ []) :
    ∃ item rest, agenda.pop? = some (item, rest) := by
  cases hp : agenda.pop? with
  | none => exact absurd (pop?_eq_none_iff.mp hp) h
  | some popped => exact ⟨popped.1, popped.2, rfl⟩

theorem size_of_pop? {agenda rest : Agenda α} {item : α} (h : agenda.pop? = some (item, rest)) :
    agenda.size = rest.size + 1 := by
  have hl := congrArg List.length (toList_of_pop? h)
  simpa [size] using hl

theorem size_le_of_subset {agenda : Agenda α} {items : List α} (h : agenda.toList ⊆ items) :
    agenda.size ≤ items.length :=
  (agenda.nodup.subperm h).length_le

variable [DecidableEq α]

theorem mem_push {agenda : Agenda α} {item other : α} :
    other ∈ (agenda.push item).toList ↔ other ∈ agenda.toList ∨ other = item := by
  rw [toList_push]
  split
  · rename_i h
    constructor
    · exact Or.inl
    · rintro (ho | rfl)
      · exact ho
      · exact h
  · simp

theorem mem_pushAll {agenda : Agenda α} {items : List α} {other : α} :
    other ∈ (agenda.pushAll items).2.toList ↔ other ∈ agenda.toList ∨ other ∈ items := by
  induction items generalizing agenda with
  | nil => simp
  | cons item rest ih =>
      rw [pushAll_cons]
      simp only [ih, mem_push, List.mem_cons, or_assoc]

theorem toList_pushAll (agenda : Agenda α) (items : List α) :
    (agenda.pushAll items).2.toList = addNew agenda.toList items := by
  induction items generalizing agenda with
  | nil => rfl
  | cons item rest ih => rw [pushAll_cons, addNew_cons, ih, toList_push]

theorem prefix_pushAll (agenda : Agenda α) (items : List α) :
    agenda.toList <+: (agenda.pushAll items).2.toList := by
  rw [toList_pushAll, addNew_eq]
  exact List.prefix_append _ _

/-- Repetitions among what is pushed make no difference, not even in the count. -/
theorem pushAll_eraseDups (agenda : Agenda α) (items : List α) :
    agenda.pushAll items.eraseDups = agenda.pushAll items := by
  have final : (agenda.pushAll items.eraseDups).2 = (agenda.pushAll items).2 := by
    apply eq_of_toList
    rw [toList_pushAll, toList_pushAll, addNew_eraseDups]
  have count := size_pushAll agenda items.eraseDups
  rw [final, size_pushAll] at count
  exact Prod.ext (Nat.add_left_cancel count).symm final

/-! ## One by one, with answers -/

/-- Put an item at the back unless it is pending, and answer whether it was not. -/
def add (agenda : Agenda α) (item : α) : Bool × Agenda α :=
  (!agenda.contains item, agenda.push item)

/-- Add items one by one. The answers are in the order of the items. -/
def addEach (agenda : Agenda α) : List α → List Bool × Agenda α
  | [] => ([], agenda)
  | item :: rest =>
      let (added, grown) := agenda.add item
      let (answers, final) := grown.addEach rest
      (added :: answers, final)

theorem addEach_append (agenda : Agenda α) (first second : List α) :
    agenda.addEach (first ++ second) =
      ((agenda.addEach first).1 ++ ((agenda.addEach first).2.addEach second).1,
        ((agenda.addEach first).2.addEach second).2) := by
  induction first generalizing agenda with
  | nil => rfl
  | cons item first ih => simp [addEach, ih]

theorem pushAll_eq_addEach (agenda : Agenda α) (items : List α) :
    agenda.pushAll items = ((agenda.addEach items).1.count true, (agenda.addEach items).2) := by
  induction items generalizing agenda with
  | nil => rfl
  | cons item rest ih =>
      cases pending : agenda.contains item with
      | true => simp [addEach, add, pushAll, ih, pending]
      | false => simp [addEach, add, pushAll, ih, pending]

end PassEngine.Agenda
