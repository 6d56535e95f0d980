/-!
# Agendas

An `Agenda` is the list of what is still to be done, first come first served, in which nothing
stands twice: what is pending already keeps its place when it is asked for again.
-/

namespace PassEngine

/-- Pending items from front to back, each at most once. -/
structure Agenda (α : Type) where
  toList : List α
  nodup : toList.Nodup
deriving DecidableEq

namespace Agenda

variable {α : Type}

def empty : Agenda α := ⟨[], List.nodup_nil⟩

@[simp] theorem toList_empty : (empty : Agenda α).toList = [] := rfl

def size (agenda : Agenda α) : Nat := agenda.toList.length

def isEmpty (agenda : Agenda α) : Bool := agenda.toList.isEmpty

def pop? (agenda : Agenda α) : Option (α × Agenda α) :=
  match h : agenda.toList with
  | [] => none
  | item :: rest => some (item, ⟨rest, (List.nodup_cons.mp (h ▸ agenda.nodup)).2⟩)

theorem pop?_eq_none_iff {agenda : Agenda α} : agenda.pop? = none ↔ agenda.toList = [] := by
  unfold pop?
  split <;> simp_all

theorem toList_of_pop? {agenda rest : Agenda α} {item : α}
    (h : agenda.pop? = some (item, rest)) : agenda.toList = item :: rest.toList := by
  unfold pop? at h
  split at h
  · simp at h
  · rename_i hl
    simp only [Option.some.injEq, Prod.mk.injEq] at h
    obtain ⟨rfl, rfl⟩ := h
    exact hl

/-! ## Pushing -/

variable [DecidableEq α]

def contains (agenda : Agenda α) (item : α) : Bool := agenda.toList.contains item

@[simp] theorem contains_iff {agenda : Agenda α} {item : α} :
    agenda.contains item = true ↔ item ∈ agenda.toList := by
  simp [contains]

/-- Put an item at the back unless it is pending. -/
def push (agenda : Agenda α) (item : α) : Agenda α :=
  if h : item ∈ agenda.toList then agenda
  else
    ⟨agenda.toList ++ [item], by
      rw [List.nodup_append]
      refine ⟨agenda.nodup, by simp, ?_⟩
      intro a ha b hb hab
      rw [List.mem_singleton.mp hb] at hab
      exact h (hab ▸ ha)⟩

/-- Push every item of a list in order and count those that were not pending. -/
def pushAll (agenda : Agenda α) : List α → Nat × Agenda α
  | [] => (0, agenda)
  | item :: rest =>
      let (count, final) := (agenda.push item).pushAll rest
      (if agenda.contains item then count else count + 1, final)

theorem toList_push (agenda : Agenda α) (item : α) :
    (agenda.push item).toList =
      if item ∈ agenda.toList then agenda.toList else agenda.toList ++ [item] := by
  unfold push
  split <;> simp_all

theorem size_push (agenda : Agenda α) (item : α) :
    (agenda.push item).size = if item ∈ agenda.toList then agenda.size else agenda.size + 1 := by
  unfold size
  rw [toList_push]
  split <;> simp

@[simp] theorem pushAll_nil (agenda : Agenda α) : agenda.pushAll [] = (0, agenda) := rfl

theorem pushAll_cons (agenda : Agenda α) (item : α) (rest : List α) :
    agenda.pushAll (item :: rest) =
      ((if item ∈ agenda.toList then 0 else 1) + ((agenda.push item).pushAll rest).1,
        ((agenda.push item).pushAll rest).2) := by
  by_cases h : item ∈ agenda.toList
  · simp [pushAll, h]
  · simp [pushAll, h, Nat.add_comm]

/-- The count of `pushAll` is how much the agenda grows. -/
theorem size_pushAll (agenda : Agenda α) (items : List α) :
    (agenda.pushAll items).2.size = agenda.size + (agenda.pushAll items).1 := by
  induction items generalizing agenda with
  | nil => rfl
  | cons item rest ih =>
      rw [pushAll_cons, ih, size_push]
      split <;> omega

end Agenda

end PassEngine
