import PassEngine.Proofs.Agenda

/-!
# What goes into an agenda comes out of it

An agenda may be used in any order: items are added one by one or by the list, the front is taken,
or everything is dropped. Whatever was inserted since the agenda was last empty by order is either
popped by now or pending, and both together are in the order of insertion. An item counts as
inserted when the agenda did not have it at its turn, so that it may come back after it was popped,
and until then asking for it again is without effect.
-/

namespace PassEngine.Agenda

variable {α : Type}

/-! ## Operations -/

/-- One use of an agenda. -/
inductive Operation (α : Type) where
  /-- Put an item at the back. -/
  | add (item : α)
  /-- Put every item of a list at the back, in order. -/
  | extend (items : List α)
  /-- Take the item at the front. -/
  | pop
  /-- Drop everything. -/
  | clear
deriving DecidableEq

/-- What an agenda answers. -/
inductive Answer (α : Type) where
  /-- Whether the item was not pending. -/
  | added (new : Bool)
  /-- How many items were not pending. -/
  | extended (count : Nat)
  /-- The item that was at the front, if anything was pending. -/
  | popped (item : Option α)
  | cleared
deriving DecidableEq

/-- The item that an answer hands out. -/
def Answer.item? : Answer α → Option α
  | .popped item => item
  | _ => none

/-- The items that answers hand out, in order. -/
def handedOut (answers : List (Answer α)) : List α := answers.filterMap Answer.item?

namespace Operation

/-- The items that an operation asks to insert. -/
def items : Operation α → List α
  | .add item => [item]
  | .extend items => items
  | .pop | .clear => []

/-- The answer that inserts nothing and takes nothing. -/
def refusal : Operation α → Answer α
  | .add _ => .added false
  | .extend _ => .extended 0
  | .pop => .popped none
  | .clear => .cleared

/-- Whether the operation inserts, as opposed to taking away. -/
def Inserts : Operation α → Prop
  | .add _ | .extend _ => True
  | .pop | .clear => False

end Operation

variable [DecidableEq α]

/-- Carry out one operation. -/
def perform (agenda : Agenda α) : Operation α → Answer α × Agenda α
  | .add item =>
      let (new, grown) := agenda.add item
      (.added new, grown)
  | .extend items =>
      let (count, grown) := agenda.pushAll items
      (.extended count, grown)
  | .pop =>
      match agenda.pop? with
      | none => (.popped none, agenda)
      | some (item, rest) => (.popped (some item), rest)
  | .clear => (.cleared, .empty)

/-- Carry out operations in order and collect the answers. -/
def performAll (agenda : Agenda α) : List (Operation α) → List (Answer α) × Agenda α
  | [] => ([], agenda)
  | operation :: rest =>
      let (answer, next) := agenda.perform operation
      let (answers, final) := next.performAll rest
      (answer :: answers, final)

/-- The items of a list that are new to the agenda, each at its turn. -/
def accepted (agenda : Agenda α) : List α → List α
  | [] => []
  | item :: rest =>
      let (new, grown) := agenda.add item
      if new then item :: grown.accepted rest else grown.accepted rest

/-- The items that operations insert, in order: those they ask for and the agenda does not have. -/
def inserted (agenda : Agenda α) : List (Operation α) → List α
  | [] => []
  | operation :: rest =>
      agenda.accepted operation.items ++ (agenda.perform operation).2.inserted rest

theorem perform_add (agenda : Agenda α) (item : α) :
    agenda.perform (.add item) = (.added (agenda.add item).1, (agenda.add item).2) := rfl

theorem perform_extend (agenda : Agenda α) (items : List α) :
    agenda.perform (.extend items) =
      (.extended (agenda.pushAll items).1, (agenda.pushAll items).2) := rfl

theorem performAll_cons (agenda : Agenda α) (operation : Operation α) (rest : List (Operation α)) :
    agenda.performAll (operation :: rest) =
      ((agenda.perform operation).1 :: ((agenda.perform operation).2.performAll rest).1,
        ((agenda.perform operation).2.performAll rest).2) := rfl

/-! ## One operation -/

section Insertion

variable {agenda : Agenda α} {item : α} {items : List α}

theorem accepted_cons (agenda : Agenda α) (item : α) (rest : List α) :
    agenda.accepted (item :: rest) =
      (if item ∈ agenda.toList then [] else [item]) ++ (agenda.push item).accepted rest := by
  by_cases pending : item ∈ agenda.toList <;> simp [accepted, add, contains, pending]

theorem toList_pushAll_accepted (agenda : Agenda α) (items : List α) :
    (agenda.pushAll items).2.toList = agenda.toList ++ agenda.accepted items := by
  induction items generalizing agenda with
  | nil => simp [accepted]
  | cons item rest ih =>
      rw [pushAll_cons, ih, toList_push, accepted_cons]
      split <;> simp

theorem pushAll_fst (agenda : Agenda α) (items : List α) :
    (agenda.pushAll items).1 = (agenda.accepted items).length := by
  have grown := size_pushAll agenda items
  unfold size at grown
  rw [toList_pushAll_accepted, List.length_append] at grown
  exact (Nat.add_left_cancel grown).symm

theorem add_eq_pushAll (agenda : Agenda α) (item : α) :
    (agenda.add item).2 = (agenda.pushAll [item]).2 := rfl

theorem add_fst_eq_true_iff : (agenda.add item).1 = true ↔ item ∉ agenda.toList := by
  simp [add, contains]

theorem add_of_pending (pending : item ∈ agenda.toList) : agenda.add item = (false, agenda) := by
  simp [add, contains, push, pending]

theorem pushAll_of_pending (pending : items ⊆ agenda.toList) :
    agenda.pushAll items = (0, agenda) := by
  induction items with
  | nil => rfl
  | cons item rest ih =>
      have here : item ∈ agenda.toList := pending List.mem_cons_self
      have kept : agenda.push item = agenda := congrArg Prod.snd (add_of_pending here)
      rw [pushAll_cons, kept, ih (List.subset_of_cons_subset pending)]
      simp [here]

end Insertion

section

variable {agenda : Agenda α} {operation again : Operation α}

/-- An operation that inserts pushes the items that it asks for. -/
theorem perform_of_inserts (inserts : operation.Inserts) :
    (agenda.perform operation).2 = (agenda.pushAll operation.items).2 := by
  cases operation with
  | add item => exact add_eq_pushAll agenda item
  | extend items => rfl
  | pop => exact inserts.elim
  | clear => exact inserts.elim

/-- The items that an operation asks for are pending if it is asked again. -/
theorem perform_of_pending (inserts : again.Inserts) (pending : again.items ⊆ agenda.toList) :
    agenda.perform again = (again.refusal, agenda) := by
  cases again with
  | add item =>
      rw [perform_add, add_of_pending (pending (List.mem_singleton_self item))]
      rfl
  | extend items =>
      rw [perform_extend, pushAll_of_pending (show items ⊆ agenda.toList from pending)]
      rfl
  | pop => exact inserts.elim
  | clear => exact inserts.elim

/-- The item at the front is handed out, if there is one. -/
theorem perform_pop (agenda : Agenda α) :
    (agenda.perform .pop).1 = .popped agenda.toList.head? ∧
      (agenda.perform .pop).2.toList = agenda.toList.tail := by
  cases front : agenda.pop? with
  | none =>
      have order := pop?_eq_none_iff.mp front
      simp [perform, front, order]
  | some popped =>
      have order := toList_of_pop? front
      simp [perform, front, order]

/-- What is pending and what an operation inserts is what it hands out and what is pending then. -/
theorem conserved_perform (agenda : Agenda α) (kept : operation ≠ .clear) :
    agenda.toList ++ agenda.accepted operation.items =
      handedOut [(agenda.perform operation).1] ++ (agenda.perform operation).2.toList := by
  cases operation with
  | add item => exact (toList_pushAll_accepted agenda [item]).symm
  | extend items => exact (toList_pushAll_accepted agenda items).symm
  | pop =>
      cases front : agenda.pop? with
      | none => simp [perform, front, handedOut, Answer.item?, Operation.items, accepted]
      | some popped =>
          have order := toList_of_pop? front
          simp [perform, front, handedOut, Answer.item?, Operation.items, accepted, order]
  | clear => exact absurd rfl kept

end

/-! ## Operations in a row -/

omit [DecidableEq α] in
theorem handedOut_append (first second : List (Answer α)) :
    handedOut (first ++ second) = handedOut first ++ handedOut second :=
  List.filterMap_append

theorem performAll_append (agenda : Agenda α) (first second : List (Operation α)) :
    agenda.performAll (first ++ second) =
      ((agenda.performAll first).1 ++ ((agenda.performAll first).2.performAll second).1,
        ((agenda.performAll first).2.performAll second).2) := by
  induction first generalizing agenda with
  | nil => rfl
  | cons operation first ih => simp [performAll, ih]

theorem subset_performAll (agenda : Agenda α) {operations : List (Operation α)}
    (insert : ∀ operation ∈ operations, operation.Inserts) :
    agenda.toList ⊆ (agenda.performAll operations).2.toList := by
  induction operations generalizing agenda with
  | nil => exact List.Subset.refl _
  | cons operation rest ih =>
      have first : agenda.toList ⊆ (agenda.perform operation).2.toList := by
        rw [perform_of_inserts (insert operation List.mem_cons_self), toList_pushAll_accepted]
        exact List.subset_append_left _ _
      have rest := ih (agenda.perform operation).2
        fun other hother => insert other (List.mem_cons_of_mem operation hother)
      exact List.Subset.trans first rest

/-- Without an order to drop everything, what was pending and what was inserted is what was handed
out and what is pending. -/
theorem conserved_performAll (agenda : Agenda α) {operations : List (Operation α)}
    (kept : .clear ∉ operations) :
    agenda.toList ++ agenda.inserted operations =
      handedOut (agenda.performAll operations).1 ++ (agenda.performAll operations).2.toList := by
  induction operations generalizing agenda with
  | nil => simp [inserted, performAll, handedOut]
  | cons operation rest ih =>
      have here : operation ≠ .clear := fun h => kept (h ▸ List.mem_cons_self)
      have there := ih (agenda.perform operation).2 fun h => kept (List.mem_cons_of_mem _ h)
      have answers := handedOut_append [(agenda.perform operation).1]
        ((agenda.perform operation).2.performAll rest).1
      calc
        agenda.toList ++ agenda.inserted (operation :: rest) =
            (agenda.toList ++ agenda.accepted operation.items) ++
              (agenda.perform operation).2.inserted rest := by
          rw [inserted, List.append_assoc]
        _ = handedOut [(agenda.perform operation).1] ++ ((agenda.perform operation).2.toList ++
              (agenda.perform operation).2.inserted rest) := by
          rw [conserved_perform agenda here, List.append_assoc]
        _ = handedOut (agenda.performAll (operation :: rest)).1 ++
              (agenda.performAll (operation :: rest)).2.toList := by
          rw [there, ← List.append_assoc, ← answers]
          rfl

/-- What an order to drop everything leaves is as good as new. -/
theorem performAll_clear (agenda : Agenda α) (earlier later : List (Operation α)) :
    agenda.performAll (earlier ++ .clear :: later) =
      ((agenda.performAll earlier).1 ++ .cleared :: (empty.performAll later).1,
        (empty.performAll later).2) := by
  rw [performAll_append]
  rfl

/-- What was inserted stays pending while nothing is taken away, so that asking for it again changes
nothing. -/
theorem perform_again {agenda : Agenda α} {earlier between : List (Operation α)}
    {insertion again : Operation α}
    (inserts : ∀ operation ∈ insertion :: between, operation.Inserts)
    (repeats : again.Inserts) (asked : again.items ⊆ insertion.items) :
    let reached := (agenda.performAll (earlier ++ insertion :: between)).2
    reached.perform again = (again.refusal, reached) := by
  intro reached
  apply perform_of_pending repeats
  have here : insertion.items ⊆
      ((agenda.performAll earlier).2.perform insertion).2.toList := by
    intro item hitem
    rw [perform_of_inserts (inserts insertion List.mem_cons_self)]
    exact mem_pushAll.mpr (Or.inr hitem)
  have there : ((agenda.performAll earlier).2.perform insertion).2.toList ⊆ reached.toList := by
    have h := subset_performAll ((agenda.performAll earlier).2.perform insertion).2
      fun operation hmem => inserts operation (List.mem_cons_of_mem insertion hmem)
    simpa only [reached, performAll_append, performAll_cons] using h
  exact List.Subset.trans asked (List.Subset.trans here there)

/-- An agenda after any operations, beginning with nothing. No item is pending twice. One item is
taken exactly if it is not pending, and stands at the back then, and a list adds as many items as it
says; the front is handed out. Without an order to drop everything, what was handed out and what is
pending are the items that were inserted, in order; with such orders this holds of what came after
the last one. An insertion repeated before anything is taken away changes nothing, now or later. -/
theorem conserves_items (operations : List (Operation α)) :
    let agenda := (empty.performAll operations).2
    agenda.toList.Nodup ∧
    (∀ item,
      ((agenda.perform (.add item)).1 = .added true ↔ item ∉ agenda.toList) ∧
      (item ∉ agenda.toList →
        (agenda.perform (.add item)).2.toList = agenda.toList ++ [item]) ∧
      (item ∈ agenda.toList → agenda.perform (.add item) = (.added false, agenda))) ∧
    (∀ items,
      (agenda.perform (.extend items)).1 = .extended (agenda.accepted items).length ∧
      (agenda.perform (.extend items)).2.size = agenda.size + (agenda.accepted items).length) ∧
    ((agenda.perform .pop).1 = .popped agenda.toList.head? ∧
      (agenda.perform .pop).2.toList = agenda.toList.tail) ∧
    (.clear ∉ operations → empty.inserted operations =
      handedOut (empty.performAll operations).1 ++ agenda.toList) ∧
    (∀ earlier later, operations = earlier ++ .clear :: later → .clear ∉ later →
      empty.performAll operations =
        ((empty.performAll earlier).1 ++ .cleared :: (empty.performAll later).1, agenda) ∧
      empty.inserted later = handedOut (empty.performAll later).1 ++ agenda.toList) ∧
    ∀ earlier insertion between again, operations = earlier ++ insertion :: between →
      (∀ operation ∈ insertion :: between, operation.Inserts) → again.Inserts →
      again.items ⊆ insertion.items → ∀ later,
        empty.performAll (operations ++ again :: later) = ((empty.performAll operations).1 ++
          again.refusal :: (agenda.performAll later).1, (agenda.performAll later).2) ∧
        empty.performAll (operations ++ later) = ((empty.performAll operations).1 ++
          (agenda.performAll later).1, (agenda.performAll later).2) := by
  intro agenda
  refine ⟨agenda.nodup, ?_, ?_, perform_pop agenda, ?_, ?_, ?_⟩
  · intro item
    rw [perform_add]
    refine ⟨?_, ?_, ?_⟩
    · rw [Answer.added.injEq]
      exact add_fst_eq_true_iff
    · intro new
      rw [add_eq_pushAll, toList_pushAll_accepted, accepted_cons, if_neg new]
      rfl
    · intro pending
      rw [add_of_pending pending]
  · intro items
    rw [perform_extend, ← pushAll_fst]
    exact ⟨rfl, size_pushAll agenda items⟩
  · exact conserved_performAll empty
  · intro earlier later split kept
    have reached : empty.performAll operations =
        ((empty.performAll earlier).1 ++ .cleared :: (empty.performAll later).1,
          (empty.performAll later).2) := by
      rw [split, performAll_clear]
    have final : agenda = (empty.performAll later).2 := by
      simp only [agenda, reached]
    rw [final]
    exact ⟨reached, conserved_performAll empty kept⟩
  · intro earlier insertion between again split inserts repeats asked later
    have idle : agenda.perform again = (again.refusal, agenda) := by
      simp only [agenda, split]
      exact perform_again inserts repeats asked
    refine ⟨?_, performAll_append empty operations later⟩
    rw [performAll_append, performAll_cons, idle]

/-- The item 1 is inserted again after it was popped, but 2 is refused while it is pending. -/
theorem conserves_items_returning :
    let operations := [.extend [1, 2, 1], .pop, .add 1, .extend [2, 3]]
    let again : Operation Nat := .add 2
    empty.inserted operations =
      handedOut (empty.performAll operations).1 ++ (empty.performAll operations).2.toList ∧
    empty.inserted operations = [1, 2, 1, 3] ∧
    (empty.performAll operations).2.toList = [2, 1, 3] ∧
    empty.inserted operations = handedOut (empty.performAll operations).1 ++
      (empty.performAll (.add 9 :: .clear :: operations)).2.toList ∧
    (empty.performAll (operations ++ [again, .pop])).1 =
      (empty.performAll operations).1 ++ [.added false, .popped (some 2)] := by
  intro operations again
  have kept : .clear ∉ operations := by decide
  obtain ⟨_, _, _, _, whole, _, again_idle⟩ := conserves_items operations
  obtain ⟨_, _, _, _, _, since, _⟩ := conserves_items (.add 9 :: .clear :: operations)
  have inserts : ∀ operation ∈ ([.extend [2, 3]] : List (Operation Nat)), operation.Inserts := by
    intro operation hmem
    cases List.mem_singleton.mp hmem
    exact trivial
  have repeated := again_idle [.extend [1, 2, 1], .pop, .add 1] (.extend [2, 3]) [] again rfl
    inserts trivial (by decide) [.pop]
  exact ⟨whole kept, by decide, by decide, (since [.add 9] operations rfl kept).2,
    congrArg Prod.fst repeated.1⟩

end PassEngine.Agenda
