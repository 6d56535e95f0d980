import Mathlib.Data.List.Basic
import Mathlib.Data.List.Induction

/-!
# First occurrences

Adding items at the end of a list, each unless it is there by then, keeps of what is added the
first occurrences of what is new. What is left of a list without its repetitions stands in the
order of the first occurrences.
-/

namespace PassEngine

variable {α : Type} [DecidableEq α]

/-- The list with items added at its end in order, each unless it is there by then. -/
def addNew (items more : List α) : List α :=
  more.foldl (fun items item => if item ∈ items then items else items ++ [item]) items

@[simp] theorem addNew_nil (items : List α) : addNew items [] = items := rfl

theorem addNew_cons (items more : List α) (item : α) :
    addNew items (item :: more) =
      addNew (if item ∈ items then items else items ++ [item]) more := rfl

theorem addNew_append (items first second : List α) :
    addNew items (first ++ second) = addNew (addNew items first) second :=
  List.foldl_append

theorem addNew_eq (items more : List α) :
    addNew items more = items ++ (more.filter (· ∉ items)).eraseDups := by
  induction more generalizing items with
  | nil => simp
  | cons item more ih =>
      rw [addNew_cons, ih]
      by_cases h : item ∈ items
      · simp [h]
      · have hfilter : more.filter (· ∉ items ++ [item]) =
            (more.filter (· ∉ items)).filter (fun other => !other == item) := by
          rw [List.filter_filter]
          apply List.filter_congr
          intro other _
          by_cases heq : other = item <;> simp [heq]
        simp only [if_neg h, hfilter, List.append_assoc, List.singleton_append]
        rw [List.filter_cons_of_pos (by simpa using h), List.eraseDups_cons]

theorem mem_addNew {items more : List α} {item : α} :
    item ∈ addNew items more ↔ item ∈ items ∨ item ∈ more := by
  rw [addNew_eq, List.mem_append, List.mem_eraseDups, List.mem_filter, decide_eq_true_iff]
  constructor
  · rintro (h | h)
    · exact Or.inl h
    · exact Or.inr h.1
  · rintro (h | h)
    · exact Or.inl h
    · by_cases hold : item ∈ items
      · exact Or.inl hold
      · exact Or.inr ⟨h, hold⟩

theorem addNew_filter_ne {items : List α} {item : α} (h : item ∈ items) (more : List α) :
    addNew items (more.filter fun other => !other == item) = addNew items more := by
  induction more generalizing items with
  | nil => rfl
  | cons other more ih =>
      by_cases heq : other = item
      · subst heq
        rw [List.filter_cons_of_neg (by simp), ih h, addNew_cons, if_pos h]
      · rw [List.filter_cons_of_pos (by simpa using heq), addNew_cons, addNew_cons]
        apply ih
        split
        · exact h
        · exact List.mem_append_left _ h

/-- Repetitions among what is added make no difference. -/
theorem addNew_eraseDups (items more : List α) :
    addNew items more.eraseDups = addNew items more := by
  match more with
  | [] => rfl
  | item :: more =>
      rw [List.eraseDups_cons, addNew_cons, addNew_eraseDups, addNew_cons]
      apply addNew_filter_ne
      split
      · assumption
      · exact List.mem_append_right _ (List.mem_singleton_self item)
termination_by more.length
decreasing_by exact Nat.lt_succ_of_le (List.length_filter_le _ _)

/-! ## Lists without their repetitions -/

/-- One more item at the end is kept if it is new. -/
theorem eraseDups_concat (items : List α) (item : α) :
    (items ++ [item]).eraseDups =
      if item ∈ items then items.eraseDups else items.eraseDups ++ [item] := by
  rw [List.eraseDups_append]
  by_cases known : item ∈ items
  · simp [List.removeAll, known]
  · simp [List.removeAll, known, List.eraseDups_cons]

theorem pairwise_idxOf_eraseDups (items : List α) :
    items.eraseDups.Pairwise fun first second => items.idxOf first < items.idxOf second := by
  induction items using List.reverseRec with
  | nil => exact List.Pairwise.nil
  | append_singleton items item ih =>
      -- a further item moves no first occurrence
      have before : items.eraseDups.Pairwise fun first second =>
          (items ++ [item]).idxOf first < (items ++ [item]).idxOf second := by
        refine ih.imp_of_mem ?_
        intro first second hfirst hsecond lt
        rw [List.mem_eraseDups] at hfirst hsecond
        rw [List.idxOf_append_of_mem hfirst, List.idxOf_append_of_mem hsecond]
        exact lt
      rw [eraseDups_concat]
      split
      · exact before
      · rename_i new
        refine List.pairwise_append.mpr ⟨before, List.pairwise_singleton _ _, ?_⟩
        intro first hfirst second hsecond
        rw [List.mem_eraseDups] at hfirst
        cases List.mem_singleton.mp hsecond
        rw [List.idxOf_append_of_mem hfirst, List.idxOf_append_of_notMem new]
        exact Nat.lt_add_right _ (List.idxOf_lt_length_of_mem hfirst)

theorem nodup_eraseDups (items : List α) : items.eraseDups.Nodup := by
  refine (pairwise_idxOf_eraseDups items).imp ?_
  rintro first _ lt rfl
  exact Nat.lt_irrefl _ lt

theorem eraseDups_filter (items : List α) (keep : α → Bool) :
    (items.filter keep).eraseDups = items.eraseDups.filter keep := by
  induction items using List.reverseRec with
  | nil => rfl
  | append_singleton items item ih =>
      rw [eraseDups_concat, List.filter_append]
      cases kept : keep item with
      | false =>
          rw [List.filter_cons_of_neg (by simp [kept]), List.filter_nil, List.append_nil, ih]
          split
          · rfl
          · simp [kept]
      | true =>
          rw [List.filter_cons_of_pos kept, List.filter_nil, eraseDups_concat, ih]
          by_cases known : item ∈ items
          · simp [known, kept]
          · simp [known, kept]

/-- Behind another list only what is new to that list is kept. -/
theorem eraseDups_append_eq (first second : List α) :
    (first ++ second).eraseDups =
      first.eraseDups ++ second.eraseDups.filter (· ∉ first.eraseDups) := by
  rw [List.eraseDups_append, List.removeAll, eraseDups_filter]
  congr 1
  apply List.filter_congr
  intro item _
  simp

/-- What is in front already makes no difference when it comes again. -/
theorem eraseDups_append_of_subset {first second : List α} (known : second ⊆ first)
    (rest : List α) : (first ++ (second ++ rest)).eraseDups = (first ++ rest).eraseDups := by
  have nothing : second.eraseDups.filter (· ∉ first.eraseDups) = [] := by
    apply List.filter_eq_nil_iff.mpr
    intro item hitem
    have old : item ∈ first := known (List.mem_eraseDups.mp hitem)
    simpa using old
  have front : (first ++ second).eraseDups = first.eraseDups := by
    rw [eraseDups_append_eq, nothing, List.append_nil]
  rw [← List.append_assoc, eraseDups_append_eq, front, ← eraseDups_append_eq]

end PassEngine
