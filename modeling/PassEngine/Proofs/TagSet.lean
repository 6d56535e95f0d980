import Mathlib.Data.List.Sort
import PassEngine.TagSet

/-!
# Sets of tags by their members

A set of tags is determined by its members, however it came about. Leaving tags out of a set is
therefore told by what is left.
-/

namespace PassEngine.TagSet

theorem eq_of_mem_iff {first second : TagSet} (h : ∀ tag, tag ∈ first ↔ tag ∈ second) :
    first = second := by
  have same : first.toList = second.toList :=
    List.Pairwise.eq_of_mem_iff first.increasing second.increasing h
  cases first
  cases second
  cases same
  rfl

/-! ## Leaving tags out -/

variable {idle : Tag → Bool} {tags : TagSet} {tag : Tag}

/-- The set without the tags that are idle. -/
def without (tags : TagSet) (idle : Tag → Bool) : TagSet :=
  ⟨tags.toList.filter (!idle ·), tags.increasing.filter _⟩

@[simp] theorem mem_without : tag ∈ tags.without idle ↔ tag ∈ tags ∧ idle tag = false := by
  simp [mem_iff, without]

theorem insert_without_of_idle (h : idle tag = true) :
    (tags.insert tag).without idle = tags.without idle := by
  apply eq_of_mem_iff
  intro other
  simp only [mem_without, mem_insert]
  constructor
  · rintro ⟨rfl | member, kept⟩
    · rw [h] at kept
      cases kept
    · exact ⟨member, kept⟩
  · rintro ⟨member, kept⟩
    exact ⟨Or.inr member, kept⟩

theorem insert_without (h : idle tag = false) :
    (tags.insert tag).without idle = (tags.without idle).insert tag := by
  apply eq_of_mem_iff
  intro other
  simp only [mem_without, mem_insert]
  constructor
  · rintro ⟨rfl | member, kept⟩
    · exact Or.inl rfl
    · exact Or.inr ⟨member, kept⟩
  · rintro (rfl | ⟨member, kept⟩)
    · exact ⟨Or.inl rfl, h⟩
    · exact ⟨Or.inr member, kept⟩

end PassEngine.TagSet
