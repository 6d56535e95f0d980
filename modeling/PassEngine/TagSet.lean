import PassEngine.Text.Blank

/-!
# Sets of tags

A tag names a kind of change that a pass made. A `TagSet` collects the tags emitted since the
rules were last consulted. It is stored as the strictly increasing list of its members, so that
two sets with the same members are equal and iteration follows the order of code points.
-/

namespace PassEngine

abbrev Tag := String

/-- The tag that stands for a tree to be treated as freshly produced. -/
def newCode : Tag := "new_code"

/-- A finite set of tags, listed in strictly increasing order. -/
structure TagSet where
  toList : List Tag
  increasing : toList.Pairwise (· < ·)
deriving DecidableEq

namespace TagSet

/-! ## Insertion into an increasing list -/

/-- Put a tag at its place in an increasing list; a tag that is there already stays alone. -/
def insertTag (tag : Tag) : List Tag → List Tag
  | [] => [tag]
  | head :: rest =>
      if tag < head then tag :: head :: rest
      else if tag = head then head :: rest
      else head :: insertTag tag rest

@[simp] theorem mem_insertTag {tag t : Tag} {tags : List Tag} :
    t ∈ insertTag tag tags ↔ t = tag ∨ t ∈ tags := by
  induction tags with
  | nil => simp [insertTag]
  | cons head rest ih =>
      simp only [insertTag]
      split
      · simp
      · split
        · rename_i h; subst h; simp
        · simp only [List.mem_cons, ih]
          constructor
          · rintro (h | h | h) <;> simp [h]
          · rintro (h | h | h) <;> simp [h]

theorem pairwise_insertTag {tag : Tag} {tags : List Tag} (h : tags.Pairwise (· < ·)) :
    (insertTag tag tags).Pairwise (· < ·) := by
  induction tags with
  | nil => simp [insertTag]
  | cons head rest ih =>
      have hhead := (List.pairwise_cons.mp h).1
      have hrest := (List.pairwise_cons.mp h).2
      simp only [insertTag]
      split
      · rename_i hlt
        refine List.pairwise_cons.mpr ⟨?_, h⟩
        intro t ht
        rcases List.mem_cons.mp ht with rfl | ht
        · exact hlt
        · exact String.lt_trans hlt (hhead t ht)
      · split
        · exact h
        · rename_i hnlt hne
          have hlt : head < tag := by
            apply String.not_le.mp
            intro hle
            exact hne (String.le_antisymm hle (String.not_lt.mp hnlt))
          refine List.pairwise_cons.mpr ⟨?_, ih hrest⟩
          intro t ht
          rcases mem_insertTag.mp ht with rfl | ht
          · exact hlt
          · exact hhead t ht

/-! ## Operations -/

def empty : TagSet := ⟨[], List.Pairwise.nil⟩

/-- The set with one more member; a member is inserted without effect. -/
def insert (tags : TagSet) (tag : Tag) : TagSet :=
  ⟨insertTag tag tags.toList, pairwise_insertTag tags.increasing⟩

def insertAll (tags : TagSet) (more : List Tag) : TagSet :=
  more.foldl insert tags

def ofList (tags : List Tag) : TagSet := empty.insertAll tags

def contains (tags : TagSet) (tag : Tag) : Bool := tags.toList.contains tag

def containsAll (tags : TagSet) (required : List Tag) : Bool :=
  required.all tags.contains

/-- Whether every word of a predicate is a member; a predicate without words holds. -/
def satisfies (tags : TagSet) (predicate : String) : Bool :=
  tags.containsAll (Text.words predicate)

def size (tags : TagSet) : Nat := tags.toList.length

def isEmpty (tags : TagSet) : Bool := tags.toList.isEmpty

/-- The members in order between braces, one space between two of them. -/
def text (tags : TagSet) : String :=
  "\x7b" ++ " ".intercalate tags.toList ++ "\x7d"

/-! ## Members -/

instance : Membership Tag TagSet := ⟨fun tags tag => tag ∈ tags.toList⟩

theorem mem_iff {tag : Tag} {tags : TagSet} : tag ∈ tags ↔ tag ∈ tags.toList := Iff.rfl

@[simp] theorem contains_iff {tag : Tag} {tags : TagSet} :
    tags.contains tag = true ↔ tag ∈ tags := by
  simp [contains, mem_iff]

@[simp] theorem not_mem_empty (tag : Tag) : ¬ tag ∈ empty := by
  simp [mem_iff, empty]

@[simp] theorem mem_insert {tag t : Tag} {tags : TagSet} :
    t ∈ tags.insert tag ↔ t = tag ∨ t ∈ tags := by
  simp [mem_iff, insert]

@[simp] theorem mem_insertAll {t : Tag} {tags : TagSet} {more : List Tag} :
    t ∈ tags.insertAll more ↔ t ∈ more ∨ t ∈ tags := by
  induction more generalizing tags with
  | nil => simp [insertAll]
  | cons tag rest ih =>
      have h : tags.insertAll (tag :: rest) = (tags.insert tag).insertAll rest := rfl
      rw [h, ih]
      simp only [mem_insert, List.mem_cons]
      constructor
      · rintro (h | h | h) <;> simp [h]
      · rintro ((h | h) | h) <;> simp [h]

@[simp] theorem mem_ofList {t : Tag} {tags : List Tag} : t ∈ ofList tags ↔ t ∈ tags := by
  simp [ofList]

@[simp] theorem containsAll_iff {tags : TagSet} {required : List Tag} :
    tags.containsAll required = true ↔ ∀ tag ∈ required, tag ∈ tags := by
  simp [containsAll]

end TagSet

end PassEngine
