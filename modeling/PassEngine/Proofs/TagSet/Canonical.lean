import Mathlib.Data.Set.Card
import PassEngine.Proofs.TagSet
import PassEngine.Proofs.Text.Bytes
import PassEngine.Proofs.Text.Words

/-!
# One form for each set of tags

A set of tags may be changed in any order: tags are added, several or one by one, or the set begins
anew. Its members are the tags inserted since it last began, listed by their bytes, each once. What
happened before and how the insertions were made leaves no trace, neither in the list nor in the
text. Tags without blanks, braces in them or not, can be read off the text again.
-/

namespace PassEngine.TagSet

open Text (IsWord bytes words)

/-! ## Operations -/

/-- One change of a set of tags. -/
inductive Operation where
  | add (tag : Tag)
  /-- Add the tag that a pass emits. -/
  | signal (tag : Tag)
  | extend (tags : List Tag)
  /-- Begin anew with the tags of a list. -/
  | collect (tags : List Tag)
  | clear
deriving DecidableEq

namespace Operation

/-- The tags that an operation inserts. -/
def tags : Operation → List Tag
  | .add tag | .signal tag => [tag]
  | .extend tags | .collect tags => tags
  | .clear => []

/-- Whether the set begins anew, so that what was inserted before is forgotten. -/
def Resets : Operation → Prop
  | .add _ | .signal _ | .extend _ => False
  | .collect _ | .clear => True

end Operation

/-- Carry out one operation. -/
def perform (set : TagSet) : Operation → TagSet
  | .add tag | .signal tag => set.insert tag
  | .extend tags => set.insertAll tags
  | .collect tags => ofList tags
  | .clear => empty

/-- Carry out operations in order. -/
def performAll (set : TagSet) (operations : List Operation) : TagSet :=
  operations.foldl perform set

/-- One of the operations inserts the tag, and the set does not begin anew after that. -/
def Inserted (operations : List Operation) (tag : Tag) : Prop :=
  ∃ before operation after, operations = before ++ operation :: after ∧ tag ∈ operation.tags ∧
    ∀ later ∈ after, ¬later.Resets

/-- The text without its first and its last character. -/
def inside (text : String) : String := String.ofList text.toList.tail.dropLast

/-! ## Members -/

section

variable {set : TagSet} {operation : Operation} {operations first second : List Operation}
  {tag : Tag}

theorem mem_perform :
    tag ∈ set.perform operation ↔ tag ∈ operation.tags ∨ tag ∈ set ∧ ¬operation.Resets := by
  cases operation <;> simp [perform, Operation.tags, Operation.Resets]

theorem inserted_cons :
    Inserted (operation :: operations) tag ↔
      Inserted operations tag ∨ tag ∈ operation.tags ∧ ∀ later ∈ operations, ¬later.Resets := by
  constructor
  · rintro ⟨before, chosen, after, split, inserts, kept⟩
    cases before with
    | nil =>
        obtain ⟨rfl, rfl⟩ := List.cons.inj split
        exact Or.inr ⟨inserts, kept⟩
    | cons earlier before =>
        obtain ⟨_, rfl⟩ := List.cons.inj split
        exact Or.inl ⟨before, chosen, after, rfl, inserts, kept⟩
  · rintro (⟨before, chosen, after, rfl, inserts, kept⟩ | ⟨inserts, kept⟩)
    · exact ⟨operation :: before, chosen, after, rfl, inserts, kept⟩
    · exact ⟨[], operation, operations, rfl, inserts, kept⟩

theorem mem_performAll :
    tag ∈ set.performAll operations ↔
      Inserted operations tag ∨ tag ∈ set ∧ ∀ operation ∈ operations, ¬operation.Resets := by
  induction operations generalizing set with
  | nil => simp [performAll, Inserted]
  | cons operation rest ih =>
      have onward : set.performAll (operation :: rest) = (set.perform operation).performAll rest :=
        rfl
      rw [onward, ih, mem_perform, inserted_cons, List.forall_mem_cons]
      tauto

/-- The members are the tags inserted since the set last began. -/
theorem mem_performAll_empty : tag ∈ empty.performAll operations ↔ Inserted operations tag := by
  simp [mem_performAll]

theorem performAll_append (set : TagSet) (first second : List Operation) :
    set.performAll (first ++ second) = (set.performAll first).performAll second :=
  List.foldl_append

theorem inserted_iff_of_insertions (kept : ∀ operation ∈ operations, ¬operation.Resets) :
    Inserted operations tag ↔ tag ∈ operations.flatMap Operation.tags := by
  rw [List.mem_flatMap]
  constructor
  · rintro ⟨before, operation, after, rfl, inserts, _⟩
    exact ⟨operation, by simp, inserts⟩
  · rintro ⟨operation, among, inserts⟩
    obtain ⟨before, after, rfl⟩ := List.append_of_mem among
    refine ⟨before, operation, after, rfl, inserts, ?_⟩
    intro later hlater
    exact kept later (by simp [hlater])

/-- Of insertions in a row only the tags count, not their order or how they were put together. -/
theorem performAll_congr (set : TagSet) (left : ∀ operation ∈ first, ¬operation.Resets)
    (right : ∀ operation ∈ second, ¬operation.Resets)
    (same : ∀ tag, tag ∈ first.flatMap Operation.tags ↔ tag ∈ second.flatMap Operation.tags) :
    set.performAll first = set.performAll second := by
  apply eq_of_mem_iff
  intro tag
  rw [mem_performAll, mem_performAll, inserted_iff_of_insertions left,
    inserted_iff_of_insertions right, same tag]
  simp only [and_iff_left left, and_iff_left right]

end

/-! ## The list and the text -/

section

variable {set other : TagSet}

theorem increasing_bytes (set : TagSet) :
    set.toList.Pairwise fun earlier later => bytes earlier < bytes later :=
  set.increasing.imp Text.lt_iff_bytes_lt.mp

theorem toList_nodup (set : TagSet) : set.toList.Nodup := by
  apply set.increasing.imp
  intro earlier later less equal
  exact String.lt_irrefl later (equal ▸ less)

theorem ncard_members (set : TagSet) : {tag | tag ∈ set}.ncard = set.size := by
  have listed : {tag | tag ∈ set} = (set.toList.toFinset : Set Tag) := by
    ext tag
    simp [mem_iff]
  rw [listed, Set.ncard_coe_finset, List.toFinset_card_of_nodup set.toList_nodup]
  rfl

theorem inside_text (set : TagSet) : inside set.text = " ".intercalate set.toList := by
  have spelled : set.text.toList = '\x7b' :: (" ".intercalate set.toList).toList ++ ['\x7d'] := by
    rw [text, String.toList_append, String.toList_append]
    rfl
  rw [inside, spelled, List.cons_append, List.tail_cons, List.dropLast_concat,
    String.ofList_toList]

theorem words_inside_text (words : ∀ tag ∈ set, IsWord tag) :
    Text.words (inside set.text) = set.toList := by
  rw [inside_text]
  exact Text.words_intercalate words

theorem eq_of_text (words : ∀ tag ∈ set, IsWord tag) (otherWords : ∀ tag ∈ other, IsWord tag)
    (same : set.text = other.text) : set = other := by
  apply eq_of_mem_iff
  intro tag
  rw [mem_iff, mem_iff, ← words_inside_text words, ← words_inside_text otherWords, same]

end

/-- The set after any operations, beginning with nothing. Its members are the tags inserted since it
last began; they are listed in increasing order of their bytes, and the size counts each of them
once. Two sets are equal exactly if they have the same members, so that between two operations it
does not matter in which order, how often and by which operations tags are inserted, for the set and
for its text. The text has braces around it, and tags that are words are the words between them, so
that such sets can be told apart by their texts. -/
theorem canonical_form (operations others : List Operation) :
    let set := empty.performAll operations
    let other := empty.performAll others
    (∀ tag, tag ∈ set ↔ Inserted operations tag) ∧
    set.toList.Pairwise (fun earlier later => bytes earlier < bytes later) ∧
    set.size = {tag | Inserted operations tag}.ncard ∧
    (set = other ↔ ∀ tag, Inserted operations tag ↔ Inserted others tag) ∧
    (∀ before first second after, operations = before ++ first ++ after →
      others = before ++ second ++ after → (∀ operation ∈ first ++ second, ¬operation.Resets) →
      (∀ tag, tag ∈ first.flatMap Operation.tags ↔ tag ∈ second.flatMap Operation.tags) →
      set = other ∧ set.text = other.text) ∧
    set.text = "\x7b" ++ inside set.text ++ "\x7d" ∧
    ((∀ tag ∈ set, IsWord tag) → words (inside set.text) = set.toList ∧
      ((∀ tag ∈ other, IsWord tag) → set.text = other.text → set = other)) := by
  intro set other
  refine ⟨fun tag => mem_performAll_empty, increasing_bytes set, ?_, ?_, ?_, ?_, ?_⟩
  · rw [← ncard_members]
    simp only [set, mem_performAll_empty]
  · constructor
    · intro equal tag
      rw [← mem_performAll_empty, ← mem_performAll_empty]
      exact iff_of_eq (congrArg (tag ∈ ·) equal)
    · intro same
      apply eq_of_mem_iff
      intro tag
      simp only [set, other, mem_performAll_empty]
      exact same tag
  · intro before first second after split otherSplit kept same
    have equal : set = other := by
      simp only [set, other, split, otherSplit, performAll_append]
      rw [performAll_congr _ (fun operation h => kept operation (List.mem_append_left _ h))
        (fun operation h => kept operation (List.mem_append_right _ h)) same]
    exact ⟨equal, congrArg text equal⟩
  · rw [inside_text]
    rfl
  · intro members
    exact ⟨words_inside_text members, eq_of_text members⟩

/-- A character of four bytes comes after one of three, and a tag with braces in it is read off the
text as any other. -/
theorem canonical_form_braced :
    let first : List Operation :=
      [.add "😀", .extend ["\uFF5E", "\x7bx\x7d"], .signal "var_usage"]
    let second : List Operation :=
      [.extend ["var_usage", "\x7bx\x7d", "😀"], .signal "\uFF5E", .add "😀"]
    let set := empty.performAll ([.add "stale", .clear] ++ first ++ [.signal "\uFF5E"])
    let other := empty.performAll ([.add "stale", .clear] ++ second ++ [.signal "\uFF5E"])
    set = other ∧ set.text = other.text ∧
    set.toList = ["var_usage", "\x7bx\x7d", "\uFF5E", "😀"] ∧ words (inside set.text) = set.toList := by
  intro first second set other
  have listed : set.toList = ["var_usage", "\x7bx\x7d", "\uFF5E", "😀"] := by decide
  have kept : ∀ operation ∈ first ++ second, ¬operation.Resets := by
    simp [first, second, Operation.Resets]
  have left : first.flatMap Operation.tags = ["😀", "\uFF5E", "\x7bx\x7d", "var_usage"] := rfl
  have right : second.flatMap Operation.tags =
      ["var_usage", "\x7bx\x7d", "😀", "\uFF5E", "😀"] := rfl
  have same : ∀ tag, tag ∈ first.flatMap Operation.tags ↔
      tag ∈ second.flatMap Operation.tags := by
    intro tag
    rw [left, right]
    grind
  have members : ∀ tag ∈ set, IsWord tag := by
    intro tag htag
    have spelled : words "var_usage \x7bx\x7d \uFF5E 😀" =
        ["var_usage", "\x7bx\x7d", "\uFF5E", "😀"] := rfl
    rw [mem_iff, listed, ← spelled] at htag
    exact Text.isWord_of_mem_words htag
  obtain ⟨_, _, _, _, reordered, _, read⟩ := canonical_form
    ([.add "stale", .clear] ++ first ++ [.signal "\uFF5E"])
    ([.add "stale", .clear] ++ second ++ [.signal "\uFF5E"])
  obtain ⟨equal, alike⟩ := reordered _ _ _ _ rfl rfl kept same
  exact ⟨equal, alike, listed, (read members).1⟩

end PassEngine.TagSet
