import Mathlib.Data.List.DropRight
import Mathlib.Data.List.Forall2
import PassEngine.Proofs.Text.Words

/-!
# Spellings of a word

A word may be spelled with blanks around it and with capitals and small letters at will, where only
the letters of ASCII count as letters. Trimming and writing in small letters undo just that: two
spellings of a text come to the same, and what comes to a word without blanks and capitals is a
spelling of it.
-/

namespace PassEngine.Text

/-- The second character is the small letter to the first one, a capital. -/
def SmallLetterOf (capital small : Char) : Prop :=
  0x41 ≤ capital.toNat ∧ capital.toNat ≤ 0x5A ∧ small.toNat = capital.toNat + 0x20

/-- The characters are equal, or a capital of ASCII and its small letter. -/
def SameLetter (c d : Char) : Prop := c = d ∨ SmallLetterOf c d ∨ SmallLetterOf d c

/-- The texts are equal up to capitals and small letters. -/
def CaseVariant (s t : String) : Prop := List.Forall₂ SameLetter s.toList t.toList

/-- The second text is the first one with blanks around it, up to capitals and small letters. -/
def Respelled (s t : String) : Prop :=
  ∃ left variant right, t = left ++ variant ++ right ∧ Blank left ∧ Blank right ∧
    CaseVariant s variant

/-! ## Small letters -/

theorem toNat_toLower (c : Char) :
    c.toLower.toNat = if 0x41 ≤ c.toNat ∧ c.toNat ≤ 0x5A then c.toNat + 0x20 else c.toNat := by
  unfold Char.toLower
  split
  · rename_i h
    have capital : 0x41 ≤ c.toNat ∧ c.toNat ≤ 0x5A := h
    have distance : ('a'.val - 'A'.val).toNat = 0x20 := rfl
    rw [if_pos capital]
    show (c.val + ('a'.val - 'A'.val)).toNat = c.val.toNat + 0x20
    have bound : c.val.toNat ≤ 0x5A := capital.2
    rw [UInt32.toNat_add, distance]
    omega
  · rename_i h
    have other : ¬(0x41 ≤ c.toNat ∧ c.toNat ≤ 0x5A) := h
    rw [if_neg other]

theorem toLower_eq_iff {c d : Char} : c.toLower = d.toLower ↔ SameLetter c d := by
  unfold SameLetter SmallLetterOf
  rw [← Char.toNat_inj, ← Char.toNat_inj, toNat_toLower, toNat_toLower]
  split <;> split <;> omega

/-- No letter is a blank. -/
theorem isBlank_toLower (c : Char) : isBlank c.toLower = isBlank c := by
  unfold isBlank
  rw [toNat_toLower]
  split
  · rw [Bool.eq_iff_iff]
    simp only [Bool.or_eq_true, Bool.and_eq_true, decide_eq_true_eq, beq_iff_eq]
    omega
  · rfl

theorem toList_lowercase (s : String) : (lowercase s).toList = s.toList.map Char.toLower :=
  String.toList_ofList

theorem lowercase_eq_iff {s t : String} : lowercase s = lowercase t ↔ CaseVariant s t := by
  rw [← String.toList_inj, toList_lowercase, toList_lowercase, CaseVariant,
    ← List.forall₂_eq_eq_eq, List.forall₂_map_left_iff, List.forall₂_map_right_iff]
  simp only [toLower_eq_iff]

/-! ## Trimming -/

section

variable {s left right : String}

theorem toList_trim (s : String) :
    (trim s).toList = (s.toList.dropWhile isBlank).rdropWhile isBlank := by
  rw [trim, String.toList_ofList]
  rfl

theorem trim_around (before : Blank left) (behind : Blank right) (s : String) :
    trim (left ++ s ++ right) = trim s := by
  have rest : ∀ cs : List Char, (cs ++ right.toList).rdropWhile isBlank = cs.rdropWhile isBlank := by
    intro cs
    have reversed : ∀ c ∈ right.toList.reverse, isBlank c = true :=
      fun c hc => behind c (List.mem_reverse.mp hc)
    unfold List.rdropWhile
    rw [List.reverse_append, List.dropWhile_append_of_pos reversed]
  rw [← String.toList_inj, toList_trim, toList_trim, String.toList_append, String.toList_append,
    List.append_assoc, List.dropWhile_append_of_pos before, List.dropWhile_append]
  split
  · rename_i empty
    -- nothing but blanks: what is left of the text is what is left of the blanks behind it
    rw [List.isEmpty_iff.mp empty, ← rest []]
    have gone : right.toList.dropWhile isBlank = [] := List.dropWhile_eq_nil_iff.mpr behind
    rw [gone, rest]
  · exact rest _

/-- Trimming takes blanks away and nothing else. -/
theorem exists_around_trim (s : String) :
    ∃ left right, s = left ++ trim s ++ right ∧ Blank left ∧ Blank right := by
  refine ⟨.ofList (s.toList.takeWhile isBlank),
    .ofList ((s.toList.dropWhile isBlank).rtakeWhile isBlank), ?_, ?_, ?_⟩
  · rw [← String.toList_inj, String.toList_append, String.toList_append, toList_trim,
      String.toList_ofList, String.toList_ofList, List.append_assoc,
      List.rdropWhile_append_rtakeWhile, List.takeWhile_append_dropWhile]
  · intro c hc
    rw [String.toList_ofList] at hc
    exact List.mem_takeWhile_imp hc
  · intro c hc
    rw [String.toList_ofList] at hc
    exact List.mem_rtakeWhile_imp hc

theorem lowercase_trim (s : String) : lowercase (trim s) = trim (lowercase s) := by
  have blank : (isBlank ∘ Char.toLower) = isBlank := funext isBlank_toLower
  rw [← String.toList_inj, toList_lowercase, toList_trim, toList_trim, toList_lowercase]
  unfold List.rdropWhile
  rw [List.dropWhile_map, blank, ← List.map_reverse, List.dropWhile_map, blank, List.map_reverse]

end

/-! ## Spellings -/

/-- All spellings of a text are the same when they are trimmed and written in small letters. -/
theorem lowercase_trim_of_respelled {s t : String} (h : Respelled s t) :
    lowercase (trim t) = lowercase (trim s) := by
  obtain ⟨left, variant, right, rfl, before, behind, same⟩ := h
  rw [trim_around before behind, lowercase_trim, lowercase_trim, lowercase_eq_iff.mpr same]

/-- A text that is a word when it is trimmed and written in small letters is a spelling of it. -/
theorem respelled_of_lowercase_trim {s word : String} (small : lowercase word = word)
    (h : lowercase (trim s) = word) : Respelled word s := by
  obtain ⟨left, right, split, before, behind⟩ := exists_around_trim s
  refine ⟨left, trim s, right, split, before, behind, ?_⟩
  rw [← lowercase_eq_iff, small, h]

end PassEngine.Text
