import Mathlib.Algebra.Group.Nat.Defs

/-!
# The order of texts by their bytes

Texts are ordered by their characters, and characters by their codes. The bytes of UTF-8 give the
same order: a character of more bytes begins with a larger byte, and of two characters with as many
bytes the larger one is larger where they first differ, six bits of the code at a time.
-/

namespace PassEngine.Text

open String (utf8EncodeChar)

/-- The bytes of a text in UTF-8. -/
def bytes (s : String) : List UInt8 := s.toByteArray.data.toList

theorem bytes_eq (s : String) : bytes s = s.toList.flatMap utf8EncodeChar := by
  have encoded : s.toByteArray = s.toList.utf8Encode := by
    rw [← String.toByteArray_ofList, String.ofList_toList]
  rw [bytes, encoded, List.utf8Encode, List.toList_data_toByteArray]

/-! ## The bytes of a character -/

/-- How many bytes of a character follow the first one. -/
def followers (code : Nat) : Nat :=
  if code ≤ 0x7F then 0 else if code ≤ 0x7FF then 1 else if code ≤ 0xFFFF then 2 else 3

/-- What marks the first byte when so many follow it. -/
def leadMark : Nat → Nat
  | 0 => 0
  | 1 => 0xC0
  | 2 => 0xE0
  | _ => 0xF0

/-- So many bytes, for the last bits of a code. -/
def following : Nat → Nat → List UInt8
  | 0, _ => []
  | count + 1, code => UInt8.ofNat (code / 64 ^ count % 64 + 0x80) :: following count code

/-- The first byte of a character as a number: a mark and the first bits of the code. -/
def lead (code : Nat) : Nat := code / 64 ^ followers code + leadMark (followers code)

theorem toNat_lt (c : Char) : c.toNat < 0x110000 := by
  have valid := c.valid
  simp only [UInt32.isValidChar, Nat.isValidChar] at valid
  show c.val.toNat < _
  omega

theorem utf8EncodeChar_eq (c : Char) :
    utf8EncodeChar c = UInt8.ofNat (lead c.toNat) :: following (followers c.toNat) c.toNat := by
  have bound := toNat_lt c
  show utf8EncodeChar c = _
  simp only [utf8EncodeChar, lead, followers, Char.toNat] at bound ⊢
  split
  · simp [leadMark, following]
  · split
    · have small : c.val.toNat / 64 % 32 = c.val.toNat / 64 := Nat.mod_eq_of_lt (by omega)
      rw [small]
      simp [leadMark, following]
    · split
      · have small : c.val.toNat / 4096 % 16 = c.val.toNat / 4096 := Nat.mod_eq_of_lt (by omega)
        rw [small]
        simp [leadMark, following]
      · have small : c.val.toNat / 262144 % 8 = c.val.toNat / 262144 :=
          Nat.mod_eq_of_lt (by omega)
        rw [small]
        simp [leadMark, following]

/-! ## Two characters -/

section

variable {m n : Nat} {u v : List UInt8}

theorem ofNat_cons_lt_iff (hm : m < 256) (hn : n < 256) :
    UInt8.ofNat m :: u < UInt8.ofNat n :: v ↔ m < n ∨ m = n ∧ u < v := by
  have left : (UInt8.ofNat m).toNat = m := UInt8.toNat_ofNat_of_lt' hm
  have right : (UInt8.ofNat n).toNat = n := UInt8.toNat_ofNat_of_lt' hn
  rw [List.cons_lt_cons_iff, UInt8.lt_iff_toNat_lt, ← UInt8.toNat_inj, left, right]

/-- Codes that agree in their first bits are told apart by the bytes for the others. -/
theorem following_lt (less : m < n) {count : Nat} (same : m / 64 ^ count = n / 64 ^ count) :
    following count m ++ u < following count n ++ v := by
  induction count with
  | zero =>
      simp only [Nat.pow_zero, Nat.div_one] at same
      omega
  | succ count ih =>
      have ordered : m / 64 ^ count ≤ n / 64 ^ count := Nat.div_le_div_right (Nat.le_of_lt less)
      rw [Nat.pow_succ, ← Nat.div_div_eq_div_mul, ← Nat.div_div_eq_div_mul] at same
      simp only [following, List.cons_append]
      rw [ofNat_cons_lt_iff (by omega) (by omega)]
      by_cases equal : m / 64 ^ count = n / 64 ^ count
      · exact Or.inr ⟨by rw [equal], ih equal⟩
      · left
        omega

theorem followers_cases (code : Nat) :
    code ≤ 0x7F ∧ followers code = 0 ∨
      0x7F < code ∧ code ≤ 0x7FF ∧ followers code = 1 ∨
      0x7FF < code ∧ code ≤ 0xFFFF ∧ followers code = 2 ∨
      0xFFFF < code ∧ followers code = 3 := by
  unfold followers
  split
  · omega
  · split
    · omega
    · split <;> omega

theorem followers_mono (le : m ≤ n) : followers m ≤ followers n := by
  have left := followers_cases m
  have right := followers_cases n
  omega

theorem lead_lt (bound : m < 0x110000) : lead m < 256 := by
  unfold lead
  rcases followers_cases m with ⟨_, h⟩ | ⟨_, _, h⟩ | ⟨_, _, h⟩ | ⟨_, h⟩ <;>
    rw [h] <;> simp only [leadMark] <;> omega

/-- The first byte stays below the mark of characters of more bytes. -/
theorem lead_lt_leadMark (fewer : followers m < followers n) :
    lead m < leadMark (followers n) := by
  unfold lead
  rcases followers_cases m with ⟨_, hm⟩ | ⟨_, _, hm⟩ | ⟨_, _, hm⟩ | ⟨_, hm⟩ <;>
    rcases followers_cases n with ⟨_, hn⟩ | ⟨_, _, hn⟩ | ⟨_, _, hn⟩ | ⟨_, hn⟩ <;>
    rw [hm, hn] at fewer ⊢ <;> simp only [leadMark] <;> omega

end

/-- The larger character has the larger bytes, whatever follows. -/
theorem utf8EncodeChar_append_lt {c d : Char} (less : c < d) (u v : List UInt8) :
    utf8EncodeChar c ++ u < utf8EncodeChar d ++ v := by
  have codes : c.toNat < d.toNat := less
  have bound := toNat_lt d
  rw [utf8EncodeChar_eq, utf8EncodeChar_eq, List.cons_append, List.cons_append,
    ofNat_cons_lt_iff (lead_lt (Nat.lt_trans codes bound)) (lead_lt bound)]
  rcases Nat.lt_or_eq_of_le (followers_mono (Nat.le_of_lt codes)) with fewer | alike
  · exact Or.inl (Nat.lt_of_lt_of_le (lead_lt_leadMark fewer) (Nat.le_add_left _ _))
  · have ordered : c.toNat / 64 ^ followers d.toNat ≤ d.toNat / 64 ^ followers d.toNat :=
      Nat.div_le_div_right (Nat.le_of_lt codes)
    simp only [lead, alike]
    rcases Nat.lt_or_eq_of_le ordered with fewer | equal
    · exact Or.inl (Nat.add_lt_add_right fewer _)
    · exact Or.inr ⟨by rw [equal], following_lt codes equal⟩

/-! ## Two texts -/

theorem flatMap_utf8EncodeChar_lt {cs ds : List Char} (less : cs < ds) :
    cs.flatMap utf8EncodeChar < ds.flatMap utf8EncodeChar := by
  induction cs generalizing ds with
  | nil =>
      cases ds with
      | nil => exact absurd less (List.lt_irrefl [])
      | cons d ds =>
          rw [List.flatMap_cons, utf8EncodeChar_eq]
          exact List.nil_lt_cons _ _
  | cons c cs ih =>
      cases ds with
      | nil => exact absurd less (List.not_lt_nil _)
      | cons d ds =>
          rw [List.flatMap_cons, List.flatMap_cons]
          rcases List.cons_lt_cons_iff.mp less with first | ⟨rfl, rest⟩
          · exact utf8EncodeChar_append_lt first _ _
          · exact List.append_left_lt (ih rest)

/-- Texts are in the order of their bytes. -/
theorem lt_iff_bytes_lt {s t : String} : s < t ↔ bytes s < bytes t := by
  have forward : ∀ {s t : String}, s < t → bytes s < bytes t := by
    intro s t less
    rw [bytes_eq, bytes_eq]
    exact flatMap_utf8EncodeChar_lt (String.lt_iff.mp less)
  constructor
  · exact forward
  · intro less
    by_cases before : t < s
    · exact absurd less (List.lt_asymm (forward before))
    · by_cases equal : s = t
      · subst equal
        exact absurd less (List.lt_irrefl _)
      · apply String.not_le.mp
        intro le
        exact equal (String.le_antisymm (String.not_lt.mp before) le)

end PassEngine.Text
