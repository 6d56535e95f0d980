/-!
# Blank characters, words and trimming

A character is blank when Unicode gives it the property White_Space. Words are the maximal
runs of characters that are not blank; `fields` keeps the empty runs between two blanks, so
that cutting a text at one blank cuts its fields there and nowhere else.
-/

namespace PassEngine.Text

/-- The twenty-five characters of the Unicode property White_Space. -/
def isBlank (c : Char) : Bool :=
  let n := c.toNat
  (9 ≤ n && n ≤ 13) || n == 0x20 || n == 0x85 || n == 0xA0 || n == 0x1680 ||
    (0x2000 ≤ n && n ≤ 0x200A) || n == 0x2028 || n == 0x2029 || n == 0x202F || n == 0x205F ||
    n == 0x3000

/-! ## Words -/

/-- The runs between blanks, the empty ones included; there is always at least one. -/
def fields : List Char → List (List Char)
  | [] => [[]]
  | c :: rest =>
      if isBlank c then [] :: fields rest
      else
        match fields rest with
        | [] => [[c]]
        | field :: more => (c :: field) :: more

theorem fields_ne_nil (cs : List Char) : fields cs ≠ [] := by
  cases cs with
  | nil => simp [fields]
  | cons c rest =>
      simp only [fields]
      split
      · simp
      · split <;> simp

theorem fields_append_blank {c : Char} (hc : isBlank c = true) (before after : List Char) :
    fields (before ++ c :: after) = fields before ++ fields after := by
  induction before with
  | nil => simp [fields, hc]
  | cons d rest ih =>
      simp only [List.cons_append, fields, ih]
      split
      · rfl
      · cases h : fields rest with
        | nil => exact absurd h (fields_ne_nil rest)
        | cons field more => rfl

/-- No field holds a blank. -/
theorem isBlank_of_mem_fields {cs field : List Char} (hf : field ∈ fields cs) {c : Char}
    (hc : c ∈ field) : isBlank c = false := by
  induction cs generalizing field with
  | nil => simp [fields] at hf; simp [hf] at hc
  | cons d rest ih =>
      simp only [fields] at hf
      split at hf
      · rcases List.mem_cons.mp hf with rfl | hf
        · simp at hc
        · exact ih hf hc
      · rename_i hd
        cases h : fields rest with
        | nil => exact absurd h (fields_ne_nil rest)
        | cons head more =>
            simp only [h] at hf ih
            rcases List.mem_cons.mp hf with rfl | hf
            · rcases List.mem_cons.mp hc with rfl | hc
              · simpa using hd
              · exact ih List.mem_cons_self hc
            · exact ih (List.mem_cons_of_mem _ hf) hc

/-- The words of a text in order: its fields that are not empty. -/
def words (s : String) : List String :=
  ((fields s.toList).filter (!·.isEmpty)).map String.ofList

def IsWord (s : String) : Prop := s.toList ≠ [] ∧ ∀ c ∈ s.toList, isBlank c = false

instance (s : String) : Decidable (IsWord s) := inferInstanceAs (Decidable (_ ∧ _))

theorem isWord_of_mem_words {s word : String} (h : word ∈ words s) : IsWord word := by
  simp only [words, List.mem_map, List.mem_filter] at h
  obtain ⟨field, ⟨hf, hne⟩, rfl⟩ := h
  refine ⟨?_, fun c hc => isBlank_of_mem_fields hf (by simpa using hc)⟩
  simpa using hne

/-! ## Trimming -/

def trim (s : String) : String :=
  String.ofList ((s.toList.dropWhile isBlank).reverse.dropWhile isBlank).reverse

/-- ASCII capitals become small letters; every other character stays. -/
def lowercase (s : String) : String :=
  String.ofList (s.toList.map Char.toLower)

end PassEngine.Text
