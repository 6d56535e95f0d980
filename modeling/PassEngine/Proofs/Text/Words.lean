import Mathlib.Data.List.Basic
import PassEngine.Text.Blank

/-!
# Words as maximal runs

A text without a blank is a single field. Any other text is a field, a blank and the fields of what
comes behind it. The words of a text are therefore its maximal runs of characters that are not
blank, wherever these stand, and a gap of blanks between two texts, however long, keeps their words
apart and adds none.
-/

namespace PassEngine.Text

/-- A text of blanks only. -/
def Blank (s : String) : Prop := ∀ c ∈ s.toList, isBlank c = true

instance (s : String) : Decidable (Blank s) :=
  decidable_of_iff (s.toList.all isBlank = true) List.all_eq_true

/-- A word that stands somewhere in the text, between blanks or the ends of the text, so that it
cannot be longer. -/
def MaximalRun (s word : String) : Prop :=
  IsWord word ∧ ∃ before after, s.toList = before ++ word.toList ++ after ∧
    (∀ c ∈ before.getLast?, isBlank c = true) ∧ ∀ c ∈ after.head?, isBlank c = true

/-! ## Fields -/

variable {cs field before after : List Char}

theorem fields_of_unbroken (unbroken : ∀ c ∈ cs, isBlank c = false) : fields cs = [cs] := by
  induction cs with
  | nil => rfl
  | cons c rest ih =>
      have here : isBlank c = false := unbroken c List.mem_cons_self
      have there := ih fun d hd => unbroken d (List.mem_cons_of_mem c hd)
      simp [fields, here, there]

theorem fields_append_cut {c : Char} (unbroken : ∀ d ∈ field, isBlank d = false)
    (blank : isBlank c = true) (rest : List Char) :
    fields (field ++ c :: rest) = field :: fields rest := by
  rw [fields_append_blank blank, fields_of_unbroken unbroken]
  rfl

/-- Either a text has no blank, or it can be cut at the first one. -/
theorem cut_induction {motive : List Char → Prop}
    (unbroken : ∀ cs, (∀ c ∈ cs, isBlank c = false) → motive cs)
    (cut : ∀ field c rest, (∀ d ∈ field, isBlank d = false) → isBlank c = true →
      motive rest → motive (field ++ c :: rest)) (cs : List Char) : motive cs := by
  cases found : cs.find? isBlank with
  | none =>
      apply unbroken
      intro c hc
      simpa using List.find?_eq_none.mp found c hc
  | some c =>
      obtain ⟨blank, field, rest, hcs, before⟩ := List.find?_eq_some_iff_append.mp found
      have shorter : rest.length < cs.length := by
        rw [hcs, List.length_append, List.length_cons]
        omega
      have behind : motive rest := cut_induction unbroken cut rest
      rw [hcs]
      exact cut field c rest (by simpa using before) blank behind
termination_by cs.length

theorem exists_around_of_mem_fields (h : field ∈ fields cs) :
    ∃ before after, cs = before ++ field ++ after ∧
      (∀ c ∈ before.getLast?, isBlank c = true) ∧ ∀ c ∈ after.head?, isBlank c = true := by
  induction cs using cut_induction with
  | unbroken cs unbroken =>
      rw [fields_of_unbroken unbroken, List.mem_singleton] at h
      exact ⟨[], [], by simp [h], by simp, by simp⟩
  | cut first c rest unbroken blank ih =>
      rw [fields_append_cut unbroken blank, List.mem_cons] at h
      rcases h with here | there
      · exact ⟨[], c :: rest, by simp [here], by simp, by simp [blank]⟩
      · obtain ⟨before, after, hrest, left, right⟩ := ih there
        refine ⟨first ++ c :: before, after, by simp [hrest], ?_, right⟩
        -- the character before the field is that of `before`, or the blank where the text was cut
        cases before with
        | nil => simp [blank]
        | cons d before => simpa using left

theorem mem_fields_of_around (unbroken : ∀ c ∈ field, isBlank c = false)
    (left : ∀ c ∈ before.getLast?, isBlank c = true) (right : ∀ c ∈ after.head?, isBlank c = true) :
    field ∈ fields (before ++ field ++ after) := by
  have first : field ∈ fields (field ++ after) := by
    cases after with
    | nil => simp [fields_of_unbroken unbroken]
    | cons c rest => simp [fields_append_cut unbroken (right c rfl)]
  rw [List.append_assoc]
  cases List.eq_nil_or_concat before with
  | inl h => simpa [h] using first
  | inr h =>
      obtain ⟨start, c, hbefore⟩ := h
      have blank : isBlank c = true := left c (by simp [hbefore])
      rw [hbefore, List.concat_eq_append, List.append_assoc, List.singleton_append,
        fields_append_blank blank]
      exact List.mem_append_right _ first

/-! ## Words -/

variable {s t word gap : String}

/-- The words of a text are its maximal runs of characters that are not blank. -/
theorem mem_words_iff : word ∈ words s ↔ MaximalRun s word := by
  constructor
  · intro h
    refine ⟨isWord_of_mem_words h, ?_⟩
    simp only [words, List.mem_map, List.mem_filter] at h
    obtain ⟨field, ⟨hfield, _⟩, rfl⟩ := h
    simpa using exists_around_of_mem_fields hfield
  · intro h
    obtain ⟨⟨nonempty, unbroken⟩, before, after, hs, left, right⟩ := h
    have hfield := mem_fields_of_around unbroken left right
    rw [← hs] at hfield
    simp only [words, List.mem_map, List.mem_filter]
    exact ⟨word.toList, ⟨hfield, by simpa using nonempty⟩, String.ofList_toList⟩

theorem words_of_isWord (h : IsWord t) : words t = [t] := by
  have nonempty : [t.toList].filter (!·.isEmpty) = [t.toList] := by simpa using h.1
  rw [words, fields_of_unbroken h.2, nonempty, List.map_singleton, String.ofList_toList]

theorem filter_fields_blank {blanks : List Char} (blank : ∀ c ∈ blanks, isBlank c = true) :
    (fields (blanks ++ cs)).filter (!·.isEmpty) = (fields cs).filter (!·.isEmpty) := by
  induction blanks with
  | nil => rfl
  | cons c rest ih =>
      have here : isBlank c = true := blank c List.mem_cons_self
      have there := ih fun d hd => blank d (List.mem_cons_of_mem c hd)
      simpa [fields, here] using there

/-- A gap before a text adds no word. -/
theorem words_blank_append (blank : Blank gap) (s : String) : words (gap ++ s) = words s := by
  unfold words
  rw [String.toList_append, filter_fields_blank blank]

/-- The words of two texts with a gap between them are those of the one and then of the other. -/
theorem words_append_gap (blank : Blank gap) (nonempty : gap ≠ "") (s t : String) :
    words (s ++ gap ++ t) = words s ++ words t := by
  cases hgap : gap.toList with
  | nil => exact absurd (String.toList_inj.mp hgap) nonempty
  | cons c rest =>
      unfold Blank at blank
      rw [hgap] at blank
      have here : isBlank c = true := blank c List.mem_cons_self
      have there : ∀ d ∈ rest, isBlank d = true := fun d hd => blank d (List.mem_cons_of_mem c hd)
      simp only [words, String.toList_append, hgap, List.append_assoc, List.cons_append]
      rw [fields_append_blank here, List.filter_append, filter_fields_blank there, List.map_append]

theorem words_eq_nil_iff : words s = [] ↔ Blank s := by
  have runs : ∀ cs, (fields cs).filter (!·.isEmpty) = [] ↔ ∀ c ∈ cs, isBlank c = true := by
    intro cs
    induction cs with
    | nil => simp [fields]
    | cons c rest ih =>
        cases blank : isBlank c with
        | true => simpa [fields, blank] using ih
        | false =>
            cases h : fields rest with
            | nil => exact absurd h (fields_ne_nil rest)
            | cons field more => simp [fields, blank, h]
  rw [words, List.map_eq_nil_iff]
  exact runs s.toList

/-- A gap behind a text adds no word. -/
theorem words_append_blank (blank : Blank gap) (s : String) : words (s ++ gap) = words s := by
  by_cases empty : gap = ""
  · rw [empty, String.append_empty]
  · have none : words "" = [] := rfl
    have h := words_append_gap blank empty s ""
    rwa [none, String.append_empty, List.append_nil] at h

/-- Words with one space between two of them are told apart again. -/
theorem words_intercalate {list : List String} (h : ∀ word ∈ list, IsWord word) :
    words (" ".intercalate list) = list := by
  have blank : Blank " " := by decide
  induction list with
  | nil => rfl
  | cons first rest ih =>
      have here : IsWord first := h first List.mem_cons_self
      have there := ih fun word hword => h word (List.mem_cons_of_mem first hword)
      cases rest with
      | nil => rw [String.intercalate_singleton, words_of_isWord here]
      | cons second rest =>
          rw [String.intercalate_cons_cons, words_append_gap blank (by decide), there,
            words_of_isWord here, List.singleton_append]

end PassEngine.Text
