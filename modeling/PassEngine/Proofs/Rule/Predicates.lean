import PassEngine.Rule
import PassEngine.Proofs.Text.Words

/-!
# Predicates as conjunctions of words

A predicate asks a set of tags for each of its words and for nothing else. Two predicates with a gap
between them ask for what both ask for. Where the blanks stand, in which order the words come and
how often makes no difference, and a tag with a blank in it is asked for by no predicate. A rule
keeps the words of its predicate, so that it asks the same of the tags.
-/

namespace PassEngine.TagSet

open Text (Blank IsWord MaximalRun isBlank words)

variable {tags : TagSet} {predicate other gap : String} {tag : Tag}

theorem satisfies_iff :
    tags.satisfies predicate = true ↔ ∀ word ∈ words predicate, word ∈ tags := by
  unfold satisfies
  exact containsAll_iff

theorem satisfies_congr (same : ∀ word, word ∈ words other ↔ word ∈ words predicate) :
    tags.satisfies other = tags.satisfies predicate := by
  rw [Bool.eq_iff_iff, satisfies_iff, satisfies_iff]
  simp only [same]

theorem satisfies_append_gap (blank : Blank gap) (nonempty : gap ≠ "") :
    tags.satisfies (predicate ++ gap ++ other) =
      (tags.satisfies predicate && tags.satisfies other) := by
  unfold satisfies containsAll
  rw [Text.words_append_gap blank nonempty, List.all_append]

theorem satisfies_of_isWord (word : IsWord predicate) :
    tags.satisfies predicate = tags.contains predicate := by
  unfold satisfies containsAll
  rw [Text.words_of_isWord word]
  simp

/-- Only words are asked for, so that nothing else is missed or found. -/
theorem satisfies_insert (noWord : ¬IsWord tag) :
    (tags.insert tag).satisfies predicate = tags.satisfies predicate := by
  rw [Bool.eq_iff_iff, satisfies_iff, satisfies_iff]
  apply forall_congr'
  intro word
  apply imp_congr_right
  intro hword
  have different : word ≠ tag := by
    intro same
    exact noWord (same ▸ Text.isWord_of_mem_words hword)
  simp [different]

theorem fires_ofPredicate {ρ : Type} (predicate : String) (targets : List ρ) (guards : List Guard)
    (tags : TagSet) (settings : Settings) :
    (guards.foldl Rule.guardedBy (.ofPredicate predicate targets)).fires tags settings =
      (guards.all (·.holds settings) && tags.satisfies predicate) := by
  rw [Rule.foldl_guardedBy]
  simp [Rule.fires, Rule.ofPredicate, satisfies]

/-- A predicate is the conjunction of its words, the maximal runs of characters that are not blank.
So is a gap between two predicates; blanks at the ends, the order of the words and their repetition
do not count, and blanks alone ask for nothing. A word is asked for as it is, and a tag with a blank
in it is of no help to any predicate. A rule that is made from a predicate, with whatever guards,
fires where the guards hold and the predicate does. -/
theorem predicates_conjoin_words (tags : TagSet) (predicate other : String) :
    (tags.satisfies predicate = true ↔ ∀ word, MaximalRun predicate word → word ∈ tags) ∧
    (∀ gap, Blank gap → gap ≠ "" →
      tags.satisfies (predicate ++ gap ++ other) =
        (tags.satisfies predicate && tags.satisfies other)) ∧
    (∀ gap, Blank gap →
      tags.satisfies (gap ++ predicate) = tags.satisfies predicate ∧
      tags.satisfies (predicate ++ gap) = tags.satisfies predicate ∧
      tags.satisfies gap = true) ∧
    ((∀ word, MaximalRun other word ↔ MaximalRun predicate word) →
      tags.satisfies other = tags.satisfies predicate) ∧
    (IsWord predicate → tags.satisfies predicate = tags.contains predicate) ∧
    (∀ tag : Tag, (∃ c ∈ tag.toList, isBlank c = true) →
      (tags.insert tag).satisfies predicate = tags.satisfies predicate) ∧
    ∀ {ρ : Type} (targets : List ρ) (guards : List Guard) (settings : Settings),
      (guards.foldl Rule.guardedBy (.ofPredicate predicate targets)).fires tags settings =
        (guards.all (·.holds settings) && tags.satisfies predicate) := by
  refine ⟨?_, ?_, ?_, ?_, satisfies_of_isWord, ?_, ?_⟩
  · simp only [← Text.mem_words_iff]
    exact satisfies_iff
  · intro gap blank nonempty
    exact satisfies_append_gap blank nonempty
  · intro gap blank
    refine ⟨?_, ?_, ?_⟩
    · unfold satisfies
      rw [Text.words_blank_append blank]
    · unfold satisfies
      rw [Text.words_append_blank blank]
    · unfold satisfies
      rw [Text.words_eq_nil_iff.mpr blank]
      rfl
  · simp only [← Text.mem_words_iff]
    exact satisfies_congr
  · intro tag broken
    obtain ⟨c, hc, blank⟩ := broken
    apply satisfies_insert
    intro word
    rw [word.2 c hc] at blank
    cases blank
  · intro ρ targets guards settings
    exact fires_ofPredicate predicate targets guards tags settings

/-- An em space and a line break of old keep two words apart. The tag that looks like both of them
together is asked for by neither. -/
theorem predicates_conjoin_words_spaced :
    let tags := ofList ["new_code", "var_usage"]
    Blank "\u2003\u0085" ∧
    tags.satisfies ("new_code" ++ "\u2003\u0085" ++ "new_import") =
      (tags.satisfies "new_code" && tags.satisfies "new_import") ∧
    tags.satisfies ("\u2003\u0085" ++ "new_code") = tags.satisfies "new_code" ∧
    tags.satisfies "\tvar_usage new_code\nvar_usage" = tags.satisfies "new_code\u2028var_usage" ∧
    tags.satisfies "new_code" = tags.contains "new_code" ∧
    (tags.insert "new_code new_import").satisfies "new_code new_import" =
      tags.satisfies "new_code new_import" ∧
    tags.satisfies "new_code" = true ∧ tags.satisfies "new_code new_import" = false := by
  intro tags
  have blank : Blank "\u2003\u0085" := by decide
  have three : words "\tvar_usage new_code\nvar_usage" =
      ["var_usage", "new_code", "var_usage"] := rfl
  have two : words "new_code\u2028var_usage" = ["new_code", "var_usage"] := rfl
  have same : ∀ word, MaximalRun "\tvar_usage new_code\nvar_usage" word ↔
      MaximalRun "new_code\u2028var_usage" word := by
    intro word
    rw [← Text.mem_words_iff, ← Text.mem_words_iff, three, two]
    grind
  have listed : "new_code" ∈ words "new_code\u2028var_usage" := by
    rw [two]
    exact List.mem_cons_self
  obtain ⟨_, apart, around, _, single, _⟩ :=
    predicates_conjoin_words tags "new_code" "new_import"
  obtain ⟨_, _, _, reordered, _⟩ := predicates_conjoin_words tags "new_code\u2028var_usage"
    "\tvar_usage new_code\nvar_usage"
  obtain ⟨_, _, _, _, _, unheard, _⟩ := predicates_conjoin_words tags "new_code new_import" ""
  have alone := single (Text.isWord_of_mem_words listed)
  have blind := unheard "new_code new_import" ⟨' ', by decide, rfl⟩
  exact ⟨blank, apart _ blank (by decide), (around _ blank).1, reordered same, alone, blind,
    by decide, by decide⟩

end PassEngine.TagSet
