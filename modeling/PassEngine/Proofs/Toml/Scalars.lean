import Mathlib.Data.List.Basic
import PassEngine.Toml.Document

/-!
# Booleans and integers at the end of a line

A boolean and an integer are read back from the texts that they are written as, where the line ends
behind them. No hyphen and no colon follows the digits, so that they begin no date, and an integer
of more than one digit does not begin with a zero.
-/

namespace PassEngine.Toml

/-! ## The character in front -/

section

variable {p : Char → Bool} {c d : Char} {cs ds : List Char}

/-- A reader that waits for one character does not take another. -/
theorem cons_ne_cons (holds : p c) (fails : p d = false) : c :: cs ≠ d :: ds := by
  intro same
  rw [(List.cons.inj same).1, fails] at holds
  cases holds

theorem skipSpaces_cons (holds : p c) (space : p ' ' = false) (tab : p '\t' = false) :
    skipSpaces (c :: cs) = c :: cs := by
  have noSpace : ¬ isSpace c := by
    rw [isSpace, Bool.or_eq_true, beq_iff_eq, beq_iff_eq]
    rintro (rfl | rfl)
    · exact Bool.false_ne_true (space.symm.trans holds)
    · exact Bool.false_ne_true (tab.symm.trans holds)
  rw [skipSpaces, List.dropWhile_cons_of_neg noSpace]

end

variable {ds rest : List Char} {c : Char} {n width : Nat}

/-! ## Digits -/

theorem numeral_eq_ofDigitChars (h : ∀ c ∈ ds, c.isDigit) :
    numeral 10 ds = Nat.ofDigitChars 10 ds 0 := by
  rw [numeral, Nat.ofDigitChars_eq_foldl]
  apply List.foldl_ext
  intro value c member
  rw [digitValue, if_pos (h c member), Nat.mul_comm]

theorem isDigit_of_mem_toDigits (h : c ∈ Nat.toDigits 10 n) : c.isDigit :=
  Nat.isDigit_of_mem_toDigits (by decide) (by decide) h

theorem numeral_toDigits (n : Nat) : numeral 10 (Nat.toDigits 10 n) = n := by
  rw [numeral_eq_ofDigitChars fun _ => isDigit_of_mem_toDigits, Nat.ofDigitChars_ten_toDigits]

theorem toDigits_eq_cons (n : Nat) : ∃ c ds, Nat.toDigits 10 n = c :: ds ∧ c.isDigit := by
  obtain ⟨c, ds, front⟩ := List.exists_cons_of_ne_nil (@Nat.toDigits_ne_nil n 10)
  exact ⟨c, ds, front, isDigit_of_mem_toDigits (front ▸ List.mem_cons_self)⟩

/-- Only zero is written with a zero in front. -/
theorem toDigits_of_pos (h : 0 < n) : ∃ c ds, Nat.toDigits 10 n = c :: ds ∧ c ≠ '0' := by
  induction n using Nat.base_induction 10 (by decide) with
  | single m hm =>
      refine ⟨m.digitChar, [], Nat.toDigits_of_lt_base hm, ?_⟩
      rw [ne_eq, Nat.digitChar_eq_zero]
      omega
  | digit m d hd hm ih =>
      obtain ⟨c, ds, front, nonzero⟩ := ih hm
      refine ⟨c, ds ++ [d.digitChar], ?_, nonzero⟩
      rw [← Nat.toDigits_append_toDigits (by decide) hm hd, front, Nat.toDigits_of_lt_base hd]
      rfl

/-! ## Digits are no date -/

/-- Behind some of the digits there are more digits, or the line ends. -/
theorem fixedDigits_line {m : Nat} {cs : List Char} (h : ∀ c ∈ ds, c.isDigit)
    (read : fixedDigits width (ds ++ '\n' :: rest) = some (m, c :: cs)) : c.isDigit ∨ c = '\n' := by
  simp only [fixedDigits, Option.ite_none_right_eq_some, Bool.and_eq_true, List.all_eq_true] at read
  obtain ⟨⟨_, allDigits⟩, found⟩ := read
  -- more characters than there are digits would include the end of the line
  have enough : width ≤ ds.length := by
    by_contra short
    have lineEnd : '\n' ∈ (ds ++ '\n' :: rest).take width := by
      rw [List.take_append, List.mem_append, List.take_cons (by omega)]
      exact Or.inr List.mem_cons_self
    exact absurd (allDigits _ lineEnd) (by decide)
  have behind : ds.drop width ++ '\n' :: rest = c :: cs := by
    rw [← List.drop_append_of_le_length enough]
    exact (Prod.mk.inj (Option.some.inj found)).2
  cases more : ds.drop width with
  | nil =>
      rw [more] at behind
      exact Or.inr (List.cons.inj behind).1.symm
  | cons d tail =>
      rw [more] at behind
      rw [← (List.cons.inj behind).1]
      exact Or.inl (h d (List.mem_of_mem_drop (more ▸ List.mem_cons_self)))

theorem year?_line (h : ∀ c ∈ ds, c.isDigit) : year? (ds ++ '\n' :: rest) = none := by
  unfold year?
  split
  · rename_i found
    exact absurd (fixedDigits_line h found) (by decide)
  · rfl

theorem fixedDigits_of_twoDigits {low high m : Nat} {cs tail : List Char}
    (h : twoDigits low high cs = some (m, tail)) : fixedDigits 2 cs = some (m, tail) := by
  unfold twoDigits at h
  split at h
  · cases h
  · rename_i found
    split at h
    · rw [found, h]
    · cases h

theorem hour?_line (h : ∀ c ∈ ds, c.isDigit) : hour? (ds ++ '\n' :: rest) = none := by
  unfold hour?
  cases found : twoDigits 0 23 (ds ++ '\n' :: rest) with
  | none => rfl
  | some hour =>
      obtain ⟨m, tail⟩ := hour
      show after ':' tail = none
      cases tail with
      | nil => rfl
      | cons c cs =>
          have front := fixedDigits_line h (fixedDigits_of_twoDigits found)
          refine if_neg ?_
          rintro rfl
          revert front
          decide

/-! ## Integers -/

theorem digitRun_line (h : ∀ c ∈ ds, c.isDigit) :
    digitRun Char.isDigit (ds ++ '\n' :: rest) = some (ds, '\n' :: rest) := by
  induction ds with
  | nil => rfl
  | cons c ds ih =>
      have here : c.isDigit := h c List.mem_cons_self
      have there := ih fun d member => h d (List.mem_cons_of_mem c member)
      rw [List.cons_append, digitRun.eq_def]
      split
      · rename_i underscore
        exact absurd underscore (cons_ne_cons here rfl)
      · rename_i underscore
        exact absurd underscore (cons_ne_cons here rfl)
      · rename_i same
        obtain ⟨rfl, rfl⟩ := List.cons.inj same
        rw [if_pos here, there, Option.map_some]
      · rename_i empty
        cases empty

theorem digits_line (h : ∀ c ∈ ds, c.isDigit) (nonempty : ds ≠ []) :
    digits Char.isDigit (ds ++ '\n' :: rest) = some (ds, '\n' :: rest) := by
  cases ds with
  | nil => exact absurd rfl nonempty
  | cons c ds =>
      have there : digitRun Char.isDigit (ds ++ '\n' :: rest) = some (ds, '\n' :: rest) :=
        digitRun_line fun d member => h d (List.mem_cons_of_mem c member)
      rw [List.cons_append, digits, if_pos (h c List.mem_cons_self), there, Option.map_some]

theorem sign_digit (digit : c.isDigit) (cs : List Char) : sign (c :: cs) = (false, c :: cs) := by
  unfold sign
  split
  · rename_i plus
    exact absurd plus (cons_ne_cons digit rfl)
  · rename_i minus
    exact absurd minus (cons_ne_cons digit rfl)
  · rfl

theorem number_digits (h : ∀ d ∈ c :: ds, d.isDigit) (nonzero : c ≠ '0') :
    number (c :: ds ++ '\n' :: rest) =
      (wordValue? (numeral 10 (c :: ds))).map (·, '\n' :: rest) := by
  have digit : c.isDigit := h c List.mem_cons_self
  have found : digits Char.isDigit (c :: ds ++ '\n' :: rest) = some (c :: ds, '\n' :: rest) :=
    digits_line h (List.cons_ne_nil c ds)
  -- the mark of another base would stand behind a zero
  have decimal : number (c :: ds ++ '\n' :: rest) = unsigned false (c :: ds ++ '\n' :: rest) := by
    rw [List.cons_append]
    unfold number
    split
    iterate 3
      rename_i mark
      exact absurd (List.cons.inj mark).1 nonzero
    rw [sign_digit digit]
  rw [decimal]
  unfold unsigned
  split
  · rename_i infinity
    exact absurd infinity (cons_ne_cons digit rfl)
  · rename_i nan
    exact absurd nan (cons_ne_cons digit rfl)
  · rename_i zero
    exact absurd (List.cons.inj zero).1 nonzero
  · rw [found]
    rfl

theorem value_digit (digit : c.isDigit) (levels : Nat) (cs : List Char) :
    value levels (c :: cs) = numberOrDate (c :: cs) := by
  rw [value.eq_def]
  split
  all_goals first
    | rfl
    | rename_i front
      exact absurd front (cons_ne_cons digit rfl)

theorem number_toDigits (n : Nat) (rest : List Char) :
    number (Nat.toDigits 10 n ++ '\n' :: rest) = (wordValue? n).map (·, '\n' :: rest) := by
  rcases Nat.eq_zero_or_pos n with rfl | positive
  · rw [Nat.toDigits_zero]
    rfl
  · obtain ⟨c, ds, front, nonzero⟩ := toDigits_of_pos positive
    have allDigits : ∀ d ∈ c :: ds, d.isDigit := fun _ member =>
      isDigit_of_mem_toDigits (front ▸ member)
    rw [front, number_digits allDigits nonzero, ← front, numeral_toDigits]

theorem wordValue?_natCast (bound : n < wordBound) : wordValue? n = some (.integer n) := by
  unfold wordValue?
  rw [if_pos]
  rw [Bool.and_eq_true, decide_eq_true_eq, decide_eq_true_eq]
  omega

theorem skipSpaces_toDigits (n : Nat) (rest : List Char) :
    skipSpaces (Nat.toDigits 10 n ++ rest) = Nat.toDigits 10 n ++ rest := by
  obtain ⟨c, ds, front, digit⟩ := toDigits_eq_cons n
  rw [front, List.cons_append, skipSpaces_cons digit rfl rfl]

/-! ## What was written is read back -/

theorem value_integer (bound : n < wordBound) (levels : Nat) (rest : List Char) :
    value levels (skipSpaces (n.repr.toList ++ '\n' :: rest)) =
      some (.integer n, '\n' :: rest) := by
  have allDigits : ∀ c ∈ Nat.toDigits 10 n, c.isDigit := fun _ => isDigit_of_mem_toDigits
  have noDate : numberOrDate (Nat.toDigits 10 n ++ '\n' :: rest) =
      number (Nat.toDigits 10 n ++ '\n' :: rest) := by
    simp only [numberOrDate, year?_line allDigits, hour?_line allDigits]
  have scalar : value levels (Nat.toDigits 10 n ++ '\n' :: rest) =
      numberOrDate (Nat.toDigits 10 n ++ '\n' :: rest) := by
    obtain ⟨c, ds, front, digit⟩ := toDigits_eq_cons n
    rw [front, List.cons_append, value_digit digit]
  rw [Nat.toList_repr, skipSpaces_toDigits, scalar, noDate, number_toDigits,
    wordValue?_natCast bound, Option.map_some]

theorem value_boolean (b : Bool) (levels : Nat) (rest : List Char) :
    value levels (skipSpaces ((if b then "true" else "false").toList ++ '\n' :: rest)) =
      some (.boolean b, '\n' :: rest) := by
  cases b with
  | true => cases levels <;> rfl
  | false => cases levels <;> rfl

end PassEngine.Toml
