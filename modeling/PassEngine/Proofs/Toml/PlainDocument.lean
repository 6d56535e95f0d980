import PassEngine.Proofs.Toml.Scalars

/-!
# Plain documents

A plain document has an assignment on every line: a bare key, the equals sign and the text of a
value that ends with its line. Its table has just these keys with these values, in this order.
-/

namespace PassEngine.Toml

/-- A key with the text of a value, and the value that the text reads as on the line. -/
structure Assignment where
  key : String
  text : String
  value : Value
  bare : key.toList.all isBare
  nonempty : key.toList ≠ []
  reads : ∀ rest, Toml.value maxLevels (skipSpaces (text.toList ++ '\n' :: rest)) =
    some (value, '\n' :: rest)

namespace Assignment

/-- The line of an assignment. -/
def written (assignment : Assignment) : String :=
  assignment.key ++ " = " ++ assignment.text ++ "\n"

/-- What the line of an assignment states. -/
def pair (assignment : Assignment) : Pair := ([], assignment.key, assignment.value)

/-- The entry of an assignment in a table. -/
def entry (assignment : Assignment) : String × Value := (assignment.key, assignment.value)

theorem toList_written (assignment : Assignment) (rest : List Char) :
    assignment.written.toList ++ rest = assignment.key.toList ++
      ' ' :: '=' :: ' ' :: (assignment.text.toList ++ '\n' :: rest) := by
  simp only [written, String.toList_append, List.append_assoc]
  rfl

theorem isBare_of_mem (assignment : Assignment) : ∀ c ∈ assignment.key.toList, isBare c :=
  List.all_eq_true.mp assignment.bare

theorem written_eq_cons (assignment : Assignment) :
    ∃ c cs, isBare c ∧ assignment.written.toList = c :: cs := by
  obtain ⟨c, cs, front⟩ := List.exists_cons_of_ne_nil assignment.nonempty
  refine ⟨c, cs ++ ' ' :: '=' :: ' ' :: (assignment.text.toList ++ ['\n']), ?_, ?_⟩
  · exact assignment.isBare_of_mem c (front ▸ List.mem_cons_self)
  · rw [← List.append_nil assignment.written.toList, toList_written, front]
    rfl

end Assignment

variable {c d : Char} {cs rest : List Char}

/-! ## Bare keys -/

theorem keyPart_bare (bare : ∀ c ∈ cs, isBare c) (nonempty : cs ≠ []) (stop : isBare d = false) :
    keyPart (cs ++ d :: rest) = some (.ofList cs, d :: rest) := by
  have stops : ¬ isBare d := by
    rw [stop]
    exact Bool.false_ne_true
  have taken : (cs ++ d :: rest).takeWhile isBare = cs := by
    rw [List.takeWhile_append_of_pos bare, List.takeWhile_cons_of_neg stops, List.append_nil]
  have dropped : (cs ++ d :: rest).dropWhile isBare = d :: rest := by
    rw [List.dropWhile_append_of_pos bare, List.dropWhile_cons_of_neg stops]
  obtain ⟨c, tail, rfl⟩ := List.exists_cons_of_ne_nil nonempty
  have first : isBare c := bare c List.mem_cons_self
  unfold keyPart
  split
  · rename_i quote
    exact absurd quote (cons_ne_cons first rfl)
  · rename_i quote
    exact absurd quote (cons_ne_cons first rfl)
  · simp only [taken, dropped]
    rfl

theorem skipSpaces_bare (bare : ∀ c ∈ cs, isBare c) (nonempty : cs ≠ []) :
    skipSpaces (cs ++ rest) = cs ++ rest := by
  obtain ⟨c, tail, rfl⟩ := List.exists_cons_of_ne_nil nonempty
  exact skipSpaces_cons (bare c List.mem_cons_self) rfl rfl

theorem key_bare (bare : ∀ c ∈ cs, isBare c) (nonempty : cs ≠ []) :
    key maxKeyParts (cs ++ ' ' :: '=' :: rest) = some (([], .ofList cs), '=' :: rest) := by
  rw [maxKeyParts, key, skipSpaces_bare bare nonempty, keyPart_bare bare nonempty rfl]
  rfl

/-! ## Lines -/

theorem pair_bare {read : Reader Value} {found : Value} {behind : List Char}
    (bare : ∀ c ∈ cs, isBare c) (nonempty : cs ≠ [])
    (reads : read (skipSpaces rest) = some (found, behind)) :
    pair read (cs ++ ' ' :: '=' :: ' ' :: rest) = some (([], .ofList cs, found), behind) := by
  have named : key maxKeyParts (cs ++ ' ' :: '=' :: ' ' :: rest) =
      some (([], .ofList cs), '=' :: ' ' :: rest) := key_bare bare nonempty
  have spaced : read (skipSpaces (' ' :: rest)) = some (found, behind) := reads
  simp only [pair, named, spaced, Option.map_some]

theorem pair_written (assignment : Assignment) (rest : List Char) :
    pair (value maxLevels) (assignment.written.toList ++ rest) =
      some (assignment.pair, '\n' :: rest) := by
  rw [assignment.toList_written,
    pair_bare assignment.isBare_of_mem assignment.nonempty (assignment.reads rest),
    String.ofList_toList]
  rfl

theorem statement_bare (bare : isBare c) :
    statement (c :: rest) =
      (pair (value maxLevels) (c :: rest)).map fun (found, rest) => (.pair found, rest) := by
  unfold statement
  split
  · rename_i bracket
    exact absurd bracket (cons_ne_cons bare rfl)
  · rename_i bracket
    exact absurd bracket (cons_ne_cons bare rfl)
  · rfl

theorem lineEnd?_bare (bare : isBare c) : lineEnd? (c :: rest) = none := by
  have noComment : skipComment (c :: rest) = c :: rest := by
    unfold skipComment
    split
    · rename_i comment
      exact absurd comment (cons_ne_cons bare rfl)
    · rfl
  rw [lineEnd?, skipSpaces_cons bare rfl rfl, noComment]
  show lineBreak? (c :: rest) = none
  unfold lineBreak?
  split
  · rename_i lineFeed
    exact absurd lineFeed (cons_ne_cons bare rfl)
  · rename_i carriageReturn
    exact absurd carriageReturn (cons_ne_cons bare rfl)
  · rfl

theorem line_written (assignment : Assignment) (rest : List Char) :
    line (assignment.written.toList ++ rest) = some (some (.pair assignment.pair), rest) := by
  have found := pair_written assignment rest
  obtain ⟨c, cs, bare, front⟩ := assignment.written_eq_cons
  rw [front, List.cons_append] at found ⊢
  simp only [line, skipSpaces_cons bare rfl rfl, lineEnd?_bare bare,
    statement_bare bare, found, Option.map_some]
  rfl

/-! ## Documents -/

/-- The text of a plain document. -/
def plainText (assignments : List Assignment) : String :=
  String.join (assignments.map Assignment.written)

variable {assignments : List Assignment} {entries : Entries}

theorem toList_plainText_cons (assignment : Assignment) (later : List Assignment) :
    (plainText (assignment :: later)).toList =
      assignment.written.toList ++ (plainText later).toList := by
  rw [plainText, List.map_cons, String.join_cons, String.toList_append, plainText]

theorem length_le_plainText (assignments : List Assignment) :
    assignments.length ≤ (plainText assignments).toList.length := by
  induction assignments with
  | nil => exact Nat.zero_le _
  | cons assignment later ih =>
      obtain ⟨c, cs, _, front⟩ := assignment.written_eq_cons
      rw [toList_plainText_cons, front, List.length_append, List.length_cons, List.length_cons]
      omega

theorem skipMark_plainText (assignments : List Assignment) :
    skipMark (plainText assignments).toList = (plainText assignments).toList := by
  cases assignments with
  | nil => rfl
  | cons assignment later =>
      obtain ⟨c, cs, bare, front⟩ := assignment.written_eq_cons
      rw [toList_plainText_cons, front, List.cons_append]
      unfold skipMark
      split
      · rename_i mark
        exact absurd mark (cons_ne_cons bare rfl)
      · rfl

theorem statements_plainText {fuel : Nat} (enough : assignments.length ≤ fuel) :
    statements fuel (plainText assignments).toList =
      some (assignments.map fun assignment => .pair assignment.pair) := by
  induction assignments generalizing fuel with
  | nil => cases fuel <;> rfl
  | cons assignment later ih =>
      obtain ⟨fuel, rfl⟩ := Nat.exists_eq_add_one_of_ne_zero (Nat.ne_zero_of_lt enough)
      have here := line_written assignment (plainText later).toList
      have there := ih (Nat.le_of_succ_le_succ enough)
      obtain ⟨c, cs, _, front⟩ := assignment.written_eq_cons
      rw [toList_plainText_cons]
      rw [front, List.cons_append] at here ⊢
      simp only [statements, here, there]
      rfl

/-! ## Tables -/

theorem add_new (assignment : Assignment) (new : entries.find? assignment.key = none) :
    entries.add [] assignment.key assignment.value = some (entries ++ [assignment.entry]) := by
  simp only [Entries.add, Entries.changeWithin, new]
  rfl

theorem find?_append_entry (assignment : Assignment) {name : String}
    (other : assignment.key ≠ name) :
    Entries.find? (entries ++ [assignment.entry]) name = entries.find? name := by
  have apart : [assignment.entry].find? (·.1 == name) = none := by
    rw [List.find?_cons_of_neg (by simpa [Assignment.entry] using other), List.find?_nil]
  rw [Entries.find?, List.find?_append, apart, Option.or_none, Entries.find?]

theorem addAll_pairs (distinct : (assignments.map Assignment.key).Nodup)
    (new : ∀ assignment ∈ assignments, entries.find? assignment.key = none) :
    entries.addAll (assignments.map Assignment.pair) =
      some (entries ++ assignments.map Assignment.entry) := by
  -- what carries the induction is that the keys still to come are new
  induction assignments generalizing entries with
  | nil => exact congrArg some (List.append_nil entries).symm
  | cons assignment later ih =>
      obtain ⟨notLater, others⟩ := List.nodup_cons.mp distinct
      have here := add_new assignment (new assignment List.mem_cons_self)
      have stillNew : ∀ next ∈ later,
          Entries.find? (entries ++ [assignment.entry]) next.key = none := by
        intro next member
        rw [find?_append_entry assignment]
        · exact new next (List.mem_cons_of_mem assignment member)
        · intro same
          exact notLater (same ▸ List.mem_map_of_mem member)
      have there := ih others stillNew
      simp only [List.map_cons, Assignment.pair, Entries.addAll, here]
      rw [there, List.append_assoc, List.singleton_append]

theorem leadingPairs_pairs (assignments : List Assignment) :
    leadingPairs (assignments.map fun assignment => .pair assignment.pair) =
      assignments.map Assignment.pair := by
  induction assignments with
  | nil => rfl
  | cons assignment later ih => rw [List.map_cons, leadingPairs, ih, List.map_cons]

theorem enterSections_pairs (entries : Entries) (assignments : List Assignment) :
    enterSections entries (assignments.map fun assignment => .pair assignment.pair) =
      some entries := by
  induction assignments with
  | nil => rfl
  | cons assignment later ih => rw [List.map_cons, enterSections, ih]

/-- A plain document reads as the table of its assignments. -/
theorem read_plainText (distinct : (assignments.map Assignment.key).Nodup) :
    read (plainText assignments) = some (assignments.map Assignment.entry) := by
  have enough := Nat.le_succ_of_le (length_le_plainText assignments)
  have added : Entries.addAll [] (assignments.map Assignment.pair) =
      some ([] ++ assignments.map Assignment.entry) := addAll_pairs distinct fun _ _ => rfl
  simp only [read, skipMark_plainText, statements_plainText enough, Option.bind_some, entriesOf,
    leadingPairs_pairs, added, enterSections_pairs, List.nil_append]

end PassEngine.Toml
