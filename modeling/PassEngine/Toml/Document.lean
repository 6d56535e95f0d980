import PassEngine.Toml.Number

/-!
# Documents of TOML

A document is read in two steps. The text is read into statements, one to a line: a key with its
value, or the header of a table or of an element of an array of tables. The statements are then
gathered into sections and entered into the table that they describe, where the rules on who may
add to a table decide.
-/

namespace PassEngine.Toml

abbrev Pair := List String × String × Value

/-! ## Values -/

/-- The items of an array behind its bracket. The fuel bounds their number. -/
def items (value : Reader Value) : Nat → Reader (List Value)
  | 0, _ => none
  | fuel + 1, cs =>
      match skipGap false cs with
      | none => none
      | some (']' :: rest) => some ([], rest)
      | some cs =>
          match value cs with
          | none => none
          | some (item, cs) =>
              match skipGap false cs with
              | some (',' :: rest) =>
                  (items value fuel rest).map fun (more, rest) => (item :: more, rest)
              | some (']' :: rest) => some ([item], rest)
              | _ => none

def pair (value : Reader Value) : Reader Pair := fun cs =>
  match key maxKeyParts cs with
  | some ((path, last), '=' :: rest) =>
      (value (skipSpaces rest)).map fun (found, rest) => ((path, last, found), rest)
  | _ => none

/-- The pairs of a table in braces, at least one. The fuel bounds their number. -/
def pairs (value : Reader Value) : Nat → Reader (List Pair)
  | 0, _ => none
  | fuel + 1, cs =>
      match pair value cs with
      | none => none
      | some (first, cs) =>
          match skipSpaces cs with
          | ',' :: rest => (pairs value fuel rest).map fun (more, rest) => (first :: more, rest)
          | '\x7d' :: rest => some ([first], rest)
          | _ => none

/-- The pairs of a table in braces behind the opening brace, entered into a table. -/
def closedTable (value : Reader Value) : Reader Value := fun cs =>
  match skipSpaces cs with
  | '\x7d' :: rest => some (.table .closed [], rest)
  | cs =>
      match pairs value (cs.length + 1) cs with
      | none => none
      | some (content, rest) =>
          (Entries.addAll [] content).map fun entries => (.table .closed entries, rest)

/-- A value; brackets and braces within it are nested at most so many levels deep. -/
def value : Nat → Reader Value
  | _, '"' :: '"' :: '"' :: rest =>
      (longString '"' true rest).map fun (body, rest) => (.string (.ofList body), rest)
  | _, '\'' :: '\'' :: '\'' :: rest =>
      (longString '\'' false rest).map fun (body, rest) => (.string (.ofList body), rest)
  | _, '"' :: rest =>
      (quotedBody (rest.length + 1) rest).map fun (body, rest) => (.string (.ofList body), rest)
  | _, '\'' :: rest =>
      (literalBody rest).map fun (body, rest) => (.string (.ofList body), rest)
  | levels + 1, '[' :: rest =>
      (items (value levels) (rest.length + 1) rest).map fun (found, rest) => (.array found, rest)
  | levels + 1, '\x7b' :: rest => closedTable (value levels) rest
  | _, 't' :: 'r' :: 'u' :: 'e' :: rest => some (.boolean true, rest)
  | _, 'f' :: 'a' :: 'l' :: 's' :: 'e' :: rest => some (.boolean false, rest)
  | _, cs => numberOrDate cs

def maxLevels : Nat := 79

/-! ## Statements -/

/-- What stands on one line of a document. -/
inductive Statement where
  | pair (pair : Pair)
  | table (path : List String) (key : String)
  | element (path : List String) (key : String)

def statement : Reader Statement
  | '[' :: '[' :: rest =>
      match key maxKeyParts rest with
      | some ((path, last), ']' :: ']' :: rest) => some (.element path last, rest)
      | _ => none
  | '[' :: rest =>
      match key maxKeyParts rest with
      | some ((path, last), ']' :: rest) => some (.table path last, rest)
      | _ => none
  | cs => (pair (value maxLevels) cs).map fun (found, rest) => (.pair found, rest)

/-- The statement on the current line, if it is not blank, and the text behind the line. -/
def line : Reader (Option Statement) := fun cs =>
  let cs := skipSpaces cs
  match lineEnd? cs with
  | some rest => some (none, rest)
  | none =>
      match statement cs with
      | none => none
      | some (found, rest) => (lineEnd? rest).map (some found, ·)

def statements : Nat → List Char → Option (List Statement)
  | _, [] => some []
  | 0, _ => none
  | fuel + 1, cs =>
      match line cs with
      | none => none
      | some (found, rest) => (statements fuel rest).map (found.toList ++ ·)

/-! ## The table of a document -/

def leadingPairs : List Statement → List Pair
  | .pair pair :: rest => pair :: leadingPairs rest
  | _ => []

/-- Enter the section of each header into the table of a document; the pairs of a section are
those between its header and the next. -/
def enterSections (entries : Entries) : List Statement → Option Entries
  | [] => some entries
  | .pair _ :: rest => enterSections entries rest
  | .table path key :: rest =>
      match entries.addTable path key (leadingPairs rest) with
      | none => none
      | some entries => enterSections entries rest
  | .element path key :: rest =>
      match entries.addElement path key (leadingPairs rest) with
      | none => none
      | some entries => enterSections entries rest

def entriesOf (found : List Statement) : Option Entries :=
  (Entries.addAll [] (leadingPairs found)).bind fun entries => enterSections entries found

/-- The text behind the mark of byte order that some editors put in front. -/
def skipMark : List Char → List Char
  | '\uFEFF' :: rest => rest
  | cs => cs

/-- The table that a text describes, if it is a document. -/
def read (text : String) : Option Entries :=
  let cs := skipMark text.toList
  (statements (cs.length + 1) cs).bind entriesOf

end PassEngine.Toml
