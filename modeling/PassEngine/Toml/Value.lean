/-!
# Values and tables of TOML

A document is a table: keys with values, in the order in which they were written. Tables differ
in how they came to be, which decides who may add to them later.
-/

namespace PassEngine.Toml

/-- How a table came to be. -/
inductive Origin where
  /-- By a header of its own, as an element of an array of tables, or as the document. -/
  | written
  /-- By the header of a table within it. -/
  | implied
  | dotted
  /-- In braces, complete from the start. -/
  | closed
deriving DecidableEq

/-- A value. Of numbers with a fraction and of dates only the kind is kept. -/
inductive Value where
  | boolean (value : Bool)
  | integer (value : Int)
  | float
  | date
  | string (value : String)
  | array (items : List Value)
  | table (origin : Origin) (entries : List (String × Value))
  /-- An array of tables: the element written last, and those before it, latest first. -/
  | tables (latest : List (String × Value)) (earlier : List (List (String × Value)))

/-- Integers lie between the negative of this bound and the bound, which is not one of them. -/
def wordBound : Nat := Nat.pow 2 63

/-- The entries of a table in the order in which they were written. -/
abbrev Entries := List (String × Value)

namespace Entries

def find? (entries : Entries) (key : String) : Option Value :=
  (List.find? (·.1 == key) entries).map Prod.snd

/-- Give a key a value: in its place if it has one already, else behind the other keys. -/
def put (key : String) (value : Value) : Entries → Entries
  | [] => [(key, value)]
  | entry :: rest =>
      if entry.1 = key then (key, value) :: rest else entry :: put key value rest

/-- Follow a path of keys into a table and change the entries found there; tables that are not
there yet come to be on the way, by a dotted key or implied by a header. Values other than
tables and tables in braces cannot be entered, nor by a dotted key a table that was written out;
of an array of tables the latest element is entered. -/
def changeWithin (dotted : Bool) :
    List String → (Origin → Entries → Option Entries) → Origin → Entries → Option Entries
  | [], change, origin, entries => change origin entries
  | key :: path, change, _, entries =>
      let inner : Option Value :=
        match find? entries key with
        | none =>
            let origin : Origin := if dotted then .dotted else .implied
            (changeWithin dotted path change origin []).map (.table origin)
        | some (.table .closed _) => none
        | some (.table .written found) =>
            if dotted then none
            else (changeWithin dotted path change .written found).map (.table .written)
        | some (.table origin found) =>
            (changeWithin dotted path change origin found).map (.table origin)
        | some (.tables latest earlier) =>
            (changeWithin dotted path change .written latest).map (.tables · earlier)
        | some _ => none
      inner.map fun value => put key value entries

/-- Add a key, given by its path, with a value. The key must be new, and a dotted key must lead
to a table that dotted keys made. -/
def add (entries : Entries) (path : List String) (key : String) (value : Value) :
    Option Entries :=
  changeWithin true path
    (fun origin found =>
      if !path.isEmpty && origin != .dotted then none
      else if (find? found key).isSome then none
      else some (found ++ [(key, value)]))
    .written entries

def addAll (entries : Entries) : List (List String × String × Value) → Option Entries
  | [] => some entries
  | (path, key, value) :: rest =>
      match entries.add path key value with
      | none => none
      | some entries => addAll entries rest

/-- Write out a table: it must be new, or implied by tables within it. -/
def addTable (entries : Entries) (path : List String) (key : String)
    (content : List (List String × String × Value)) : Option Entries :=
  changeWithin false path
    (fun _ found =>
      let start : Option Entries :=
        match find? found key with
        | none => some []
        | some (.table .implied within) => some within
        | some _ => none
      (start.bind (addAll · content)).map fun table => put key (.table .written table) found)
    .written entries

def addElement (entries : Entries) (path : List String) (key : String)
    (content : List (List String × String × Value)) : Option Entries :=
  changeWithin false path
    (fun _ found =>
      match addAll [] content, find? found key with
      | some table, none => some (put key (.tables table []) found)
      | some table, some (.tables latest earlier) =>
          some (put key (.tables table (latest :: earlier)) found)
      | _, _ => none)
    .written entries

end Entries

end PassEngine.Toml
