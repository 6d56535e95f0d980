/-!
# Lines

A line ends with a line feed, alone or after one carriage return, and neither belongs to the line.
A carriage return anywhere else is a character like any other. `bareLine_append_return` and
`bareLine_of_getLast?_ne` say what is left out at the end of a line, and what is not.
-/

namespace PassEngine.Text

/-- What stands before a line feed, without the carriage return that ends the line with it. -/
def bareLine (cs : List Char) : List Char :=
  if cs.getLast? = some '\r' then cs.dropLast else cs

@[simp] theorem bareLine_append_return (cs : List Char) : bareLine (cs ++ ['\r']) = cs := by
  simp [bareLine]

theorem bareLine_of_getLast?_ne {cs : List Char} (h : cs.getLast? ≠ some '\r') :
    bareLine cs = cs := if_neg h

/-- The lines of a text that is followed by a line feed; there is always at least one. -/
def lines (s : String) : List String :=
  (s.splitOn "\n").map fun line => String.ofList (bareLine line.toList)

end PassEngine.Text
