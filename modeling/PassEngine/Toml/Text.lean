/-!
# Strings and keys of TOML

Readers take a piece from the front of a text and return it with the rest; `none` is a mistake
in the text.
-/

namespace PassEngine.Toml

/-- What takes a piece from the front of a text. -/
abbrev Reader (α : Type) := List Char → Option (α × List Char)

/-! ## Blanks and lines -/

def isSpace (c : Char) : Bool := c == ' ' || c == '\t'

def skipSpaces (cs : List Char) : List Char := cs.dropWhile isSpace

/-- The characters that may stand in a comment: all but the controls other than tab. -/
def isPlain (c : Char) : Bool := c == '\t' || (0x20 ≤ c.toNat && c.toNat != 0x7F)

def lineBreak? : List Char → Option (List Char)
  | '\n' :: rest => some rest
  | '\r' :: '\n' :: rest => some rest
  | _ => none

def skipComment : List Char → List Char
  | '#' :: rest => rest.dropWhile isPlain
  | cs => cs

/-- The text behind the current line, on which nothing but a comment may follow. -/
def lineEnd? (cs : List Char) : Option (List Char) :=
  match skipComment (skipSpaces cs) with
  | [] => some []
  | rest => lineBreak? rest

/-- The text behind spaces, line breaks and comments; a comment ends with its line. -/
def skipGap (inComment : Bool) : List Char → Option (List Char)
  | [] => if inComment then none else some []
  | '\n' :: rest => skipGap false rest
  | '\r' :: '\n' :: rest => skipGap false rest
  | c :: rest =>
      if inComment then
        if isPlain c then skipGap true rest else none
      else if isSpace c then skipGap false rest
      else if c == '#' then skipGap true rest
      else some (c :: rest)

/-! ## Escapes -/

def digitValue (c : Char) : Nat :=
  if c.isDigit then c.toNat - '0'.toNat
  else if c.isLower then c.toNat - 'a'.toNat + 10
  else c.toNat - 'A'.toNat + 10

def isHexDigit (c : Char) : Bool :=
  c.isDigit || ('a' ≤ c && c ≤ 'f') || ('A' ≤ c && c ≤ 'F')

def numeral (base : Nat) (digits : List Char) : Nat :=
  digits.foldl (fun n c => n * base + digitValue c) 0

def codePoint (width : Nat) : Reader Char := fun cs =>
  let digits := cs.take width
  let n := numeral 16 digits
  if digits.length = width && digits.all isHexDigit && n.isValidChar then
    some (Char.ofNat n, cs.drop width)
  else none

def escape : Reader Char
  | 'b' :: rest => some ('\x08', rest)
  | 'f' :: rest => some ('\x0c', rest)
  | 'n' :: rest => some ('\n', rest)
  | 'r' :: rest => some ('\r', rest)
  | 't' :: rest => some ('\t', rest)
  | '"' :: rest => some ('"', rest)
  | '\\' :: rest => some ('\\', rest)
  | 'u' :: rest => codePoint 4 rest
  | 'U' :: rest => codePoint 8 rest
  | _ => none

/-! ## Strings on one line -/

/-- The rest of a string between double quotes. The fuel bounds the number of characters. -/
def quotedBody : Nat → Reader (List Char)
  | 0, _ => none
  | fuel + 1, cs =>
      match cs with
      | '"' :: rest => some ([], rest)
      | '\\' :: rest =>
          match escape rest with
          | none => none
          | some (c, rest) => (quotedBody fuel rest).map fun (body, rest) => (c :: body, rest)
      | c :: rest =>
          if isPlain c then (quotedBody fuel rest).map fun (body, rest) => (c :: body, rest)
          else none
      | [] => none

/-- The rest of a string between apostrophes, in which nothing is escaped. -/
def literalBody : Reader (List Char)
  | [] => none
  | c :: rest =>
      if c = '\'' then some ([], rest)
      else if isPlain c then (literalBody rest).map fun (body, rest) => (c :: body, rest)
      else none

/-! ## Strings on several lines -/

/-- The text behind a backslash that ends its line, up to the next character that counts. -/
def continuation? (cs : List Char) : Option (List Char) :=
  match lineBreak? (skipSpaces cs) with
  | none => none
  | some rest => some (skipBreaks rest)
where
  skipBreaks : List Char → List Char
    | '\n' :: rest => skipBreaks rest
    | '\r' :: '\n' :: rest => skipBreaks rest
    | c :: rest => if isSpace c then skipBreaks rest else c :: rest
    | [] => []

/-- The rest of a string on several lines, which three marks end; up to two more marks before them
belong to the string. The fuel bounds the number of characters. -/
def longBody (mark : Char) (escapes : Bool) : Nat → Reader (List Char)
  | 0, _ => none
  | fuel + 1, cs =>
      let marks := cs.takeWhile (· == mark)
      let next := fun (front : List Char) (rest : List Char) =>
        (longBody mark escapes fuel rest).map fun (body, rest) => (front ++ body, rest)
      if 3 ≤ marks.length then
        let extra := min (marks.length - 3) 2
        some (List.replicate extra mark, cs.drop (extra + 3))
      else if marks ≠ [] then next marks (cs.drop marks.length)
      else
        match cs with
        | [] => none
        | c :: rest =>
            match lineBreak? cs with
            | some rest => next ['\n'] rest
            | none =>
                if escapes && c == '\\' then
                  match continuation? rest with
                  | some rest => next [] rest
                  | none =>
                      match escape rest with
                      | none => none
                      | some (c, rest) => next [c] rest
                else if isPlain c then next [c] rest
                else none

/-- A string on several lines, behind its opening marks; a line break right there is dropped. -/
def longString (mark : Char) (escapes : Bool) (cs : List Char) : Option (List Char × List Char) :=
  let body := (lineBreak? cs).getD cs
  longBody mark escapes (body.length + 1) body

/-! ## Keys -/

def isBare (c : Char) : Bool := c.isAlphanum || c == '_' || c == '-'

def keyPart : Reader String
  | '"' :: rest => (quotedBody (rest.length + 1) rest).map fun (body, rest) => (.ofList body, rest)
  | '\'' :: rest => (literalBody rest).map fun (body, rest) => (.ofList body, rest)
  | cs =>
      let part := cs.takeWhile isBare
      if part.isEmpty then none else some (.ofList part, cs.dropWhile isBare)

/-- A key of at most so many parts with dots between them: the path, and the last part. Spaces
around the parts do not count. -/
def key : Nat → Reader (List String × String)
  | 0, _ => none
  | parts + 1, cs =>
      match keyPart (skipSpaces cs) with
      | none => none
      | some (part, rest) =>
          match skipSpaces rest with
          | '.' :: rest => (key parts rest).map fun ((path, last), rest) => ((part :: path, last), rest)
          | rest => some (([], part), rest)

def maxKeyParts : Nat := 79

end PassEngine.Toml
