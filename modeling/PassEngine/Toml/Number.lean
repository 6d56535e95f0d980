import PassEngine.Toml.Text
import PassEngine.Toml.Value

/-!
# Numbers and dates of TOML

The characters at the front decide at once what follows: four digits and a hyphen begin a date,
two digits and a colon a time of day, and anything else is a number.
-/

namespace PassEngine.Toml

/-! ## Integers -/

/-- The digits at the front; an underscore may stand between two digits. -/
def digitRun (isDigit : Char → Bool) : Reader (List Char)
  | '_' :: c :: rest =>
      if isDigit c then (digitRun isDigit rest).map fun (digits, rest) => (c :: digits, rest)
      else none
  | ['_'] => none
  | c :: rest =>
      if isDigit c then (digitRun isDigit rest).map fun (digits, rest) => (c :: digits, rest)
      else some ([], c :: rest)
  | [] => some ([], [])

/-- Digits as `digitRun` reads them, at least one and not an underscore first. -/
def digits (isDigit : Char → Bool) : Reader (List Char)
  | c :: rest =>
      if isDigit c then (digitRun isDigit rest).map fun (digits, rest) => (c :: digits, rest)
      else none
  | [] => none

def wordValue? (n : Int) : Option Value :=
  if -wordBound ≤ n && n < wordBound then some (.integer n) else none

def radixInteger (base : Nat) (isDigit : Char → Bool) : Reader Value := fun cs =>
  match digits isDigit cs with
  | none => none
  | some (found, rest) => (wordValue? (numeral base found)).map (·, rest)

def isOctalDigit (c : Char) : Bool := '0' ≤ c && c ≤ '7'

def isBinaryDigit (c : Char) : Bool := c == '0' || c == '1'

/-! ## Numbers with a fraction or an exponent -/

/-- The least number that is rounded to infinity: half a unit above the largest finite one. -/
def infinityBound : Nat := Nat.pow 2 1024 - Nat.pow 2 970

/-- Whether `mantissa * 10 ^ exponent` is rounded to infinity. Far from the bound, the number of
digits decides. -/
def overflows (mantissa : Nat) (exponent : Int) : Bool :=
  if mantissa = 0 then false
  else
    let magnitude : Int := (Nat.toDigits 10 mantissa).length + exponent
    if 400 < magnitude then true
    else if magnitude < 300 then false
    else if 0 ≤ exponent then infinityBound ≤ mantissa * Nat.pow 10 exponent.toNat
    else infinityBound * Nat.pow 10 (-exponent).toNat ≤ mantissa

def sign : List Char → Bool × List Char
  | '+' :: rest => (false, rest)
  | '-' :: rest => (true, rest)
  | cs => (false, cs)

def exponent? : Reader (Option Int)
  | 'e' :: rest => exponentDigits rest
  | 'E' :: rest => exponentDigits rest
  | cs => some (none, cs)
where
  exponentDigits (cs : List Char) : Option (Option Int × List Char) :=
    let (negative, cs) := sign cs
    (digits Char.isDigit cs).map fun (found, rest) =>
      let n : Int := numeral 10 found
      (some (if negative then -n else n), rest)

/-- A float of these digits, if it is finite or negative. -/
def float? (negative : Bool) (mantissa : List Char) (exponent : Int) : Option Value :=
  if !negative && overflows (numeral 10 mantissa) exponent then none else some .float

def afterWhole (negative : Bool) (whole : List Char) : Reader Value
  | '.' :: rest =>
      match digits Char.isDigit rest with
      | none => none
      | some (fraction, rest) =>
          match exponent? rest with
          | none => none
          | some (exponent, rest) =>
              (float? negative (whole ++ fraction) (exponent.getD 0 - fraction.length)).map (·, rest)
  | cs =>
      match exponent? cs with
      | none => none
      | some (some exponent, rest) => (float? negative whole exponent).map (·, rest)
      | some (none, rest) =>
          let n : Int := numeral 10 whole
          (wordValue? (if negative then -n else n)).map (·, rest)

/-- A number behind its sign. No digit follows a zero at the front. -/
def unsigned (negative : Bool) : Reader Value
  | 'i' :: 'n' :: 'f' :: rest => some (.float, rest)
  | 'n' :: 'a' :: 'n' :: rest => some (.float, rest)
  | '0' :: rest => afterWhole negative ['0'] rest
  | cs =>
      match digits Char.isDigit cs with
      | none => none
      | some (whole, rest) => afterWhole negative whole rest

/-- A number: in base sixteen, eight or two behind its mark, else in base ten. -/
def number : Reader Value
  | '0' :: 'x' :: rest => radixInteger 16 isHexDigit rest
  | '0' :: 'o' :: rest => radixInteger 8 isOctalDigit rest
  | '0' :: 'b' :: rest => radixInteger 2 isBinaryDigit rest
  | cs => unsigned (sign cs).1 (sign cs).2

/-! ## Dates -/

def fixedDigits (width : Nat) : Reader Nat := fun cs =>
  let found := cs.take width
  if found.length = width && found.all Char.isDigit then some (numeral 10 found, cs.drop width)
  else none

def twoDigits (low high : Nat) : Reader Nat := fun cs =>
  match fixedDigits 2 cs with
  | none => none
  | some (n, rest) => if low ≤ n && n ≤ high then some (n, rest) else none

def after (c : Char) : List Char → Option (List Char)
  | d :: rest => if d = c then some rest else none
  | [] => none

def daysIn (year month : Nat) : Nat :=
  if month = 2 then
    if year % 4 = 0 && (year % 100 ≠ 0 || year % 400 = 0) then 29 else 28
  else if month = 4 || month = 6 || month = 9 || month = 11 then 30
  else 31

def skipFraction : List Char → List Char
  | '.' :: c :: rest => if c.isDigit then rest.dropWhile Char.isDigit else '.' :: c :: rest
  | cs => cs

/-- The text behind minutes and seconds; there may be a leap second. -/
def minutesAndSeconds (cs : List Char) : Option (List Char) := do
  let (_, cs) ← twoDigits 0 59 cs
  let cs ← after ':' cs
  let (_, cs) ← twoDigits 0 60 cs
  return skipFraction cs

def skipOffset : List Char → Option (List Char)
  | 'Z' :: rest => some rest
  | 'z' :: rest => some rest
  | '+' :: rest => clock rest
  | '-' :: rest => clock rest
  | cs => some cs
where
  clock (cs : List Char) : Option (List Char) := do
    let (_, cs) ← twoDigits 0 23 cs
    let cs ← after ':' cs
    let (_, cs) ← twoDigits 0 59 cs
    return cs

/-- The text behind the hour and the colon with which a time of day begins. -/
def hour? (cs : List Char) : Option (List Char) := do
  let (_, cs) ← twoDigits 0 23 cs
  after ':' cs

def skipTimeOfDate : List Char → Option (List Char)
  | c :: rest =>
      if c == 'T' || c == 't' || c == ' ' then
        match hour? rest with
        | none => some (c :: rest)
        | some rest => (minutesAndSeconds rest).bind skipOffset
      else some (c :: rest)
  | [] => some []

/-- The text behind the month, the day and the time that follow a year and a hyphen. -/
def afterYear (year : Nat) (cs : List Char) : Option (List Char) := do
  let (month, cs) ← twoDigits 1 12 cs
  let cs ← after '-' cs
  let (_, cs) ← twoDigits 1 (daysIn year month) cs
  skipTimeOfDate cs

def year? : Reader Nat := fun cs =>
  match fixedDigits 4 cs with
  | some (year, '-' :: rest) => some (year, rest)
  | _ => none

def numberOrDate : Reader Value := fun cs =>
  match year? cs with
  | some (year, rest) => (afterYear year rest).map (.date, ·)
  | none =>
      match hour? cs with
      | some rest => (minutesAndSeconds rest).map (.date, ·)
      | none => number cs

end PassEngine.Toml
