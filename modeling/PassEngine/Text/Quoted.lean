import PassEngine.Text.Glyphless

/-!
# Quoted text

Text between double quotes on one line, in which every character can be told from what is
printed: quotes and backslashes follow a backslash, the common controls have a letter, and other
characters without a glyph are written by their code point.
-/

namespace PassEngine.Text

/-- A code point in braces, in hexadecimal without leading zeros. -/
def codeEscape (c : Char) : List Char :=
  "\\u\x7b".toList ++ Nat.toDigits 16 c.toNat ++ ['\x7d']

def quotedChar (c : Char) : List Char :=
  if c = '\x00' then ['\\', '0']
  else if c = '\t' then ['\\', 't']
  else if c = '\r' then ['\\', 'r']
  else if c = '\n' then ['\\', 'n']
  else if c = '"' then ['\\', '"']
  else if c = '\\' then ['\\', '\\']
  else if isGlyphless c then codeEscape c
  else [c]

def quote (s : String) : String :=
  String.ofList ('"' :: s.toList.flatMap quotedChar ++ ['"'])

/-- A character of a message: the controls that a terminal acts on are spelled out. -/
def tamedChar (c : Char) : List Char :=
  if c = '\x07' || c = '\x08' || c = '\x0c' || c = '\x1b' || c = '\x7f' then
    '\\' :: 'x' :: (if c.toNat < 16 then ['0'] else []) ++ Nat.toDigits 16 c.toNat
  else if 0x80 ≤ c.toNat && c.toNat ≤ 0x9F then codeEscape c
  else [c]

/-- A message that a terminal shows and does not act on. -/
def tame (s : String) : String := String.ofList (s.toList.flatMap tamedChar)

end PassEngine.Text
