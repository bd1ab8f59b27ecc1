import DocHarvest.Text.Quoted
import DocHarvest.Unicode.Blank

/-!
# Interpreted string literals

Text written as an interpreted string literal of Go. Characters that show by themselves stand as
they are; everything else is escaped, so a literal never leaves its line.
-/

namespace DocHarvest.Output

open DocHarvest.Unicode DocHarvest.Text

/-- Format characters, private use and non-characters, which a literal spells out. -/
def formatRanges : Ranges :=
  [(0xad, 0xad), (0x200b, 0x200f), (0x2028, 0x202e), (0x2060, 0x206f), (0xe000, 0xf8ff),
   (0xfeff, 0xfeff), (0xfff9, 0xfffb), (0xfffe, 0xffff)]

/-- Whether a character stands as it is in a literal. -/
def isPrintable (c : Char) : Bool :=
  c == ' ' || !(isControl c || isBlank c || formatRanges.contains c)

/-- The escapes of one letter: the character and its letter. -/
def letterEscapes : List (Char × Char) :=
  [('"', '"'), ('\\', '\\'), (Char.ofNat 0x07, 'a'), (Char.ofNat 0x08, 'b'), (Char.ofNat 0x0c, 'f'),
   ('\n', 'n'), ('\r', 'r'), ('\t', 't'), (Char.ofNat 0x0b, 'v')]

/-- One character as it stands in a literal. -/
def literalChar (c : Char) : List Char :=
  match letterEscapes.lookup c with
  | some letter => ['\\', letter]
  | none =>
    if c.toNat < 0x20 ∨ c.toNat = 0x7f then '\\' :: 'x' :: hexPadded 2 c.toNat
    else if isPrintable c then [c]
    else if c.toNat < 0x10000 then '\\' :: 'u' :: hexPadded 4 c.toNat
    else '\\' :: 'U' :: hexPadded 8 c.toNat

/-- A text as an interpreted string literal. -/
def literal (cs : List Char) : List Char :=
  '"' :: cs.flatMap literalChar ++ ['"']

/-- A string as an interpreted string literal. -/
def quote (s : String) : String :=
  String.ofList (literal s.toList)

end DocHarvest.Output
