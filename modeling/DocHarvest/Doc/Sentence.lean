import DocHarvest.Unicode.Uppercase

/-!
# The first sentence of a text

A sentence ends before the white space that follows a period, unless the period follows a single
upper-case letter as in an abbreviation. An ideographic or full-width period ends a sentence by
itself.
-/

namespace DocHarvest.Doc

open DocHarvest.Unicode

/-- Line feeds, carriage returns and tabs read as spaces. -/
def flatten (c : Char) : Char :=
  if c = '\n' ∨ c = '\r' ∨ c = '\t' then ' ' else c

/-- Whether a period ends a sentence by itself. -/
def isWidePeriod (c : Char) : Bool :=
  c.toNat == 0x3002 || c.toNat == 0xff0e

/-- Whether the sentence ends before `c`, given the three characters before it from the nearest. -/
def endsBefore (p pp ppp c : Char) : Bool :=
  (flatten c == ' ' && p == '.' && (!isUppercase pp || isUppercase ppp)) || isWidePeriod p

/-- `firstSentence` from inside a text, given the three characters before it from the nearest. -/
def firstSentenceFrom (p pp ppp : Char) : List Char → List Char
  | [] => []
  | c :: cs => if endsBefore p pp ppp c then [] else c :: firstSentenceFrom (flatten c) p pp cs

/-- The text up to the end of its first sentence. -/
def firstSentence (cs : List Char) : List Char :=
  firstSentenceFrom ' ' ' ' ' ' cs

end DocHarvest.Doc
