import DocHarvest.Text.Basic
import DocHarvest.Unicode.Alphabetic
import DocHarvest.Unicode.Numeric

/-!
# The shape of doc links

A doc link is a name in brackets, such as `[Widget]` or `[json.Marshal]`. This module says which
texts can be names, which can be import paths, and which characters may stand beside the brackets.
What a name refers to is a matter of the package.
-/

namespace DocHarvest.Doc

open DocHarvest.Unicode DocHarvest.Text

/-- Whether a character is a letter or a number. -/
def isAlphanumeric (c : Char) : Bool :=
  isAlphabetic c || isNumeric c

/-- Whether a text is an identifier. -/
def isIdentifier : List Char → Bool
  | [] => false
  | c :: cs => (isAlphabetic c || c == '_') && cs.all fun d => isAlphanumeric d || d == '_'

/-- Whether a text can be one element of an import path. -/
def isPathElement (cs : List Char) : Bool :=
  !cs.isEmpty && cs.head? != some '.' && cs.getLast? != some '.' &&
    cs.all fun c => isAlphanumeric c || "-._~".toList.contains c

/-- Whether a text is an import path: elements with slashes between them, no dash in front. -/
def isImportPath (cs : List Char) : Bool :=
  cs.head? != some '-' && (split '/' cs).all isPathElement

/-- The ASCII symbols that are not punctuation. -/
def asciiSymbols : List Char :=
  ['$', '+', '<', '=', '>', '^', Char.ofNat 0x60, '|', '~']

/-- The punctuation beyond ASCII that may stand beside a link. -/
def punctuationRanges : Ranges :=
  [(0xa1, 0xa1), (0xa7, 0xa7), (0xab, 0xab), (0xb6, 0xb7), (0xbb, 0xbb), (0xbf, 0xbf),
   (0x2010, 0x2027), (0x2030, 0x2043), (0x2045, 0x2051), (0x2053, 0x205e), (0x3001, 0x3003),
   (0x3008, 0x3011), (0xff01, 0xff0f)]

/-- Whether a character is punctuation. -/
def isPunctuation (c : Char) : Bool :=
  if c.toNat < 0x80 then
    0x20 < c.toNat && c.toNat < 0x7f && !c.isAlphanum && !asciiSymbols.contains c
  else punctuationRanges.contains c

/-- Whether a character may stand right beside the brackets of a link. -/
def isLinkBoundary (c : Char) : Bool :=
  c == ' ' || c == '\t' || c == '\n' || isPunctuation c

/-- The parts of a text before and after its last dot, if it has one. -/
def splitLastDot (cs : List Char) : Option (List Char × List Char) :=
  if cs.contains '.' then
    let name := (cs.reverse.takeWhile (· != '.')).reverse
    some (cs.take (cs.length - name.length - 1), name)
  else none

/-- A text as an identifier, perhaps after a qualifier and a dot. -/
def splitName (cs : List Char) : Option (Option (List Char) × List Char) :=
  match splitLastDot cs with
  | some (qualifier, name) => if isIdentifier name then some (some qualifier, name) else none
  | none => if isIdentifier cs then some (none, cs) else none

end DocHarvest.Doc
