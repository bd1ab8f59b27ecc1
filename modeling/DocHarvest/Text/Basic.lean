import DocHarvest.Unicode.Blank

/-!
# Cutting text

Trimming, splitting and replacing over lists of characters. A `String` is opened once at the border
of a computation and everything inside works on its characters, so each function here is a plain
recursion on a list.
-/

namespace DocHarvest.Text

open DocHarvest.Unicode

/-! ## Trimming -/

/-- The text without the characters at its end that satisfy `p`. -/
def dropEndWhile (p : Char → Bool) (cs : List Char) : List Char :=
  (cs.reverse.dropWhile p).reverse

/-- The text without the characters at either end that satisfy `p`. -/
def trimWhere (p : Char → Bool) (cs : List Char) : List Char :=
  dropEndWhile p (cs.dropWhile p)

/-- The text without trailing white space. -/
def trimEnd (cs : List Char) : List Char :=
  dropEndWhile isBlank cs

/-- The text without white space at either end. -/
def trim (cs : List Char) : List Char :=
  trimWhere isBlank cs

/-- The string without white space at either end. -/
def trimmed (s : String) : String :=
  String.ofList (trim s.toList)

/-- The string without trailing white space. -/
def trimmedEnd (s : String) : String :=
  String.ofList (trimEnd s.toList)

/-! ## Splitting -/

/-- The pieces between the characters that satisfy `p`; there is always at least one piece. -/
def splitWhere (p : Char → Bool) : List Char → List (List Char)
  | [] => [[]]
  | c :: cs =>
    if p c then [] :: splitWhere p cs
    else
      match splitWhere p cs with
      | [] => [[c]]
      | piece :: pieces => (c :: piece) :: pieces

/-- The pieces between the occurrences of `sep`; there is always at least one piece. -/
def split (sep : Char) (cs : List Char) : List (List Char) :=
  splitWhere (· == sep) cs

/-- The maximal runs of characters that are not white space. -/
def words (cs : List Char) : List (List Char) :=
  (splitWhere isBlank cs).filter fun w => !w.isEmpty

/-- A line without the one carriage return that may close it. -/
def dropReturn (line : List Char) : List Char :=
  if line.getLast? = some '\r' then line.dropLast else line

/-- The lines of a text. A line feed, or a carriage return and a line feed, closes a line, and what
follows the last one is a line only if it is not empty. -/
def lines (cs : List Char) : List (List Char) :=
  let pieces := split '\n' cs
  let closed := pieces.dropLast.map dropReturn
  match pieces.getLast? with
  | none => closed
  | some [] => closed
  | some rest => closed ++ [rest]

/-- The pieces with `sep` between them. -/
def join (sep : List Char) (pieces : List (List Char)) : List Char :=
  List.intercalate sep pieces

/-! ## Searching -/

/-- What follows `start`, if the text starts with it. -/
def dropStart? : (start cs : List Char) → Option (List Char)
  | [], cs => some cs
  | _ :: _, [] => none
  | s :: start, c :: cs => if s = c then dropStart? start cs else none

/-- Whether the text starts with `start`. -/
def startsWith (start cs : List Char) : Bool :=
  (dropStart? start cs).isSome

/-- Whether the text ends with `ending`. -/
def endsWith (ending cs : List Char) : Bool :=
  startsWith ending.reverse cs.reverse

/-- Whether `part` occurs in the text. -/
def occurs (part : List Char) : List Char → Bool
  | [] => part.isEmpty
  | c :: cs => startsWith part (c :: cs) || occurs part cs

/-- The text up to the first occurrence of `mark`, or all of it. -/
def before (mark : List Char) : List Char → List Char
  | [] => []
  | c :: cs => if startsWith mark (c :: cs) then [] else c :: before mark cs

/-! ## Replacing -/

/-- The pair `q q` replaced by `r` from left to right. -/
def replacePair (q r : Char) : List Char → List Char
  | [] => []
  | [c] => [c]
  | c :: d :: cs =>
    if c = q ∧ d = q then r :: replacePair q r cs else c :: replacePair q r (d :: cs)

/-- `replace`, with `skip` characters of an occurrence still to be passed over. -/
def replaceFrom (part new : List Char) : (skip : Nat) → List Char → List Char
  | _, [] => []
  | skip + 1, _ :: cs => replaceFrom part new skip cs
  | 0, c :: cs =>
    if !part.isEmpty && startsWith part (c :: cs) then
      new ++ replaceFrom part new (part.length - 1) cs
    else c :: replaceFrom part new 0 cs

/-- Every occurrence of `part` replaced by `new`, from left to right and without overlap. -/
def replace (part new cs : List Char) : List Char :=
  replaceFrom part new 0 cs

end DocHarvest.Text
