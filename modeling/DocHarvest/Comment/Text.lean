import DocHarvest.Text.Basic
import DocHarvest.Syntax.Span

/-!
# The text of a comment group

The text of a group is what its comments say once their marks are taken off: one line per line, no
trailing white space, no carriage returns, no blank line at either end and never two blank lines in
a row. Lines that speak to a tool, such as `//go:generate`, are left out.
-/

namespace DocHarvest.Comment

open DocHarvest.Text DocHarvest.Syntax

/-- Whether a character may stand in the name of a directive. -/
def isDirectiveChar (c : Char) : Bool :=
  c.isLower || c.isDigit

/-- Whether what follows `//` speaks to a tool: one of three old forms, or a name, a colon and one
more character of a name. -/
def isDirective (cs : List Char) : Bool :=
  startsWith "line ".toList cs || startsWith "extern ".toList cs ||
    startsWith "export ".toList cs ||
    (let name := cs.takeWhile (· != ':')
     !name.isEmpty && name.all isDirectiveChar &&
      ((cs.drop (name.length + 1)).head?.any isDirectiveChar))

/-- What a comment says without its marks, or nothing if it is a directive. -/
def body (raw : List Char) : Option (List Char) :=
  let raw := raw.filter (· != '\r')
  match dropStart? "//".toList raw with
  | some (' ' :: rest) => some rest
  | some rest => if isDirective rest then none else some rest
  | none =>
    match dropStart? "/*".toList raw with
    | some rest => some (if endsWith "*/".toList rest then rest.take (rest.length - 2) else rest)
    | none => some raw

/-- The lines of a comment, without trailing white space. -/
def bodyLines (raw : List Char) : List (List Char) :=
  match body raw with
  | none => []
  | some b => (split '\n' b).map trimEnd

/-- Drops the blank lines that follow a blank line or, unless `afterText`, nothing. -/
def squeeze : (afterText : Bool) → List (List Char) → List (List Char)
  | _, [] => []
  | afterText, line :: lines =>
    if line.isEmpty then
      if afterText then line :: squeeze false lines else squeeze false lines
    else line :: squeeze true lines

/-- Drops the last line if it is blank. -/
def dropLastBlank (lines : List (List Char)) : List (List Char) :=
  if lines.getLast? = some [] then lines.dropLast else lines

/-- The lines of a group: no blank line at either end, never two in a row. -/
def groupLines (raws : List (List Char)) : List (List Char) :=
  dropLastBlank (squeeze false (raws.flatMap bodyLines))

/-- The text of a group: each line closed by a line feed. -/
def groupText (raws : List (List Char)) : List Char :=
  let lines := groupLines raws
  if lines.isEmpty then [] else join ['\n'] lines ++ ['\n']

/-- The text of the group at the given places, empty if there is none. -/
def textOf (source : List Char) (group : Option (List Span)) : String :=
  String.ofList (groupText ((group.getD []).map (·.text source)))

end DocHarvest.Comment
