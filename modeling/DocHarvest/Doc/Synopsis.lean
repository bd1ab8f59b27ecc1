import DocHarvest.Doc.Sentence
import DocHarvest.Doc.View
import DocHarvest.Text.Lowercase

/-!
# Synopses

The synopsis of a doc comment is its first sentence on one line of plain text, with the brackets of
its doc links taken off. A comment that does not start with a paragraph, or that is a copyright or
author notice, has none.
-/

namespace DocHarvest.Doc

open DocHarvest.Text DocHarvest.Unicode

/-! ## Paragraphs -/

/-- Whether a line has nothing but white space. -/
def isBlankLine (line : List Char) : Bool :=
  line.all isBlank

/-- Whether a line is indented, as code and list items are. -/
def isIndented (line : List Char) : Bool :=
  line.head?.any fun c => c == ' ' || c == '\t'

/-- Whether a line is a heading. -/
def isHeading (line : List Char) : Bool :=
  (dropStart? "# ".toList line).any fun title => !isBlankLine title

/-- The lines of the paragraph with which a text starts. There is none if the text is blank, starts
with an indented line, or starts with a heading alone. -/
def firstParagraph (cs : List Char) : Option (List (List Char)) :=
  match (lines cs).dropWhile isBlankLine with
  | [] => none
  | first :: rest =>
    if isIndented first then none
    else
      let paragraph := (first :: rest).takeWhile fun l => !isBlankLine l && !isIndented l
      match paragraph with
      | [line] => if isHeading line then none else some paragraph
      | _ => some paragraph

/-! ## Links -/

/-- Packages of the standard library that a link can name without an import. -/
def standardPackages : List String :=
  ["bufio", "bytes", "cmp", "context", "crypto", "embed", "encoding", "errors", "expvar", "flag",
   "fmt", "hash", "html", "image", "io", "iter", "log", "maps", "math", "mime", "net", "os",
   "path", "plugin", "reflect", "regexp", "runtime", "slices", "sort", "strconv", "strings",
   "structs", "sync", "syscall", "testing", "time", "unicode", "unique", "unsafe"]

namespace View

/-- Whether a text names a package: an import path, an import of the files, the package itself, or
a package of the standard library. -/
def knowsPackage (v : View) (cs : List Char) : Bool :=
  if cs.contains '/' then isImportPath cs
  else
    let name := String.ofList cs
    v.imports.contains name || (!v.name.isEmpty && v.name == name) || standardPackages.contains name

/-- Whether the text between brackets is a doc link. A star in front is passed over. -/
def isDocLink (v : View) (target : List Char) : Bool :=
  let target := if target.head? = some '*' then target.drop 1 else target
  match splitName target with
  | none => false
  | some (none, name) => v.hasSymbol (String.ofList name)
  | some (some qualifier, name) =>
    let exported := isExported (String.ofList name)
    match splitName qualifier with
    | some (none, recv) =>
      v.hasSymbol (String.ofList (recv ++ '.' :: name)) || (v.knowsPackage recv && exported)
    | some (some package, _) => v.knowsPackage package && exported
    | none => v.knowsPackage qualifier && exported

/-- `resolveLinks` from inside a line: `last` is the last character that was kept, and `inner` is
what was read since a bracket was opened. -/
def resolveFrom (v : View) : (last : Option Char) → (inner : Option (List Char)) → List Char →
    List Char
  | _, none, [] => []
  | _, some inner, [] => '[' :: inner
  | last, none, c :: cs =>
    if c = '[' then v.resolveFrom last (some []) cs else c :: v.resolveFrom (some c) none cs
  | last, some inner, c :: cs =>
    if c = ']' then
      if last.all isLinkBoundary && cs.head?.all isLinkBoundary && v.isDocLink inner then
        inner ++ v.resolveFrom (inner.getLast?.or last) none cs
      else '[' :: inner ++ ']' :: v.resolveFrom (some ']') none cs
    else v.resolveFrom last (some (inner ++ [c])) cs

/-- A line with the brackets of its doc links taken off. Brackets go from an opening one to the next
closing one. -/
def resolveLinks (v : View) (line : List Char) : List Char :=
  v.resolveFrom none none line

end View

/-! ## Notices -/

/-- The words with which a notice starts. -/
def noticeStarts : List String :=
  ["copyright", "all rights", "author"]

/-- Whether a text is a copyright or author notice. -/
def isNotice (cs : List Char) : Bool :=
  noticeStarts.any fun s => startsWith s.toList (lowercase cs)

/-! ## The synopsis -/

/-- Lines as one line: single spaces between words, and typographic quotes. -/
def oneLine (paragraph : List (List Char)) : List Char :=
  let line := join [' '] (words (join ['\n'] paragraph))
  let opened := replacePair (Char.ofNat 0x60) (Char.ofNat 0x201c) line
  replacePair '\'' (Char.ofNat 0x201d) opened

/-- The synopsis of a doc comment, empty if it has none. -/
def View.synopsis (v : View) (text : String) : String :=
  let sentence := firstSentence text.toList
  if isNotice sentence then ""
  else
    match firstParagraph sentence with
    | none => ""
    | some paragraph => String.ofList (v.resolveLinks (oneLine paragraph))

end DocHarvest.Doc
