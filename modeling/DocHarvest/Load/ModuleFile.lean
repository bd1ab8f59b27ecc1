import DocHarvest.Text.Basic

/-!
# Module files

The one directive of a `go.mod` file that matters here is the path of the module.
-/

namespace DocHarvest.Load

open DocHarvest.Text

/-- The module path in one line of a module file: the word `module`, blanks, and the path, bare or
in quotes. A comment ends the line. -/
def modulePathOfLine (line : List Char) : Option String :=
  match dropStart? "module".toList (trim (before "//".toList line)) with
  | none => none
  | some rest =>
    if rest.head?.any fun c => c == ' ' || c == '\t' then
      let path := trimWhere (fun c => c == '"' || c.toNat == 0x60) (trim rest)
      if path.isEmpty then none else some (String.ofList path)
    else none

/-- The module path in a module file, from the first line that has one. -/
def modulePath (contents : String) : Option String :=
  (lines contents.toList).findSome? modulePathOfLine

end DocHarvest.Load
