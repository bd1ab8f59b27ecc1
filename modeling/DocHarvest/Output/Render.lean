import DocHarvest.Harvest.CommentMap
import DocHarvest.Output.Literal

/-!
# The generated file

A comment map as a Go file that declares it, one line per entry in key order.
-/

namespace DocHarvest.Output

/-- The licence notice with which a file can start. -/
def notice : String :=
  "/*\n" ++
  "This Source Code Form is subject to the terms of the Mozilla Public\n" ++
  "License, v. 2.0. If a copy of the MPL was not distributed with this\n" ++
  "file, You can obtain one at https://mozilla.org/MPL/2.0/.\n" ++
  "*/\n\n"

/-- The line of an entry. -/
def renderEntry (e : Entry) : String :=
  "\t" ++ quote e.1 ++ ": " ++ quote e.2 ++ ",\n"

/-- The Go file that declares a comment map in a package, after the licence notice if `mpl2`. -/
def render (package : String) (m : CommentMap) (mpl2 : Bool) : String :=
  (if mpl2 then notice else "") ++
  "// Code generated by mapcomments. DO NOT EDIT.\n\n" ++
  "package " ++ package ++ "\n\n" ++
  "var CommentMap = map[string]string\x7b\n" ++
  String.join (m.entries.map renderEntry) ++
  "\x7d\n"

end DocHarvest.Output
