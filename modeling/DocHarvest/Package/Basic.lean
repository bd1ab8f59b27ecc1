import DocHarvest.Package.Diagnostic
import DocHarvest.Syntax.Tree

/-!
# Packages

A Go package as a loader returns it: a name, an import path, parsed files, and what went wrong on
the way. Nothing is type-checked.
-/

namespace DocHarvest

open DocHarvest.Syntax

/-- A source file. Its tree is missing if it has syntax errors. -/
structure SourceFile where
  path : String
  source : String
  tree : Option Node

namespace SourceFile

/-- A file with the tree of its source. -/
def ofSource (path source : String) : SourceFile :=
  ⟨path, source, Node.parse? source.toList⟩

/-- The top-level nodes of a file. -/
def topLevel (f : SourceFile) : List Node :=
  (f.tree.map Node.children).getD []

/-- The name in the first package clause of a file. -/
def packageName? (f : SourceFile) : Option String := do
  let clause ← f.topLevel.find? (·.kind = .packageClause)
  let name ← clause.children.find? (·.kind = .identifier)
  return name.text f.source.toList

/-- What is wrong with a file by itself. -/
def diagnostics (f : SourceFile) : List Diagnostic :=
  if f.tree.isSome then [] else [⟨f.path, "syntax error", .parse⟩]

end SourceFile

/-- A loaded package. -/
structure Package where
  /-- The name in the package clause; empty if it is not known. -/
  name : String
  /-- The import path, with which every key of the package starts. -/
  importPath : String
  /-- The directory of the package, if it is known. -/
  dir : Option String
  /-- The files in the order in which they were loaded. -/
  files : List SourceFile
  diagnostics : List Diagnostic
  /-- Why the enclosing module could not be resolved. -/
  moduleError : Option String

namespace Package

/-- A package of which only the import path is known. -/
def empty (importPath : String) : Package :=
  ⟨"", importPath, none, [], [], none⟩

/-- The package with one more file. The first package clause names a package without a name. -/
def addFile (p : Package) (f : SourceFile) : Package :=
  { p with
    name := if p.name.isEmpty then f.packageName?.getD "" else p.name
    files := p.files ++ [f]
    diagnostics := p.diagnostics ++ f.diagnostics }

/-- The package with one more diagnostic. -/
def report (p : Package) (d : Diagnostic) : Package :=
  { p with diagnostics := p.diagnostics ++ [d] }

/-- Whether anything keeps the package from being harvested. -/
def hasErrors (p : Package) : Bool :=
  !p.diagnostics.isEmpty || p.moduleError.isSome

/-- Everything that is wrong with the package, if anything is. -/
def fault? (p : Package) : Option PackageFault :=
  PackageFault.of? p.diagnostics p.moduleError

end Package

end DocHarvest
