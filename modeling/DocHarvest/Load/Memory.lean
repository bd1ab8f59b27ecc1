import DocHarvest.Load.Error
import DocHarvest.Package.Basic
import DocHarvest.Text.Quoted

/-!
# Packages held in memory

A loader takes the path of a package to the package. The simplest one looks paths up in a list of
files.
-/

namespace DocHarvest.Load

/-- How packages are found. -/
abbrev Loader := String → Except LoadError Package

/-- A file of a package held in memory. -/
structure MemoryFile where
  importPath : String
  path : String
  source : String

/-- The package of the files with a given import path, in the order in which they were added. -/
def memory (files : List MemoryFile) : Loader := fun path =>
  match files.filter (·.importPath = path) with
  | [] =>
    .ok ((Package.empty path).report
      (.unpositioned ("cannot find package " ++ Text.quoted path) .list))
  | found =>
    .ok (found.foldl (fun p f => p.addFile (.ofSource f.path f.source)) (Package.empty path))

end DocHarvest.Load
