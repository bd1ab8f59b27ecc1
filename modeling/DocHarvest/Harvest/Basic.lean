import DocHarvest.Harvest.Walk
import DocHarvest.Load.Memory

/-!
# Harvesting packages

A package is harvested into a comment map: its path is checked, it is loaded, its faults stop the
harvest, and only then are its entries added. So a package that fails adds nothing. Several packages
are harvested in order up to the first that fails.
-/

namespace DocHarvest.Harvest

open DocHarvest.Load

/-- Why a package is not harvested. -/
inductive HarvestError where
  /-- The path has nothing but white space. -/
  | emptyPath
  /-- The path names a set of packages. -/
  | reservedPath (path : String)
  /-- The path is a pattern. -/
  | wildcardPath (path : String)
  /-- Something is wrong with the package. -/
  | package (fault : PackageFault)
  /-- There is no package. -/
  | load (error : LoadError)
  /-- The files of the package disagree about its name. -/
  | mismatch (names : Doc.Mismatch)
deriving DecidableEq, Repr

/-- The reason in words. -/
def HarvestError.message : HarvestError → String
  | .emptyPath => "invalid argument: package path is empty"
  | .reservedPath path => "invalid path " ++ Text.quoted path ++ ": path cannot be a reserved name"
  | .wildcardPath path => "invalid path " ++ Text.quoted path ++ ": path cannot contain wildcards"
  | .package fault => fault.message
  | .load error => error.message
  | .mismatch m => m.message

/-- Paths that name sets of packages. -/
def reservedPaths : List String :=
  ["main", "all", "std", "cmd", "tool"]

/-- Refuses paths that do not name one package. -/
def validatePath (path : String) : Except HarvestError Unit :=
  if (Text.trim path.toList).isEmpty then .error .emptyPath
  else if reservedPaths.contains path then .error (.reservedPath path)
  else if Text.occurs "...".toList path.toList then .error (.wildcardPath path)
  else .ok ()

/-- How the comment of a type is recorded in a package. Only synopses need the files to agree about
the name of the package. -/
def summarizer (mode : Mode) (p : Package) : Except HarvestError (String → String) :=
  match mode with
  | .full => .ok Text.trimmed
  | .synopsis =>
    match Doc.View.ofPackage p with
    | .ok view => .ok view.synopsis
    | .error m => .error (.mismatch m)

/-- The entries of a package in the order in which they are written. -/
def packageEntries (mode : Mode) (p : Package) : Except HarvestError (List Entry) :=
  match p.fault? with
  | some fault => .error (.package fault)
  | none => do
    let summarize ← summarizer mode p
    return p.files.flatMap (fileEntries p.importPath summarize)

/-- The entries of the package at a path. -/
def pathEntries (load : Loader) (mode : Mode) (path : String) :
    Except HarvestError (List Entry) := do
  validatePath path
  match load path with
  | .error e => .error (.load e)
  | .ok p => packageEntries mode p

/-- Adds the entries of the package at a path to a map. -/
def harvest (load : Loader) (mode : Mode) (m : CommentMap) (path : String) :
    Except HarvestError CommentMap := do
  return m.insertAll (← pathEntries load mode path)

/-- Harvests packages in order up to the first that fails, and returns the map with the entries of
those before it. -/
def harvestAll (load : Loader) (mode : Mode) (m : CommentMap) :
    List String → CommentMap × Except HarvestError Unit
  | [] => (m, .ok ())
  | path :: paths =>
    match harvest load mode m path with
    | .error e => (m, .error e)
    | .ok m => harvestAll load mode m paths

end DocHarvest.Harvest
