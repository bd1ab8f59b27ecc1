import DocHarvest.Host.Volume
import DocHarvest.Load.Memory
import DocHarvest.Load.ModuleFile

/-!
# Packages on disk

A path that is written as a directory is resolved against a root, and its import path is read off
the module that encloses it. Any other path has to lie in the module that encloses the root.
-/

namespace DocHarvest.Load

open DocHarvest.Host DocHarvest.Text

/-! ## Modules -/

/-- The directory of a module, and its path. -/
structure Module where
  dir : List Component
  path : String

/-- The module that encloses a directory: the nearest one above it whose module file names it. -/
def findModule (d : Disk) (dir : List Component) : Option Module :=
  (Path.ancestors dir).findSome? fun up =>
    match d.readText (Path.join (Path.ofComponents up) "go.mod") with
    | .error _ => none
    | .ok contents => (modulePath contents).map fun path => ⟨up, path⟩

/-- The import path of a directory of a module. -/
def Module.importPath (m : Module) (dir : List Component) : Option String :=
  (Path.below? m.dir dir).map fun rest =>
    "/".intercalate (m.path :: rest.map (·.text))

/-- Why a path has no module. -/
def noModule : String :=
  "go.mod file not found in current directory or any parent directory"

/-! ## Files -/

/-- Whether a file belongs to a package by its name: no test, and no file that the tools ignore. The
name has to be text. -/
def isPackageFile (name : FileName) : Bool :=
  match name.text? with
  | none => false
  | some s =>
    let cs := s.toList
    endsWith ".go".toList cs && !endsWith "_test.go".toList cs &&
      cs.head? ≠ some '_' && cs.head? ≠ some '.'

/-- The paths of the package files among the names in a directory, in name order. -/
def packageFiles (v : Volume) (dir : String) (names : List FileName) : List String :=
  let wanted := names.filter fun n => v.hasFile dir n && isPackageFile n
  ((wanted.filterMap FileName.text?).mergeSort fun a b => decide (a ≤ b)).map (Path.join dir)

/-- The package with the files at some paths, up to the first that cannot be read. -/
def addFiles (d : Disk) (p : Package) : List String → Except LoadError Package
  | [] => .ok p
  | path :: paths =>
    match d.readText path with
    | .error cause => .error (.read path cause)
    | .ok source => addFiles d (p.addFile (.ofSource path source)) paths

/-! ## The loader -/

/-- Whether a path is written as a directory. -/
def isDirectoryPath (path : String) : Bool :=
  path == "." || path == ".." || startsWith "./".toList path.toList ||
    startsWith "../".toList path.toList || Path.isAbsolute path

/-- What of a path lies below a module path. -/
def pathInModule (modulePath path : String) : Option String :=
  if path = modulePath then some ""
  else (dropStart? (modulePath.toList ++ ['/']) path.toList).map String.ofList

/-- What is reported of a directory without package files. -/
def noFiles (dir : String) : Diagnostic :=
  .unpositioned ("no Go files in " ++ dir) .list

/-- What is reported of a directory that cannot be listed. -/
def notListed (path dir : String) (cause : AccessError) : Diagnostic :=
  .unpositioned
    ("cannot find package " ++ quoted path ++ " in " ++ dir ++ ": " ++ cause.message) .list

/-- A package to which the files of a directory will be added. It says so if there are none. -/
def reportEmpty (p : Package) (dir : String) (files : List String) : Package :=
  if files.isEmpty then p.report (noFiles dir) else p

/-- Loads the files at some paths in a directory into a package. -/
def loadFiles (d : Disk) (dir : String) (p : Package) (files : List String) :
    Except LoadError Package := do
  let p ← addFiles d (reportEmpty p dir files) files
  return { p with dir := some dir }

/-- Loads the package files of a directory into a package. -/
def loadDirectory (v : Volume) (path dir : String) (p : Package) : Except LoadError Package :=
  match v.readNames dir with
  | .error cause => .ok (p.report (notListed path dir cause))
  | .ok names => loadFiles v.followed dir p (packageFiles v dir names)

/-- Loads a path that is written as a directory. -/
def loadDirectoryPath (v : Volume) (root path : String) : Except LoadError Package :=
  let dir := Path.normalize (Path.join root path)
  let found := findModule v.followed (Path.components dir)
  let importPath := (found.bind fun m => m.importPath (Path.components dir)).getD path
  loadDirectory v path dir
    { Package.empty importPath with moduleError := if found.isNone then some noModule else none }

/-- Loads a path that is written as an import path. -/
def loadImportPath (v : Volume) (root path : String) : Except LoadError Package :=
  match findModule v.followed (Path.components (Path.normalize root)) with
  | none => .ok { Package.empty path with moduleError := some noModule }
  | some m =>
    match pathInModule m.path path with
    | none =>
      .ok ((Package.empty path).report (.unpositioned
        ("package " ++ path ++ " is not in the main module (" ++ m.path ++ ")") .list))
    | some rest =>
      loadDirectory v path (Path.join (Path.ofComponents m.dir) rest) (Package.empty path)

/-- Loads packages from disk; relative paths and the main module are those of `root`. -/
def directory (v : Volume) (root : String) : Loader := fun path =>
  if isDirectoryPath path then loadDirectoryPath v root path else loadImportPath v root path

end DocHarvest.Load
