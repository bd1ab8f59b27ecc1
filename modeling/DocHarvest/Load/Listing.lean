import DocHarvest.Host.Tool
import DocHarvest.Load.Directory
import DocHarvest.Load.Json

/-!
# Listed packages

The Go tool can list a package: where it is, which files belong to it and what is wrong with it. A
listing is JSON; keys that are not known are skipped and missing ones have defaults.
-/

namespace DocHarvest.Load

open DocHarvest.Host DocHarvest.Text

/-- What is wrong with a listed package. -/
structure ListedError where
  pos : String
  err : String

/-- A listed package. -/
structure Listing where
  dir : String
  importPath : String
  name : String
  goFiles : List String
  cgoFiles : List String
  error : Option ListedError
  /-- What is wrong with the module of the package. -/
  moduleError : Option String

namespace Listing

/-- The value of a member, by default `fallback`. Every member of the name has to be readable, and
the last of them counts. -/
def member (key : String) (fallback : α) (read : Json → Option α) (members : List (String × Json)) :
    Option α :=
  (members.filter (·.1 = key)).foldlM (fun _ m => read m.2) fallback

/-- A value as a text; `null` is the empty one. -/
def text : Json → Option String
  | .null => some ""
  | .string s => some s
  | _ => none

/-- A value as a list of texts. -/
def texts : Json → Option (List String)
  | .array elements => elements.mapM text
  | _ => none

/-- A value as an object with given members; `null` is none. -/
def object? (read : List (String × Json) → Option α) : Json → Option (Option α)
  | .null => some none
  | .object members => (read members).map some
  | _ => none

/-- The error of a listing. -/
def errorOf (members : List (String × Json)) : Option ListedError := do
  return ⟨← member "Pos" "" text members, ← member "Err" "" text members⟩

/-- The error of the module of a listing. -/
def moduleErrorOf (members : List (String × Json)) : Option (Option String) := do
  let _ ← member "Path" "" text members
  member "Error" none (object? (member "Err" "" text)) members

/-- The listing that the members of an object make. -/
def ofMembers (members : List (String × Json)) : Option Listing := do
  return {
    dir := ← member "Dir" "" text members
    importPath := ← member "ImportPath" "" text members
    name := ← member "Name" "" text members
    goFiles := ← member "GoFiles" [] texts members
    cgoFiles := ← member "CgoFiles" [] texts members
    error := ← member "Error" none (object? errorOf) members
    moduleError := (← member "Module" none (object? moduleErrorOf) members).join }

/-- The listing at the front of a text. -/
def decode? (text : String) : Option Listing :=
  match Json.read? (trim text.toList) with
  | some (.object members) => ofMembers members
  | _ => none

/-- The package with the error of its listing in front. An error with a position gives way to the
syntax errors of the files, which say more. -/
def withError (p : Package) : Option ListedError → Package
  | none => p
  | some e =>
    if p.diagnostics.any (·.kind = .parse) && !e.pos.isEmpty then p
    else { p with diagnostics := ⟨e.pos, trimmedEnd e.err, .list⟩ :: p.diagnostics }

/-- The package that a listing describes; its directory is seen from `cwd`. -/
def toPackage (d : Disk) (cwd : Option String) (l : Listing) : Except LoadError Package := do
  let p := { Package.empty l.importPath with name := l.name, moduleError := l.moduleError }
  let p ← if l.dir.isEmpty then pure p
    else
      let dir := match cwd with
        | some cwd => Path.join cwd l.dir
        | none => l.dir
      addFiles d { p with dir := some dir } ((l.goFiles ++ l.cgoFiles).map (Path.join dir))
  return withError p l.error

end Listing

/-- Loads packages by listing them with a program, which is run in `dir`. -/
def listed (tool : Tool) (d : Disk) (dir : Option String) : Loader := fun path =>
  match tool.run d dir path with
  | .error cause => .error (.spawn tool.program cause)
  | .ok result =>
    if result.status ≠ 0 then
      .error (.command tool.program result.status (trimmed result.stderr.lossy))
    else
      match Listing.decode? result.stdout.lossy with
      | none => .error .decode
      | some listing => listing.toPackage d dir

end DocHarvest.Load
