import DocHarvest.Host.Access
import DocHarvest.Host.Path

/-!
# Files and directories

A file system without links, as a value. Reading looks paths up the way an operating system does:
piece by piece, and every piece but the last has to be a directory that exists.
-/

namespace DocHarvest.Host

open DocHarvest.Text

/-- The names on the way from the root to a file or directory. -/
abbrev Location := List String

/-- The absolute path of a location. -/
def pathTo (loc : Location) : String :=
  "/" ++ "/".intercalate loc

/-- What is at a location. -/
inductive DiskEntry where
  | directory
  /-- A file with its permission bits. -/
  | file (contents : Contents) (mode : Nat)
deriving DecidableEq, Repr

/-- Whether this is a file. -/
def DiskEntry.isFile : DiskEntry → Bool
  | .directory => false
  | .file .. => true

/-- The files and directories below the root, and the working directory. -/
structure Disk where
  entries : List (Location × DiskEntry)
  workingDirectory : Location

namespace Disk

/-- What is at a location; the root is always there. -/
def at? (d : Disk) (loc : Location) : Option DiskEntry :=
  if loc.isEmpty then some .directory else d.entries.lookup loc

/-- Goes one piece of a path further. -/
def step (d : Disk) (loc : Location) (piece : List Char) : Except AccessError Location :=
  match d.at? loc with
  | none => .error .notFound
  | some (.file ..) => .error .notDirectory
  | some .directory =>
    match Component.ofPiece piece with
    | some (.name s) =>
      if (d.at? (loc ++ [s])).isSome then .ok (loc ++ [s]) else .error .notFound
    | some .parent => .ok loc.dropLast
    | _ => .ok loc

/-- Where a path starts. -/
def startOf (d : Disk) (path : String) : Location :=
  if Path.isAbsolute path then [] else d.workingDirectory

/-- The location of a path and what is there. -/
def locate (d : Disk) (path : String) : Except AccessError (Location × DiskEntry) := do
  if path.isEmpty then throw .notFound
  let loc ← (split '/' path.toList).foldlM d.step (d.startOf path)
  match d.at? loc with
  | none => throw .notFound
  | some entry => return (loc, entry)

/-- The location of a directory. -/
def locateDirectory (d : Disk) (path : String) : Except AccessError Location := do
  match ← d.locate path with
  | (loc, .directory) => return loc
  | _ => throw .notDirectory

/-- The text of a file. -/
def readText (d : Disk) (path : String) : Except AccessError String := do
  match ← d.locate path with
  | (_, .directory) => throw .isDirectory
  | (_, .file (.text s) _) => return s
  | (_, .file (.binary _) _) => throw .notText

/-- Whether a path leads to a file. -/
def isFile (d : Disk) (path : String) : Bool :=
  match d.locate path with
  | .ok (_, entry) => entry.isFile
  | .error _ => false

/-- The names in a directory, in no particular order. -/
def readDirectory (d : Disk) (path : String) : Except AccessError (List String) := do
  let loc ← d.locateDirectory path
  return d.entries.filterMap fun e =>
    if e.1.dropLast = loc then e.1.getLast? else none

/-- The permission bits of a file that is put in place. -/
def privateMode : Nat := 0o600

/-- Puts a file in place in one step, or changes nothing. Its directory has to exist and there must
be no directory of its name. -/
def replaceFile (d : Disk) (path : String) (text : String) : Option Disk :=
  let pieces := split '/' path.toList
  match Component.ofPiece (pieces.getLastD []) with
  | some (.name s) =>
    match (pieces.dropLast).foldlM d.step (d.startOf path) with
    | .error _ => none
    | .ok dir =>
      let loc := dir ++ [s]
      if d.at? dir = some .directory ∧ d.at? loc ≠ some .directory then
        some { d with
          entries := (loc, .file (.text text) privateMode) :: d.entries.filter (·.1 ≠ loc) }
      else none
  | _ => none

end Disk

end DocHarvest.Host
