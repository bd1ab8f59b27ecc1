import DocHarvest.Host.Disk

/-!
# Links, and names that are not text

A `Disk` has what paths lead to. A `Volume` has what stands in the directories themselves, which is
more: links to files, and entries under names that are not text. Links to directories are left out.

A link is followed by whatever reads its path, so reading sees the disk on which the file stands in
the place of the link (`Volume.followed`). A path is a text, so none leads to a name that is not;
such an entry is seen when its directory is listed, and then never again.
-/

namespace DocHarvest.Host

/-- A name in a directory. -/
inductive FileName where
  | text (s : String)
  /-- Bytes that are no text. -/
  | binary (bytes : List UInt8)
deriving DecidableEq, Repr

/-- The text of a name, if it is text. -/
def FileName.text? : FileName → Option String
  | .text s => some s
  | .binary _ => none

/-- A link to a file. -/
structure Link where
  location : Location
  /-- Where it leads to in the end, if it leads to a link first. -/
  target : Location
deriving DecidableEq, Repr

/-- What a link makes appear at its location: nothing, if there is no file where it leads to. -/
def Link.follow? (d : Disk) (l : Link) : Option (Location × DiskEntry) :=
  match d.at? l.target with
  | some (.file contents mode) => some (l.location, .file contents mode)
  | _ => none

/-- What stands in a directory under a name that is not text. -/
structure Stray where
  directory : Location
  name : List UInt8
  entry : DiskEntry
  notText : Text.Utf8.decode? name = none
deriving DecidableEq

/-- A disk with links to files and with names that are not text. -/
structure Volume extends Disk where
  links : List Link
  strays : List Stray

/-- A disk without them. -/
instance : Coe Disk Volume :=
  ⟨fun d => ⟨d, [], []⟩⟩

namespace Volume

/-- The disk that is seen by reading: where a link stands there is the file that it leads to. -/
def followed (v : Volume) : Disk :=
  { v.toDisk with entries := v.links.filterMap (·.follow? v.toDisk) ++ v.entries }

/-- The names in a directory, in no particular order. Links that lead nowhere are left out. -/
def readNames (v : Volume) (path : String) : Except AccessError (List FileName) := do
  let names ← v.followed.readDirectory path
  let loc ← v.followed.locateDirectory path
  return names.map .text ++ (v.strays.filter (·.directory = loc)).map fun x => .binary x.name

/-- Whether a name in a directory leads to a file. -/
def hasFile (v : Volume) (dir : String) : FileName → Bool
  | .text s => v.followed.isFile (Path.join dir s)
  | .binary bytes =>
    match v.followed.locateDirectory dir with
    | .error _ => false
    | .ok loc => v.strays.any fun x => x.directory = loc && x.name = bytes && x.entry.isFile

end Volume

end DocHarvest.Host
