import DocHarvest.Text.Basic

/-!
# Paths

Paths are texts; their components are what the slashes separate. A single dot counts only at the
front of a relative path, and two dots are a component like a name until `normalize` resolves them.
-/

namespace DocHarvest.Host

open DocHarvest.Text

/-- A part of a path. -/
inductive Component where
  /-- The slash at the front of an absolute path. -/
  | root
  /-- A dot at the front of a relative path. -/
  | current
  /-- Two dots. -/
  | parent
  | name (s : String)
deriving DecidableEq, Repr

namespace Component

/-- The component that a piece between slashes is, if it is one. -/
def ofPiece (piece : List Char) : Option Component :=
  if piece = [] ∨ piece = ['.'] then none
  else if piece = ['.', '.'] then some .parent
  else some (.name (String.ofList piece))

/-- A component as it stands between slashes. -/
def text : Component → String
  | .root => ""
  | .current => "."
  | .parent => ".."
  | .name s => s

end Component

namespace Path

/-- Whether a path starts at the root. -/
def isAbsolute (path : String) : Bool :=
  path.toList.head? = some '/'

/-- The components of a path. -/
def components (path : String) : List Component :=
  let pieces := split '/' path.toList
  let front := if isAbsolute path then [Component.root]
    else if pieces.head? = some ['.'] then [Component.current]
    else []
  front ++ pieces.filterMap Component.ofPiece

/-- The path made of some components. -/
def ofComponents : List Component → String
  | [.root] => "/"
  | cs => "/".intercalate (cs.map (·.text))

/-- A path seen from a directory. An absolute path replaces the directory. -/
def join (dir path : String) : String :=
  if isAbsolute path || dir.isEmpty then path
  else if dir.toList.getLast? = some '/' then dir ++ path
  else dir ++ "/" ++ path

/-- Resolves one more component. Two dots take away the component before them, whatever it is, but
not the root and not nothing. -/
def resolveComponent (out : List Component) (c : Component) : List Component :=
  match c with
  | .current => out
  | .parent =>
    match out.getLast? with
    | none | some .root => out ++ [.parent]
    | some _ => out.dropLast
  | c => out ++ [c]

/-- A path with its dots resolved by its text alone. -/
def normalize (path : String) : String :=
  ofComponents ((components path).foldl resolveComponent [])

/-- A path given by its components, and then each of the paths above it. -/
def ancestors (cs : List Component) : List (List Component) :=
  let shorter := (List.range cs.length).reverse.map cs.take
  cs :: shorter.filter fun up => !up.isEmpty || cs.head? ≠ some .root

/-- The components of a path below another one, if it is below it. -/
def below? (dir cs : List Component) : Option (List Component) :=
  if dir.isPrefixOf cs then some (cs.drop dir.length) else none

end Path

end DocHarvest.Host
