import DocHarvest.Command.Options
import DocHarvest.Load.Directory

/-!
# What a run looks at

The program works on a `Disk`, which is a value. On a real machine only the part of the disk that a
run can look at has to become one: the directories that the package paths may stand for, the
directory of the generated file, and everything above them. `reach` names that part before anything
is read.
-/

namespace DocHarvest.Command

open DocHarvest.Host DocHarvest.Load DocHarvest.Text

/-- What follows each slash of a path, and the empty path: whatever the path of a module is, the
rest of an import path after it is one of these. -/
def remainders : List Char → List (List Char)
  | [] => [[]]
  | c :: cs => if c = '/' then cs :: remainders cs else remainders cs

/-- A location and those above it. -/
def above (loc : Location) : List Location :=
  (List.range (loc.length + 1)).map loc.take

/-- The directories that a package path may stand for, seen from the working directory. -/
def candidates (cwd : Location) (path : String) : List String :=
  if isDirectoryPath path then [Path.normalize (Path.join (pathTo cwd) path)]
  else (above cwd).flatMap fun dir =>
    (remainders path.toList).map fun rest => Path.join (pathTo dir) (String.ofList rest)

/-- The place of the generated file, if the arguments ask for a file. -/
def target (args : Arguments) : Option String :=
  match (args.output.map Destination.ofArgument).getD (.file defaultOutput) with
  | .stdout => none
  | .file path => some path

/-- The locations that a path leads through from a starting point. -/
def stops (start : Location) : List (List Char) → List Location
  | [] => [start]
  | piece :: pieces =>
    let next := match Component.ofPiece piece with
      | some (.name s) => start ++ [s]
      | some .parent => start.dropLast
      | _ => start
    start :: stops next pieces

/-- The locations that a path leads through from the working directory or the root. -/
def stopsOf (cwd : Location) (path : String) : List Location :=
  stops (if Path.isAbsolute path then [] else cwd) (split '/' path.toList)

/-- The locations at which a run with the given arguments may look, each of them once. -/
def reach (cwd : Location) (args : Arguments) : List Location :=
  let paths := args.packages.flatMap (candidates cwd) ++ (target args).toList
  (above cwd ++ paths.flatMap (stopsOf cwd)).eraseDups

end DocHarvest.Command
