import DocHarvest.Command.Program
import DocHarvest.Command.Reach

/-!
# The command line

The outer layer of the program: it reads the part of the disk that the arguments can lead to, runs
`Command.program` on it, and carries out what has changed. External programs are not started, so the
program behaves as on a machine where they are not installed.
-/

namespace DocHarvest.Main

open DocHarvest.Host DocHarvest.Command

/-- The names on the way from the root to an absolute path. -/
def locationOf (path : String) : Location :=
  (Path.components path).filterMap fun
    | .name s => some s
    | _ => none

/-- The contents of a file as far as they matter: module files and source files are read. -/
def contentsAt (name path : String) : IO Contents := do
  if name == "go.mod" || name.endsWith ".go" then
    return Contents.ofBytes (← IO.FS.readBinFile path).toList
  else return .text ""

/-- What is at a location, if anything can be seen there. -/
def entryAt (loc : Location) : IO (Option DiskEntry) := do
  try
    let path := (← IO.currentDir) / pathTo loc
    if ← path.isDir then return some .directory
    else if ← path.pathExists then
      return some (.file (← contentsAt (loc.getLastD "") (pathTo loc)) Disk.privateMode)
    else return none
  catch _ => return none

/-- The locations directly below a location. -/
def locationsBelow (loc : Location) : IO (List Location) := do
  try
    let found ← ((← IO.currentDir) / pathTo loc).readDir
    return found.toList.map fun e => loc ++ [e.fileName]
  catch _ => return []

/-- The part of the disk that consists of some locations and what is directly below them. -/
def snapshot (cwd : Location) (locs : List Location) : IO Disk := do
  let below ← locs.mapM locationsBelow
  let all := (locs ++ below.flatten).eraseDups
  let entries ← all.mapM fun loc => do return (loc, ← entryAt loc)
  return ⟨entries.filterMap fun e => e.2.map fun entry => (e.1, entry), cwd⟩

/-- The tools of a machine where none is installed. -/
def noTools : Toolbox :=
  ⟨⟨"go", none⟩, ⟨"gofmt", none⟩⟩

/-- Puts a file in place in one step, readable by its owner alone. -/
def put (loc : Location) (text : String) : IO Unit := do
  let path := pathTo loc
  let draft := path ++ ".draft"
  IO.FS.writeFile draft text
  IO.setAccessRights draft ⟨⟨true, true, false⟩, ⟨false, false, false⟩, ⟨false, false, false⟩⟩
  IO.FS.rename draft path

/-- Carries out on the machine what a run has changed on its disk. -/
def carryOut (before after : Disk) : IO Unit := do
  for e in after.entries do
    if !before.entries.contains e then
      if let (loc, .file (.text text) _) := e then put loc text

/-- Runs the program on the arguments of the command line. -/
def run (argv : List String) : IO UInt32 := do
  let cwd := locationOf (← IO.currentDir).toString
  let locs := match Arguments.read argv with
    | .ok args => reach cwd args
    | .error _ => []
  let before ← snapshot cwd locs
  let result := program before noTools argv
  carryOut before result.disk
  IO.eprint result.progress
  IO.print result.stdout
  if let some failure := result.failure then IO.eprintln ("Error: " ++ failure.message)
  return UInt32.ofNat result.exitCode

end DocHarvest.Main

/-- The entry point of the program. -/
def main (argv : List String) : IO UInt32 :=
  DocHarvest.Main.run argv
