import DocHarvest.Host.Disk

/-!
# External programs

A program is what it answers to its input. It can be missing, and it can be started in a directory.
-/

namespace DocHarvest.Host

/-- What a program printed, and the status with which it ended. -/
structure ToolResult where
  stdout : Contents
  stderr : Contents
  status : Nat

/-- A program by name, with what it answers; it answers nothing if it is not installed. -/
structure Tool where
  program : String
  answer : Option (String → ToolResult)

/-- Runs a program in a directory, or in the working directory. -/
def Tool.run (t : Tool) (d : Disk) (dir : Option String) (input : String) :
    Except AccessError ToolResult := do
  match t.answer with
  | none => throw .notFound
  | some answer =>
    match dir with
    | none => return answer input
    | some dir =>
      let _ ← d.locateDirectory dir
      return answer input

end DocHarvest.Host
