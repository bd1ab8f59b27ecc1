import DocHarvest.Host.Tool
import DocHarvest.Syntax.Tree

/-!
# Formatting the generated file

The file is checked by the parser of this library or passed through an external formatter. A
formatter may fail, and then nothing is written.
-/

namespace DocHarvest.Output

open DocHarvest.Host DocHarvest.Text

/-- Why a source text was not formatted. -/
inductive FormatError where
  /-- The source has syntax errors by the parser of this library. -/
  | rejected
  /-- The external formatter refused the source. -/
  | refused (explanation : String)
  /-- The external formatter could not be started. -/
  | spawn (program : String) (cause : AccessError)
  /-- The external formatter did not print text. -/
  | notText (program : String)
deriving DecidableEq, Repr

/-- The reason in words. -/
def FormatError.message : FormatError → String
  | .rejected => "generated source does not parse"
  | .refused explanation => "generated source does not parse:\n" ++ explanation
  | .spawn program cause => "failed to run " ++ program ++ ": " ++ cause.message
  | .notText program => program ++ " produced invalid UTF-8"

/-- How a source text takes its final form. -/
abbrev Formatter := String → Except FormatError String

/-- Accepts source that parses, and gives it exactly one line feed at its end. -/
def syntaxCheck : Formatter := fun source =>
  if (Syntax.Node.parse? source.toList).isSome then .ok (trimmedEnd source ++ "\n")
  else .error .rejected

/-- Passes source through an external formatter. Its complaints speak of the generated file. -/
def external (tool : Tool) (d : Disk) : Formatter := fun source =>
  match tool.run d none source with
  | .error cause => .error (.spawn tool.program cause)
  | .ok result =>
    if result.status ≠ 0 then
      let complaint := trimEnd result.stderr.lossy.toList
      .error (.refused (String.ofList
        (replace "<standard input>".toList "generated".toList complaint)))
    else
      match result.stdout.text? with
      | some text => .ok text
      | none => .error (.notText tool.program)

end DocHarvest.Output
