import DocHarvest.Command.Generate

/-!
# The program

The program from its arguments to its exit code: what it prints while it works, what it writes, and
at which stage it fails.
-/

namespace DocHarvest.Command

open DocHarvest.Host

/-- Why the program fails. -/
inductive Failure where
  | arguments (error : ArgumentError)
  | config (error : ConfigError)
  | generate (error : GenerateError)
deriving DecidableEq, Repr

/-- The reason in words. -/
def Failure.message : Failure → String
  | .arguments error => error.message
  | .config error => error.message
  | .generate error => error.message

/-- What a run of the program leaves behind. -/
structure ProgramResult where
  disk : Disk
  /-- The standard output, with U+FFFD for a character that is cut off. -/
  stdout : String
  /-- What is printed while the program works. -/
  progress : String
  failure : Option Failure

/-- The exit code of the program. -/
def ProgramResult.exitCode (r : ProgramResult) : Nat :=
  if r.failure.isSome then 1 else 0

/-! ## Colours -/

/-- A text between a terminal sequence that turns a style on and one that turns it off. -/
def styled (on off : String) (text : String) : String :=
  "\x1b[" ++ on ++ "m" ++ text ++ "\x1b[" ++ off ++ "m"

/-- A text in bold. -/
def bold : String → String := styled "1" "0"

/-- A text in blue. -/
def blue : String → String := styled "34" "39"

/-- A text in cyan. -/
def cyan : String → String := styled "36" "39"

/-- A text in green. -/
def green : String → String := styled "32" "39"

/-! ## The run -/

/-- What is printed before packages are harvested. -/
def startProgress (o : Options) : String :=
  bold (blue "->") ++ " Harvesting " ++ toString o.packages.length ++ " package(s)...\n" ++
    String.join (o.packages.map fun p => "   " ++ cyan p ++ "\n")

/-- What is printed when a file has been written. -/
def endProgress (r : Report) : String :=
  match r.output with
  | .stdout => ""
  | .file path =>
    bold (green "OK") ++ " Wrote " ++ green (toString r.entries) ++ " comments to " ++ path ++ "\n"

/-- The program on given arguments. -/
def program (d : Disk) (tools : Toolbox) (argv : List String) (sink : Sink := {}) :
    ProgramResult :=
  match Arguments.read argv with
  | .error e => ⟨d, "", "", some (.arguments e)⟩
  | .ok args =>
    match Options.ofArguments args with
    | .error e => ⟨d, "", "", some (.config e)⟩
    | .ok o =>
      let outcome := generate d tools o sink
      let printed := outcome.stdout.lossy
      match outcome.result with
      | .error e => ⟨outcome.disk, printed, startProgress o, some (.generate e)⟩
      | .ok report => ⟨outcome.disk, printed, startProgress o ++ endProgress report, none⟩

end DocHarvest.Command
