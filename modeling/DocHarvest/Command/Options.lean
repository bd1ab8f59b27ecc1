import DocHarvest.Command.Arguments
import DocHarvest.Harvest.Walk
import DocHarvest.Text.Lowercase

/-!
# What one run of the generator is to do

The options of a run, and how arguments become options.
-/

namespace DocHarvest.Command

open DocHarvest.Text

/-- How packages are found. -/
inductive LoaderKind where
  /-- By asking the Go tool. -/
  | go
  /-- By looking on disk. -/
  | dir
deriving DecidableEq, Repr

/-- How the generated file takes its final form. -/
inductive FormatterKind where
  /-- By an external formatter. -/
  | gofmt
  /-- By a check of its syntax. -/
  | check
deriving DecidableEq, Repr

/-- Where the generated file goes. -/
inductive Destination where
  | stdout
  | file (path : String)
deriving DecidableEq, Repr

namespace Destination

/-- The destination that an argument names: a dash is the standard output. -/
def ofArgument (s : String) : Destination :=
  if s = "-" then .stdout else .file s

/-- The destination in words. -/
def display : Destination → String
  | .stdout => "<stdout>"
  | .file path => path

end Destination

/-- Everything one run needs to know. -/
structure Options where
  /-- The paths of the packages, in the order in which they are harvested. -/
  packages : List String
  /-- The package of the generated file. -/
  package : String
  output : Destination
  mode : Harvest.Mode
  /-- Whether the generated file starts with the licence notice. -/
  mpl2 : Bool
  loader : LoaderKind
  formatter : FormatterKind
  /-- The directory that relative paths start from, if not the working directory. -/
  dir : Option String
deriving DecidableEq, Repr

/-- Why arguments make no options. -/
inductive ConfigError where
  | noPackages
  | unknownLoader (name : String)
  | unknownFormatter (name : String)
deriving DecidableEq, Repr

/-- The reason in words. -/
def ConfigError.message : ConfigError → String
  | .noPackages => "no packages given. Usage: mapcomments [OPTIONS] <PACKAGES>..."
  | .unknownLoader name => "unknown loader `" ++ name ++ "` (expected `go` or `dir`)"
  | .unknownFormatter name => "unknown formatter `" ++ name ++ "` (expected `gofmt` or `check`)"

/-- The loader of a name, in whatever case it is written. -/
def LoaderKind.ofName (name : String) : Option LoaderKind :=
  let lower := lowercase name.toList
  if lower = "go".toList ∨ lower = "golist".toList then some .go
  else if lower = "dir".toList then some .dir
  else none

/-- The formatter of a name, in whatever case it is written. -/
def FormatterKind.ofName (name : String) : Option FormatterKind :=
  let lower := lowercase name.toList
  if lower = "gofmt".toList then some .gofmt
  else if lower = "check".toList ∨ lower = "none".toList then some .check
  else none

/-- The package of the generated file if none is given. -/
def defaultPackage : String := "main"

/-- The path of the generated file if none is given. -/
def defaultOutput : String := "commentmap_gen.go"

namespace Options

/-- The mode that the flag for whole comments selects. -/
def modeOf (full : Bool) : Harvest.Mode :=
  if full then .full else .synopsis

/-- The options that arguments ask for. -/
def ofArguments (a : Arguments) : Except ConfigError Options := do
  if a.packages.isEmpty then throw .noPackages
  let loader ← match a.loader with
    | none => pure LoaderKind.go
    | some name => (LoaderKind.ofName name).elim (throw (.unknownLoader name)) pure
  let formatter ← match a.formatter with
    | none => pure FormatterKind.gofmt
    | some name => (FormatterKind.ofName name).elim (throw (.unknownFormatter name)) pure
  return {
    packages := a.packages
    package := a.package.getD defaultPackage
    output := (a.output.map Destination.ofArgument).getD (.file defaultOutput)
    mode := modeOf (a.full.getD false)
    mpl2 := a.mpl2.getD false
    loader := loader
    formatter := formatter
    dir := none }

end Options

end DocHarvest.Command
