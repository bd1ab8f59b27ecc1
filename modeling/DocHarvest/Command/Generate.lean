import DocHarvest.Command.Options
import DocHarvest.Harvest.Basic
import DocHarvest.Load.Listing
import DocHarvest.Output.Format
import DocHarvest.Output.Render

/-!
# Generating the file

A run harvests the packages in order, renders the comment map, formats the file and writes it. The
last step alone leaves traces, and it is taken only if every step before it succeeded. A file is put
in place as a whole or not at all; of a text that is printed, the front may arrive and the rest not.
-/

namespace DocHarvest.Command

open DocHarvest.Host DocHarvest.Load DocHarvest.Harvest DocHarvest.Output

/-- Why nothing was generated. -/
inductive GenerateError where
  | harvest (error : HarvestError)
  | format (error : FormatError)
  /-- The generated file could not be written, or not all of it. -/
  | write
deriving DecidableEq, Repr

/-- The reason in words. -/
def GenerateError.message : GenerateError → String
  | .harvest error => error.message
  | .format error => error.message
  | .write => "failed to write the generated file"

/-- What a run produced. -/
structure Report where
  packages : Nat
  entries : Nat
  output : Destination
deriving DecidableEq, Repr

/-- The disk and the standard output after a run, and how the run went. -/
structure Outcome where
  disk : Disk
  stdout : Contents
  result : Except GenerateError Report

/-- The generated file and the number of its entries. -/
def generatedFile (o : Options) (load : Loader) (format : Formatter) :
    Except GenerateError (String × Nat) :=
  match harvestAll load o.mode CommentMap.empty o.packages with
  | (_, .error e) => .error (.harvest e)
  | (m, .ok ()) =>
    match format (render o.package m o.mpl2) with
    | .error e => .error (.format e)
    | .ok text => .ok (text, m.size)

/-- Writes a text to a destination: the disk and the standard output afterwards, and whether all of
the text has been written. -/
def writeTo (sink : Sink) (d : Disk) (output : Destination) (text : String) :
    Disk × Contents × Bool :=
  match output with
  | .stdout => (d, sink.print text)
  | .file path =>
    match if sink.files then d.replaceFile path text else none with
    | none => (d, .text "", false)
    | some after => (after, .text "", true)

/-- One run with a given loader and formatter. -/
def generateWith (d : Disk) (o : Options) (load : Loader) (format : Formatter)
    (sink : Sink := {}) : Outcome :=
  match generatedFile o load format with
  | .error e => ⟨d, .text "", .error e⟩
  | .ok (text, entries) =>
    let (after, printed, whole) := writeTo sink d o.output text
    ⟨after, printed,
      if whole then .ok ⟨o.packages.length, entries, o.output⟩ else .error .write⟩

/-- The external programs that a run may use. -/
structure Toolbox where
  go : Tool
  gofmt : Tool

/-- The loader that the options ask for. -/
def loaderOf (d : Disk) (tools : Toolbox) (o : Options) : Loader :=
  let dir := o.dir.getD (pathTo d.workingDirectory)
  match o.loader with
  | .go => listed tools.go d (some dir)
  | .dir => directory d dir

/-- The formatter that the options ask for. -/
def formatterOf (d : Disk) (tools : Toolbox) (o : Options) : Formatter :=
  match o.formatter with
  | .gofmt => external tools.gofmt d
  | .check => syntaxCheck

/-- One run with the loader and the formatter that the options ask for. -/
def generate (d : Disk) (tools : Toolbox) (o : Options) (sink : Sink := {}) : Outcome :=
  generateWith d o (loaderOf d tools o) (formatterOf d tools o) sink

end DocHarvest.Command
