import DocHarvest.Text.Basic

/-!
# Command line arguments

Arguments are package paths and options in any order. An option has a long name, some have a letter,
and each may be given once. An option with a value takes what follows an equals sign, what follows
its letter, or the next argument whatever it looks like. Letters of flags can be grouped. After `--`
every argument is a path.
-/

namespace DocHarvest.Command

open DocHarvest.Text

/-- The options that take a value. -/
inductive Setting where
  | package
  | output
  | loader
  | formatter
deriving DecidableEq, Repr

/-- The options that are on or off. -/
inductive Flag where
  | full
  | mpl2
  | verbose
deriving DecidableEq, Repr

/-- Why arguments are refused. -/
inductive ArgumentError where
  | unknownOption (name : String)
  | missingValue
  | givenTwice
  /-- A flag was given a value that is neither `true` nor `false`. -/
  | badFlagValue (value : String)
  | noPackages
deriving DecidableEq, Repr

/-- The reason in words. -/
def ArgumentError.message : ArgumentError → String
  | .unknownOption name => "unknown option " ++ name
  | .missingValue => "an option lacks its value"
  | .givenTwice => "an option is given twice"
  | .badFlagValue value => "a flag is true or false, not " ++ value
  | .noPackages => "no packages given"

/-- The arguments as they were given. -/
structure Arguments where
  packages : List String
  package : Option String
  output : Option String
  loader : Option String
  formatter : Option String
  full : Option Bool
  mpl2 : Option Bool
  verbose : Option Bool
deriving DecidableEq, Repr

namespace Arguments

/-- No arguments at all. -/
def none : Arguments :=
  ⟨[], .none, .none, .none, .none, .none, .none, .none⟩

/-- The arguments with one more path. -/
def addPackage (a : Arguments) (path : String) : Arguments :=
  { a with packages := a.packages ++ [path] }

/-- The value of a setting. -/
def setting (a : Arguments) : Setting → Option String
  | .package => a.package
  | .output => a.output
  | .loader => a.loader
  | .formatter => a.formatter

/-- Gives a setting its value, which it must not have yet. -/
def set (a : Arguments) (s : Setting) (value : String) : Except ArgumentError Arguments :=
  if (a.setting s).isSome then .error .givenTwice
  else .ok <| match s with
    | .package => { a with package := some value }
    | .output => { a with output := some value }
    | .loader => { a with loader := some value }
    | .formatter => { a with formatter := some value }

/-- The value of a flag. -/
def flag (a : Arguments) : Flag → Option Bool
  | .full => a.full
  | .mpl2 => a.mpl2
  | .verbose => a.verbose

/-- Turns a flag on or off, which must not have happened yet. -/
def turn (a : Arguments) (f : Flag) (value : Bool) : Except ArgumentError Arguments :=
  if (a.flag f).isSome then .error .givenTwice
  else .ok <| match f with
    | .full => { a with full := some value }
    | .mpl2 => { a with mpl2 := some value }
    | .verbose => { a with verbose := some value }

end Arguments

/-- What a name of an option stands for. -/
inductive OptionName where
  | setting (s : Setting)
  | flag (f : Flag)

/-- The options by their long names. -/
def longNames : List (String × OptionName) :=
  [("package", .setting .package), ("output", .setting .output), ("loader", .setting .loader),
   ("formatter", .setting .formatter), ("with-full-comment", .flag .full), ("mpl2", .flag .mpl2),
   ("verbose", .flag .verbose)]

/-- The options by their letters. -/
def letters : List (Char × OptionName) :=
  [('P', .setting .package), ('W', .setting .output), ('v', .flag .verbose)]

/-- The value of a flag that is written out. -/
def flagValue (value : List Char) : Except ArgumentError Bool :=
  if value = "true".toList then .ok true
  else if value = "false".toList then .ok false
  else .error (.badFlagValue (String.ofList value))

namespace Arguments

/-- Reads a long option, and says which setting still waits for its value. -/
def readLong (a : Arguments) (cs : List Char) : Except ArgumentError (Arguments × Option Setting) :=
  let name := cs.takeWhile (· != '=')
  let value := cs.drop (name.length + 1)
  let hasValue := cs.contains '='
  match longNames.lookup (String.ofList name) with
  | .none => .error (.unknownOption (String.ofList name))
  | some (.setting s) => do
    if hasValue then return (← a.set s (String.ofList value), .none) else return (a, some s)
  | some (.flag f) => do
    if hasValue then return (← a.turn f (← flagValue value), .none)
    else return (← a.turn f true, .none)

/-- Reads a group of letters, and says which setting still waits for its value. -/
def readLetters (a : Arguments) : List Char → Except ArgumentError (Arguments × Option Setting)
  | [] => .ok (a, .none)
  | c :: cs =>
    match letters.lookup c with
    | .none => .error (.unknownOption (String.ofList [c]))
    | some (.setting s) =>
      match cs with
      | [] => .ok (a, some s)
      | '=' :: value => do return (← a.set s (String.ofList value), .none)
      | value => do return (← a.set s (String.ofList value), .none)
    | some (.flag f) =>
      match cs with
      | '=' :: value => do return (← a.turn f (← flagValue value), .none)
      | _ => do readLetters (← a.turn f true) cs

/-- Reads one argument where an option may stand, and says which setting still waits for its value.
A dash alone is a path. -/
def readArgument (a : Arguments) (arg : String) :
    Except ArgumentError (Arguments × Option Setting) :=
  match arg.toList with
  | '-' :: '-' :: cs => a.readLong cs
  | '-' :: c :: cs => a.readLetters (c :: cs)
  | _ => .ok (a.addPackage arg, .none)

/-- Reads arguments one after the other; `waiting` is the setting that takes the next one. -/
def readFrom (a : Arguments) (waiting : Option Setting) :
    List String → Except ArgumentError Arguments
  | [] => if waiting.isSome then .error .missingValue else .ok a
  | arg :: args =>
    match waiting with
    | some s => do readFrom (← a.set s arg) .none args
    | .none =>
      if arg = "--" then .ok { a with packages := a.packages ++ args }
      else do
        let (a, waiting) ← a.readArgument arg
        readFrom a waiting args

/-- The arguments of a command line; there has to be a path. -/
def read (argv : List String) : Except ArgumentError Arguments := do
  let a ← Arguments.none.readFrom .none argv
  if a.packages.isEmpty then throw .noPackages
  return a

end Arguments

end DocHarvest.Command
