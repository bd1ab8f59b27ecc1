import DocHarvest.Text.Utf8

/-!
# What the operating system gives and takes

Contents of files, output of programs, the answers to accesses that fail, and how much is taken of
what is written.
-/

namespace DocHarvest.Host

/-- What the operating system answers to a failed access. -/
inductive AccessError where
  | notFound
  | notDirectory
  | isDirectory
  /-- The contents can be read but are no text. -/
  | notText
deriving DecidableEq, Repr

/-- The answer in words. -/
def AccessError.message : AccessError → String
  | .notFound => "No such file or directory (os error 2)"
  | .notDirectory => "Not a directory (os error 20)"
  | .isDirectory => "Is a directory (os error 21)"
  | .notText => "stream did not contain valid UTF-8"

/-- Contents of a file, or output of a program: text, or bytes that are no text. -/
inductive Contents where
  | text (s : String)
  | binary (bytes : List UInt8)
deriving DecidableEq, Repr

namespace Contents

/-- The contents that some bytes are. -/
def ofBytes (bytes : List UInt8) : Contents :=
  match Text.Utf8.decode? bytes with
  | some s => .text s
  | none => .binary bytes

/-- The text, if there is text. -/
def text? : Contents → Option String
  | .text s => some s
  | .binary _ => none

/-- The text, with U+FFFD for bytes that are none. -/
def lossy : Contents → String
  | .text s => s
  | .binary bytes => Text.Utf8.decodeLossy bytes

end Contents

/-- How the machine takes what is written. Standard output can end in a pipe that is closed or on a
device that is full, and a file can be refused. -/
structure Sink where
  /-- How many bytes standard output takes until it fails; without a number it never fails. -/
  room : Option Nat := none
  /-- Whether files can be put in place. -/
  files : Bool := true

/-- What arrives on standard output of a text, and whether that is all of it. -/
def Sink.print (sink : Sink) (text : String) : Contents × Bool :=
  let bytes := Text.Utf8.encode text.toList
  match sink.room with
  | none => (.text text, true)
  | some n => if bytes.length ≤ n then (.text text, true) else (.ofBytes (bytes.take n), false)

end DocHarvest.Host
