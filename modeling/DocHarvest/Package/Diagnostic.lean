/-!
# What is wrong with a package

Problems of a package are collected while it is loaded and reported together.
-/

namespace DocHarvest

/-- Where a diagnostic came from. -/
inductive DiagnosticKind where
  /-- The package could not be listed. -/
  | list
  /-- A source file has a syntax error. -/
  | parse
  /-- Anything else. -/
  | unknown
deriving DecidableEq, Repr

/-- One problem of a package; `pos` is empty if the problem has no position. -/
structure Diagnostic where
  pos : String
  msg : String
  kind : DiagnosticKind
deriving DecidableEq, Repr

namespace Diagnostic

/-- A problem without a position. -/
def unpositioned (msg : String) (kind : DiagnosticKind) : Diagnostic :=
  ⟨"", msg, kind⟩

/-- The problem in words, after its position if it has one. -/
def message (d : Diagnostic) : String :=
  if d.pos.isEmpty then d.msg else d.pos ++ ": " ++ d.msg

end Diagnostic

/-- Everything that is wrong with a package: its diagnostics in the order in which they were found,
and the reason why its module could not be resolved. -/
structure PackageFault where
  diagnostics : List Diagnostic
  moduleError : Option String
deriving DecidableEq, Repr

namespace PackageFault

/-- The fault made of some diagnostics and a module error, unless there is none of either. -/
def of? (diagnostics : List Diagnostic) (moduleError : Option String) : Option PackageFault :=
  if diagnostics.isEmpty && moduleError.isNone then none else some ⟨diagnostics, moduleError⟩

/-- The diagnostics of one kind. -/
def ofKind (f : PackageFault) (kind : DiagnosticKind) : List Diagnostic :=
  f.diagnostics.filter (·.kind = kind)

/-- One line for each diagnostic and a last one for the module error. -/
def message (f : PackageFault) : String :=
  "\n".intercalate (f.diagnostics.map (·.message) ++ f.moduleError.toList)

end PackageFault

end DocHarvest
