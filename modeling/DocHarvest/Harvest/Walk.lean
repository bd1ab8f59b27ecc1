import DocHarvest.Comment.Index
import DocHarvest.Comment.Text
import DocHarvest.Doc.Synopsis
import DocHarvest.Harvest.CommentMap

/-!
# The entries of a file

A file is walked node by node, parents before children. Three kinds of nodes matter:

* a general declaration (of types, variables, constants or imports) leaves its doc comment for the
  next exported type that has none of its own;
* a type spec, if it is exported, becomes the active type and gets an entry, and else there is no
  active type any more;
* a field or interface method gets an entry under the active type for each exported name.
-/

namespace DocHarvest.Harvest

open DocHarvest.Syntax DocHarvest.Comment

/-- How much of the comment of a type is recorded. -/
inductive Mode where
  /-- The first sentence on one line. -/
  | synopsis
  /-- The whole comment, trimmed. -/
  | full
deriving DecidableEq, Repr

/-- What the walk of a file needs to know. -/
structure Context where
  importPath : String
  /-- How the text of a type's comment is recorded. -/
  summarize : String → String
  source : List Char
  index : Index

namespace Context

/-- The text of the comment group above a node. -/
def leadText (cx : Context) (n : Node) : String :=
  textOf cx.source (cx.index.lead n.span)

/-- The text of the comment group that closes the line of a node. -/
def trailText (cx : Context) (n : Node) : String :=
  textOf cx.source (cx.index.trail n.span)

/-- The key of a type. -/
def typeKey (cx : Context) (type : String) : String :=
  cx.importPath ++ "." ++ type

/-- The key of a field or method. -/
def fieldKey (cx : Context) (type field : String) : String :=
  cx.importPath ++ "." ++ type ++ "." ++ field

end Context

/-- What the walk carries from node to node. -/
structure State where
  /-- The exported type under which fields are recorded. -/
  activeType : Option String
  /-- The doc comment of the last general declaration, until a type takes it. -/
  pendingDoc : String

/-- What the walk starts with. -/
def State.initial : State :=
  ⟨none, ""⟩

/-- Whether a node declares types, variables, constants or imports. -/
def isGeneral (n : Node) : Bool :=
  n.kind = .typeDeclaration || n.kind = .varDeclaration || n.kind = .constDeclaration ||
    n.kind = .importDeclaration

/-- Whether a node is a type spec. -/
def isTypeSpec (n : Node) : Bool :=
  n.kind = .typeSpec || n.kind = .typeAlias

/-- Whether a node is a struct field or an interface method. -/
def isField (n : Node) : Bool :=
  n.kind = .fieldDeclaration || n.kind = .methodElem

/-- Visits a type spec. Its own comment counts only inside a parenthesised group. -/
def visitTypeSpec (cx : Context) (grouped : Bool) (s : State) (n : Node) : State × List Entry :=
  match (n.names cx.source).head? with
  | none => (s, [])
  | some name =>
    if isExported name then
      let own := if grouped then cx.leadText n else ""
      let takes := own.isEmpty
      let text := cx.summarize (if takes then s.pendingDoc else own)
      (⟨some name, if takes then "" else s.pendingDoc⟩,
        if text.isEmpty then [] else [(cx.typeKey name, text)])
    else (⟨none, s.pendingDoc⟩, [])

/-- The comment of a field: the one above it, or else the one that closes its line. -/
def fieldText (cx : Context) (n : Node) : String :=
  let above := cx.leadText n
  Text.trimmed (if above.isEmpty then cx.trailText n else above)

/-- Visits a field or interface method. -/
def visitField (cx : Context) (s : State) (n : Node) : List Entry :=
  match s.activeType with
  | none => []
  | some type =>
    let text := fieldText cx n
    if text.isEmpty then []
    else ((n.names cx.source).filter isExported).map fun name => (cx.fieldKey type name, text)

/-- Visits one node; `grouped` says that its parent is a parenthesised group. -/
def visit (cx : Context) (grouped : Bool) (s : State) (n : Node) : State × List Entry :=
  if isGeneral n then (⟨s.activeType, cx.leadText n⟩, [])
  else if isTypeSpec n then visitTypeSpec cx grouped s n
  else if isField n then (s, visitField cx s n)
  else (s, [])

mutual

/-- Walks a node and its descendants. -/
def walk (cx : Context) (grouped : Bool) (s : State) : Node → State × List Entry
  | .mk kind role span children =>
    let n := Node.mk kind role span children
    let (s, here) := visit cx grouped s n
    let (s, below) := walkAll cx n.isGroup s children
    (s, here ++ below)

/-- Walks nodes one after the other. -/
def walkAll (cx : Context) (grouped : Bool) (s : State) : List Node → State × List Entry
  | [] => (s, [])
  | n :: ns =>
    let (s, first) := walk cx grouped s n
    let (s, rest) := walkAll cx grouped s ns
    (s, first ++ rest)

end

/-- The entries of a file in the order in which they are written. -/
def fileEntries (importPath : String) (summarize : String → String) (f : SourceFile) : List Entry :=
  match f.tree with
  | none => []
  | some root =>
    let source := f.source.toList
    (walk ⟨importPath, summarize, source, .ofSource source root⟩ false State.initial root).2

end DocHarvest.Harvest
