import DocHarvest.Package.Basic
import DocHarvest.Package.Exported
import DocHarvest.Doc.Link

/-!
# The documentation view of a package

What doc comments of a package can refer to: the exported names that it declares at the top of its
files, the packages that its files import, and the package itself.
-/

namespace DocHarvest.Doc

open DocHarvest.Syntax DocHarvest.Text

/-- The names that doc links of a package can refer to. -/
structure View where
  name : String
  importPath : String
  /-- Exported names, and methods as `Type.Method`. -/
  symbols : List String
  /-- The local names of imported packages. -/
  imports : List String

/-- Two files of a package disagree about its name. -/
structure Mismatch where
  file : String
  found : String
  expected : String
deriving DecidableEq, Repr

/-- The disagreement in words. -/
def Mismatch.message (m : Mismatch) : String :=
  m.file ++ ": package " ++ m.found ++ "; expected package " ++ m.expected

namespace View

/-- The view of a package that declares and imports nothing. -/
def empty (name importPath : String) : View :=
  ⟨name, importPath, [], []⟩

/-- Whether a name, or a method as `Type.Method`, is declared by the package. -/
def hasSymbol (v : View) (name : String) : Bool :=
  v.symbols.contains name

end View

/-! ## What a file declares -/

/-- The path of an import without its quotes. -/
def unquotedPath (cs : List Char) : List Char :=
  trimWhere (fun c => c == '"' || c.toNat == 0x60) cs

/-- The local name of an import: the one that is given, or the last element of its path. Imports for
their effect and imports into the file itself have none. -/
def importName? (source : List Char) (spec : Node) : Option String :=
  match spec.childAs? .path with
  | none => none
  | some path =>
    let name := match spec.childAs? .name with
      | some localName => localName.text source
      | none => String.ofList ((split '/' (unquotedPath (path.span.text source))).getLastD [])
    if name = "_" ∨ name = "." then none else some name

/-- The base type of a receiver such as `(r *T[K])`, as far as its text shows it: the last word
before a bracket, without parentheses and stars. -/
def receiverBase (receiver : List Char) : List Char :=
  let inner := trimWhere (fun c => c == '(' || c == ')') receiver
  ((words (before ['['] inner)).getLastD []).dropWhile (· == '*')

/-- The symbol of a method, if both its type and its name are exported. -/
def methodSymbol? (source : List Char) (method : Node) : Option String := do
  let name ← method.childAs? .name
  let receiver ← method.childAs? .receiver
  let base := String.ofList (receiverBase (receiver.span.text source))
  let name := name.text source
  if isExported base && isExported name then some (base ++ "." ++ name) else none

/-- Whether a node is a spec that binds names for the package. -/
def isSpec (n : Node) : Bool :=
  n.kind = .typeSpec || n.kind = .typeAlias || n.kind = .constSpec || n.kind = .varSpec

/-- The symbols that a top-level node declares. -/
def symbolsOf (source : List Char) (n : Node) : List String :=
  match n.kind with
  | .functionDeclaration => ((n.names source).take 1).filter isExported
  | .methodDeclaration => (methodSymbol? source n).toList
  | .typeDeclaration | .constDeclaration | .varDeclaration =>
    ((n.children.filter isSpec).flatMap (·.names source)).filter isExported
  | _ => []

/-- The local names that a top-level node imports. -/
def importsOf (source : List Char) (n : Node) : List String :=
  if n.kind = .importDeclaration then
    (n.preorder.filter (·.kind = .importSpec)).filterMap (importName? source)
  else []

namespace View

/-- The view with what one more file declares and imports. -/
def addFile (v : View) (f : SourceFile) : View :=
  { v with
    symbols := v.symbols ++ f.topLevel.flatMap (symbolsOf f.source.toList)
    imports := v.imports ++ f.topLevel.flatMap (importsOf f.source.toList) }

/-- The view with some more files, which have to agree about the name of the package. -/
def addFiles (v : View) : List SourceFile → Except Mismatch View
  | [] => .ok v
  | f :: fs =>
    match f.packageName? with
    | none => v.addFiles fs
    | some name =>
      if endsWith "_test".toList name.toList then v.addFiles fs
      else if v.name.isEmpty then ({ v with name := name }.addFile f).addFiles fs
      else if v.name ≠ name then .error ⟨f.path, name, v.name⟩
      else (v.addFile f).addFiles fs

/-- The documentation view of a package, or the first disagreement about its name. -/
def ofPackage (p : Package) : Except Mismatch View :=
  (empty p.name p.importPath).addFiles p.files

end View

end DocHarvest.Doc
