import DocHarvest.Syntax.Span
import DocHarvest.Text.Basic

/-!
# Syntax trees

A Go file as an ordered tree. Its leaves are the tokens and the comments in source order, its inner
nodes are the constructs that documentation is about: declarations, specs, struct fields, interface
methods and what encloses them. Expressions and statements are kept only as the places where
further declarations can be nested.
-/

namespace DocHarvest.Syntax

/-- What a node of a syntax tree is. -/
inductive Kind where
  | sourceFile
  | packageClause
  | importDeclaration
  | importSpec
  | constDeclaration
  | constSpec
  | varDeclaration
  | varSpec
  | typeDeclaration
  | typeSpec
  | typeAlias
  | functionDeclaration
  | methodDeclaration
  | parameterList
  | structType
  | interfaceType
  | fieldDeclaration
  | methodElem
  | statement
  | block
  /-- A comment, which is a leaf. -/
  | comment
  /-- A token that the grammar asks for and the text does not have. -/
  | missing
  /-- An identifier. -/
  | identifier
  /-- A number, rune or string. -/
  | literal
  /-- A keyword, operator or bracket other than the two that follow. -/
  | symbol
  | openParen
  | semicolon
deriving DecidableEq, Repr, Inhabited

/-- Whether nodes of a kind are tokens of the text. -/
def Kind.isToken : Kind → Bool
  | .identifier | .literal | .symbol | .openParen | .semicolon => true
  | _ => false

/-- The part a node plays in its parent. -/
inductive Role where
  /-- A name that the parent binds, or the local name of an import. -/
  | name
  /-- The path of an import. -/
  | path
  /-- The receiver of a method. -/
  | receiver
deriving DecidableEq, Repr

/-- A node with its kind, its part in its parent, its place and its children in source order. -/
inductive Node where
  | mk (kind : Kind) (role : Option Role) (span : Span) (children : List Node)
deriving Repr, Inhabited

namespace Node

/-- What the node is. -/
def kind : Node → Kind
  | mk k _ _ _ => k

/-- The part the node plays in its parent, if it plays one. -/
def role : Node → Option Role
  | mk _ r _ _ => r

/-- The place of the node in its source text. -/
def span : Node → Span
  | mk _ _ s _ => s

/-- The children in source order. -/
def children : Node → List Node
  | mk _ _ _ cs => cs

/-- The source text of a node. -/
def text (source : List Char) (n : Node) : String :=
  String.ofList (n.span.text source)

/-- The children that play a given part. -/
def childrenAs (role : Role) (n : Node) : List Node :=
  n.children.filter fun c => c.role = some role

/-- The first child that plays a given part. -/
def childAs? (role : Role) (n : Node) : Option Node :=
  n.children.find? fun c => c.role = some role

/-- Whether a node is a token of its source text: a leaf, neither a comment nor missing, whose text
is more than white space. The line break that ends a statement is none. -/
def isWritten (source : List Char) (n : Node) : Bool :=
  n.children.isEmpty && n.kind ≠ .comment && n.kind ≠ .missing &&
    !(Text.trim (n.span.text source)).isEmpty

/-- The texts of the names that a node binds. -/
def names (source : List Char) (n : Node) : List String :=
  (n.childrenAs .name).map (·.text source)

/-- Whether the node is a parenthesised group. -/
def isGroup (n : Node) : Bool :=
  n.children.any fun c => c.kind = .openParen

mutual

/-- The node and all its descendants, parents before children and in source order. -/
def preorder : Node → List Node
  | mk k r s cs => mk k r s cs :: preorderAll cs

/-- The nodes of a list of trees, one tree after the other. -/
def preorderAll : List Node → List Node
  | [] => []
  | n :: ns => preorder n ++ preorderAll ns

end

mutual

/-- The comments of a tree and its nodes without children, in source order. -/
def leaves : Node → List Node
  | mk .comment r s cs => [mk .comment r s cs]
  | mk k r s [] => [mk k r s []]
  | mk _ _ _ (c :: cs) => leavesAll (c :: cs)

/-- The leaves of a list of trees, one tree after the other. -/
def leavesAll : List Node → List Node
  | [] => []
  | n :: ns => leaves n ++ leavesAll ns

end

end Node

end DocHarvest.Syntax
