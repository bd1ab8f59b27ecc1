import DocHarvest.Syntax.Lexeme
import DocHarvest.Syntax.Node

/-!
# Reading lexemes

The steps from which the grammar is put together. A `Parser` reads from the front of a list of
lexemes and returns a forest: the nodes it has recognised, with the comments that stand before and
between them.

Whether a line break counts is asked each time the parser looks ahead. Where a construct may end,
the grammar looks ahead with `breaks := true` if a statement may end there too; everywhere else line
breaks are passed over like comments.
-/

namespace DocHarvest.Syntax

/-- Nodes in source order. -/
abbrev Forest := List Node

/-- A step that reads lexemes from the front of a list, or fails. -/
abbrev Parser := StateT (List Lexeme) Option

namespace Lexeme

/-- Whether a lexeme is a given keyword, operator or bracket. -/
def isSymbol (l : Lexeme) (s : String) : Bool :=
  (l.kind = .symbol || l.kind = .keyword) && l.text = s.toList

/-- Whether a lexeme is one of the given keywords, operators or brackets. -/
def isAnyOf (l : Lexeme) (ss : List String) : Bool :=
  ss.any l.isSymbol

/-- Whether a lexeme is a number, rune or string. -/
def isLiteral (l : Lexeme) : Bool :=
  l.kind = .string || l.kind = .number || l.kind = .rune

/-- Whether a lexeme takes part in the grammar; a line break does only when `breaks` says so. -/
def isSignificant (breaks : Bool) (l : Lexeme) : Bool :=
  l.kind != .comment && (breaks || l.kind != .lineBreak)

/-- The kind of the leaf that a lexeme becomes. -/
def leafKind (l : Lexeme) : Kind :=
  match l.kind with
  | .comment => .comment
  | .identifier => .identifier
  | .string | .number | .rune => .literal
  | _ => if l.text = ['('] then .openParen else if l.text = [';'] then .semicolon else .symbol

/-- The leaf that a lexeme becomes, and the part it plays in its parent. -/
def leaf (role : Option Role) (l : Lexeme) : Node :=
  .mk l.leafKind role l.span []

end Lexeme

namespace Parser

/-- The next lexeme that takes part in the grammar. -/
def next? (breaks : Bool) : Parser (Option Lexeme) :=
  fun ls => some (ls.find? (·.isSignificant breaks), ls)

/-- Whether the next lexeme satisfies a condition. -/
def sees (breaks : Bool) (p : Lexeme → Bool) : Parser Bool := do
  return (← next? breaks).any p

/-- Whether the next lexeme is a given keyword, operator or bracket. -/
def seesSymbol (breaks : Bool) (s : String) : Parser Bool :=
  sees breaks (·.isSymbol s)

/-- Whether the next lexeme is one of the given keywords, operators or brackets. -/
def seesAnyOf (breaks : Bool) (ss : List String) : Parser Bool :=
  sees breaks (·.isAnyOf ss)

/-- The next token and the lexeme right after it, where line breaks count. -/
def nextPair : Parser (Option Lexeme × Option Lexeme) :=
  fun ls =>
    let rest := ls.dropWhile fun l => !l.isSignificant false
    some ((rest.head?, (rest.drop 1).find? (·.isSignificant true)), ls)

/-- The tokens at the front of a list of lexemes, `n` of them at most. -/
def tokensAhead : (n : Nat) → List Lexeme → List Lexeme
  | _, [] => []
  | 0, _ => []
  | n + 1, l :: ls =>
    if l.isSignificant false then l :: tokensAhead n ls else tokensAhead (n + 1) ls

/-- Whether the next tokens are the given keywords, operators or brackets; an empty string stands
for any token. -/
def seesSequence (ss : List String) : Parser Bool :=
  fun ls =>
    let tokens := tokensAhead ss.length ls
    some (tokens.length = ss.length && (tokens.zip ss).all fun p => p.2.isEmpty || p.1.isSymbol p.2,
      ls)

/-- Reads the comments and line breaks up to the next token and keeps the comments. -/
def comments : Parser Forest :=
  fun ls =>
    let skipped := ls.takeWhile fun l => !l.isSignificant false
    some ((skipped.filter (·.kind = .comment)).map (·.leaf none), ls.drop skipped.length)

/-- Reads one token that satisfies a condition, and the comments before it. -/
def token (p : Lexeme → Bool) (role : Option Role) : Parser Forest := do
  let before ← comments
  match ← get with
  | [] => failure
  | l :: ls =>
    if p l then
      set ls
      return before ++ [l.leaf role]
    else failure

/-- Reads a given keyword, operator or bracket. -/
def symbol (s : String) : Parser Forest :=
  token (·.isSymbol s) none

/-- Reads one of the given keywords, operators or brackets. -/
def anyOf (ss : List String) : Parser Forest :=
  token (·.isAnyOf ss) none

/-- Reads an identifier. -/
def identifier (role : Option Role) : Parser Forest :=
  token (·.kind = .identifier) role

/-- Reads a string. -/
def string (role : Option Role) : Parser Forest :=
  token (·.kind = .string) role

/-- Reads the end of a statement: a semicolon, a null character, a line break or the end of the
text. The line break is left where it is, for it is white space to what follows. -/
def terminator : Parser Forest := do
  match ← next? true with
  | none => return []
  | some l =>
    if l.kind = .lineBreak then return []
    else anyOf [";", "\x00"]

/-- Groups what a step reads under one node, which spans from its first to its last leaf. Comments
before the first token stay outside. -/
def group (role : Option Role) (step : Parser (Kind × Forest)) : Parser Forest := do
  let before ← comments
  let (kind, children) ← step
  match children.head?, children.getLast? with
  | some first, some last =>
    return before ++ [.mk kind role (first.span.through last.span) children]
  | _, _ => return before

/-- Groups what a step reads under one node of a given kind. -/
def node (kind : Kind) (step : Parser Forest) : Parser Forest :=
  group none do return (kind, ← step)

/-- Runs a step if a condition holds. -/
def onlyIf (condition : Bool) (step : Parser Forest) : Parser Forest :=
  if condition then step else return []

end Parser

end DocHarvest.Syntax
