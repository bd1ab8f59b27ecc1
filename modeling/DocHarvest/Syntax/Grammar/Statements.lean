import DocHarvest.Syntax.Grammar.Declarations

/-!
# Statements

Blocks, simple statements and control flow. A declaration inside a block is the same node as at the
top of a file; every other statement is a `statement` node around its tokens.
-/

namespace DocHarvest.Syntax.Grammar

open DocHarvest.Syntax.Parser

/-- The operators of an assignment. -/
def assignmentOperators : List String :=
  [":=", "=", "*=", "/=", "%=", "<<=", ">>=", "&=", "&^=", "+=", "-=", "|=", "^="]

/-- Whether a lexeme ends a list of statements. -/
def endsStatements (l : Lexeme) : Bool :=
  l.isAnyOf ["\x7d", "case", "default"]

/-- Statements up to a closing brace or the next clause. -/
def statements (self : Reader) : Parser Forest := do
  if ← sees false endsStatements then return []
  else
    let first ← self .statement
    if ← sees true endsStatements then return first
    else
      let stop ← terminator
      return first ++ stop ++ (← self .statements)

/-- A block, as a node. -/
def block (self : Reader) : Parser Forest :=
  node .block do
    let left ← symbol "\x7b"
    let inner ← self .statements
    return left ++ inner ++ (← symbol "\x7d")

/-! ## Simple statements -/

/-- What can follow the expressions on the left of a simple statement; after several of them only an
assignment can. -/
def simpleTail (self : Reader) (breaks braces : Bool) : Parser Forest := do
  let several ← seesSymbol breaks ","
  let more ← if several then do
      let comma ← symbol ","
      pure (comma ++ (← self (.expressions breaks braces)))
    else pure []
  if ← seesAnyOf breaks assignmentOperators then
    let operator ← anyOf assignmentOperators
    return more ++ operator ++ (← self (.expressions breaks braces))
  else if several then failure
  else if ← seesAnyOf breaks ["++", "--"] then anyOf ["++", "--"]
  else if ← seesSymbol breaks "<-" then
    let arrow ← symbol "<-"
    return arrow ++ (← self (.expression breaks braces))
  else return []

/-- A simple statement. -/
def simple (self : Reader) (breaks braces : Bool) : Parser Forest := do
  let first ← self (.expression breaks braces)
  return first ++ (← self (.simpleTail breaks braces))

/-! ## Control flow -/

/-- An if statement from its keyword on. -/
def ifStatement (self : Reader) : Parser Forest := do
  let head ← symbol "if"
  let first ← self (.expression false false)
  let header ← if ← seesSymbol false "\x7b" then pure first
    else do
      let tail ← self (.simpleTail false false)
      let stop ← symbol ";"
      pure (first ++ tail ++ stop ++ (← self (.expression false false)))
  let positive ← self .block
  if ← seesSymbol true "else" then
    let word ← symbol "else"
    let negative ← if ← seesSymbol false "if" then self .ifStatement else self .block
    return head ++ header ++ positive ++ word ++ negative
  else return head ++ header ++ positive

/-- The condition and the update of a loop, from the semicolon after its initial statement. -/
def loopClause (self : Reader) : Parser Forest := do
  let first ← symbol ";"
  let condition ← onlyIf (!(← seesSymbol false ";")) (self (.expression false false))
  let second ← symbol ";"
  let update ← onlyIf (!(← seesSymbol false "\x7b")) (simple self false false)
  return first ++ condition ++ second ++ update

/-- The expression that a loop ranges over, from its keyword on. -/
def rangeClause (self : Reader) : Parser Forest := do
  let word ← symbol "range"
  return word ++ (← self (.expression false false))

/-- The header of a loop whose first lexeme starts an expression. -/
def loopHeader (self : Reader) : Parser Forest := do
  let first ← self (.expression false false)
  if ← seesSymbol false "\x7b" then return first
  else if ← seesSymbol false ";" then return first ++ (← loopClause self)
  else
    let ranging : Parser Forest := do
      let more ← if ← seesSymbol false "," then do
          let comma ← symbol ","
          pure (comma ++ (← self (.expressions false false)))
        else pure []
      let assign ← anyOf [":=", "="]
      return more ++ assign ++ (← rangeClause self)
    let counting : Parser Forest := do
      let tail ← self (.simpleTail false false)
      return tail ++ (← loopClause self)
    return first ++ (← ranging <|> counting)

/-- A loop. -/
def forStatement (self : Reader) : Parser Forest := do
  let head ← symbol "for"
  let header ← if ← seesSymbol false "\x7b" then pure []
    else if ← seesSymbol false "range" then rangeClause self
    else if ← seesSymbol false ";" then loopClause self
    else loopHeader self
  return head ++ header ++ (← self .block)

/-- The guard that makes a switch one over types, if it is there. -/
def typeGuard : Parser Forest := do
  if ← seesSequence [".", "(", "type"] then
    let dot ← symbol "."
    let left ← symbol "("
    let word ← symbol "type"
    return dot ++ left ++ word ++ (← symbol ")")
  else return []

/-- What a switch chooses by, with the kind of its clauses; nothing else stands before its brace. -/
def switchSubject (self : Reader) : Parser (Forest × Clause) := do
  if ← seesSymbol false "\x7b" then return ([], .expressions)
  else
    let first ← self (.expression false false)
    let bound ← if ← seesSymbol false ":=" then do
        let assign ← symbol ":="
        pure (assign ++ (← self (.expression false false)))
      else pure []
    let guard ← typeGuard
    if guard.isEmpty && !bound.isEmpty then failure
    else return (first ++ bound ++ guard, if guard.isEmpty then .expressions else .types)

/-- The header of a switch: perhaps an initial statement and a semicolon, then the subject. -/
def switchHeader (self : Reader) : Parser (Forest × Clause) := do
  let subject : Parser (Forest × Clause) := do
    let found ← switchSubject self
    if ← seesSymbol false "\x7b" then return found else failure
  let withInitial : Parser (Forest × Clause) := do
    let initial ← simple self false false
    let stop ← symbol ";"
    let (rest, of) ← switchSubject self
    return (initial ++ stop ++ rest, of)
  subject <|> withInitial

/-- What stands between the keyword of a clause and its colon. -/
def clauseSubject (self : Reader) : Clause → Parser Forest
  | .expressions => self (.expressions false true)
  | .types => self .types
  | .communication => simple self false true

/-- The clauses of a branching statement up to its closing brace. -/
def clauses (self : Reader) (of : Clause) : Parser Forest := do
  if ← seesSymbol false "\x7d" then return []
  else
    let head ← if ← seesSymbol false "default" then symbol "default"
      else do
        let word ← symbol "case"
        pure (word ++ (← clauseSubject self of))
    let colon ← symbol ":"
    let inner ← self .statements
    return head ++ colon ++ inner ++ (← self (.clauses of))

/-- A switch over values or types. -/
def switchStatement (self : Reader) : Parser Forest := do
  let head ← symbol "switch"
  let (header, of) ← switchHeader self
  let left ← symbol "\x7b"
  let inner ← self (.clauses of)
  return head ++ header ++ left ++ inner ++ (← symbol "\x7d")

/-- A choice between communications. -/
def selectStatement (self : Reader) : Parser Forest := do
  let head ← symbol "select"
  let left ← symbol "\x7b"
  let inner ← self (.clauses .communication)
  return head ++ left ++ inner ++ (← symbol "\x7d")

/-- A label and the statement that it names, which may be missing at the end of a block. -/
def labelled (self : Reader) : Parser Forest := do
  let name ← identifier none
  let colon ← symbol ":"
  if ← sees false endsStatements then return name ++ colon
  else return name ++ colon ++ (← self .statement)

/-! ## All statements -/

/-- A statement that is no declaration, given its first lexeme. -/
def plainStatement (self : Reader) (l : Lexeme) : Parser Forest := do
  if l.isSymbol "\x7b" then self .block
  else if l.isSymbol ";" then symbol ";"
  else if l.isSymbol "return" then
    let word ← symbol "return"
    let ends (t : Lexeme) : Bool := t.kind = .lineBreak || t.isSymbol ";" || endsStatements t
    let bare := (← next? true).all ends
    return word ++ (← onlyIf (!bare) (self (.expressions true true)))
  else if l.isAnyOf ["go", "defer"] then
    let word ← anyOf ["go", "defer"]
    return word ++ (← self (.expression true true))
  else if l.isSymbol "if" then self .ifStatement
  else if l.isSymbol "for" then forStatement self
  else if l.isSymbol "switch" then switchStatement self
  else if l.isSymbol "select" then selectStatement self
  else if l.isSymbol "fallthrough" then symbol "fallthrough"
  else if l.isAnyOf ["break", "continue"] then
    let word ← anyOf ["break", "continue"]
    return word ++ (← onlyIf (← sees true (·.kind = .identifier)) (identifier none))
  else if l.isSymbol "goto" then
    let word ← symbol "goto"
    return word ++ (← identifier none)
  else if l.kind = .identifier && (← seesSequence ["", ":"]) then labelled self
  else simple self true true

/-- Any statement. -/
def statement (self : Reader) : Parser Forest := do
  match ← next? false with
  | none => failure
  | some l =>
    if l.isSymbol "const" then constDeclaration self
    else if l.isSymbol "var" then varDeclaration self
    else if l.isSymbol "type" then typeDeclaration self
    else node .statement (plainStatement self l)

/-! ## The top of a file -/

/-- A package clause, as a node. -/
def packageClause : Parser Forest :=
  node .packageClause do
    let word ← symbol "package"
    return word ++ (← identifier none)

/-- One declaration or statement at the top of a file. -/
def topLevelItem (self : Reader) : Parser Forest := do
  match ← next? false with
  | none => failure
  | some l =>
    if l.isSymbol "package" then packageClause
    else if l.isSymbol "import" then importDeclaration self
    else if l.isSymbol "func" then
      functionDeclaration self <|> methodDeclaration self <|> self .statement
    else self .statement

/-- The declarations and statements of a file, and the comments after the last of them. A semicolon
that ends nothing is an item of its own, and unless it is the first one it needs no end. -/
def topLevel (self : Reader) (first : Bool) : Parser Forest := do
  if (← next? false).isNone then comments
  else
    let bare ← seesSymbol false ";"
    let item ← topLevelItem self
    let stop ← if bare && !first && !(← seesSymbol true ";") then pure [] else terminator
    return item ++ stop ++ (← self (.topLevel false))

end DocHarvest.Syntax.Grammar
