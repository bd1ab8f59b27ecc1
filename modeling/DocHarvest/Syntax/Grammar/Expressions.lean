import DocHarvest.Syntax.Grammar.Types

/-!
# Expressions

Operands, their suffixes and the operators between them. Precedence plays no part: an expression
leaves its tokens in place, and what it can nest (struct types, function bodies) is read by the
goals of those constructs.
-/

namespace DocHarvest.Syntax.Grammar

open DocHarvest.Syntax.Parser

/-- The operators that can precede an operand. -/
def unaryOperators : List String :=
  ["+", "-", "!", "^", "*", "&", "<-"]

/-- The operators that can stand between two operands. -/
def binaryOperators : List String :=
  ["*", "/", "%", "<<", ">>", "&", "&^", "+", "-", "|", "^", "==", "!=", "<", "<=", ">", ">=",
   "&&", "||"]

/-- Expressions with commas between them. -/
def expressions (self : Reader) (breaks braces : Bool) : Parser Forest := do
  let first ← self (.expression breaks braces)
  if ← seesSymbol breaks "," then
    let comma ← symbol ","
    return first ++ comma ++ (← self (.expressions breaks braces))
  else return first

/-! ## Composite literals -/

/-- The braces of a composite literal and what is between them. -/
def literalValue (self : Reader) : Parser Forest := do
  let left ← symbol "\x7b"
  let members ← if ← seesSymbol false "\x7d" then pure []
    else if ← seesSymbol false "," then symbol ","
    else self .elements
  return left ++ members ++ (← symbol "\x7d")

/-- An element, or the key or the value of one: an expression or a literal without its type. -/
def element (self : Reader) : Parser Forest := do
  if ← seesSymbol false "\x7b" then literalValue self
  else self (.expression false true)

/-- Elements, with or without keys, with commas between them and perhaps after the last. -/
def elements (self : Reader) : Parser Forest := do
  let key ← self .element
  let value ← if ← seesSymbol false ":" then do
      let colon ← symbol ":"
      pure (colon ++ (← self .element))
    else pure []
  if ← seesSymbol false "," then
    let comma ← symbol ","
    if ← seesSymbol false "\x7d" then return key ++ value ++ comma
    else return key ++ value ++ comma ++ (← self .elements)
  else return key ++ value

/-! ## Suffixes -/

/-- The arguments of a call from one of them on. -/
def arguments (self : Reader) : Parser Forest := do
  let first ← self (.expression false true)
  let dots ← onlyIf (← seesSymbol false "...") (symbol "...")
  if ← seesSymbol false "," then
    let comma ← symbol ","
    if ← seesSymbol false ")" then return first ++ dots ++ comma
    else return first ++ dots ++ comma ++ (← self .arguments)
  else return first ++ dots

/-- The parentheses of a call and the arguments between them. -/
def argumentList (self : Reader) : Parser Forest := do
  let left ← symbol "("
  let args ← onlyIf (!(← seesSymbol false ")")) (self .arguments)
  return left ++ args ++ (← symbol ")")

/-- The parentheses of a call whose first argument is a type. -/
def typeFirstArgumentList (self : Reader) : Parser Forest := do
  let left ← symbol "("
  let first ← self (.type false)
  let more ← if ← seesSymbol false "," then do
      let comma ← symbol ","
      pure (comma ++ (← onlyIf (!(← seesSymbol false ")")) (self .arguments)))
    else pure []
  return left ++ first ++ more ++ (← symbol ")")

/-- The one operand of a conversion, in parentheses. -/
def conversionOperand (self : Reader) : Parser Forest := do
  let left ← symbol "("
  let inner ← self (.expression false true)
  let comma ← onlyIf (← seesSymbol false ",") (symbol ",")
  return left ++ inner ++ comma ++ (← symbol ")")

/-- What follows the first colon of a slice expression. -/
def sliceBounds (self : Reader) : Parser Forest := do
  let colon ← symbol ":"
  let high ← onlyIf (!(← seesSymbol false "]")) (self (.expression false true))
  let capacity ← if !high.isEmpty && (← seesSymbol false ":") then do
      let second ← symbol ":"
      pure (second ++ (← self (.expression false true)))
    else pure []
  return colon ++ high ++ capacity

/-- An index or the bounds of a slice, in brackets. -/
def indexOrSlice (self : Reader) : Parser Forest := do
  let left ← symbol "["
  let low ← onlyIf (!(← seesSymbol false ":")) (self (.expression false true))
  let bounds ← onlyIf (← seesSymbol false ":") (sliceBounds self)
  return left ++ low ++ bounds ++ (← symbol "]")

/-- A member or a type assertion after a dot. -/
def member (self : Reader) : Parser (Forest × Bool) := do
  let dot ← symbol "."
  if ← seesSymbol false "(" then
    let left ← symbol "("
    let asserted ← self (.type false)
    return (dot ++ left ++ asserted ++ (← symbol ")"), false)
  else return (dot ++ (← identifier none), true)

/-- The suffixes of an operand. The guard of a type switch is left to the switch. -/
def suffixes (self : Reader) (operand : Operand) (breaks braces : Bool) : Parser Forest := do
  match ← next? breaks with
  | none => return []
  | some l =>
    if l.isSymbol "." then
      if ← seesSequence [".", "(", "type"] then return []
      else
        let (first, named) ← member self
        let after := if named && operand = .name then .typeName else .value
        return first ++ (← self (.suffixes after breaks braces))
    else if l.isSymbol "(" then
      let first ← if operand = .maker then argumentList self <|> typeFirstArgumentList self
        else argumentList self
      return first ++ (← self (.suffixes .value breaks braces))
    else if l.isSymbol "[" then
      let first ← indexOrSlice self <|> typeArguments self
      let after := if operand = .value then .value else .typeName
      return first ++ (← self (.suffixes after breaks braces))
    else if l.isSymbol "\x7b" && braces && operand ≠ .value then
      let first ← literalValue self
      return first ++ (← self (.suffixes .value breaks braces))
    else return []

/-! ## Operands -/

/-- A type in an expression: it is there to be converted to or, if `composes`, to be filled. -/
def typeOperand (self : Reader) (composes : Bool) (type : Parser Forest) : Parser Forest := do
  let head ← type
  if composes && (← seesSymbol false "\x7b") then return head ++ (← literalValue self)
  else return head ++ (← conversionOperand self)

/-- A function literal, or a conversion to a function type. -/
def functionOperand (self : Reader) : Parser Forest := do
  let head ← symbol "func"
  let sig ← signature self false
  if ← seesSymbol false "\x7b" then return head ++ sig ++ (← self .block)
  else return head ++ sig ++ (← conversionOperand self)

/-- An expression in parentheses, or a conversion to a type in parentheses. -/
def parenthesized (self : Reader) : Parser Forest := do
  let inside (inner : Parser Forest) : Parser Forest := do
    let left ← symbol "("
    let body ← inner
    return left ++ body ++ (← symbol ")")
  inside (self (.expression false true)) <|> typeOperand self false (inside (self (.type false)))

/-- What an operand may still take after its first token. -/
def operandOf (l : Lexeme) : Operand :=
  if l.kind ≠ .identifier then .value
  else if l.text = "new".toList ∨ l.text = "make".toList then .maker
  else .name

/-- A slice or array in an expression. An array whose length is left open has to be filled. -/
def bracketOperand (self : Reader) : Parser Forest := do
  if ← seesSequence ["[", "..."] then
    let type ← bracketType self true false
    return type ++ (← literalValue self)
  else typeOperand self true (bracketType self false false)

/-- An operand without suffixes, up to and including what a type needs to be one. -/
def operand (self : Reader) (l : Lexeme) : Parser Forest :=
  if l.kind = .identifier || l.isLiteral then
    token (fun t => t.kind = .identifier || t.isLiteral) none
  else if l.isSymbol "(" then parenthesized self
  else if l.isSymbol "func" then functionOperand self
  else if l.isSymbol "[" then bracketOperand self
  else if l.isSymbol "map" then typeOperand self true (mapType self false)
  else if l.isSymbol "struct" then typeOperand self true (structType self)
  else if l.isSymbol "interface" then typeOperand self false (interfaceType self)
  else if l.isSymbol "chan" then typeOperand self false (channelType self false)
  else failure

/-- Any expression. -/
def expression (self : Reader) (breaks braces : Bool) : Parser Forest := do
  match ← next? false with
  | none => failure
  | some l =>
    if l.isAnyOf unaryOperators then
      return (← anyOf unaryOperators) ++ (← self (.expression breaks braces))
    else
      let head ← operand self l
      let tail ← self (.suffixes (operandOf l) breaks braces)
      if ← seesAnyOf breaks binaryOperators then
        let operator ← anyOf binaryOperators
        return head ++ tail ++ operator ++ (← self (.expression breaks braces))
      else return head ++ tail

end DocHarvest.Syntax.Grammar
