import DocHarvest.Syntax.Grammar.Goal

/-!
# Types

Type expressions, signatures, struct fields and interface elements. Only struct types, interface
types, fields, methods and parameter lists become nodes; other types leave their tokens in place.
-/

namespace DocHarvest.Syntax.Grammar

open DocHarvest.Syntax.Parser

/-- Whether a type can start with a lexeme. -/
def startsType (l : Lexeme) : Bool :=
  l.kind = .identifier ||
    l.isAnyOf ["*", "(", "[", "struct", "interface", "map", "chan", "<-", "func", "~"]

/-- Type arguments in brackets. -/
def typeArguments (self : Reader) : Parser Forest := do
  let left ← symbol "["
  let args ← self .typeElems
  let right ← symbol "]"
  return left ++ args ++ right

/-- Type arguments with commas between them and perhaps after the last. -/
def typeElems (self : Reader) : Parser Forest := do
  let first ← self (.typeElem false)
  if ← seesSymbol false "," then
    let comma ← symbol ","
    if ← seesSymbol false "]" then return first ++ comma
    else return first ++ comma ++ (← self .typeElems)
  else return first

/-- Types with bars between them. -/
def typeElem (self : Reader) (breaks : Bool) : Parser Forest := do
  let first ← self (.type breaks)
  if ← seesSymbol breaks "|" then
    let bar ← symbol "|"
    return first ++ bar ++ (← self (.typeElem breaks))
  else return first

/-- Types with commas between them. -/
def types (self : Reader) : Parser Forest := do
  let first ← self (.type false)
  if ← seesSymbol false "," then
    let comma ← symbol ","
    return first ++ comma ++ (← self .types)
  else return first

/-- A type name, perhaps with a package before it and type arguments after it. -/
def namedType (self : Reader) (breaks : Bool) : Parser Forest := do
  let name ← identifier none
  let member ← if ← seesSymbol breaks "." then do
      let dot ← symbol "."
      pure (dot ++ (← identifier none))
    else pure []
  let args ← onlyIf (← seesSymbol breaks "[") (typeArguments self)
  return name ++ member ++ args

/-- A slice, an array, or, where `mayOpen` allows it, an array whose length is left open. -/
def bracketType (self : Reader) (mayOpen breaks : Bool) : Parser Forest := do
  let left ← symbol "["
  let length ← if ← seesSymbol false "]" then pure []
    else if mayOpen && (← seesSymbol false "...") then symbol "..."
    else self (.expression false true)
  let right ← symbol "]"
  return left ++ length ++ right ++ (← self (.type breaks))

/-- A parameter list in parentheses, as a node. -/
def parameterList (self : Reader) (role : Option Role) : Parser Forest :=
  group role do
    let left ← symbol "("
    let params ← if ← seesSymbol false ")" then pure []
      else if ← seesSymbol false "," then symbol ","
      else self .parameters
    let right ← symbol ")"
    return (.parameterList, left ++ params ++ right)

/-- One parameter: a type, a name and a type, or the dots of a variadic one before its type. -/
def parameter (self : Reader) : Parser Forest := do
  if ← seesSymbol false "..." then
    return (← symbol "...") ++ (← self (.type false))
  else if ← sees false (·.kind = .identifier) then
    let named : Parser Forest := do
      let name ← identifier none
      let dots ← onlyIf (← seesSymbol false "...") (symbol "...")
      return name ++ dots ++ (← self (.type false))
    named <|> self (.type false)
  else self (.type false)

/-- Parameters with commas between them and perhaps after the last. -/
def parameters (self : Reader) : Parser Forest := do
  let first ← parameter self
  if ← seesSymbol false "," then
    let comma ← symbol ","
    if ← seesSymbol false ")" then return first ++ comma
    else return first ++ comma ++ (← self .parameters)
  else return first

/-- The parameters and the result of a function. -/
def signature (self : Reader) (breaks : Bool) : Parser Forest := do
  let params ← parameterList self none
  let result ← if ← seesSymbol breaks "(" then parameterList self none
    else onlyIf (← sees breaks startsType) (self (.type breaks))
  return params ++ result

/-- Type parameters in brackets: names with commas between them, each group before its
constraint. -/
def typeParameterList (self : Reader) : Parser Forest := do
  let left ← symbol "["
  let params ← self .typeParameters
  let right ← symbol "]"
  return left ++ params ++ right

/-- The type parameters of a list from one of its names on. -/
def typeParameters (self : Reader) : Parser Forest := do
  let name ← identifier none
  if ← seesSymbol false "," then
    return name ++ (← symbol ",") ++ (← self .typeParameters)
  else
    let constraint ← self (.typeElem false)
    if ← seesSymbol false "," then
      let comma ← symbol ","
      if ← seesSymbol false "]" then return name ++ constraint ++ comma
      else return name ++ constraint ++ comma ++ (← self .typeParameters)
    else return name ++ constraint

/-! ## Structs -/

/-- Field names with commas between them. -/
def fieldNames (self : Reader) : Parser Forest := do
  let name ← identifier (some .name)
  if ← seesSymbol false "," then
    return name ++ (← symbol ",") ++ (← self .fieldNames)
  else return name

/-- A field that embeds a type. -/
def embeddedField (self : Reader) : Parser Forest := do
  let star ← onlyIf (← seesSymbol false "*") (symbol "*")
  return star ++ (← namedType self true)

/-- Whether a lexeme can follow the whole contents of a field. -/
def endsField (l : Lexeme) : Bool :=
  l.kind = .lineBreak || l.kind = .string || l.isAnyOf [";", "\x7d"]

/-- A field: names and their type, or an embedded type; then perhaps a tag. A name before a bracket
is an embedded type if its type arguments end the field, as in `A[T]`, and else the name of a field
whose type starts with the bracket, as in `A [n]T`. -/
def field (self : Reader) : Parser Forest :=
  node .fieldDeclaration do
    let named : Parser Forest := do
      let names ← self .fieldNames
      return names ++ (← self (.type true))
    let instantiated : Parser Forest := do
      let contents ← embeddedField self
      if (← next? true).all endsField then return contents else failure
    let (first, second) ← nextPair
    let embeds := first.any (·.isSymbol "*") || second.all fun l => endsField l || l.isSymbol "."
    let contents ← if embeds then embeddedField self
      else if second.any (·.isSymbol "[") then instantiated <|> named
      else named
    let tag ← onlyIf (← sees true (·.kind = .string)) (string none)
    return contents ++ tag

/-- The fields of a struct up to its closing brace. -/
def fields (self : Reader) : Parser Forest := do
  if ← seesSymbol false "\x7d" then return []
  else
    let first ← field self
    if ← seesSymbol true "\x7d" then return first
    else return first ++ (← terminator) ++ (← self .fields)

/-- A struct type, as a node. -/
def structType (self : Reader) : Parser Forest :=
  node .structType do
    let head ← symbol "struct"
    let left ← symbol "\x7b"
    let members ← self .fields
    return head ++ left ++ members ++ (← symbol "\x7d")

/-! ## Interfaces -/

/-- An interface element: a method, as a node, or alternatives of types. -/
def interfaceElem (self : Reader) : Parser Forest := do
  let (first, second) ← nextPair
  if first.any (·.kind = .identifier) && second.any (·.isSymbol "(") then
    node .methodElem do
      let name ← identifier (some .name)
      return name ++ (← signature self true)
  else self (.typeElem true)

/-- The elements of an interface up to its closing brace. -/
def interfaceElems (self : Reader) : Parser Forest := do
  if ← seesSymbol false "\x7d" then return []
  else
    let first ← interfaceElem self
    if ← seesSymbol true "\x7d" then return first
    else return first ++ (← terminator) ++ (← self .interfaceElems)

/-- An interface type, as a node. -/
def interfaceType (self : Reader) : Parser Forest :=
  node .interfaceType do
    let head ← symbol "interface"
    let left ← symbol "\x7b"
    let members ← self .interfaceElems
    return head ++ left ++ members ++ (← symbol "\x7d")

/-! ## All types -/

/-- A map type. -/
def mapType (self : Reader) (breaks : Bool) : Parser Forest := do
  let head ← symbol "map"
  let left ← symbol "["
  let key ← self (.type false)
  let right ← symbol "]"
  return head ++ left ++ key ++ right ++ (← self (.type breaks))

/-- A channel type of either direction. -/
def channelType (self : Reader) (breaks : Bool) : Parser Forest := do
  let receive ← onlyIf (← seesSymbol false "<-") (symbol "<-")
  let head ← symbol "chan"
  let send ← onlyIf (receive.isEmpty && (← seesSymbol false "<-")) (symbol "<-")
  return receive ++ head ++ send ++ (← self (.type breaks))

/-- Any type. -/
def type (self : Reader) (breaks : Bool) : Parser Forest := do
  match ← next? false with
  | none => failure
  | some l =>
    if l.kind = .identifier then namedType self breaks
    else if l.isAnyOf ["*", "~"] then
      return (← anyOf ["*", "~"]) ++ (← self (.type breaks))
    else if l.isSymbol "(" then
      let left ← symbol "("
      let inner ← self (.type false)
      return left ++ inner ++ (← symbol ")")
    else if l.isSymbol "[" then bracketType self false breaks
    else if l.isSymbol "struct" then structType self
    else if l.isSymbol "interface" then interfaceType self
    else if l.isSymbol "map" then mapType self breaks
    else if l.isAnyOf ["chan", "<-"] then channelType self breaks
    else if l.isSymbol "func" then return (← symbol "func") ++ (← signature self breaks)
    else failure

end DocHarvest.Syntax.Grammar
