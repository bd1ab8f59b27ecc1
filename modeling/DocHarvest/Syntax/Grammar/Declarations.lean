import DocHarvest.Syntax.Grammar.Expressions

/-!
# Declarations

Imports, constants, variables, types, functions and methods. Every declaration and every spec is a
node, and the names that it binds are its children in the role `name`. A parenthesised group holds
its specs as direct children of the declaration.
-/

namespace DocHarvest.Syntax.Grammar

open DocHarvest.Syntax.Parser

/-- A declaration: its keyword, then one spec or a group of them in parentheses. -/
def declaration (kind : Kind) (keyword : String) (spec specs : Parser Forest) : Parser Forest :=
  node kind do
    let head ← symbol keyword
    if ← seesSymbol false "(" then
      let left ← symbol "("
      let members ← specs
      return head ++ left ++ members ++ (← symbol ")")
    else return head ++ (← spec)

/-- The specs of a group up to its closing parenthesis, before which the end of a statement may be
left out. -/
def specs (spec : Parser Forest) (rest : Parser Forest) : Parser Forest := do
  if ← seesSymbol false ")" then return []
  else
    let first ← spec
    if ← seesSymbol true ")" then return first
    else
      let stop ← terminator
      return first ++ stop ++ (← rest)

/-- Names with commas between them, as the names that a spec binds. -/
def names (self : Reader) : Parser Forest := do
  let name ← identifier (some .name)
  if ← seesSymbol false "," then
    return name ++ (← symbol ",") ++ (← self .names)
  else return name

/-- An equals sign and the values after it. -/
def values (self : Reader) : Parser Forest := do
  let equals ← symbol "="
  return equals ++ (← self (.expressions true true))

/-! ## Imports -/

/-- The local name and the path of one import. -/
def importSpec : Parser Forest :=
  node .importSpec do
    let localName ← if ← seesSymbol false "." then token (·.isSymbol ".") (some .name)
      else onlyIf (← sees false (·.kind = .identifier)) (identifier (some .name))
    return localName ++ (← string (some .path))

/-- An import declaration. -/
def importDeclaration (self : Reader) : Parser Forest :=
  declaration .importDeclaration "import" importSpec (self .importSpecs)

/-! ## Constants and variables -/

/-- Constants, with the values if they are given and a type only before values. -/
def constSpec (self : Reader) : Parser Forest :=
  node .constSpec do
    let bound ← self .names
    if ← seesSymbol true "=" then return bound ++ (← values self)
    else if ← sees true startsType then
      let type ← self (.type true)
      return bound ++ type ++ (← values self)
    else return bound

/-- A constant declaration. -/
def constDeclaration (self : Reader) : Parser Forest :=
  declaration .constDeclaration "const" (constSpec self) (self .constSpecs)

/-- Variables with their type, their values, or both. -/
def varSpec (self : Reader) : Parser Forest :=
  node .varSpec do
    let bound ← self .names
    if ← seesSymbol false "=" then return bound ++ (← values self)
    else
      let type ← self (.type true)
      return bound ++ type ++ (← onlyIf (← seesSymbol true "=") (values self))

/-- A variable declaration. -/
def varDeclaration (self : Reader) : Parser Forest :=
  declaration .varDeclaration "var" (varSpec self) (self .varSpecs)

/-! ## Types -/

/-- What a type name stands for: a type of its own, or after an equals sign another type's name. -/
def typeSpecBody (self : Reader) : Parser (Kind × Forest) := do
  if ← seesSymbol false "=" then
    return (.typeAlias, (← symbol "=") ++ (← self (.type true)))
  else return (.typeSpec, ← self (.type true))

/-- A type spec. Brackets after the name are type parameters if they can be, and else they start an
array or slice type. -/
def typeSpec (self : Reader) : Parser Forest :=
  group none do
    let name ← identifier (some .name)
    let generic : Parser (Kind × Forest) := do
      let params ← typeParameterList self
      let (kind, body) ← typeSpecBody self
      return (kind, params ++ body)
    let (kind, body) ← if ← seesSymbol false "[" then generic <|> typeSpecBody self
      else typeSpecBody self
    return (kind, name ++ body)

/-- A type declaration. -/
def typeDeclaration (self : Reader) : Parser Forest :=
  declaration .typeDeclaration "type" (typeSpec self) (self .typeSpecs)

/-! ## Functions -/

/-- The body of a function, which may be missing. -/
def body (self : Reader) : Parser Forest := do
  onlyIf (← seesSymbol true "\x7b") (self .block)

/-- A function declaration. -/
def functionDeclaration (self : Reader) : Parser Forest :=
  node .functionDeclaration do
    let head ← symbol "func"
    let name ← identifier (some .name)
    let params ← onlyIf (← seesSymbol false "[") (typeParameterList self)
    let sig ← signature self true
    return head ++ name ++ params ++ sig ++ (← body self)

/-- A method declaration. -/
def methodDeclaration (self : Reader) : Parser Forest :=
  node .methodDeclaration do
    let head ← symbol "func"
    let receiver ← parameterList self (some .receiver)
    let name ← identifier (some .name)
    let sig ← signature self true
    return head ++ receiver ++ name ++ sig ++ (← body self)

end DocHarvest.Syntax.Grammar
