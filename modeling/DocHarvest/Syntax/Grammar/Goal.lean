import DocHarvest.Syntax.Parser

/-!
# The goals of the grammar

Each construct of the grammar that contains others is a `Goal`. A rule says how to read one goal,
given a way `self` to read the goals inside it; `Tree` ties the rules together. So every rule is a
definition of its own, and no rule is recursive.
-/

namespace DocHarvest.Syntax

/-- Which suffixes an operand may still take. -/
inductive Operand where
  /-- A name of a type or a value. -/
  | name
  /-- One of the functions whose first argument may be a type. -/
  | maker
  /-- A name with a package in front of it, or with type arguments. -/
  | typeName
  /-- Anything else. -/
  | value
deriving DecidableEq

/-- The clauses of which the body of a branching statement consists. -/
inductive Clause where
  | expressions
  | types
  | communication
deriving DecidableEq

/-- The constructs that are read by recursion. `breaks` says that a line break may end the
construct, `braces` that an opening brace after a type name starts a composite literal. -/
inductive Goal where
  /-- The items at the top of a file; `first` says that there are none before. -/
  | topLevel (first : Bool)
  | statements
  | statement
  | block
  | clauses (of : Clause)
  /-- What follows the first expression of a simple statement. -/
  | simpleTail (breaks braces : Bool)
  | ifStatement
  | expression (breaks braces : Bool)
  | suffixes (of : Operand) (breaks braces : Bool)
  /-- Expressions with commas between them. -/
  | expressions (breaks braces : Bool)
  | arguments
  | elements
  | element
  | type (breaks : Bool)
  /-- Alternatives of types, as in a constraint. -/
  | typeElem (breaks : Bool)
  | typeElems
  | types
  | typeParameters
  | parameters
  | fieldNames
  | fields
  | interfaceElems
  | names
  | importSpecs
  | constSpecs
  | varSpecs
  | typeSpecs

/-- How the goals inside a construct are read. -/
abbrev Reader := Goal → Parser Forest

end DocHarvest.Syntax
