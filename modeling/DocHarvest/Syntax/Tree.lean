import DocHarvest.Syntax.Grammar.Statements

/-!
# From source text to syntax tree

`read` ties the rules of the grammar together: reading a goal with fuel `n + 1` is its rule with the
goals inside it read with fuel `n`. Between two tokens a rule asks for a bounded number of goals
inside goals, so `fuelFor` is enough for any list of lexemes, and `Node.parse?` shows no fuel.
-/

namespace DocHarvest.Syntax

/-- How a goal is read, given how the goals inside it are. -/
def rule (self : Reader) : Goal → Parser Forest
  | .topLevel first => Grammar.topLevel self first
  | .statements => Grammar.statements self
  | .statement => Grammar.statement self
  | .block => Grammar.block self
  | .clauses of => Grammar.clauses self of
  | .simpleTail breaks braces => Grammar.simpleTail self breaks braces
  | .ifStatement => Grammar.ifStatement self
  | .expression breaks braces => Grammar.expression self breaks braces
  | .suffixes of breaks braces => Grammar.suffixes self of breaks braces
  | .expressions breaks braces => Grammar.expressions self breaks braces
  | .arguments => Grammar.arguments self
  | .elements => Grammar.elements self
  | .element => Grammar.element self
  | .type breaks => Grammar.type self breaks
  | .typeElem breaks => Grammar.typeElem self breaks
  | .typeElems => Grammar.typeElems self
  | .types => Grammar.types self
  | .typeParameters => Grammar.typeParameters self
  | .parameters => Grammar.parameters self
  | .fieldNames => Grammar.fieldNames self
  | .fields => Grammar.fields self
  | .interfaceElems => Grammar.interfaceElems self
  | .names => Grammar.names self
  | .importSpecs => Grammar.specs Grammar.importSpec (self .importSpecs)
  | .constSpecs => Grammar.specs (Grammar.constSpec self) (self .constSpecs)
  | .varSpecs => Grammar.specs (Grammar.varSpec self) (self .varSpecs)
  | .typeSpecs => Grammar.specs (Grammar.typeSpec self) (self .typeSpecs)

/-- Reads a goal with at most `fuel` goals inside each other. -/
def read : (fuel : Nat) → Reader
  | 0, _ => failure
  | fuel + 1, goal => rule (read fuel) goal

/-- Enough fuel for a list of lexemes. -/
def fuelFor (ls : List Lexeme) : Nat :=
  8 * ls.length + 16

/-- The place of a whole source text. -/
def Span.whole (source : List Char) : Span :=
  ⟨0, source.length, 0, source.count '\n'⟩

/-- The syntax tree of a source text, or `none` if it has syntax errors. -/
def Node.parse? (source : List Char) : Option Node :=
  let ls := lexemes source
  match (read (fuelFor ls) (.topLevel true)).run ls with
  | some (children, []) => some (.mk .sourceFile none (Span.whole source) children)
  | _ => none

end DocHarvest.Syntax
