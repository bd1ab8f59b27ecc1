import DocHarvest.Unicode.Identifier
import DocHarvest.Syntax.Span
import DocHarvest.Syntax.Literal

/-!
# Lexemes

A source text as a list of lexemes: tokens, comments and line breaks. A line break ends a statement
where the grammar wants a statement ended and is white space elsewhere, so it is kept for the parser
to decide. Blanks are dropped; nothing else is.

The scan reads the text from left to right and passes over each character once. At the start of a
lexeme `munch` says what it is and how long it is, and the scan passes over that many characters.
-/

namespace DocHarvest.Syntax

open DocHarvest.Unicode

/-- What a lexeme is. -/
inductive LexemeKind where
  | lineBreak
  | comment
  | identifier
  | keyword
  | string
  | number
  | rune
  | symbol
  /-- A character that starts no lexeme. -/
  | stray
deriving DecidableEq, Repr

/-- A piece of a source text. -/
structure Lexeme where
  kind : LexemeKind
  text : List Char
  span : Span
deriving Repr

/-- The words that are no identifiers. -/
def keywords : List String :=
  ["break", "case", "chan", "const", "continue", "default", "defer", "else", "fallthrough", "for",
   "func", "go", "goto", "if", "import", "interface", "map", "package", "range", "return", "select",
   "struct", "switch", "type", "var"]

/-- Operators, brackets and the null character, longer ones first. -/
def symbols : List String :=
  ["<<=", ">>=", "&^=", "...",
   "<<", ">>", "&^", "+=", "-=", "*=", "/=", "%=", "&=", "|=", "^=", "&&", "||", "<-", "++", "--",
   "==", "!=", "<=", ">=", ":=",
   "+", "-", "*", "/", "%", "&", "|", "^", "<", ">", "=", "!", "~", "(", ")", "[", "]",
   "\x7b", "\x7d", ",", ";", ".", ":", "\x00"]

/-- White space of the language, the line feed apart. -/
def isSpace (c : Char) : Bool :=
  c == ' ' || c == '\t' || c == '\r' || c.toNat == 0x0b || c.toNat == 0x0c

/-- The length of a block comment after its opening mark, closing mark included. -/
def blockCommentLength : List Char → Option Nat
  | [] => none
  | c :: cs =>
    if c = '*' ∧ cs.head? = some '/' then some 2 else (blockCommentLength cs).map (· + 1)

/-- The longest operator or bracket at the front of a text. -/
def munchSymbol (cs : List Char) : LexemeKind × Nat :=
  match symbols.find? fun s => s.toList.isPrefixOf cs with
  | some s => (.symbol, s.length)
  | none => (.stray, 1)

/-- What follows an opening mark of one character, if it is there. -/
def munchClosed (kind : LexemeKind) (rest : Option Nat) : LexemeKind × Nat :=
  match rest with
  | some n => (kind, n + 1)
  | none => (.stray, 1)

/-- The kind and the length of the lexeme at the front of a text that starts with no blank. -/
def munch (cs : List Char) : LexemeKind × Nat :=
  match cs with
  | [] => (.stray, 1)
  | c :: rest =>
    if isIdentifierStart c then
      let word := c :: rest.takeWhile isIdentifierPart
      (if keywords.any (·.toList = word) then .keyword else .identifier, word.length)
    else if c.isDigit || (c == '.' && rest.head?.any Char.isDigit) then (.number, numberLength cs)
    else if c = '"' then munchClosed .string (interpretedLength rest)
    else if c.toNat = 0x60 then munchClosed .string (rawLength rest)
    else if c = '\'' then munchClosed .rune (runeLength rest)
    else if c = '/' ∧ rest.head? = some '/' then
      (.comment, (rest.takeWhile (· != '\n')).length + 1)
    else if c = '/' ∧ rest.head? = some '*' then
      -- a mark that is never closed is a division followed by a dereference
      match blockCommentLength (rest.drop 1) with
      | some n => (.comment, n + 2)
      | none => munchSymbol cs
    else munchSymbol cs

/-- The row after a character. -/
def rowAfter (row : Nat) (c : Char) : Nat :=
  if c = '\n' then row + 1 else row

/-- `lexemes` from a place inside the text, with `skip` characters of a lexeme to be passed over. -/
def lexemesFrom : (skip offset row : Nat) → List Char → List Lexeme
  | _, _, _, [] => []
  | skip + 1, offset, row, c :: cs => lexemesFrom skip (offset + 1) (rowAfter row c) cs
  | 0, offset, row, c :: cs =>
    if c = '\n' then
      ⟨.lineBreak, [c], ⟨offset, offset + 1, row, row + 1⟩⟩
        :: lexemesFrom 0 (offset + 1) (row + 1) cs
    else if isSpace c then lexemesFrom 0 (offset + 1) row cs
    else
      let (kind, n) := munch (c :: cs)
      let text := (c :: cs).take n
      ⟨kind, text, ⟨offset, offset + n, row, row + text.count '\n'⟩⟩
        :: lexemesFrom (n - 1) (offset + 1) (rowAfter row c) cs

/-- The mark of byte order that may stand at the very start of a text. -/
def byteOrderMark : Char := Char.ofNat 0xfeff

/-- The lexemes of a source text in order; a byte order mark at the start is passed over. -/
def lexemes (source : List Char) : List Lexeme :=
  lexemesFrom (if source.head? = some byteOrderMark then 1 else 0) 0 0 source

end DocHarvest.Syntax
