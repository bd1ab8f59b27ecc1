/-!
# The extent of literals

Where a string, rune or number literal ends. Each function looks at the characters from the start of
the literal and returns how many of them belong to it.
-/

namespace DocHarvest.Syntax

/-! ## Strings -/

/-- Whether a character is a hexadecimal digit. -/
def isHexDigit (c : Char) : Bool :=
  c.isDigit || ('a' ≤ c && c ≤ 'f') || ('A' ≤ c && c ≤ 'F')

/-- Whether a character is an octal digit. -/
def isOctalDigit (c : Char) : Bool :=
  '0' ≤ c && c ≤ '7'

/-- Whether a character is a binary digit. -/
def isBinaryDigit (c : Char) : Bool :=
  c == '0' || c == '1'

/-- Whether at least `n` characters are there and the first `n` satisfy `p`. -/
def startsWithMany (p : Char → Bool) (n : Nat) (cs : List Char) : Bool :=
  n ≤ cs.length && (cs.take n).all p

/-- Whether the characters after a backslash and `c` complete an escape of a string: the letters
`x`, `u` and `U` need two, four and eight hexadecimal digits, and any other character stands
alone. -/
def escapeComplete (c : Char) (cs : List Char) : Bool :=
  if c = 'x' then startsWithMany isHexDigit 2 cs
  else if c = 'u' then startsWithMany isHexDigit 4 cs
  else if c = 'U' then startsWithMany isHexDigit 8 cs
  else true

/-- The length of an interpreted string after its opening quote, closing quote included. -/
def interpretedLength : List Char → Option Nat
  | [] => none
  | c :: cs =>
    if c = '"' then some 1
    else if c = '\n' then none
    else if c = '\\' then
      match cs with
      | [] => none
      | e :: rest => if escapeComplete e rest then (interpretedLength rest).map (· + 2) else none
    else (interpretedLength cs).map (· + 1)

/-- The length of a raw string after its opening quote, closing quote included. -/
def rawLength : List Char → Option Nat
  | [] => none
  | c :: cs => if c.toNat = 0x60 then some 1 else (rawLength cs).map (· + 1)

/-! ## Runes -/

/-- The length of the escape that follows a backslash in a rune. -/
def runeEscapeLength : List Char → Option Nat
  | [] => none
  | c :: cs =>
    if c = 'x' then if startsWithMany isHexDigit 2 cs then some 3 else none
    else if c = 'u' then if startsWithMany isHexDigit 4 cs then some 5 else none
    else if c = 'U' then if startsWithMany isHexDigit 8 cs then some 9 else none
    else if isOctalDigit c then if startsWithMany isOctalDigit 2 cs then some 3 else none
    else if "abfnrtv\\'\"".toList.contains c then some 1
    else none

/-- The length of a rune after its opening quote, closing quote included. -/
def runeLength : List Char → Option Nat
  | [] => none
  | c :: cs =>
    if c = '\'' then none
    else if c = '\\' then
      match runeEscapeLength cs with
      | none => none
      | some n => if cs[n]? = some '\'' then some (n + 2) else none
    else if cs.head? = some '\'' then some 2
    else none

/-! ## Numbers -/

/-- The length of the digits that go on after a digit, single underscores between them. -/
def moreDigits (p : Char → Bool) : List Char → Nat
  | [] => 0
  | c :: cs =>
    if p c then moreDigits p cs + 1
    else if c = '_' then
      match cs with
      | [] => 0
      | d :: ds => if p d then moreDigits p ds + 2 else 0
    else 0

/-- The length of a run of digits with single underscores between them; zero if there is none. -/
def digits (p : Char → Bool) : List Char → Nat
  | [] => 0
  | c :: cs => if p c then moreDigits p cs + 1 else 0

/-- The length of a run of digits that one underscore may precede; zero if there is none. -/
def markedDigits (p : Char → Bool) (cs : List Char) : Nat :=
  match cs with
  | '_' :: rest => if digits p rest = 0 then 0 else digits p rest + 1
  | _ => digits p cs

/-- The length of an exponent that starts with one of two letters; zero if there is none. -/
def exponent (lower upper : Char) : List Char → Nat
  | [] => 0
  | c :: cs =>
    if c = lower ∨ c = upper then
      let sign := if cs.head? = some '+' ∨ cs.head? = some '-' then 1 else 0
      let n := digits Char.isDigit (cs.drop sign)
      if n = 0 then 0 else 1 + sign + n
    else 0

/-- The lengths of the integers at the front of a text: decimal, then with a base. -/
def integerLengths (cs : List Char) : List Nat :=
  let decimal := match cs with
    | '0' :: _ => [1]
    | _ => [digits Char.isDigit cs]
  let based (lower upper : Char) (p : Char → Bool) : List Nat := match cs with
    | '0' :: c :: rest =>
      if (c = lower ∨ c = upper) ∧ markedDigits p rest ≠ 0 then [2 + markedDigits p rest] else []
    | _ => []
  let octal := match cs with
    | '0' :: rest => if markedDigits isOctalDigit rest ≠ 0 then [1 + markedDigits isOctalDigit rest]
      else []
    | _ => []
  decimal ++ octal ++ based 'b' 'B' isBinaryDigit ++ based 'o' 'O' isOctalDigit
    ++ based 'x' 'X' isHexDigit

/-- The lengths of the decimal fractions at the front of a text. -/
def fractionLengths (cs : List Char) : List Nat :=
  let whole := digits Char.isDigit cs
  let rest := cs.drop whole
  let scale := exponent 'e' 'E' rest
  let scaled := if whole ≠ 0 ∧ scale ≠ 0 then [whole + scale] else []
  let pointed := match rest with
    | '.' :: after =>
      let part := digits Char.isDigit after
      if whole = 0 ∧ part = 0 then []
      else [whole + 1 + part + exponent 'e' 'E' (after.drop part)]
    | _ => []
  scaled ++ pointed

/-- The lengths of the hexadecimal fractions at the front of a text; these have an exponent. -/
def hexFractionLengths (cs : List Char) : List Nat :=
  match cs with
  | '0' :: c :: rest =>
    if c = 'x' ∨ c = 'X' then
      let whole := markedDigits isHexDigit rest
      let afterWhole := rest.drop whole
      let mantissas := match afterWhole with
        | '.' :: after =>
          let part := digits isHexDigit after
          if whole = 0 ∧ part = 0 then [] else [whole, whole + 1 + part]
        | _ => [whole]
      mantissas.filterMap fun m =>
        let scale := exponent 'p' 'P' (rest.drop m)
        if m ≠ 0 ∧ scale ≠ 0 then some (2 + m + scale) else none
    else []
  | _ => []

/-- The length of the number at the front of a text: the longest of all its readings, with or
without the letter `i` of an imaginary number. -/
def numberLength (cs : List Char) : Nat :=
  let real := integerLengths cs ++ fractionLengths cs ++ hexFractionLengths cs
  let imaginary := (digits Char.isDigit cs :: real).filterMap fun n =>
    if n ≠ 0 ∧ cs[n]? = some 'i' then some (n + 1) else none
  (real ++ imaginary).foldl max 0

end DocHarvest.Syntax
