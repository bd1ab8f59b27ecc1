import DocHarvest.Syntax.Literal

/-!
# JSON values

Listings of packages are JSON. A value is read from the front of a text, and what follows it is
left. Numbers are only ever skipped, so they keep no value.
-/

namespace DocHarvest.Load

/-- A JSON value. -/
inductive Json where
  | null
  | bool (b : Bool)
  | number
  | string (s : String)
  | array (elements : List Json)
  | object (members : List (String × Json))

namespace Json

/-- The text after JSON white space. -/
def skipSpace (cs : List Char) : List Char :=
  cs.dropWhile fun c => c == ' ' || c == '\t' || c == '\n' || c == '\r'

/-- The value of a hexadecimal digit. -/
def hexValue (c : Char) : Nat :=
  if c.isDigit then c.toNat - '0'.toNat
  else if 'a' ≤ c then c.toNat - 'a'.toNat + 10
  else c.toNat - 'A'.toNat + 10

/-- Four hexadecimal digits and what follows them. -/
def hex4 (cs : List Char) : Option (Nat × List Char) :=
  if Syntax.startsWithMany Syntax.isHexDigit 4 cs then
    some ((cs.take 4).foldl (fun n c => n * 16 + hexValue c) 0, cs.drop 4)
  else none

/-- The character that follows `\u`; a pair of surrogates stands for one character. -/
def unicodeEscape (cs : List Char) : Option (Char × List Char) := do
  let (high, rest) ← hex4 cs
  if 0xd800 ≤ high ∧ high < 0xdc00 then
    match rest with
    | '\\' :: 'u' :: rest =>
      let (low, rest) ← hex4 rest
      if 0xdc00 ≤ low ∧ low < 0xe000 then
        some (Char.ofNat (0x10000 + (high - 0xd800) * 0x400 + (low - 0xdc00)), rest)
      else none
    | _ => none
  else if 0xdc00 ≤ high ∧ high < 0xe000 then none
  else some (Char.ofNat high, rest)

/-- The escapes of one letter. -/
def letterEscape? (c : Char) : Option Char :=
  [('"', '"'), ('\\', '\\'), ('/', '/'), ('b', Char.ofNat 8), ('f', Char.ofNat 12), ('n', '\n'),
   ('r', '\r'), ('t', '\t')].lookup c

/-- The characters of a string after its opening quote, and what follows its closing one. -/
def stringBody : (fuel : Nat) → List Char → Option (List Char × List Char)
  | 0, _ => none
  | _, [] => none
  | fuel + 1, c :: cs =>
    if c = '"' then some ([], cs)
    else if c = '\\' then
      match cs with
      | [] => none
      | 'u' :: rest => do
        let (d, rest) ← unicodeEscape rest
        let (ds, rest) ← stringBody fuel rest
        return (d :: ds, rest)
      | e :: rest => do
        let d ← letterEscape? e
        let (ds, rest) ← stringBody fuel rest
        return (d :: ds, rest)
    else if c.toNat < 0x20 then none
    else do
      let (ds, rest) ← stringBody fuel cs
      return (c :: ds, rest)

/-- A string and what follows it. -/
def readString (cs : List Char) : Option (String × List Char) :=
  match cs with
  | '"' :: rest => (stringBody rest.length rest).map fun (ds, rest) => (String.ofList ds, rest)
  | _ => none

/-- The text after a run of digits, of which there has to be one. -/
def skipDigits (cs : List Char) : Option (List Char) :=
  if cs.head?.any Char.isDigit then some (cs.dropWhile Char.isDigit) else none

/-- The text after a number. -/
def skipNumber (cs : List Char) : Option (List Char) := do
  let cs := if cs.head? = some '-' then cs.drop 1 else cs
  let cs ← match cs with
    | '0' :: rest => some rest
    | _ => skipDigits cs
  let cs ← match cs with
    | '.' :: rest => skipDigits rest
    | _ => some cs
  match cs with
  | c :: rest =>
    if c = 'e' ∨ c = 'E' then
      skipDigits (if rest.head? = some '+' ∨ rest.head? = some '-' then rest.drop 1 else rest)
    else some cs
  | [] => some []

/-- Passes over one character after white space. -/
def expect (c : Char) (cs : List Char) : Option (List Char) :=
  match skipSpace cs with
  | d :: rest => if d = c then some rest else none
  | [] => none

mutual

/-- A value and what follows it. -/
def readValue : (fuel : Nat) → List Char → Option (Json × List Char)
  | 0, _ => none
  | fuel + 1, cs =>
    match skipSpace cs with
    | 'n' :: 'u' :: 'l' :: 'l' :: rest => some (.null, rest)
    | 't' :: 'r' :: 'u' :: 'e' :: rest => some (.bool true, rest)
    | 'f' :: 'a' :: 'l' :: 's' :: 'e' :: rest => some (.bool false, rest)
    | '[' :: rest =>
      match skipSpace rest with
      | ']' :: rest => some (.array [], rest)
      | _ => do
        let (elements, rest) ← readElements fuel rest
        return (.array elements, rest)
    | '{' :: rest =>
      match skipSpace rest with
      | '}' :: rest => some (.object [], rest)
      | _ => do
        let (members, rest) ← readMembers fuel rest
        return (.object members, rest)
    | '"' :: rest => do
      let (s, rest) ← readString ('"' :: rest)
      return (.string s, rest)
    | rest => (skipNumber rest).map fun rest => (.number, rest)

/-- The elements of an array from one of them on, and what follows its bracket. -/
def readElements : (fuel : Nat) → List Char → Option (List Json × List Char)
  | 0, _ => none
  | fuel + 1, cs => do
    let (v, rest) ← readValue fuel cs
    match skipSpace rest with
    | ',' :: rest =>
      let (vs, rest) ← readElements fuel rest
      return (v :: vs, rest)
    | ']' :: rest => return ([v], rest)
    | _ => none

/-- The members of an object from one of them on, and what follows its brace. -/
def readMembers : (fuel : Nat) → List Char → Option (List (String × Json) × List Char)
  | 0, _ => none
  | fuel + 1, cs => do
    let (key, rest) ← readString (skipSpace cs)
    let rest ← expect ':' rest
    let (v, rest) ← readValue fuel rest
    match skipSpace rest with
    | ',' :: rest =>
      let (members, rest) ← readMembers fuel rest
      return ((key, v) :: members, rest)
    | '}' :: rest => return ([(key, v)], rest)
    | _ => none

end

/-- The value at the front of a text. -/
def read? (cs : List Char) : Option Json :=
  (readValue (cs.length + 1) cs).map (·.1)

end Json

end DocHarvest.Load
