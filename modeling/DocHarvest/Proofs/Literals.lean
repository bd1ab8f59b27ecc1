import DocHarvest.Output.Literal
import DocHarvest.Syntax.Literal

/-!
# Reading interpreted string literals

What an interpreted string literal means, as the language defines it. A literal stands for a
sequence of bytes: a character stands for its bytes in UTF-8, an escape of one letter for a byte,
`\x` and three octal digits for the byte that they number, `\u` and `\U` for the bytes of the code
point that they number, which has to be a character. A line feed may not stand in it.

`readLiteral` reads one literal from the front of a text and leaves the rest. Main statement:
`readLiteral_literal`, that reading the literal of a text takes exactly that literal and gives the
bytes of the text, whatever follows.
-/

namespace DocHarvest.Output

open DocHarvest.Syntax DocHarvest.Text DocHarvest.Unicode

/-! ## What a literal means -/

/-- The value of a digit. -/
def digitValue (c : Char) : Nat :=
  if c.isDigit then c.toNat - 0x30
  else if 'a' ≤ c then c.toNat - 0x61 + 10
  else c.toNat - 0x41 + 10

/-- The number that digits spell in a base. -/
def numberOf (base : Nat) (ds : List Char) : Nat :=
  ds.foldl (fun n d => base * n + digitValue d) 0

/-- The number that the first `count` characters spell in a base, if all of them are digits. -/
def readNumber (base : Nat) (isDigit : Char → Bool) (count : Nat) (cs : List Char) : Option Nat :=
  if startsWithMany isDigit count cs then some (numberOf base (cs.take count)) else none

/-- The bytes of the character at a code point. -/
def bytesAt (n : Nat) : Option (List UInt8) :=
  if n.isValidChar then some (String.utf8EncodeChar (Char.ofNat n)) else none

/-- The letters that stand for one byte after a backslash. -/
def escapedBytes : List (Char × UInt8) :=
  [('a', 0x07), ('b', 0x08), ('f', 0x0c), ('n', 0x0a), ('r', 0x0d), ('t', 0x09), ('v', 0x0b),
   ('\\', 0x5c), ('"', 0x22)]

/-- The bytes for which an escape stands, and how many characters it takes after the backslash. -/
def readEscape : List Char → Option (List UInt8 × Nat)
  | [] => none
  | c :: cs =>
    match escapedBytes.lookup c with
    | some b => some ([b], 1)
    | none =>
      if c = 'x' then (readNumber 16 isHexDigit 2 cs).map fun n => ([UInt8.ofNat n], 3)
      else if c = 'u' then ((readNumber 16 isHexDigit 4 cs).bind bytesAt).map fun bs => (bs, 5)
      else if c = 'U' then ((readNumber 16 isHexDigit 8 cs).bind bytesAt).map fun bs => (bs, 9)
      else
        match readNumber 8 isOctalDigit 3 (c :: cs) with
        | some n => if n < 256 then some ([UInt8.ofNat n], 3) else none
        | none => none

/-- The bytes of a literal after its opening quote, and what follows its closing quote. -/
def readBody : List Char → Option (List UInt8 × List Char)
  | [] => none
  | c :: cs =>
    if c = '"' then some ([], cs)
    else if c = '\n' then none
    else if c = '\\' then
      match readEscape cs with
      | none => none
      | some (bs, n) => (readBody (cs.drop n)).map fun r => (bs ++ r.1, r.2)
    else (readBody cs).map fun r => (String.utf8EncodeChar c ++ r.1, r.2)
  termination_by cs => cs.length
  decreasing_by
  · rw [List.length_drop, List.length_cons]
    omega
  · exact Nat.lt_succ_self _

/-- The bytes of the literal at the front of a text, and the rest of the text. -/
def readLiteral : List Char → Option (List UInt8 × List Char)
  | '"' :: cs => readBody cs
  | _ => none

/-! ## Numbers in hexadecimal digits -/

theorem isHexDigit_digitChar : ∀ d < 16, isHexDigit d.digitChar = true := by decide

theorem digitValue_digitChar : ∀ d < 16, digitValue d.digitChar = d := by decide

theorem numberOf_append_singleton (base : Nat) (ds : List Char) (d : Char) :
    numberOf base (ds ++ [d]) = base * numberOf base ds + digitValue d := by
  rw [numberOf, List.foldl_append]
  rfl

/-- A number is spelled in hexadecimal digits, and they spell the number. -/
theorem hex_spec (n : Nat) : (∀ d ∈ hex n, isHexDigit d = true) ∧ numberOf 16 (hex n) = n := by
  induction n using Nat.strongRecOn with
  | ind n ih =>
    rcases Nat.lt_or_ge n 16 with hlt | hge
    · rw [hex, Nat.toDigits_of_lt_base hlt]
      refine ⟨by simpa using isHexDigit_digitChar n hlt, ?_⟩
      rw [← List.nil_append [_], numberOf_append_singleton, digitValue_digitChar n hlt]
      exact Nat.zero_add n
    · have hmod : n % 16 < 16 := Nat.mod_lt n (by decide)
      obtain ⟨hdigits, hvalue⟩ := ih (n / 16) (by omega)
      rw [hex, Nat.toDigits_of_base_le (by decide) hge, ← hex]
      refine ⟨?_, ?_⟩
      · intro d hd
        rcases List.mem_append.mp hd with hd | hd
        · exact hdigits d hd
        · rw [List.mem_singleton] at hd
          exact hd ▸ isHexDigit_digitChar _ hmod
      · rw [numberOf_append_singleton, hvalue, digitValue_digitChar _ hmod]
        omega

theorem isHexDigit_of_mem_hexPadded {width n : Nat} : ∀ d ∈ hexPadded width n,
    isHexDigit d = true := by
  intro d hd
  rcases List.mem_append.mp hd with hd | hd
  · rw [List.eq_of_mem_replicate hd]
    decide
  · exact (hex_spec n).1 d hd

theorem numberOf_hexPadded (width n : Nat) : numberOf 16 (hexPadded width n) = n := by
  have hzeros : ∀ k, numberOf 16 (List.replicate k '0') = 0 := by
    intro k
    induction k with
    | zero => rfl
    | succ k ih =>
      rw [List.replicate_succ', numberOf_append_singleton, ih]
      rfl
  rw [hexPadded, numberOf, List.foldl_append, ← numberOf, hzeros]
  exact (hex_spec n).2

section Padded

variable {width n : Nat} (hn : (hex n).length ≤ width)
include hn

theorem length_hexPadded : (hexPadded width n).length = width := by
  rw [hexPadded, List.length_append, List.length_replicate]
  omega

theorem take_hexPadded (rest : List Char) :
    (hexPadded width n ++ rest).take width = hexPadded width n := by
  have hlength := length_hexPadded hn
  rw [List.take_append_of_le_length (by omega), List.take_of_length_le (by omega)]

theorem startsWithMany_hexPadded (rest : List Char) :
    startsWithMany isHexDigit width (hexPadded width n ++ rest) = true := by
  have hlength := length_hexPadded hn
  rw [startsWithMany, take_hexPadded hn, Bool.and_eq_true, decide_eq_true_eq,
    List.all_eq_true]
  refine ⟨?_, isHexDigit_of_mem_hexPadded⟩
  rw [List.length_append]
  omega

/-- A number that is filled up to a width is read back at that width. -/
theorem readNumber_hexPadded (rest : List Char) :
    readNumber 16 isHexDigit width (hexPadded width n ++ rest) = some n := by
  rw [readNumber, if_pos (startsWithMany_hexPadded hn rest), take_hexPadded hn,
    numberOf_hexPadded]

end Padded

/-! ## How characters are spelled -/

/-- The letters after which a character is spelled by its number, and how many digits follow. -/
def numberMarks : List (Char × Nat) :=
  [('x', 2), ('u', 4), ('U', 8)]

/-- The ways to spell a character in a literal. -/
inductive Spelling (c : Char) : List Char → Prop
  /-- By a letter of its own. -/
  | letter {l : Char} : (c, l) ∈ letterEscapes → Spelling c ['\\', l]
  /-- By its number, which is the number of a byte only if the character is one byte long. -/
  | number {mark : Char} {width : Nat} : (mark, width) ∈ numberMarks →
      (hex c.toNat).length ≤ width → (mark = 'x' → c.toNat < 0x80) →
      Spelling c ('\\' :: mark :: hexPadded width c.toNat)
  /-- As it is. -/
  | itself : isPrintable c = true → c ≠ '"' → c ≠ '\\' → Spelling c [c]

theorem Spelling.of_literalChar (c : Char) : Spelling c (literalChar c) := by
  unfold literalChar
  split
  next l hl =>
    obtain ⟨before, after, hsplit, -⟩ := List.lookup_eq_some_iff.mp hl
    exact .letter (by rw [hsplit]; simp)
  next hnone =>
    -- the characters that have a letter of their own are spelled by it
    have hne : ∀ e ∈ letterEscapes, c ≠ e.1 := by
      intro e he
      simpa using List.lookup_eq_none_iff.mp hnone e he
    have hdigits (width : Nat) (hwidth : 0 < width) (h : c.toNat < 16 ^ width) :
        (hex c.toNat).length ≤ width :=
      (Nat.length_toDigits_le_iff (by decide) hwidth).mpr h
    split
    next hcontrol => exact .number (by decide) (hdigits 2 (by decide) (by omega)) (by omega)
    next =>
    split
    next hprint =>
      exact .itself hprint (hne ('"', '"') (by decide)) (hne ('\\', '\\') (by decide))
    next =>
    split
    next hlow => exact .number (by decide) (hdigits 4 (by decide) (by omega)) (by simp)
    next =>
      have hvalid : c.toNat < 0x110000 := by
        rcases c.valid with h | h
        · exact Nat.lt_trans h (by decide)
        · exact h.2
      exact .number (by decide) (hdigits 8 (by decide) (by omega)) (by simp)

theorem ne_lineFeed_of_isPrintable {c : Char} (h : isPrintable c = true) : c ≠ '\n' := by
  rintro rfl
  exact absurd h (by decide)

/-- A spelling never leaves its line. -/
theorem Spelling.lineFeed_notMem {c : Char} {spelled : List Char} (h : Spelling c spelled) :
    '\n' ∉ spelled := by
  cases h with
  | letter hl =>
    have hletters : ∀ e ∈ letterEscapes, '\n' ∉ ['\\', e.2] := by decide
    exact hletters _ hl
  | @number mark width hmark =>
    have hmarks : ∀ e ∈ numberMarks, '\n' ∉ ['\\', e.1] := by decide
    intro hmem
    rcases List.mem_append.mp (show '\n' ∈ ['\\', mark] ++ _ from hmem) with hmem | hmem
    · exact hmarks _ hmark hmem
    · exact absurd (isHexDigit_of_mem_hexPadded _ hmem) (by decide)
  | itself hprint =>
    rw [List.mem_singleton]
    exact (ne_lineFeed_of_isPrintable hprint).symm

/-- A literal never leaves its line. -/
theorem lineFeed_notMem_literal (cs : List Char) : '\n' ∉ literal cs := by
  simp only [literal, List.mem_append, List.mem_cons, List.mem_flatMap, List.not_mem_nil, or_false,
    not_or]
  refine ⟨⟨by decide, ?_⟩, by decide⟩
  rintro ⟨c, -, hmem⟩
  exact (Spelling.of_literalChar c).lineFeed_notMem hmem

/-! ## Reading a literal back -/

theorem utf8EncodeChar_of_lt {c : Char} (h : c.toNat < 0x80) :
    String.utf8EncodeChar c = [UInt8.ofNat c.toNat] := by
  have hle : c.val.toNat ≤ 127 := Nat.le_of_lt_succ h
  rw [String.utf8EncodeChar, if_pos hle]
  rfl

theorem bytesAt_toNat (c : Char) : bytesAt c.toNat = some (String.utf8EncodeChar c) := by
  have hvalid : c.toNat.isValidChar := c.valid
  rw [bytesAt, if_pos hvalid, Char.ofNat_toNat]

theorem readEscape_letter {c l : Char} (h : (c, l) ∈ letterEscapes) (rest : List Char) :
    readEscape (l :: rest) = some (String.utf8EncodeChar c, 1) := by
  have hbytes : ∀ e ∈ letterEscapes,
      (escapedBytes.lookup e.2).map ([·]) = some (String.utf8EncodeChar e.1) := by decide
  obtain ⟨b, hb, hc⟩ := Option.map_eq_some_iff.mp (hbytes _ h)
  simp only [readEscape, hb]
  rw [hc]

theorem readEscape_number {c mark : Char} {width : Nat} (hmark : (mark, width) ∈ numberMarks)
    (hn : (hex c.toNat).length ≤ width) (hbyte : mark = 'x' → c.toNat < 0x80) (rest : List Char) :
    readEscape (mark :: (hexPadded width c.toNat ++ rest))
      = some (String.utf8EncodeChar c, width + 1) := by
  simp only [numberMarks, List.mem_cons, Prod.mk.injEq, List.not_mem_nil, or_false] at hmark
  rcases hmark with ⟨rfl, rfl⟩ | ⟨rfl, rfl⟩ | ⟨rfl, rfl⟩
  · have hletter : escapedBytes.lookup 'x' = none := by decide
    simp only [readEscape, hletter, if_true, readNumber_hexPadded hn, Option.map_some,
      utf8EncodeChar_of_lt (hbyte rfl)]
  · have hletter : escapedBytes.lookup 'u' = none := by decide
    simp [readEscape, hletter, readNumber_hexPadded hn, bytesAt_toNat]
  · have hletter : escapedBytes.lookup 'U' = none := by decide
    simp [readEscape, hletter, readNumber_hexPadded hn, bytesAt_toNat]

theorem readBody_escape {cs : List Char} {bs : List UInt8} {n : Nat}
    (h : readEscape cs = some (bs, n)) :
    readBody ('\\' :: cs) = (readBody (cs.drop n)).map fun r => (bs ++ r.1, r.2) := by
  rw [readBody, if_neg (by decide), if_neg (by decide), if_pos rfl, h]

/-- Each spelling of a character is read as the bytes of the character. -/
theorem Spelling.readBody_append {c : Char} {spelled : List Char} (h : Spelling c spelled)
    (rest : List Char) :
    readBody (spelled ++ rest)
      = (readBody rest).map fun r => (String.utf8EncodeChar c ++ r.1, r.2) := by
  cases h with
  | letter hl => exact readBody_escape (readEscape_letter hl rest)
  | @number mark width hmark hn hbyte =>
    rw [List.cons_append, List.cons_append, readBody_escape (readEscape_number hmark hn hbyte rest),
      List.drop_succ_cons, List.drop_left' (length_hexPadded hn)]
  | itself hprint hquote hslash =>
    rw [List.singleton_append, readBody, if_neg hquote,
      if_neg (ne_lineFeed_of_isPrintable hprint), if_neg hslash]

/-- **A literal is read back**, and what follows it is left. -/
theorem readLiteral_literal (cs rest : List Char) :
    readLiteral (literal cs ++ rest) = some (cs.flatMap String.utf8EncodeChar, rest) := by
  have hbody : ∀ cs : List Char, readBody (cs.flatMap literalChar ++ '"' :: rest)
      = some (cs.flatMap String.utf8EncodeChar, rest) := by
    intro cs
    induction cs with
    | nil => rw [List.flatMap_nil, List.nil_append, readBody, if_pos rfl, List.flatMap_nil]
    | cons c cs ih =>
      rw [List.flatMap_cons, List.append_assoc, (Spelling.of_literalChar c).readBody_append, ih,
        List.flatMap_cons]
      rfl
  have hliteral : literal cs ++ rest = '"' :: (cs.flatMap literalChar ++ '"' :: rest) := by
    simp [literal]
  rw [hliteral, readLiteral, hbody]

end DocHarvest.Output
