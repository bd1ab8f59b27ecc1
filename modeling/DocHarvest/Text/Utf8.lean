/-!
# Text and bytes

Encoding UTF-8, and decoding it one byte at a time. `decode?` refuses a sequence that is not UTF-8;
`decodeLossy` puts U+FFFD in place of each longest piece that could still have begun a character.
-/

namespace DocHarvest.Text.Utf8

/-- The UTF-8 of a text. -/
def encode (cs : List Char) : List UInt8 :=
  cs.flatMap String.utf8EncodeChar

/-- A character that is not complete: how many bytes are owed, the range the next one must lie in,
and the value of the bits read so far. -/
structure Pending where
  owed : Nat
  low : Nat
  high : Nat
  value : Nat

/-- What the first byte of a character settles. -/
inductive Start where
  | complete (c : Char)
  | pending (p : Pending)
  | refused

/-- Reads the first byte of a character. -/
def start (b : Nat) : Start :=
  if b ≤ 0x7f then .complete (Char.ofNat b)
  else if 0xc2 ≤ b ∧ b ≤ 0xdf then .pending ⟨1, 0x80, 0xbf, b - 0xc0⟩
  else if b = 0xe0 then .pending ⟨2, 0xa0, 0xbf, 0⟩
  else if b = 0xed then .pending ⟨2, 0x80, 0x9f, 0xd⟩
  else if 0xe1 ≤ b ∧ b ≤ 0xef then .pending ⟨2, 0x80, 0xbf, b - 0xe0⟩
  else if b = 0xf0 then .pending ⟨3, 0x90, 0xbf, 0⟩
  else if 0xf1 ≤ b ∧ b ≤ 0xf3 then .pending ⟨3, 0x80, 0xbf, b - 0xf0⟩
  else if b = 0xf4 then .pending ⟨3, 0x80, 0x8f, 4⟩
  else .refused

/-- Reads a further byte of a character. -/
def Pending.next (p : Pending) (b : Nat) : Start :=
  if p.low ≤ b ∧ b ≤ p.high then
    let value := p.value * 0x40 + (b - 0x80)
    if p.owed ≤ 1 then .complete (Char.ofNat value)
    else .pending ⟨p.owed - 1, 0x80, 0xbf, value⟩
  else .refused

/-- The character that stands for bytes that are not UTF-8. -/
def replacement : Char := Char.ofNat 0xfffd

/-- `decode?` from inside a character. -/
def decodeFrom? : Option Pending → List UInt8 → Option (List Char)
  | none, [] => some []
  | some _, [] => none
  | p, b :: bytes =>
    match p.elim (start b.toNat) (·.next b.toNat) with
    | .complete c => (decodeFrom? none bytes).map (c :: ·)
    | .pending p => decodeFrom? (some p) bytes
    | .refused => none

/-- The text these bytes are the UTF-8 of, if they are. -/
def decode? (bytes : List UInt8) : Option String :=
  (decodeFrom? none bytes).map String.ofList

/-- `decodeLossy` from inside a character. -/
def decodeLossyFrom : Option Pending → List UInt8 → List Char
  | none, [] => []
  | some _, [] => [replacement]
  | none, b :: bytes =>
    match start b.toNat with
    | .complete c => c :: decodeLossyFrom none bytes
    | .pending p => decodeLossyFrom (some p) bytes
    | .refused => replacement :: decodeLossyFrom none bytes
  | some p, b :: bytes =>
    match p.next b.toNat with
    | .complete c => c :: decodeLossyFrom none bytes
    | .pending p => decodeLossyFrom (some p) bytes
    | .refused =>
      -- the byte that ends the broken piece may begin a character of its own
      match start b.toNat with
      | .complete c => replacement :: c :: decodeLossyFrom none bytes
      | .pending p => replacement :: decodeLossyFrom (some p) bytes
      | .refused => replacement :: replacement :: decodeLossyFrom none bytes

/-- The text of these bytes, with U+FFFD where they are not UTF-8. -/
def decodeLossy (bytes : List UInt8) : String :=
  String.ofList (decodeLossyFrom none bytes)

end DocHarvest.Text.Utf8
