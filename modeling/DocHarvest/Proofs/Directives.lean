import DocHarvest.Proofs.Literals
import DocHarvest.Proofs.Remarks
import DocHarvest.Text.Utf8

/-!
# Directives, byte by byte

Whether a comment is a directive can be told from its bytes: the first colon is found, and then
every byte from the front up to the one behind the colon has to be a small letter or a digit, the
colon apart (`directiveInBytes?`). The bytes are taken by their places, so there is no answer if a
place lies behind the last byte.

There is always an answer, and it is the one that characters give (`isDirective_iff_grammar`). A
character that may stand in a name is a single byte, and any other starts with a byte that may not
(`exists_utf8EncodeChar_eq_cons`). So the byte behind a colon tells about the character behind it,
even where the bytes are cut inside of that character.
-/

namespace DocHarvest.Comment

open DocHarvest.Text DocHarvest.Text.Utf8

/-! ## The answer from bytes -/

/-- Whether a byte is a small letter or a digit. -/
def isDirectiveByte (b : UInt8) : Bool :=
  (0x61 ≤ b && b ≤ 0x7a) || (0x30 ≤ b && b ≤ 0x39)

/-- How many bytes stand before the first occurrence of a character. -/
def byteOffset? (c : Char) : List Char → Option Nat
  | [] => none
  | d :: ds => if d = c then some 0 else (byteOffset? c ds).map (d.utf8Size + ·)

/-- The bytes up to the one at a place, or nothing if there is none at that place. -/
def upTo? (place : Nat) (bytes : List UInt8) : Option (List UInt8) :=
  if place < bytes.length then some (bytes.take (place + 1)) else none

/-- Whether a text starts with a name, a colon and one more character of a name, told from its
bytes. There is no answer if the text has to be cut where it has no byte. -/
def namedInBytes? (cs : List Char) : Option Bool :=
  match byteOffset? ':' cs with
  | none => some false
  | some colon =>
    if colon = 0 ∨ (encode cs).length ≤ colon + 1 then some false
    else
      (upTo? (colon + 1) (encode cs)).map fun front =>
        (front.zipIdx.filter fun b => b.2 != colon).all fun b => isDirectiveByte b.1

/-- Whether what follows `//` speaks to a tool, told from its bytes. -/
def directiveInBytes? (cs : List Char) : Option Bool :=
  if startsWith "line ".toList cs || startsWith "extern ".toList cs ||
      startsWith "export ".toList cs then some true
  else namedInBytes? cs

/-! ## Characters and their bytes -/

theorem isDirectiveChar_iff {c : Char} :
    isDirectiveChar c = true ↔ 'a' ≤ c ∧ c ≤ 'z' ∨ '0' ≤ c ∧ c ≤ '9' := by
  show (decide ('a' ≤ c) && decide (c ≤ 'z') || decide ('0' ≤ c) && decide (c ≤ '9')) = true ↔ _
  simp only [Bool.or_eq_true, Bool.and_eq_true, decide_eq_true_eq]

theorem isDirectiveByte_of_le {n : Nat} (hlow : 0x80 ≤ n) (hhigh : n < 0x100) :
    isDirectiveByte (UInt8.ofNat n) = false := by
  have htoNat : (UInt8.ofNat n).toNat = n := UInt8.toNat_ofNat_of_lt' hhigh
  have hletter : ¬UInt8.ofNat n ≤ 0x7a := by
    rw [UInt8.le_iff_toNat_le, htoNat]
    show ¬n ≤ 0x7a
    omega
  have hdigit : ¬UInt8.ofNat n ≤ 0x39 := by
    rw [UInt8.le_iff_toNat_le, htoNat]
    show ¬n ≤ 0x39
    omega
  rw [isDirectiveByte, decide_eq_false hletter, decide_eq_false hdigit]
  simp

theorem isDirectiveChar_of_le {c : Char} (h : 0x80 ≤ c.toNat) : isDirectiveChar c = false := by
  rw [← Bool.not_eq_true, isDirectiveChar_iff]
  have htoNat : ∀ d : Char, c ≤ d → c.toNat ≤ d.toNat := fun d hd => hd
  intro hclass
  rcases hclass with ⟨-, hz⟩ | ⟨-, hnine⟩
  · have := htoNat 'z' hz
    have : 'z'.toNat = 0x7a := rfl
    omega
  · have := htoNat '9' hnine
    have : '9'.toNat = 0x39 := rfl
    omega

/-- The bytes of a character beyond ASCII start with a byte beyond ASCII. -/
theorem exists_utf8EncodeChar_of_le {c : Char} (h : 0x80 ≤ c.toNat) :
    ∃ n bs, String.utf8EncodeChar c = UInt8.ofNat n :: bs ∧ 0x80 ≤ n ∧ n < 0x100 := by
  have hone : ¬c.val.toNat ≤ 0x7f := Nat.not_le.mpr h
  unfold String.utf8EncodeChar
  dsimp only
  rw [if_neg hone]
  split
  next => exact ⟨_, _, rfl, by omega, by omega⟩
  next =>
    split
    next => exact ⟨_, _, rfl, by omega, by omega⟩
    next => exact ⟨_, _, rfl, by omega, by omega⟩

/-- A small letter or a digit is one byte, and no other character starts with such a byte. -/
theorem exists_utf8EncodeChar_eq_cons (c : Char) :
    ∃ b bs, String.utf8EncodeChar c = b :: bs ∧ isDirectiveByte b = isDirectiveChar c ∧
      (isDirectiveChar c = true → bs = []) := by
  by_cases hascii : c.toNat < 0x80
  · refine ⟨UInt8.ofNat c.toNat, [], Output.utf8EncodeChar_of_lt hascii, ?_, fun _ => rfl⟩
    exact Syntax.ascii_all (P := fun c => isDirectiveByte (UInt8.ofNat c.toNat) = isDirectiveChar c)
      (by decide +kernel) c hascii
  · have hbeyond : 0x80 ≤ c.toNat := by omega
    have hchar := isDirectiveChar_of_le hbeyond
    obtain ⟨n, bs, hbytes, hlow, hhigh⟩ := exists_utf8EncodeChar_of_le hbeyond
    refine ⟨UInt8.ofNat n, bs, hbytes, ?_, ?_⟩
    · rw [isDirectiveByte_of_le hlow hhigh, hchar]
    · rw [hchar]
      intro hfalse
      cases hfalse

theorem encode_cons (c : Char) (cs : List Char) :
    encode (c :: cs) = String.utf8EncodeChar c ++ encode cs :=
  List.flatMap_cons

theorem encode_append (cs ds : List Char) : encode (cs ++ ds) = encode cs ++ encode ds :=
  List.flatMap_append

theorem encode_eq_nil_iff {cs : List Char} : encode cs = [] ↔ cs = [] := by
  cases cs with
  | nil => exact iff_of_true rfl rfl
  | cons c cs =>
    obtain ⟨b, bs, hbytes, -⟩ := exists_utf8EncodeChar_eq_cons c
    rw [encode_cons, hbytes]
    simp

/-- The bytes of a text are small letters and digits if its characters are. -/
theorem all_encode (cs : List Char) :
    (encode cs).all isDirectiveByte = cs.all isDirectiveChar := by
  induction cs with
  | nil => rfl
  | cons c cs ih =>
    obtain ⟨b, bs, hbytes, hb, hbs⟩ := exists_utf8EncodeChar_eq_cons c
    rw [encode_cons, hbytes, List.all_append, List.all_cons, List.all_cons, ih, hb]
    cases hc : isDirectiveChar c with
    | false => rfl
    | true => rw [hbs hc]; rfl

theorem byteOffset?_eq_none {c : Char} {cs : List Char} (h : c ∉ cs) : byteOffset? c cs = none := by
  induction cs with
  | nil => rfl
  | cons d ds ih =>
    obtain ⟨hd, hds⟩ := List.ne_and_not_mem_of_not_mem_cons h
    rw [byteOffset?, if_neg (Ne.symm hd), ih hds]
    rfl

/-- The bytes of what stands before the first occurrence are counted. -/
theorem byteOffset?_append_cons {c : Char} {front : List Char} (h : c ∉ front) (rest : List Char) :
    byteOffset? c (front ++ c :: rest) = some (encode front).length := by
  induction front with
  | nil => exact if_pos rfl
  | cons d ds ih =>
    obtain ⟨hd, hds⟩ := List.ne_and_not_mem_of_not_mem_cons h
    rw [List.cons_append, byteOffset?, if_neg (Ne.symm hd), ih hds, encode_cons, List.length_append,
      String.length_utf8EncodeChar]
    rfl

/-! ## Bytes at their places -/

/-- A place behind the last byte leaves out none. -/
theorem all_filter_zipIdx {p : UInt8 → Bool} {bytes : List UInt8} {first place : Nat}
    (h : first + bytes.length ≤ place) :
    ((bytes.zipIdx first).filter fun b => b.2 != place).all (fun b => p b.1) = bytes.all p := by
  induction bytes generalizing first with
  | nil => rfl
  | cons b bytes ih =>
    rw [List.length_cons] at h
    have hfirst : (first != place) = true := by
      rw [bne_iff_ne]
      omega
    rw [List.zipIdx_cons, List.filter_cons, if_pos hfirst, List.all_cons, List.all_cons,
      ih (by omega)]

/-- Of the bytes up to the one behind a colon, all but the colon are looked at. -/
theorem all_upTo_colon (p : UInt8 → Bool) (front : List UInt8) (colon next : UInt8) :
    (((front ++ [colon, next]).zipIdx).filter fun b => b.2 != front.length).all (fun b => p b.1)
      = (front.all p && p next) := by
  have hfront : ((front.zipIdx 0).filter fun b => b.2 != front.length).all (fun b => p b.1)
      = front.all p := all_filter_zipIdx (by omega)
  have hcolon : ¬(0 + front.length != front.length) = true := by simp
  have hnext : (0 + front.length + 1 != front.length) = true := by
    rw [bne_iff_ne]
    omega
  rw [List.zipIdx_append, List.filter_append, List.all_append, hfront, List.zipIdx_cons,
    List.zipIdx_singleton, List.filter_cons, if_neg hcolon, List.filter_cons, if_pos hnext]
  simp

/-! ## The two answers -/

/-- The name in front of the first colon, told by its bytes and by the first byte behind the
colon. -/
theorem namedInBytes?_append_colon {front : List Char} (hfront : ':' ∉ front) (rest : List Char) :
    namedInBytes? (front ++ ':' :: rest)
      = some (!front.isEmpty && front.all isDirectiveChar && rest.head?.any isDirectiveChar) := by
  have hbytes : encode (front ++ ':' :: rest) = encode front ++ 0x3a :: encode rest := by
    rw [encode_append, encode_cons]
    rfl
  rw [namedInBytes?, byteOffset?_append_cons hfront, hbytes]
  dsimp only
  by_cases hname : front = []
  · subst hname
    rfl
  cases rest with
  | nil =>
    have hend : (encode front ++ 0x3a :: encode []).length ≤ (encode front).length + 1 := by
      simp [encode]
    rw [if_pos (Or.inr hend)]
    simp
  | cons next rest =>
    obtain ⟨b, bs, hnext, hb, -⟩ := exists_utf8EncodeChar_eq_cons next
    have hsplit : encode front ++ 0x3a :: encode (next :: rest)
        = encode front ++ [0x3a, b] ++ (bs ++ encode rest) := by
      rw [encode_cons, hnext]
      simp
    have hplace : (encode front).length + 1 + 1 = (encode front ++ [0x3a, b]).length := by simp
    have hin : (encode front).length + 1
        < (encode front ++ [0x3a, b] ++ (bs ++ encode rest)).length := by
      rw [List.length_append, ← hplace]
      omega
    have hpos : (encode front).length ≠ 0 := fun hzero =>
      hname (encode_eq_nil_iff.mp (List.length_eq_zero_iff.mp hzero))
    rw [hsplit, if_neg (by omega), upTo?, if_pos hin, hplace, List.take_left, Option.map_some,
      all_upTo_colon, all_encode, hb, List.isEmpty_eq_false_iff.mpr hname]
    simp

/-- **The bytes give the answer that the characters give**, and no place is behind the last byte. -/
theorem directiveInBytes?_eq (cs : List Char) :
    directiveInBytes? cs = some (isDirective cs) := by
  unfold directiveInBytes? isDirective
  split
  next hold => rw [hold, Bool.true_or]
  next hold =>
    rw [Bool.not_eq_true] at hold
    rw [hold, Bool.false_or]
    by_cases hcolon : ':' ∈ cs
    · obtain ⟨front, rest, rfl, hfront⟩ := List.eq_append_cons_of_mem hcolon
      have hname : (front ++ ':' :: rest).takeWhile (· != ':') = front := by
        rw [← before_singleton, before_append hfront, before_cons_self, List.append_nil]
      have hrest : (front ++ ':' :: rest).drop (front.length + 1) = rest := by
        rw [List.drop_append, List.drop_of_length_le (by omega)]
        simp
      rw [namedInBytes?_append_colon hfront]
      dsimp only
      rw [hname, hrest]
    · -- without a colon the name would be the whole text, and nothing is behind it
      have hname : cs.takeWhile (· != ':') = cs := by
        rw [← before_singleton, ← List.append_nil cs, before_append hcolon]
        rfl
      rw [namedInBytes?, byteOffset?_eq_none hcolon]
      dsimp only
      rw [hname, List.drop_of_length_le (by omega)]
      simp

/-- **What speaks to a tool.** A text is taken for a directive iff it starts with one of three
words, or with a name of small letters and digits, a colon and one more such character. Its bytes
tell the same, and whatever the text is, none is asked for that is not there. -/
theorem isDirective_iff_grammar (s : String) :
    (isDirective s.toList = true ↔
      (∃ word ∈ ["line ", "extern ", "export "], word.toList <+: s.toList) ∨
        ∃ name next rest, s.toList = name ++ ':' :: next :: rest ∧ name ≠ [] ∧
          ∀ c ∈ next :: name, 'a' ≤ c ∧ c ≤ 'z' ∨ '0' ≤ c ∧ c ≤ '9') ∧
      directiveInBytes? s.toList = some (isDirective s.toList) := by
  refine ⟨?_, directiveInBytes?_eq s.toList⟩
  rw [isDirective_iff, Directive]
  simp only [List.exists_mem_cons_iff, List.not_mem_nil, false_and, exists_false, or_false,
    or_assoc]
  refine or_congr_right (or_congr_right (or_congr_right ?_))
  have hclass : ∀ (name : List Char) (next : Char),
      (∀ c ∈ next :: name, 'a' ≤ c ∧ c ≤ 'z' ∨ '0' ≤ c ∧ c ≤ '9') ↔
        (∀ c ∈ name, isDirectiveChar c = true) ∧ isDirectiveChar next = true := by
    intro name next
    rw [List.forall_mem_cons, and_comm]
    simp only [isDirectiveChar_iff]
  simp only [hclass]

/-- Characters of several bytes next to a colon, and behind what is looked at. -/
example : directiveInBytes? "go:é".toList = some false ∧
    directiveInBytes? "é:go".toList = some false ∧
    directiveInBytes? "go:generate é".toList = some true := by
  decide

end DocHarvest.Comment
