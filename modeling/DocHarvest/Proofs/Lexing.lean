import DocHarvest.Syntax.Lexeme
import DocHarvest.Text.Basic

/-!
# Lexemes in their places

What a lexeme says about itself is true of the source text (`Lexeme.Placed`): its text is what its
span cuts out, its rows count the line feeds before its ends, it is not empty and lies inside the
text. Lexemes stand in order and without overlap (`inPlace_lexemes`).

The argument is that of the scan. At each place the rest of the text is the source without what was
passed over, and a lexeme is as long as `munch` says, which is at least one character and never more
than there are (`munched_munch`).
-/

namespace DocHarvest.Syntax

open DocHarvest.Unicode

/-! ## The extent of literals -/

theorem interpretedLength_le {cs : List Char} {n : Nat} (h : interpretedLength cs = some n) :
    n ≤ cs.length := by
  fun_induction interpretedLength cs generalizing n with
  | case1 => cases h
  | case2 cs => cases h; simp
  | case3 => cases h
  | case4 => cases h
  | case5 e rest _ _ _ ih =>
    obtain ⟨m, hm, rfl⟩ := Option.map_eq_some_iff.mp h
    have := ih hm
    simp only [List.length_cons]
    omega
  | case6 => cases h
  | case7 c cs _ _ _ ih =>
    obtain ⟨m, hm, rfl⟩ := Option.map_eq_some_iff.mp h
    have := ih hm
    simp only [List.length_cons]
    omega

theorem rawLength_le {cs : List Char} {n : Nat} (h : rawLength cs = some n) : n ≤ cs.length := by
  fun_induction rawLength cs generalizing n with
  | case1 => cases h
  | case2 c cs _ => cases h; simp
  | case3 c cs _ ih =>
    obtain ⟨m, hm, rfl⟩ := Option.map_eq_some_iff.mp h
    have := ih hm
    simp only [List.length_cons]
    omega

theorem blockCommentLength_le {cs : List Char} {n : Nat} (h : blockCommentLength cs = some n) :
    n ≤ cs.length := by
  fun_induction blockCommentLength cs generalizing n with
  | case1 => cases h
  | case2 c cs hclose =>
    cases h
    cases cs with
    | nil => cases hclose.2
    | cons d ds => simp
  | case3 c cs _ ih =>
    obtain ⟨m, hm, rfl⟩ := Option.map_eq_some_iff.mp h
    have := ih hm
    simp only [List.length_cons]
    omega

theorem runeLength_le {cs : List Char} {n : Nat} (h : runeLength cs = some n) : n ≤ cs.length := by
  cases cs with
  | nil => cases h
  | cons c cs =>
    rw [runeLength] at h
    split at h
    next => cases h
    split at h
    next =>
      split at h
      next => cases h
      next m _ =>
        split at h
        next hquote =>
          cases h
          have hlt := (List.getElem?_eq_some_iff.mp hquote).1
          simp only [List.length_cons]
          omega
        next => cases h
    split at h
    next hquote =>
      cases h
      cases cs with
      | nil => cases hquote
      | cons d ds => simp
    next => cases h

theorem moreDigits_le (p : Char → Bool) (cs : List Char) : moreDigits p cs ≤ cs.length := by
  fun_induction moreDigits p cs with
  | case1 => exact Nat.le_refl _
  | case2 c cs _ ih => simp only [List.length_cons]; omega
  | case3 => exact Nat.zero_le _
  | case4 d ds _ _ ih => simp only [List.length_cons]; omega
  | case5 => exact Nat.zero_le _
  | case6 => exact Nat.zero_le _

theorem digits_le (p : Char → Bool) (cs : List Char) : digits p cs ≤ cs.length := by
  cases cs with
  | nil => exact Nat.le_refl _
  | cons c cs =>
    rw [digits]
    split
    next => exact Nat.succ_le_succ (moreDigits_le p cs)
    next => exact Nat.zero_le _

theorem markedDigits_le (p : Char → Bool) (cs : List Char) : markedDigits p cs ≤ cs.length := by
  unfold markedDigits
  split
  next rest =>
    have := digits_le p rest
    split
    next => exact Nat.zero_le _
    next => exact Nat.succ_le_succ this
  next => exact digits_le p cs

theorem exponent_le (lower upper : Char) (cs : List Char) :
    exponent lower upper cs ≤ cs.length := by
  cases cs with
  | nil => exact Nat.le_refl _
  | cons c cs =>
    rw [exponent]
    split
    next =>
      have hsign : (if cs.head? = some '+' ∨ cs.head? = some '-' then 1 else 0) ≤ cs.length := by
        cases cs with
        | nil => simp
        | cons d ds => split <;> simp
      generalize (if cs.head? = some '+' ∨ cs.head? = some '-' then 1 else 0) = sign at hsign ⊢
      have hdigits := digits_le Char.isDigit (cs.drop sign)
      rw [List.length_drop] at hdigits
      dsimp only
      split
      next => exact Nat.zero_le _
      next => simp only [List.length_cons]; omega
    next => exact Nat.zero_le _

theorem integerLengths_le {cs : List Char} : ∀ n ∈ integerLengths cs, n ≤ cs.length := by
  intro n hn
  unfold integerLengths at hn
  dsimp only at hn
  simp only [List.mem_append] at hn
  rcases hn with (((hn | hn) | hn) | hn) | hn
  · split at hn
    next => simp at hn; simp [hn]
    next => simp at hn; exact hn ▸ digits_le _ _
  · split at hn
    next rest =>
      have := markedDigits_le isOctalDigit rest
      split at hn
      next => simp only [List.mem_singleton] at hn; simp only [List.length_cons]; omega
      next => cases hn
    next => cases hn
  all_goals
    -- the three bases with a letter
    split at hn
    next c rest =>
      split at hn
      next =>
        rw [List.mem_singleton] at hn
        rw [hn, List.length_cons, List.length_cons, Nat.add_comm 2]
        exact Nat.add_le_add_right (markedDigits_le _ rest) 2
      next => cases hn
    next => cases hn

theorem fractionLengths_le {cs : List Char} : ∀ n ∈ fractionLengths cs, n ≤ cs.length := by
  intro n hn
  unfold fractionLengths at hn
  dsimp only at hn
  have hwhole := digits_le Char.isDigit cs
  have hrest := List.length_drop (i := digits Char.isDigit cs) (l := cs)
  -- only the bounds on the parts count from here on
  generalize digits Char.isDigit cs = whole at hn hwhole hrest
  generalize cs.drop whole = rest at hn hrest
  rw [List.mem_append] at hn
  rcases hn with hn | hn
  · have hscale := exponent_le 'e' 'E' rest
    split at hn
    next => simp only [List.mem_singleton] at hn; omega
    next => cases hn
  · split at hn
    next after =>
      split at hn
      next => cases hn
      next =>
        have hpart := digits_le Char.isDigit after
        have hscale := exponent_le 'e' 'E' (after.drop (digits Char.isDigit after))
        simp only [List.length_drop, List.length_cons, List.mem_singleton] at hn hscale hrest
        omega
    next => cases hn

theorem hexFractionLengths_le {cs : List Char} : ∀ n ∈ hexFractionLengths cs, n ≤ cs.length := by
  intro n hn
  unfold hexFractionLengths at hn
  split at hn
  next c rest =>
    split at hn
    next =>
      dsimp only at hn
      obtain ⟨m, hm, hsome⟩ := List.mem_filterMap.mp hn
      have hwhole := markedDigits_le isHexDigit rest
      have hm : m ≤ rest.length := by
        split at hm
        next after hafter =>
          have hlength := congrArg List.length hafter
          have hpart := digits_le isHexDigit after
          simp only [List.length_drop, List.length_cons] at hlength
          split at hm
          next => cases hm
          next =>
            simp only [List.mem_cons, List.not_mem_nil, or_false] at hm
            omega
        next =>
          rw [List.mem_singleton] at hm
          omega
      have hscale := exponent_le 'p' 'P' (rest.drop m)
      rw [List.length_drop] at hscale
      split at hsome
      next =>
        cases hsome
        simp only [List.length_cons]
        omega
      next => cases hsome
    next => cases hn
  next => cases hn

theorem numberLength_le (cs : List Char) : numberLength cs ≤ cs.length := by
  unfold numberLength
  refine (List.max?_le_iff List.max?_cons').mpr (List.forall_mem_cons.mpr ⟨Nat.zero_le _, ?_⟩)
  intro n hn
  rcases List.mem_append.mp hn with hn | hn
  · rcases List.mem_append.mp hn with hn | hn
    · rcases List.mem_append.mp hn with hn | hn
      · exact integerLengths_le n hn
      · exact fractionLengths_le n hn
    · exact hexFractionLengths_le n hn
  · obtain ⟨m, -, hsome⟩ := List.mem_filterMap.mp hn
    split at hsome
    next himaginary =>
      cases hsome
      exact (List.getElem?_eq_some_iff.mp himaginary.2).1
    next => cases hsome

theorem digits_pos {p : Char → Bool} {c : Char} (hc : p c = true) (cs : List Char) :
    0 < digits p (c :: cs) := by
  rw [digits, if_pos hc]
  exact Nat.succ_pos _

/-- A digit starts a number, and so does a point before a digit. -/
theorem numberLength_pos {c : Char} {cs : List Char}
    (h : (c.isDigit || (c == '.' && cs.head?.any Char.isDigit)) = true) :
    0 < numberLength (c :: cs) := by
  -- one reading that is not empty is enough, because the longest counts
  have hreading : ∃ n ∈ integerLengths (c :: cs) ++ fractionLengths (c :: cs), 0 < n := by
    by_cases hc : c.isDigit = true
    · by_cases hzero : c = '0'
      · subst hzero
        exact ⟨1, by simp [integerLengths], Nat.one_pos⟩
      · refine ⟨digits Char.isDigit (c :: cs), ?_, digits_pos hc cs⟩
        simp [integerLengths, hzero]
    · simp only [Bool.not_eq_true] at hc
      simp only [hc, Bool.false_or, Bool.and_eq_true, beq_iff_eq] at h
      obtain ⟨rfl, hd⟩ := h
      cases cs with
      | nil => cases hd
      | cons d ds =>
        have hd : d.isDigit = true := hd
        have hpart := digits_pos hd ds
        have hwhole : digits Char.isDigit ('.' :: d :: ds) = 0 := by rw [digits, hc]; rfl
        refine ⟨1 + digits Char.isDigit (d :: ds)
          + exponent 'e' 'E' ((d :: ds).drop (digits Char.isDigit (d :: ds))), ?_, by omega⟩
        refine List.mem_append_right _ (List.mem_append_right _ ?_)
        simp [hwhole, Nat.pos_iff_ne_zero.mp hpart]
  obtain ⟨n, hn, hpos⟩ := hreading
  unfold numberLength
  refine Nat.lt_of_lt_of_le hpos ((List.max?_le_iff List.max?_cons').mp (Nat.le_refl _) n ?_)
  exact List.mem_cons_of_mem _ (List.mem_append_left _ (List.mem_append_left _ hn))

/-! ## The lexeme at the front of a text -/

/-- What is known of the lexeme at the front of a text from its kind and its length. -/
structure Munched (c : Char) (cs : List Char) (kind : LexemeKind) (n : Nat) : Prop where
  pos : 0 < n
  le : n ≤ (c :: cs).length
  kind_ne : kind ≠ .lineBreak
  visible : kind ≠ .stray → isBlank c = false
  semicolon : c = ';' → kind = .symbol
  identifier : kind = .identifier → ∀ d ∈ (c :: cs).take n, isIdentifierPart d = true

theorem isIdentifierPart_of_isIdentifierStart {c : Char} (h : isIdentifierStart c = true) :
    isIdentifierPart c = true := by
  unfold isIdentifierStart at h
  unfold isIdentifierPart
  split at h
  next hascii =>
    rw [if_pos hascii]
    simp only [Bool.or_eq_true] at h
    rcases h with h | h
    · simp [Char.isAlphanum, h]
    · simp [h]
  next hascii => rw [if_neg hascii, h, Bool.true_or]

/-- What holds of each code point of ASCII holds of each character there. -/
theorem ascii_all {P : Char → Prop} (h : ∀ n < 0x80, P (Char.ofNat n)) (c : Char)
    (hc : c.toNat < 0x80) : P c := by
  have := h c.toNat hc
  rwa [Char.ofNat_toNat] at this

/-- Ranges that keep apart have no character in common. -/
theorem contains_eq_false_of_apart {rs ss : Ranges}
    (h : ∀ r ∈ rs, ∀ s ∈ ss, r.2 < s.1 ∨ s.2 < r.1) {c : Char} (hc : rs.contains c = true) :
    ss.contains c = false := by
  obtain ⟨r, hr, hrc⟩ := List.any_eq_true.mp hc
  rw [Ranges.contains, List.any_eq_false]
  intro s hs hsc
  simp only [Bool.and_eq_true, decide_eq_true_eq] at hrc hsc
  have := h r hr s hs
  omega

/-- A class of characters that is told by `ascii` in ASCII, and by a table beyond, has nothing in
common with another one: the tables are told apart range by range, and ASCII character by
character. -/
theorem apart_of_class (p q : Char → Bool) {ascii : Char → Bool} {table table' : Ranges}
    (hp : ∀ c, p c = if c.toNat < 0x80 then ascii c else table.contains c)
    (hq : ∀ c, ¬c.toNat < 0x80 → q c = table'.contains c)
    (hascii : ∀ n < 0x80, ascii (Char.ofNat n) = true → q (Char.ofNat n) = false)
    (hapart : ∀ r ∈ table, ∀ s ∈ table', r.2 < s.1 ∨ s.2 < r.1) {c : Char} (h : p c = true) :
    q c = false := by
  rw [hp] at h
  split at h
  next hlow => exact ascii_all (P := fun c => ascii c = true → q c = false) hascii c hlow h
  next hhigh =>
    rw [hq c hhigh]
    exact contains_eq_false_of_apart hapart h

/-- Such a class has no white space if neither its part in ASCII nor its table has any. -/
theorem isBlank_of_class (p : Char → Bool) {ascii : Char → Bool} {table : Ranges}
    (hp : ∀ c, p c = if c.toNat < 0x80 then ascii c else table.contains c)
    (hascii : ∀ n < 0x80, ascii (Char.ofNat n) = true → isBlank (Char.ofNat n) = false)
    (hapart : ∀ r ∈ table, ∀ s ∈ blankRanges, r.2 < s.1 ∨ s.2 < r.1) {c : Char}
    (h : p c = true) : isBlank c = false :=
  apart_of_class p isBlank hp (fun _ hhigh => if_neg hhigh) hascii hapart h

theorem isBlank_of_isIdentifierStart {c : Char} (h : isIdentifierStart c = true) :
    isBlank c = false :=
  isBlank_of_class isIdentifierStart (fun _ => rfl) (by decide +kernel) (by decide +kernel) h

theorem munched_symbol (c : Char) (cs : List Char) :
    Munched c cs (munchSymbol (c :: cs)).1 (munchSymbol (c :: cs)).2 := by
  have hsymbols : ∀ s ∈ symbols, s.toList.head?.any (!isBlank ·) = true := by decide +kernel
  unfold munchSymbol
  split
  next s hs =>
    have hvisible := hsymbols s (List.mem_of_find?_eq_some hs)
    have hfound := List.find?_some hs
    have hpre := List.isPrefixOf_iff_prefix.mp hfound
    have hlength : s.length = s.toList.length := String.length_toList.symm
    have hle := hpre.length_le
    rw [hlength]
    generalize s.toList = t at hvisible hpre hle
    cases t with
    | nil => cases hvisible
    | cons d ds =>
      obtain ⟨rfl, -⟩ := List.cons_prefix_cons.mp hpre
      exact ⟨by simp, hle, by simp, fun _ => by simpa using hvisible, fun _ => rfl, by simp⟩
  next hnone =>
    refine ⟨Nat.one_pos, by simp, by simp, by simp, ?_, by simp⟩
    rintro rfl
    have := List.find?_eq_none.mp hnone ";" (by decide)
    simp at this

/-- A word that starts with `c`. -/
theorem munched_word {c : Char} {cs : List Char} (hc : isIdentifierStart c = true)
    {kind : LexemeKind} (hkind : kind ≠ .lineBreak) :
    Munched c cs kind (c :: cs.takeWhile isIdentifierPart).length := by
  have hpre : c :: cs.takeWhile isIdentifierPart <+: c :: cs :=
    List.cons_prefix_cons.mpr ⟨rfl, List.takeWhile_prefix _⟩
  refine ⟨by simp, hpre.length_le, hkind, fun _ => isBlank_of_isIdentifierStart hc, ?_, ?_⟩
  · rintro rfl
    exact absurd hc (by decide +kernel)
  · intro _ d hd
    rw [← List.prefix_iff_eq_take.mp hpre] at hd
    rcases List.mem_cons.mp hd with rfl | hd
    · exact isIdentifierPart_of_isIdentifierStart hc
    · exact List.all_eq_true.mp List.all_takeWhile d hd

/-- A lexeme of a kind that its first character tells. -/
theorem munched_of_first {c : Char} {cs : List Char} {kind : LexemeKind} {n : Nat}
    (hc : isBlank c = false ∧ c ≠ ';') (hkind : kind ≠ .lineBreak ∧ kind ≠ .identifier)
    (hpos : 0 < n) (hle : n ≤ (c :: cs).length) : Munched c cs kind n :=
  ⟨hpos, hle, hkind.1, fun _ => hc.1, fun h => absurd h hc.2, fun h => absurd h hkind.2⟩

theorem munched_closed {c : Char} {cs : List Char} {kind : LexemeKind} {rest : Option Nat}
    (hc : isBlank c = false ∧ c ≠ ';') (hkind : kind ≠ .lineBreak ∧ kind ≠ .identifier)
    (hrest : ∀ n, rest = some n → n ≤ cs.length) :
    Munched c cs (munchClosed kind rest).1 (munchClosed kind rest).2 := by
  cases rest with
  | none => exact munched_of_first hc (by simp [munchClosed]) Nat.one_pos (by simp [munchClosed])
  | some n => exact munched_of_first hc hkind (Nat.succ_pos n) (Nat.succ_le_succ (hrest n rfl))

/-- `munch` takes at least one character and no more than there are. -/
theorem munched_munch (c : Char) (cs : List Char) :
    Munched c cs (munch (c :: cs)).1 (munch (c :: cs)).2 := by
  rw [munch]
  split
  next hstart =>
    refine munched_word hstart ?_
    dsimp only
    split
    next => simp
    next => simp
  split
  next hnumber =>
    refine munched_of_first ?_ (by simp) (numberLength_pos hnumber) (numberLength_le _)
    simp only [Bool.or_eq_true, Bool.and_eq_true, beq_iff_eq] at hnumber
    rcases hnumber with hdigit | ⟨rfl, -⟩
    · have hascii : c.toNat < 0x80 :=
        Nat.lt_of_le_of_lt (Char.isDigit_iff_toNat.mp hdigit).2 (by decide)
      exact ascii_all (P := fun c => c.isDigit = true → isBlank c = false ∧ c ≠ ';')
        (by decide +kernel) c hascii hdigit
    · decide
  split
  next hquote =>
    subst hquote
    exact munched_closed (by decide) (by simp) fun n => interpretedLength_le
  split
  next hquote =>
    have hc : c = Char.ofNat 0x60 := by rw [← hquote, Char.ofNat_toNat]
    subst hc
    exact munched_closed (by decide) (by simp) fun n => rawLength_le
  split
  next hquote =>
    subst hquote
    exact munched_closed (by decide) (by simp) fun n => runeLength_le
  split
  next hline =>
    obtain ⟨rfl, -⟩ := hline
    refine munched_of_first (by decide) (by simp) (Nat.succ_pos _) (Nat.succ_le_succ ?_)
    exact (List.takeWhile_prefix _).length_le
  split
  next hblock =>
    obtain ⟨rfl, hstar⟩ := hblock
    split
    next n hn =>
      have hle := blockCommentLength_le hn
      refine munched_of_first (by decide) (by simp) (Nat.succ_pos _) ?_
      cases cs with
      | nil => cases hstar
      | cons d ds => simpa using hle
    next =>
      -- a comment that is not closed is read as an operator
      exact munched_symbol '/' cs
  next => exact munched_symbol c cs

/-! ## The scan -/

/-- The row of an offset: the number of line feeds before it. -/
def rowAt (source : List Char) (offset : Nat) : Nat :=
  (source.take offset).count '\n'

theorem rowAt_mono (source : List Char) {a b : Nat} (h : a ≤ b) : rowAt source a ≤ rowAt source b :=
  (List.take_prefix_take_left h).sublist.count_le '\n'

theorem rowAt_add (source : List Char) (offset n : Nat) :
    rowAt source (offset + n) = rowAt source offset + ((source.drop offset).take n).count '\n' := by
  rw [rowAt, List.take_add, List.count_append]
  rfl

/-- What a lexeme says about itself is true of the source text. -/
structure Lexeme.Placed (source : List Char) (l : Lexeme) : Prop where
  text : l.span.text source = l.text
  startRow : l.span.startRow = rowAt source l.span.start
  endRow : l.span.endRow = rowAt source l.span.stop
  start_lt_stop : l.span.start < l.span.stop
  stop_le : l.span.stop ≤ source.length
  /-- A lexeme that is no line break starts with the character that decided its kind. -/
  munched : l.kind ≠ .lineBreak → ∃ c cs, source.drop l.span.start = c :: cs ∧
    Munched c cs l.kind (l.span.stop - l.span.start)

theorem length_of_drop_eq_cons {source : List Char} {offset : Nat} {c : Char} {cs : List Char}
    (h : source.drop offset = c :: cs) : offset + (cs.length + 1) = source.length := by
  have := congrArg List.length h
  simp only [List.length_drop, List.length_cons] at this
  omega

theorem drop_succ_of_drop_eq_cons {source : List Char} {offset : Nat} {c : Char} {cs : List Char}
    (h : source.drop offset = c :: cs) : source.drop (offset + 1) = cs := by
  rw [← List.drop_drop, h]
  rfl

theorem rowAt_succ_of_drop_eq_cons {source : List Char} {offset : Nat} {c : Char} {cs : List Char}
    (h : source.drop offset = c :: cs) :
    rowAt source (offset + 1) = rowAfter (rowAt source offset) c := by
  rw [rowAt_add, h, rowAfter]
  by_cases hc : c = '\n'
  · simp [hc]
  · simp [hc]

/-- Lexemes in their places, in order, without overlap and none before an offset. -/
structure InPlace (source : List Char) (low : Nat) (ls : List Lexeme) : Prop where
  placed : ∀ l ∈ ls, l.Placed source
  low_le : ∀ l ∈ ls, low ≤ l.span.start
  pairwise : ls.Pairwise fun a b => a.span.stop ≤ b.span.start

namespace InPlace

variable {source : List Char} {low high : Nat} {l : Lexeme} {ls : List Lexeme}

theorem nil : InPlace source low [] :=
  ⟨by simp, by simp, List.Pairwise.nil⟩

theorem mono (hle : low ≤ high) (h : InPlace source high ls) : InPlace source low ls :=
  ⟨h.placed, fun l hl => Nat.le_trans hle (h.low_le l hl), h.pairwise⟩

theorem cons (hl : l.Placed source) (hlow : low ≤ l.span.start)
    (h : InPlace source l.span.stop ls) : InPlace source low (l :: ls) where
  placed := List.forall_mem_cons.mpr ⟨hl, h.placed⟩
  low_le := by
    refine List.forall_mem_cons.mpr ⟨hlow, fun k hk => ?_⟩
    have := h.low_le k hk
    have := hl.start_lt_stop
    omega
  pairwise := List.pairwise_cons.mpr ⟨h.low_le, h.pairwise⟩

end InPlace

/-- The lexeme that `munch` finds at an offset is in its place. -/
theorem placed_munch {source : List Char} {offset : Nat} {c : Char} {cs : List Char}
    (hcs : source.drop offset = c :: cs) {kind : LexemeKind} {n : Nat}
    (hmunch : munch (c :: cs) = (kind, n)) :
    Lexeme.Placed source ⟨kind, (c :: cs).take n, ⟨offset, offset + n, rowAt source offset,
      rowAt source offset + ((c :: cs).take n).count '\n'⟩⟩ := by
  have hmunched := munched_munch c cs
  rw [hmunch] at hmunched
  have hlength := length_of_drop_eq_cons hcs
  have hpos := hmunched.pos
  have hle := hmunched.le
  have hn : offset + n - offset = n := Nat.add_sub_cancel_left offset n
  simp only [List.length_cons] at hle hpos
  refine ⟨?_, rfl, ?_, ?_, ?_, ?_⟩
  · show (source.drop offset).take (offset + n - offset) = _
    rw [hn, hcs]
  · show _ = rowAt source (offset + n)
    rw [rowAt_add, hcs]
  · show offset < offset + n
    omega
  · show offset + n ≤ source.length
    omega
  · intro _
    refine ⟨c, cs, hcs, ?_⟩
    show Munched c cs kind (offset + n - offset)
    rw [hn]
    exact hmunched

/-- A scan from an offset finds lexemes in their places, none of them among the characters that are
to be passed over. -/
theorem inPlace_lexemesFrom (source : List Char) (skip offset row : Nat) (cs : List Char)
    (hcs : source.drop offset = cs) (hrow : row = rowAt source offset) :
    InPlace source (offset + skip) (lexemesFrom skip offset row cs) := by
  fun_induction lexemesFrom skip offset row cs with
  | case1 => exact InPlace.nil
  | case2 skip offset row c cs ih =>
    -- a character of the lexeme before
    have hrest := ih (drop_succ_of_drop_eq_cons hcs)
      (hrow ▸ (rowAt_succ_of_drop_eq_cons hcs).symm)
    exact hrest.mono (by omega)
  | case3 offset row cs ih =>
    -- a line feed is a lexeme of its own
    have hnext := rowAt_succ_of_drop_eq_cons hcs
    rw [rowAfter, if_pos rfl, ← hrow] at hnext
    have hlength := length_of_drop_eq_cons hcs
    refine InPlace.cons ⟨?_, hrow, hnext.symm, ?_, ?_, ?_⟩ (Nat.le_refl _) ?_
    · show (source.drop offset).take (offset + 1 - offset) = _
      rw [hcs, Nat.add_sub_cancel_left]
      rfl
    · exact Nat.lt_succ_self offset
    · show offset + 1 ≤ source.length
      omega
    · exact fun hkind => absurd rfl hkind
    · exact ih (drop_succ_of_drop_eq_cons hcs) hnext.symm
  | case4 offset row c cs hbreak hspace ih =>
    have hnext := rowAt_succ_of_drop_eq_cons hcs
    rw [rowAfter, if_neg hbreak, ← hrow] at hnext
    exact (ih (drop_succ_of_drop_eq_cons hcs) hnext.symm).mono (by omega)
  | case5 offset row c cs hbreak hspace kind n hmunch text ih =>
    subst hrow
    have hrest := ih (drop_succ_of_drop_eq_cons hcs) (rowAt_succ_of_drop_eq_cons hcs).symm
    exact InPlace.cons (placed_munch hcs hmunch) (Nat.le_refl _) (hrest.mono (by dsimp only; omega))

/-- **Lexemes are in their places**, in order and without overlap. -/
theorem inPlace_lexemes (source : List Char) : InPlace source 0 (lexemes source) :=
  (inPlace_lexemesFrom source _ 0 0 source rfl (by simp [rowAt])).mono (Nat.zero_le _)

end DocHarvest.Syntax
