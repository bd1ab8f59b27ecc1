import DocHarvest.Proofs.Lexing

/-!
# What a text is scanned into

The scan as a judgement on texts. `Scans cs forms` says that `cs` is scanned into lexemes of the
given kinds and texts, wherever in a source it stands. One rule for each sort of lexeme builds the
judgement from the end of a text to its front. A rule is applied with all that follows in place, so
a lexeme can neither be cut short nor run into the next one.
-/

namespace DocHarvest.Syntax

open DocHarvest.Unicode

/-! ## Forms -/

namespace Lexeme

/-- A kind and a text as a lexeme at no place in particular. -/
def unplaced (kind : LexemeKind) (text : String) : Lexeme :=
  ⟨kind, text.toList, default⟩

/-- What a lexeme is apart from its place. -/
def form (l : Lexeme) : Lexeme :=
  ⟨l.kind, l.text, default⟩

def keyword (text : String) : Lexeme :=
  unplaced .keyword text

def symbol (text : String) : Lexeme :=
  unplaced .symbol text

def name (text : String) : Lexeme :=
  unplaced .identifier text

def string (text : String) : Lexeme :=
  unplaced .string text

def comment (text : String) : Lexeme :=
  unplaced .comment text

def lineBreak : Lexeme :=
  unplaced .lineBreak "\n"

end Lexeme

/-! ## The judgement -/

/-- A text is scanned into lexemes of the given forms, wherever it stands. -/
def Scans (cs : List Char) (forms : List Lexeme) : Prop :=
  ∀ offset row, (lexemesFrom 0 offset row cs).map Lexeme.form = forms

/-- The rest of a lexeme is passed over. -/
theorem lexemesFrom_length_append (text cs : List Char) (offset row : Nat) :
    ∃ offset' row', lexemesFrom text.length offset row (text ++ cs)
      = lexemesFrom 0 offset' row' cs := by
  induction text generalizing offset row with
  | nil => exact ⟨offset, row, rfl⟩
  | cons c text ih => exact ih (offset + 1) (rowAfter row c)

theorem isBlank_of_isSpace {c : Char} (h : isSpace c = true) : isBlank c = true := by
  simp only [isSpace, Bool.or_eq_true, beq_iff_eq] at h
  rcases h with (((rfl | rfl) | rfl) | h) | h
  · decide
  · decide
  · decide
  · simp [isBlank, h]
  · simp [isBlank, h]

namespace Scans

variable {c : Char} {cs : List Char} {forms : List Lexeme}

theorem nil : Scans [] [] :=
  fun _ _ => rfl

/-- A text that starts with a lexeme is scanned into it and what follows, if the lexeme is munched
whole in front of what follows. -/
theorem lexeme {kind : LexemeKind} {text : String}
    (hblank : text.toList.head?.any (fun c => !isBlank c) = true)
    (hmunch : munch (text.toList ++ cs) = (kind, text.toList.length)) (h : Scans cs forms) :
    Scans (text.toList ++ cs) (.unplaced kind text :: forms) := by
  intro offset row
  unfold Lexeme.unplaced
  generalize text.toList = chars at hblank hmunch ⊢
  cases chars with
  | nil => cases hblank
  | cons c chars =>
    have hc : isBlank c = false := by simpa using hblank
    have hne : c ≠ '\n' := by
      rintro rfl
      cases hc
    have hspace : ¬isSpace c = true := fun hspace => by simp [isBlank_of_isSpace hspace] at hc
    obtain ⟨offset', row', hrest⟩ :=
      lexemesFrom_length_append chars cs (offset + 1) (rowAfter row c)
    rw [List.cons_append, List.length_cons] at hmunch
    rw [List.cons_append, lexemesFrom, if_neg hne, if_neg hspace, hmunch]
    dsimp only
    rw [Nat.add_sub_cancel, hrest, List.map_cons, h, Lexeme.form, List.take_succ_cons,
      List.take_left]

/-- An operator or bracket that is munched whole in front of what follows it. -/
theorem symbol (text : String) (hblank : text.toList.head?.any (fun c => !isBlank c) = true)
    (hmunch : munch (text.toList ++ cs) = (.symbol, text.toList.length)) (h : Scans cs forms) :
    Scans (text.toList ++ cs) (.symbol text :: forms) :=
  lexeme hblank hmunch h

theorem lineFeed (h : Scans cs forms) : Scans ('\n' :: cs) (.lineBreak :: forms) := by
  intro offset row
  rw [lexemesFrom, if_pos rfl, List.map_cons, h]
  rfl

theorem blank (hc : isSpace c = true) (h : Scans cs forms) : Scans (c :: cs) forms := by
  intro offset row
  have hne : c ≠ '\n' := by
    rintro rfl
    cases hc
  rw [lexemesFrom, if_neg hne, if_pos hc, h]

end Scans

/-! ## Words -/

/-- Whether a text has the form of an identifier or a keyword. -/
def isWord : List Char → Bool
  | [] => false
  | c :: cs => isIdentifierStart c && cs.all isIdentifierPart

/-- A word is munched whole if no character follows that could be part of it. -/
theorem munch_word {w cs : List Char} (hw : isWord w = true)
    (hend : cs.head?.all (fun d => !isIdentifierPart d) = true) :
    munch (w ++ cs)
      = (if keywords.any (·.toList = w) then .keyword else .identifier, w.length) := by
  cases w with
  | nil => cases hw
  | cons c w =>
    obtain ⟨hc, hparts⟩ := Bool.and_eq_true_iff.mp hw
    have hwhole : (w ++ cs).takeWhile isIdentifierPart = w := by
      rw [List.takeWhile_append_of_pos (List.all_eq_true.mp hparts)]
      cases cs with
      | nil => simp
      | cons d ds =>
        have hd : isIdentifierPart d = false := by simpa using hend
        simp [hd]
    rw [List.cons_append, munch, if_pos hc, hwhole]

theorem starts_of_isWord {w : List Char} (h : isWord w = true) :
    w.head?.any (fun c => !isBlank c) = true := by
  cases w with
  | nil => cases h
  | cons c w => simpa using isBlank_of_isIdentifierStart (Bool.and_eq_true_iff.mp h).1

namespace Scans

variable {cs : List Char} {forms : List Lexeme}

theorem keyword (text : String) (htext : keywords.contains text = true)
    (hend : cs.head?.all (fun d => !isIdentifierPart d) = true) (h : Scans cs forms) :
    Scans (text.toList ++ cs) (.keyword text :: forms) := by
  have hwords : ∀ s ∈ keywords, isWord s.toList = true := by decide +kernel
  have hmem : text ∈ keywords := List.contains_iff_mem.mp htext
  have hany : keywords.any (·.toList = text.toList) = true :=
    List.any_eq_true.mpr ⟨text, hmem, decide_eq_true rfl⟩
  refine lexeme (starts_of_isWord (hwords text hmem)) ?_ h
  rw [munch_word (hwords text hmem) hend, if_pos hany]

theorem name (text : String) (htext : isWord text.toList = true)
    (hkeyword : keywords.contains text = false)
    (hend : cs.head?.all (fun d => !isIdentifierPart d) = true) (h : Scans cs forms) :
    Scans (text.toList ++ cs) (.name text :: forms) := by
  have hany : ¬keywords.any (·.toList = text.toList) = true := by
    simpa [String.toList_inj] using hkeyword
  refine lexeme (starts_of_isWord htext) ?_ h
  rw [munch_word htext hend, if_neg hany]

end Scans

/-! ## Strings -/

theorem interpretedLength_plain {c : Char} (hquote : c ≠ '"') (hline : c ≠ '\n') (hslash : c ≠ '\\')
    (cs : List Char) : interpretedLength (c :: cs) = (interpretedLength cs).map (· + 1) := by
  rw [interpretedLength.eq_def]
  dsimp only
  rw [if_neg hquote, if_neg hline, if_neg hslash]

theorem interpretedLength_escape {c : Char} {cs : List Char} (h : escapeComplete c cs = true) :
    interpretedLength ('\\' :: c :: cs) = (interpretedLength cs).map (· + 2) := by
  rw [interpretedLength.eq_def]
  dsimp only
  rw [if_neg (by decide), if_neg (by decide), if_pos rfl, if_pos h]

/-! ## Comments -/

theorem blockCommentLength_append {body : List Char} (h : '*' ∉ body) (cs : List Char) :
    blockCommentLength (body ++ '*' :: '/' :: cs) = some (body.length + 2) := by
  induction body with
  | nil => simp [blockCommentLength]
  | cons c body ih =>
    obtain ⟨hc, hbody⟩ := not_or.mp (mt List.mem_cons.mpr h)
    rw [List.cons_append, blockCommentLength, if_neg fun hstar => hc hstar.1.symm, ih hbody]
    rfl

theorem munch_blockComment {cs : List Char} {n : Nat} (h : blockCommentLength cs = some n) :
    munch ('/' :: '*' :: cs) = (.comment, n + 2) := by
  have hstart : isIdentifierStart '/' = false := by decide
  simp [munch, h, hstart]

namespace Scans

variable {cs : List Char} {forms : List Lexeme}

theorem lineComment (text : String) {line : List Char} (htext : text.toList = '/' :: '/' :: line)
    (hline : '\n' ∉ line) (h : Scans ('\n' :: cs) forms) :
    Scans (text.toList ++ '\n' :: cs) (.comment text :: forms) := by
  refine lexeme (by rw [htext]; rfl) ?_ h
  have hwhole : ('/' :: line ++ '\n' :: cs).takeWhile (· != '\n') = '/' :: line := by
    have hpos : ∀ c ∈ '/' :: line, (c != '\n') = true := by
      intro c hc
      have hne : c ≠ '\n' := by
        rintro rfl
        simp [hline] at hc
      simpa using hne
    rw [List.takeWhile_append_of_pos hpos]
    simp
  have hmunch : munch ('/' :: '/' :: line ++ '\n' :: cs)
      = (.comment, (('/' :: line ++ '\n' :: cs).takeWhile (· != '\n')).length + 1) := rfl
  rw [htext, hmunch, hwhole]
  rfl

theorem blockComment (text : String) {body : List Char}
    (htext : text.toList = '/' :: '*' :: body ++ ['*', '/']) (hbody : '*' ∉ body)
    (h : Scans cs forms) :
    Scans (text.toList ++ cs) (.comment text :: forms) := by
  refine lexeme (by rw [htext]; rfl) ?_ h
  have hlength : blockCommentLength (body ++ ['*', '/'] ++ cs) = some (body.length + 2) := by
    rw [List.append_assoc]
    exact blockCommentLength_append hbody cs
  rw [htext]
  exact (munch_blockComment hlength).trans (by simp)

/-- A source text is scanned from its start, if it starts with no mark of byte order. -/
theorem map_form_lexemes (h : Scans cs forms) (hmark : cs.head? ≠ some byteOrderMark) :
    (lexemes cs).map Lexeme.form = forms := by
  rw [lexemes, if_neg hmark, h]

end Scans

end DocHarvest.Syntax
