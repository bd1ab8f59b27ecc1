import DocHarvest.Proofs.Lexing
import DocHarvest.Proofs.Rendering

/-!
# Literals delimit themselves

A literal can be read from the front of any text. The reader takes just the literal and finds the
text that was written (`quote_delimited`), because every character is spelled in a way that tells
where the spelling ends, whatever comes next.

Whoever looks at the literal sees all of it, too. Its characters are printable
(`Spelling.isPrintable`), so none of them is a control character, a separator, a byte order mark or
white space other than a space, and a quote is found inside only behind the backslash that escapes
it (`GuardsQuotes`).
-/

namespace DocHarvest.Output

open DocHarvest.Syntax DocHarvest.Text DocHarvest.Unicode

/-! ## Printable characters -/

/-- A character that shows where it stands, and a space. -/
structure Shows (c : Char) : Prop where
  control : isControl c = false
  /-- The line separator and the paragraph separator. -/
  separator : c ≠ Char.ofNat 0x2028 ∧ c ≠ Char.ofNat 0x2029
  mark : c ≠ byteOrderMark
  blank : isBlank c = true → c = ' '

theorem shows_of_isPrintable {c : Char} (h : isPrintable c = true) : Shows c := by
  have hne : ∀ {d : Char}, isPrintable d = false → c ≠ d := by
    rintro d hd rfl
    rw [h] at hd
    cases hd
  by_cases hspace : c = ' '
  · subst hspace
    exact ⟨by decide, by decide, by decide, fun _ => rfl⟩
  · have hplain : (isControl c || isBlank c || formatRanges.contains c) = false := by
      simpa [isPrintable, hspace] using h
    simp only [Bool.or_eq_false_iff] at hplain
    obtain ⟨⟨hcontrol, hblank⟩, -⟩ := hplain
    refine ⟨hcontrol, ⟨hne (by decide), hne (by decide)⟩, hne (by decide), ?_⟩
    intro hpos
    rw [hblank] at hpos
    cases hpos

theorem isPrintable_of_isHexDigit {c : Char} (h : isHexDigit c = true) :
    isPrintable c = true ∧ c ≠ '"' := by
  have hascii : c.toNat < 0x80 := by
    simp only [isHexDigit, Bool.or_eq_true, Bool.and_eq_true, decide_eq_true_eq] at h
    rcases h with (hdigit | ⟨-, hlower⟩) | ⟨-, hupper⟩
    · exact Nat.lt_of_le_of_lt (Char.isDigit_iff_toNat.mp hdigit).2 (by decide)
    · exact Nat.lt_of_le_of_lt hlower (by decide)
    · exact Nat.lt_of_le_of_lt hupper (by decide)
  exact ascii_all (P := fun c => isHexDigit c = true → isPrintable c = true ∧ c ≠ '"')
    (by decide +kernel) c hascii h

/-- Whatever a character is, its spelling shows. -/
theorem Spelling.isPrintable {c : Char} {spelled : List Char} (h : Spelling c spelled) :
    ∀ d ∈ spelled, isPrintable d = true := by
  cases h with
  | letter hl =>
    have hletters : (letterEscapes.all fun e => ['\\', e.2].all Output.isPrintable) = true := by
      decide
    exact List.all_eq_true.mp (List.all_eq_true.mp hletters _ hl)
  | @number mark width hmark =>
    have hmarks : (numberMarks.all fun e => ['\\', e.1].all Output.isPrintable) = true := by decide
    intro d hd
    rcases List.mem_append.mp (show d ∈ ['\\', mark] ++ _ from hd) with hd | hd
    · exact List.all_eq_true.mp (List.all_eq_true.mp hmarks _ hmark) d hd
    · exact (isPrintable_of_isHexDigit (isHexDigit_of_mem_hexPadded d hd)).1
  | itself hprint =>
    intro d hd
    rw [List.mem_singleton.mp hd]
    exact hprint

/-! ## Quotes -/

/-- Each quote in a text has a backslash in front of it. -/
def GuardsQuotes (cs : List Char) : Prop :=
  ∀ front back, cs = front ++ '"' :: back → front.getLast? = some '\\'

namespace GuardsQuotes

theorem of_notMem {cs : List Char} (h : '"' ∉ cs) : GuardsQuotes cs := by
  rintro front back rfl
  exact absurd (List.mem_append_right _ List.mem_cons_self) h

/-- The quote of an escape is behind its backslash. -/
theorem escape {cs : List Char} (h : '"' ∉ cs.drop 1) : GuardsQuotes ('\\' :: cs) := by
  intro front back heq
  cases front with
  | nil => exact absurd (List.cons.inj heq).1 (by decide)
  | cons d front =>
    obtain ⟨rfl, hrest⟩ := List.cons.inj heq
    cases front with
    | nil => rfl
    | cons e front =>
      rw [hrest] at h
      exact absurd (List.mem_append_right _ List.mem_cons_self) h

theorem append {xs ys : List Char} (hxs : GuardsQuotes xs) (hys : GuardsQuotes ys) :
    GuardsQuotes (xs ++ ys) := by
  intro front back heq
  rcases List.append_eq_append_iff.mp heq with ⟨mid, rfl, hmid⟩ | ⟨mid, hfront, hmid⟩
  · rw [List.getLast?_append, hys mid back hmid, Option.some_or]
  · cases mid with
    | nil =>
      -- the second text starts with the quote, and nothing guards it there
      have hnone := hys [] back hmid.symm
      cases hnone
    | cons d mid =>
      obtain ⟨rfl, -⟩ := List.cons.inj hmid
      exact hxs front mid hfront

theorem flatMap {α : Type} {f : α → List Char} (h : ∀ x, GuardsQuotes (f x)) (xs : List α) :
    GuardsQuotes (xs.flatMap f) := by
  induction xs with
  | nil => exact of_notMem List.not_mem_nil
  | cons x xs ih =>
    rw [List.flatMap_cons]
    exact (h x).append ih

end GuardsQuotes

theorem Spelling.guardsQuotes {c : Char} {spelled : List Char} (h : Spelling c spelled) :
    GuardsQuotes spelled := by
  cases h with
  | letter => exact .escape List.not_mem_nil
  | number =>
    refine .escape fun hmem => ?_
    exact (isPrintable_of_isHexDigit (isHexDigit_of_mem_hexPadded _ hmem)).2 rfl
  | itself _ hquote => exact .of_notMem fun hmem => hquote (List.mem_singleton.mp hmem).symm

/-! ## Literals as delimited texts -/

/-- **A literal delimits itself.** Read from the front of any text, it is taken whole and gives the
string that was written, and what follows it is left. Between its quotes every quote is behind a
backslash, and every character shows. -/
theorem quote_delimited (s : String) (rest : List Char) :
    (∃ bytes, readLiteral ((quote s).toList ++ rest) = some (bytes, rest) ∧
      String.fromUTF8? bytes.toByteArray = some s) ∧
    ∃ body, (quote s).toList = '"' :: body ++ ['"'] ∧ GuardsQuotes body ∧ ∀ c ∈ body, Shows c := by
  have hquote : (quote s).toList = literal s.toList := by rw [quote, String.toList_ofList]
  refine ⟨⟨s.toList.flatMap String.utf8EncodeChar, ?_, fromUTF8?_utf8Encode s⟩,
    s.toList.flatMap literalChar, hquote, ?_, ?_⟩
  · rw [hquote, readLiteral_literal]
  · exact GuardsQuotes.flatMap (fun c => (Spelling.of_literalChar c).guardsQuotes) s.toList
  · intro d hd
    obtain ⟨c, -, hmem⟩ := List.mem_flatMap.mp hd
    exact shows_of_isPrintable ((Spelling.of_literalChar c).isPrintable d hmem)

/-- Digits that follow an escape of fixed width are no part of it. -/
example : quote "\"\x01f\u200bf" = "\"\\\"\\x01f\\u200bf\"" := by decide

end DocHarvest.Output
