import DocHarvest.Proofs.Links
import DocHarvest.Proofs.Paragraphs

/-!
# Synopses are single lines of words

A synopsis is empty if the first sentence is a notice or starts with no paragraph (`NoParagraph`).
Otherwise it shows something (`View.visible_synopsis`), and where no name has white space in it, it
is a line of words with one space between two of them and no other white space (`SingleSpaced`).

The line is made in four passes: the words of the paragraph are joined, the pairs of opening and of
closing quotes are replaced, and links lose their brackets. `Tidy` follows a line from the left and
keeps in mind whether a word has to come next. Replacing pairs of quotes writes no white space, and
taking the brackets off a link brings no white space together because the link itself has none. A
line in which a word has to come first cannot be empty, so the last three passes, which keep the
line tidy, cannot empty it either.
-/

namespace DocHarvest.Doc

open DocHarvest.Text DocHarvest.Unicode

/-! ## Tidy lines -/

/-- Words with one space between two of them; `wordNext` says that a word has to come next. -/
inductive Tidy : (wordNext : Bool) → List Char → Prop
  | nil : Tidy false []
  | char {wordNext : Bool} {c : Char} {cs : List Char} :
      isBlank c = false → Tidy false cs → Tidy wordNext (c :: cs)
  | space {cs : List Char} : Tidy true cs → Tidy false (' ' :: cs)

namespace Tidy

variable {wordNext : Bool} {cs : List Char}

theorem tail {c : Char} (hc : isBlank c = false) (h : Tidy wordNext (c :: cs)) : Tidy false cs := by
  cases h with
  | char _ h => exact h
  | space _ => cases hc

theorem word {w : List Char} (hne : w ≠ []) (hw : Solid w) (h : Tidy false cs) :
    Tidy wordNext (w ++ cs) := by
  induction w generalizing wordNext with
  | nil => exact absurd rfl hne
  | cons c w ih =>
    obtain ⟨hc, hrest⟩ := List.forall_mem_cons.mp hw
    refine .char hc ?_
    cases w with
    | nil => exact h
    | cons d w => exact ih (by simp) hrest

/-- Past text without white space a line is still tidy. -/
theorem of_append {w : List Char} (hw : Solid w) (h : Tidy false (w ++ cs)) : Tidy false cs := by
  induction w with
  | nil => exact h
  | cons c w ih =>
    obtain ⟨hc, hrest⟩ := List.forall_mem_cons.mp hw
    exact ih hrest (h.tail hc)

theorem join_words {ws : List (List Char)} (hne : ws ≠ []) (h : ∀ w ∈ ws, w ≠ [] ∧ Solid w) :
    Tidy wordNext (join [' '] ws) := by
  unfold join
  induction ws generalizing wordNext with
  | nil => exact absurd rfl hne
  | cons w ws ih =>
    obtain ⟨⟨hw, hsolid⟩, hrest⟩ := List.forall_mem_cons.mp h
    cases ws with
    | nil =>
      rw [List.intercalate_singleton, ← List.append_nil w]
      exact word hw hsolid .nil
    | cons u ws =>
      rw [List.intercalate_cons_cons, List.append_assoc]
      exact word hw hsolid (.space (ih (by simp) hrest))

theorem replacePair {q r : Char} (hq : isBlank q = false) (hr : isBlank r = false)
    (h : Tidy wordNext cs) : Tidy wordNext (Text.replacePair q r cs) := by
  fun_induction Text.replacePair q r cs generalizing wordNext with
  | case1 => exact h
  | case2 => exact h
  | case3 a b cs hpair ih =>
    obtain ⟨rfl, rfl⟩ := hpair
    exact .char hr (ih ((h.tail hq).tail hq))
  | case4 a b cs _ ih =>
    cases h with
    | char ha h => exact .char ha (ih h)
    | space h => exact .space (ih h)

theorem unwraps {v : View} (hv : v.SolidNames) {out : List Char} (hout : v.Unwraps cs out)
    (h : Tidy wordNext cs) : Tidy wordNext out := by
  induction hout generalizing wordNext with
  | nil => exact h
  | keep c _ ih =>
    cases h with
    | char hc h => exact .char hc (ih h)
    | space h => exact .space (ih h)
  | @link target cs out hlink _ _ _ ih =>
    have hsolid := View.solid_of_isDocLink hv hlink
    have hinside : Tidy false (target ++ ']' :: cs) := h.tail (by decide)
    have hbehind : Tidy false cs := (hinside.of_append hsolid).tail (by decide)
    exact word (View.visible_of_isDocLink hlink).ne_nil hsolid (ih hbehind)

theorem ne_nil (h : Tidy true cs) : cs ≠ [] := by
  cases h with
  | char => simp

theorem visible (h : Tidy true cs) : Visible cs := by
  cases h with
  | @char _ c cs hc _ => exact .cons hc cs

end Tidy

/-- A line has no white space but single spaces between its words. -/
structure SingleSpaced (cs : List Char) : Prop where
  plain : ∀ c ∈ cs, isBlank c = true → c = ' '
  head : cs.head? ≠ some ' '
  last : cs.getLast? ≠ some ' '
  apart : ¬[' ', ' '] <:+: cs

theorem Tidy.plain {wordNext : Bool} {cs : List Char} (h : Tidy wordNext cs) :
    ∀ c ∈ cs, isBlank c = true → c = ' ' := by
  induction h with
  | nil => simp
  | char hc _ ih =>
    refine List.forall_mem_cons.mpr ⟨?_, ih⟩
    intro hblank
    rw [hc] at hblank
    cases hblank
  | space _ ih => exact List.forall_mem_cons.mpr ⟨fun _ => rfl, ih⟩

theorem Tidy.last {wordNext : Bool} {cs : List Char} (h : Tidy wordNext cs) :
    cs.getLast? ≠ some ' ' := by
  induction h with
  | nil => simp
  | @char _ c cs hc h ih =>
    cases cs with
    | nil =>
      rintro ⟨⟩
      cases hc
    | cons d cs => rwa [List.getLast?_cons_cons]
  | @space cs h ih =>
    obtain ⟨d, ds, rfl⟩ := List.exists_cons_of_ne_nil h.ne_nil
    rwa [List.getLast?_cons_cons]

theorem Tidy.apart {wordNext : Bool} {cs : List Char} (h : Tidy wordNext cs) :
    ¬[' ', ' '] <:+: cs := by
  induction h with
  | nil => simp
  | char hc _ ih =>
    rw [List.infix_cons_iff, not_or]
    refine ⟨?_, ih⟩
    intro hpre
    obtain ⟨rfl, -⟩ := List.cons_prefix_cons.mp hpre
    cases hc
  | space h ih =>
    rw [List.infix_cons_iff, not_or]
    refine ⟨?_, ih⟩
    intro hpre
    -- the second space would stand where a word has to
    obtain ⟨-, rest, rfl⟩ := List.cons_prefix_cons.mp hpre
    cases h with
    | char hspace _ => cases hspace

theorem Tidy.singleSpaced {cs : List Char} (h : Tidy true cs) : SingleSpaced cs := by
  refine ⟨h.plain, ?_, h.last, h.apart⟩
  cases h with
  | char hc _ =>
    rintro ⟨⟩
    cases hc

/-! ## The line of a paragraph -/

/-- A paragraph has words. -/
theorem words_ne_nil_of_firstParagraph {cs : List Char} {paragraph : List (List Char)}
    (h : firstParagraph cs = some paragraph) : words (join ['\n'] paragraph) ≠ [] := by
  obtain ⟨first, rest, rfl, hblank⟩ := exists_cons_of_firstParagraph h
  obtain ⟨c, hc, hvisible⟩ := List.all_eq_false.mp hblank
  have hfirst : Visible first := ⟨c, hc, Bool.eq_false_iff.mpr hvisible⟩
  exact words_ne_nil (hfirst.mono (subset_join List.mem_cons_self))

theorem tidy_oneLine {paragraph : List (List Char)} (h : words (join ['\n'] paragraph) ≠ []) :
    Tidy true (oneLine paragraph) := by
  have hwords : Tidy true (join [' '] (words (join ['\n'] paragraph))) :=
    Tidy.join_words h fun w hw => solid_of_mem_words hw
  unfold oneLine
  exact (hwords.replacePair (by decide) (by decide)).replacePair (by decide) (by decide)

/-! ## Synopses -/

/-- A synopsis is empty because of a notice or for want of a paragraph, or it is a tidy line without
the brackets of its links. -/
theorem View.synopsis_cases (v : View) (text : String) :
    v.synopsis text = "" ∧ (isNotice (firstSentence text.toList) = true ∨
        firstParagraph (firstSentence text.toList) = none) ∨
      ¬(isNotice (firstSentence text.toList) = true ∨
          firstParagraph (firstSentence text.toList) = none) ∧
        ∃ line, Tidy true line ∧ v.Unwraps line (v.synopsis text).toList := by
  unfold View.synopsis
  dsimp only
  split
  next hnotice => exact Or.inl ⟨rfl, Or.inl hnotice⟩
  next hnotice =>
    split
    next hnone => exact Or.inl ⟨rfl, Or.inr hnone⟩
    next paragraph hsome =>
      refine Or.inr ⟨by simp [hnotice, hsome], oneLine paragraph, ?_, ?_⟩
      · exact tidy_oneLine (words_ne_nil_of_firstParagraph hsome)
      · rw [String.toList_ofList]
        exact v.unwraps_resolveLinks _

/-- A synopsis that is not empty shows something. -/
theorem View.visible_synopsis (v : View) {text : String} (h : v.synopsis text ≠ "") :
    Visible (v.synopsis text).toList := by
  rcases v.synopsis_cases text with ⟨hempty, -⟩ | ⟨-, line, htidy, hout⟩
  · exact absurd hempty h
  · exact hout.visible htidy.visible

theorem isNotice_iff {cs : List Char} :
    isNotice cs = true ↔
      ∃ start ∈ ["copyright", "all rights", "author"], start.toList <+: lowercase cs := by
  unfold isNotice
  simp only [List.any_eq_true, startsWith_iff_prefix]
  rfl

/-- **A synopsis is one line of words, or empty for a reason.** It is empty exactly if the first
sentence is a notice or starts with no paragraph. Otherwise its words have single spaces between
them, and there is no other white space. -/
theorem View.synopsis_line {v : View} (hv : v.SolidNames) (text : String) :
    (v.synopsis text = "" ↔
        (∃ start ∈ ["copyright", "all rights", "author"],
          start.toList <+: lowercase (firstSentence text.toList)) ∨
        NoParagraph (firstSentence text.toList)) ∧
      (v.synopsis text ≠ "" → SingleSpaced (v.synopsis text).toList) := by
  rw [← isNotice_iff, ← firstParagraph_eq_none_iff]
  rcases v.synopsis_cases text with ⟨hempty, hwhy⟩ | ⟨hnot, line, htidy, hout⟩
  · exact ⟨iff_of_true hempty hwhy, fun hne => absurd hempty hne⟩
  · have hline := htidy.unwraps hv hout
    have hne : v.synopsis text ≠ "" := by
      intro hempty
      rw [hempty] at hline
      exact hline.ne_nil rfl
    exact ⟨iff_of_false hne hnot, fun _ => hline.singleSpaced⟩

/-- Links at either end of a run of white space lose their brackets. -/
theorem View.synopsis_line_of_links :
    let v : View := ⟨"p", "example.com/p", ["Widget"], ["json"]⟩
    let text := "A\t[Widget]  [json.Marshal],\nif it can. More."
    v.SolidNames ∧ v.synopsis text = "A Widget json.Marshal, if it can." ∧
      SingleSpaced (v.synopsis text).toList := by
  intro v text
  have hv : v.SolidNames := ⟨by decide, by decide⟩
  have heq : v.synopsis text = "A Widget json.Marshal, if it can." := by decide +kernel
  have hne : v.synopsis text ≠ "" := by
    rw [heq]
    decide
  exact ⟨hv, heq, (View.synopsis_line hv text).2 hne⟩

end DocHarvest.Doc
