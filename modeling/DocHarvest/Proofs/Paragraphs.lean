import DocHarvest.Doc.Synopsis
import DocHarvest.Proofs.Pieces
import Mathlib.Data.List.TakeWhile

/-!
# The paragraph with which a text starts

The lines of a text are all blank, or there is a first one that is not (`lines_cases`). What that
line is, and what stands below it, decides whether the text starts with a paragraph and which lines
the paragraph has (`firstParagraph_eq`). So a text starts with none for one of three reasons
(`NoParagraph`), and a paragraph starts with a line that is not blank.
-/

namespace DocHarvest.Doc

open DocHarvest.Text

/-- A text starts with no paragraph: it is blank, or it starts with an indented line or with a
heading that stands alone. -/
inductive NoParagraph (cs : List Char) : Prop
  | blank : (∀ l ∈ lines cs, isBlankLine l = true) → NoParagraph cs
  | indented {above below : List (List Char)} {first : List Char} :
      lines cs = above ++ first :: below → (∀ l ∈ above, isBlankLine l = true) →
      isBlankLine first = false → isIndented first = true → NoParagraph cs
  | heading {above below : List (List Char)} {first : List Char} :
      lines cs = above ++ first :: below → (∀ l ∈ above, isBlankLine l = true) →
      isBlankLine first = false → isHeading first = true →
      (∀ next ∈ below.head?, isBlankLine next = true ∨ isIndented next = true) → NoParagraph cs

/-- The lines of a text are all blank, or there is a first one that is not. -/
theorem lines_cases (cs : List Char) :
    (∀ l ∈ lines cs, isBlankLine l = true) ∨
      ∃ above first below, lines cs = above ++ first :: below ∧
        (∀ l ∈ above, isBlankLine l = true) ∧ isBlankLine first = false := by
  cases hdrop : (lines cs).dropWhile isBlankLine with
  | nil => exact Or.inl (List.dropWhile_eq_nil_iff.mp hdrop)
  | cons first below =>
    refine Or.inr ⟨(lines cs).takeWhile isBlankLine, first, below, ?_, ?_, ?_⟩
    · rw [← hdrop, List.takeWhile_append_dropWhile]
    · exact List.all_eq_true.mp List.all_takeWhile
    · exact head?_dropWhile (by rw [hdrop]; rfl)

/-- The paragraph that a line which is not blank starts. -/
theorem firstParagraph_eq {cs first : List Char} {above below : List (List Char)}
    (hlines : lines cs = above ++ first :: below) (habove : ∀ l ∈ above, isBlankLine l = true)
    (hfirst : isBlankLine first = false) :
    firstParagraph cs =
      if isIndented first = true then none
      else if isHeading first = true ∧
          below.takeWhile (fun l => !isBlankLine l && !isIndented l) = [] then none
      else some (first :: below.takeWhile fun l => !isBlankLine l && !isIndented l) := by
  have hdrop : (lines cs).dropWhile isBlankLine = first :: below := by
    rw [hlines, List.dropWhile_append_of_pos habove,
      List.dropWhile_cons_of_neg (by simp [hfirst])]
  unfold firstParagraph
  rw [hdrop]
  dsimp only
  split
  next => rfl
  next hindented =>
    rw [List.takeWhile_cons_of_pos (by simp [hfirst, hindented])]
    cases hrest : below.takeWhile fun l => !isBlankLine l && !isIndented l with
    | nil => simp
    | cons next rest => simp

theorem firstParagraph_eq_none_iff {cs : List Char} :
    firstParagraph cs = none ↔ NoParagraph cs := by
  -- a line that is followed by a blank or an indented one, or by none, stands alone
  have halone : ∀ below : List (List Char),
      below.takeWhile (fun l => !isBlankLine l && !isIndented l) = [] ↔
        ∀ next ∈ below.head?, isBlankLine next = true ∨ isIndented next = true := by
    intro below
    cases below with
    | nil => simp
    | cons next below => cases hblank : isBlankLine next <;> simp [List.takeWhile_cons, hblank]
  constructor
  · intro hnone
    rcases lines_cases cs with hblank | ⟨above, first, below, hlines, habove, hfirst⟩
    · exact .blank hblank
    · rw [firstParagraph_eq hlines habove hfirst] at hnone
      split at hnone
      next hindented => exact .indented hlines habove hfirst hindented
      next =>
        split at hnone
        next hheading =>
          exact .heading hlines habove hfirst hheading.1 ((halone below).mp hheading.2)
        next => cases hnone
  · intro h
    cases h with
    | blank hblank => rw [firstParagraph, List.dropWhile_eq_nil_iff.mpr hblank]
    | indented hlines habove hfirst hindented =>
      rw [firstParagraph_eq hlines habove hfirst, if_pos hindented]
    | @heading above below first hlines habove hfirst hheading hnext =>
      rw [firstParagraph_eq hlines habove hfirst]
      split
      next => rfl
      next => exact if_pos ⟨hheading, (halone below).mpr hnext⟩

/-- A paragraph starts with a line that is not blank. -/
theorem exists_cons_of_firstParagraph {cs : List Char} {paragraph : List (List Char)}
    (h : firstParagraph cs = some paragraph) :
    ∃ first rest, paragraph = first :: rest ∧ isBlankLine first = false := by
  rcases lines_cases cs with hblank | ⟨above, first, below, hlines, habove, hfirst⟩
  · rw [firstParagraph_eq_none_iff.mpr (.blank hblank)] at h
    cases h
  · rw [firstParagraph_eq hlines habove hfirst] at h
    split at h
    next => cases h
    next =>
      split at h
      next => cases h
      next =>
        cases h
        exact ⟨first, _, rfl, hfirst⟩

end DocHarvest.Doc
