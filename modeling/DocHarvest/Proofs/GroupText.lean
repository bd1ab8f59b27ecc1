import DocHarvest.Proofs.Remarks

/-!
# The text of a group in normal form

The text of a comment group is made from the lines that its comments say. Blank lines are squeezed
out of them until there is none at either end and never two in a row; the lines with text stay, in
their order, and so does the fact that something was blank between two of them.

Lists of lines are compared by what they show. `withText` are the lines that are not blank, and
`Between` says which blank lines stand between the line with text of a given number and the next
one. Squeezing is told by both (`withText_groupLines`, `between_groupLines_iff`), and `Loose` is the
shape that it leaves: lines of this shape are left alone by a second squeezing, which is why a text
that is put into comments again line by line comes out as it was (`groupText_recommented`).
-/

namespace DocHarvest.Comment

open DocHarvest.Text DocHarvest.Unicode

/-! ## Lines with text -/

/-- The lines that are not blank. -/
def withText (ls : List (List Char)) : List (List Char) :=
  ls.filter fun l => !l.isEmpty

@[simp] theorem withText_append (xs ys : List (List Char)) :
    withText (xs ++ ys) = withText xs ++ withText ys :=
  List.filter_append xs ys

@[simp] theorem withText_blank_cons (ls : List (List Char)) :
    withText ([] :: ls) = withText ls := rfl

theorem withText_text_cons {l : List Char} (hl : l ≠ []) (ls : List (List Char)) :
    withText (l :: ls) = l :: withText ls :=
  List.filter_cons_of_pos (by simpa using hl)

/-- What stands between two lines with text that follow each other: `gap` between the line with text
of number `i`, counted from zero, and the next one. -/
def Between (ls : List (List Char)) (i : Nat) (gap : List (List Char)) : Prop :=
  ∃ front upper lower back, ls = front ++ upper :: (gap ++ lower :: back) ∧
    (withText front).length = i ∧ upper ≠ [] ∧ lower ≠ [] ∧ ∀ l ∈ gap, l = []

theorem between_blank_cons {ls gap : List (List Char)} {i : Nat} :
    Between ([] :: ls) i gap ↔ Between ls i gap := by
  constructor
  · rintro ⟨front, upper, lower, back, heq, hi, hupper, hlower, hgap⟩
    cases front with
    | nil =>
      rw [List.nil_append, List.cons.injEq] at heq
      exact absurd heq.1.symm hupper
    | cons l front =>
      rw [List.cons_append, List.cons.injEq] at heq
      obtain ⟨rfl, rfl⟩ := heq
      exact ⟨front, upper, lower, back, rfl, hi, hupper, hlower, hgap⟩
  · rintro ⟨front, upper, lower, back, rfl, hi, hupper, hlower, hgap⟩
    exact ⟨[] :: front, upper, lower, back, rfl, hi, hupper, hlower, hgap⟩

theorem between_text_cons_zero {l : List Char} (hl : l ≠ []) {ls gap : List (List Char)} :
    Between (l :: ls) 0 gap ↔
      ∃ lower back, ls = gap ++ lower :: back ∧ lower ≠ [] ∧ ∀ l ∈ gap, l = [] := by
  constructor
  · rintro ⟨front, upper, lower, back, heq, hi, hupper, hlower, hgap⟩
    cases front with
    | nil =>
      rw [List.nil_append, List.cons.injEq] at heq
      exact ⟨lower, back, heq.2, hlower, hgap⟩
    | cons l' front =>
      rw [List.cons_append, List.cons.injEq] at heq
      rw [← heq.1, withText_text_cons hl] at hi
      cases hi
  · rintro ⟨lower, back, rfl, hlower, hgap⟩
    exact ⟨[], l, lower, back, rfl, rfl, hl, hlower, hgap⟩

theorem between_text_cons_succ {l : List Char} (hl : l ≠ []) {ls gap : List (List Char)} {i : Nat} :
    Between (l :: ls) (i + 1) gap ↔ Between ls i gap := by
  constructor
  · rintro ⟨front, upper, lower, back, heq, hi, hupper, hlower, hgap⟩
    cases front with
    | nil => cases hi
    | cons l' front =>
      rw [List.cons_append, List.cons.injEq] at heq
      obtain ⟨rfl, rfl⟩ := heq
      rw [withText_text_cons hl, List.length_cons, Nat.add_right_cancel_iff] at hi
      exact ⟨front, upper, lower, back, rfl, hi, hupper, hlower, hgap⟩
  · rintro ⟨front, upper, lower, back, rfl, rfl, hupper, hlower, hgap⟩
    refine ⟨l :: front, upper, lower, back, rfl, ?_, hupper, hlower, hgap⟩
    rw [withText_text_cons hl, List.length_cons]

/-- The blank lines up to the first line with text are determined. -/
theorem blanks_unique {gap gap' back back' : List (List Char)} {lower lower' : List Char}
    (h : gap ++ lower :: back = gap' ++ lower' :: back') (hlower : lower ≠ [])
    (hlower' : lower' ≠ []) (hgap : ∀ l ∈ gap, l = []) (hgap' : ∀ l ∈ gap', l = []) :
    gap = gap' := by
  induction gap generalizing gap' with
  | nil =>
    cases gap' with
    | nil => rfl
    | cons l gap' =>
      rw [List.nil_append, List.cons_append, List.cons.injEq] at h
      exact absurd (h.1.trans (hgap' l List.mem_cons_self)) hlower
  | cons l gap ih =>
    cases gap' with
    | nil =>
      rw [List.nil_append, List.cons_append, List.cons.injEq] at h
      exact absurd (h.1.symm.trans (hgap l List.mem_cons_self)) hlower'
    | cons l' gap' =>
      rw [List.cons_append, List.cons_append, List.cons.injEq] at h
      rw [h.1, ih h.2 (fun l hl => hgap l (List.mem_cons_of_mem _ hl))
        fun l hl => hgap' l (List.mem_cons_of_mem _ hl)]

theorem Between.unique {ls gap gap' : List (List Char)} {i : Nat} (h : Between ls i gap)
    (h' : Between ls i gap') : gap = gap' := by
  induction ls generalizing i with
  | nil =>
    obtain ⟨front, upper, lower, back, heq, -⟩ := h
    simp at heq
  | cons l ls ih =>
    by_cases hl : l = []
    · subst hl
      exact ih (between_blank_cons.mp h) (between_blank_cons.mp h')
    · cases i with
      | zero =>
        obtain ⟨lower, back, heq, hlower, hgap⟩ := (between_text_cons_zero hl).mp h
        obtain ⟨lower', back', heq', hlower', hgap'⟩ := (between_text_cons_zero hl).mp h'
        exact blanks_unique (heq.symm.trans heq') hlower hlower' hgap hgap'
      | succ i => exact ih ((between_text_cons_succ hl).mp h) ((between_text_cons_succ hl).mp h')

/-- The first line with text, with the blank lines before it. -/
theorem exists_first_text {ls : List (List Char)} (h : withText ls ≠ []) :
    ∃ gap lower back, ls = gap ++ lower :: back ∧ lower ≠ [] ∧ ∀ l ∈ gap, l = [] := by
  induction ls with
  | nil => exact absurd rfl h
  | cons l ls ih =>
    by_cases hl : l = []
    · subst hl
      obtain ⟨gap, lower, back, rfl, hlower, hgap⟩ := ih h
      exact ⟨[] :: gap, lower, back, rfl, hlower, List.forall_mem_cons.mpr ⟨rfl, hgap⟩⟩
    · exact ⟨[], l, ls, rfl, hl, by simp⟩

/-- Every line with text but the last has a next one. -/
theorem exists_between_iff {ls : List (List Char)} {i : Nat} :
    (∃ gap, Between ls i gap) ↔ i + 1 < (withText ls).length := by
  induction ls generalizing i with
  | nil =>
    constructor
    · rintro ⟨gap, front, upper, lower, back, heq, -⟩
      simp at heq
    · intro h
      cases h
  | cons l ls ih =>
    by_cases hl : l = []
    · subst hl
      simp only [between_blank_cons, withText_blank_cons, ih]
    · rw [withText_text_cons hl, List.length_cons, Nat.add_lt_add_iff_right]
      cases i with
      | succ i => simp only [between_text_cons_succ hl, ih]
      | zero =>
        simp only [between_text_cons_zero hl]
        constructor
        · rintro ⟨gap, lower, back, rfl, hlower, -⟩
          rw [withText_append, withText_text_cons hlower, List.length_append, List.length_cons]
          omega
        · intro h
          exact exists_first_text (List.length_pos_iff.mp h)

/-! ## Squeezing -/

/-- Lines without two blank ones in a row, and without a blank one at the start unless `afterText`.
-/
inductive Loose : (afterText : Bool) → List (List Char) → Prop
  | nil (afterText : Bool) : Loose afterText []
  | text {afterText : Bool} {l : List Char} {ls : List (List Char)} :
      l ≠ [] → Loose true ls → Loose afterText (l :: ls)
  | blank {ls : List (List Char)} : Loose false ls → Loose true ([] :: ls)

theorem squeeze_text_cons (afterText : Bool) {l : List Char} (hl : l ≠ [])
    (ls : List (List Char)) : squeeze afterText (l :: ls) = l :: squeeze true ls := by
  rw [squeeze, if_neg (by simpa using hl)]

theorem loose_squeeze (afterText : Bool) (ls : List (List Char)) :
    Loose afterText (squeeze afterText ls) := by
  induction ls generalizing afterText with
  | nil =>
    rw [squeeze]
    exact .nil afterText
  | cons l ls ih =>
    by_cases hl : l = []
    · subst hl
      cases afterText with
      | false => exact ih false
      | true => exact .blank (ih false)
    · rw [squeeze_text_cons afterText hl]
      exact .text hl (ih true)

/-- Lines that need no squeezing are left alone. -/
theorem Loose.squeeze_eq {afterText : Bool} {ls : List (List Char)} (h : Loose afterText ls) :
    squeeze afterText ls = ls := by
  induction h with
  | nil afterText => rw [squeeze]
  | text hl _ ih => rw [squeeze_text_cons _ hl, ih]
  | blank _ ih =>
    show [] :: squeeze false _ = _
    rw [ih]

theorem Loose.of_append {afterText : Bool} {xs ys : List (List Char)}
    (h : Loose afterText (xs ++ ys)) : Loose afterText xs := by
  induction xs generalizing afterText with
  | nil => exact .nil afterText
  | cons l xs ih =>
    cases h with
    | text hl h => exact .text hl (ih h)
    | blank h => exact .blank (ih h)

/-- Two lines in a row are not both blank. -/
theorem Loose.not_blank_blank {afterText : Bool} {front back : List (List Char)} :
    ¬Loose afterText (front ++ [] :: [] :: back) := by
  induction front generalizing afterText with
  | nil =>
    intro h
    cases h with
    | text hl _ => exact hl rfl
    | blank h =>
      cases h with
      | text hl _ => exact hl rfl
  | cons l front ih =>
    intro h
    cases h with
    | text _ h => exact ih h
    | blank h => exact ih h

theorem Loose.head_ne {l : List Char} {ls : List (List Char)} (h : Loose false (l :: ls)) :
    l ≠ [] := by
  cases h with
  | text hl _ => exact hl

theorem squeeze_sublist (afterText : Bool) (ls : List (List Char)) :
    (squeeze afterText ls).Sublist ls := by
  induction ls generalizing afterText with
  | nil => exact List.Sublist.refl _
  | cons l ls ih =>
    rw [squeeze]
    split
    next =>
      split
      next => exact (ih false).cons_cons l
      next => exact (ih false).cons l
    next => exact (ih true).cons_cons l

theorem withText_squeeze (afterText : Bool) (ls : List (List Char)) :
    withText (squeeze afterText ls) = withText ls := by
  induction ls generalizing afterText with
  | nil => rfl
  | cons l ls ih =>
    by_cases hl : l = []
    · subst hl
      cases afterText with
      | false => exact ih false
      | true => exact ih false
    · rw [squeeze_text_cons _ hl, withText_text_cons hl, withText_text_cons hl, ih]

/-- A line with text stays, and what is before it does not see what is behind it. -/
theorem squeeze_append_text (afterText : Bool) (front : List (List Char)) {l : List Char}
    (hl : l ≠ []) (ls : List (List Char)) :
    squeeze afterText (front ++ l :: ls) = squeeze afterText front ++ l :: squeeze true ls := by
  induction front generalizing afterText with
  | nil => exact squeeze_text_cons afterText hl ls
  | cons f front ih =>
    rw [List.cons_append, squeeze, squeeze]
    split
    next =>
      split
      next => rw [ih, List.cons_append]
      next => exact ih false
    next => rw [ih, List.cons_append]

theorem squeeze_false_blanks {gap : List (List Char)} (hgap : ∀ l ∈ gap, l = [])
    (ls : List (List Char)) : squeeze false (gap ++ ls) = squeeze false ls := by
  induction gap with
  | nil => rfl
  | cons l gap ih =>
    obtain ⟨hl, hrest⟩ := List.forall_mem_cons.mp hgap
    subst hl
    exact ih hrest

/-- Of the blank lines behind a line with text one is left. -/
theorem squeeze_true_blanks {gap : List (List Char)} (hgap : ∀ l ∈ gap, l = []) {l : List Char}
    (hl : l ≠ []) (ls : List (List Char)) :
    squeeze true (gap ++ l :: ls) = gap.take 1 ++ l :: squeeze true ls := by
  cases gap with
  | nil => exact squeeze_text_cons true hl ls
  | cons g gap =>
    obtain ⟨hg, hrest⟩ := List.forall_mem_cons.mp hgap
    subst hg
    show [] :: squeeze false (gap ++ l :: ls) = [] :: l :: squeeze true ls
    rw [squeeze_false_blanks hrest, squeeze_text_cons false hl]

theorem Between.squeeze {ls gap : List (List Char)} {i : Nat} (h : Between ls i gap)
    (afterText : Bool) : Between (squeeze afterText ls) i (gap.take 1) := by
  obtain ⟨front, upper, lower, back, rfl, rfl, hupper, hlower, hgap⟩ := h
  refine ⟨Comment.squeeze afterText front, upper, lower, Comment.squeeze true back, ?_, ?_, hupper,
    hlower, fun l hl => hgap l (List.mem_of_mem_take hl)⟩
  · rw [squeeze_append_text _ _ hupper, squeeze_true_blanks hgap hlower]
  · rw [withText_squeeze]

/-! ## The last line -/

theorem dropLastBlank_cases (ls : List (List Char)) :
    dropLastBlank ls = ls ∧ ls.getLast? ≠ some [] ∨ ls = dropLastBlank ls ++ [[]] := by
  unfold dropLastBlank
  split
  next h =>
    obtain ⟨front, rfl⟩ := List.getLast?_eq_some_iff.mp h
    right
    rw [List.dropLast_concat]
  next h => exact Or.inl ⟨rfl, h⟩

theorem withText_dropLastBlank (ls : List (List Char)) :
    withText (dropLastBlank ls) = withText ls := by
  rcases dropLastBlank_cases ls with ⟨heq, -⟩ | heq
  · rw [heq]
  · conv_rhs => rw [heq]
    rw [withText_append]
    exact (List.append_nil _).symm

theorem dropLastBlank_append_text (front : List (List Char)) {l : List Char} (hl : l ≠ [])
    (ls : List (List Char)) :
    dropLastBlank (front ++ l :: ls) = front ++ l :: dropLastBlank ls := by
  unfold dropLastBlank
  cases ls with
  | nil => simp [hl]
  | cons b ls =>
    rw [List.getLast?_append_cons, List.getLast?_cons_cons, List.dropLast_append_cons,
      List.dropLast_cons_cons]
    split
    next => rfl
    next => rfl

theorem Between.dropLastBlank {ls gap : List (List Char)} {i : Nat} (h : Between ls i gap) :
    Between (dropLastBlank ls) i gap := by
  obtain ⟨front, upper, lower, back, rfl, hi, hupper, hlower, hgap⟩ := h
  -- the last line is `lower`, which stays, or one behind it
  refine ⟨front, upper, lower, Comment.dropLastBlank back, ?_, hi, hupper, hlower, hgap⟩
  have hsplit : ∀ ls : List (List Char), front ++ upper :: (gap ++ lower :: ls)
      = (front ++ upper :: gap) ++ lower :: ls := by simp
  rw [hsplit, hsplit, dropLastBlank_append_text _ hlower]

/-! ## The lines of a group -/

/-- A line that a comment can say: it has no line ends in it and no white space at its end. -/
structure PlainLine (l : List Char) : Prop where
  feed : '\n' ∉ l
  ret : '\r' ∉ l
  flush : ∀ c ∈ l.getLast?, isBlank c = false

theorem body_subset {raw text : List Char} (h : body raw = some text) :
    text ⊆ raw.filter (· != '\r') := by
  unfold body at h
  dsimp only at h
  generalize raw.filter (· != '\r') = cs at h ⊢
  split at h
  next rest hrest =>
    cases h
    rw [dropStart?_eq_some_iff.mp hrest]
    exact fun c hc => List.mem_append_right _ (List.mem_cons_of_mem _ hc)
  next rest _ hrest =>
    split at h
    next => cases h
    next =>
      cases h
      rw [dropStart?_eq_some_iff.mp hrest]
      exact List.subset_append_right _ _
  next =>
    split at h
    next rest hrest =>
      cases h
      rw [dropStart?_eq_some_iff.mp hrest]
      split
      next => exact fun c hc => List.mem_append_right _ (List.mem_of_mem_take hc)
      next => exact List.subset_append_right _ _
    next =>
      cases h
      exact List.Subset.refl _

theorem plainLine_of_mem_bodyLines {raw l : List Char} (h : l ∈ bodyLines raw) : PlainLine l := by
  unfold bodyLines at h
  split at h
  next => cases h
  next text htext =>
    obtain ⟨piece, hpiece, rfl⟩ := List.mem_map.mp h
    have hsub : trimEnd piece ⊆ piece := dropEndWhile_subset _ _
    refine ⟨?_, ?_, fun c hc => getLast?_dropEndWhile hc⟩
    · intro hmem
      exact sep_notMem_of_mem_split hpiece (hsub hmem)
    · intro hmem
      have hraw := body_subset htext (mem_of_mem_splitWhere hpiece (hsub hmem))
      simpa using (List.mem_filter.mp hraw).2

/-- Lines as they stand in the text of a group. -/
structure NormalLines (ls : List (List Char)) : Prop where
  loose : Loose false ls
  last : ls.getLast? ≠ some []
  plain : ∀ l ∈ ls, PlainLine l

theorem normalLines_groupLines (raws : List (List Char)) : NormalLines (groupLines raws) := by
  unfold groupLines
  have hloose := loose_squeeze false (raws.flatMap bodyLines)
  have hsub := squeeze_sublist false (raws.flatMap bodyLines)
  generalize squeeze false (raws.flatMap bodyLines) = ls at hloose hsub
  have hplain : ∀ l ∈ ls, PlainLine l := by
    intro l hl
    obtain ⟨raw, -, hmem⟩ := List.mem_flatMap.mp (hsub.subset hl)
    exact plainLine_of_mem_bodyLines hmem
  rcases dropLastBlank_cases ls with ⟨heq, hlast⟩ | heq
  · rw [heq]
    exact ⟨hloose, hlast, hplain⟩
  · generalize dropLastBlank ls = front at heq
    subst heq
    refine ⟨hloose.of_append, ?_, fun l hl => hplain l (List.mem_append_left _ hl)⟩
    intro hlast
    obtain ⟨more, rfl⟩ := List.getLast?_eq_some_iff.mp hlast
    rw [List.append_assoc] at hloose
    exact Loose.not_blank_blank hloose

theorem NormalLines.groupLines_eq {ls : List (List Char)} (h : NormalLines ls)
    {raws : List (List Char)} (hraws : raws.flatMap bodyLines = ls) : groupLines raws = ls := by
  rw [groupLines, hraws, h.loose.squeeze_eq, dropLastBlank, if_neg h.last]

theorem withText_groupLines (raws : List (List Char)) :
    withText (groupLines raws) = withText (raws.flatMap bodyLines) := by
  rw [groupLines, withText_dropLastBlank, withText_squeeze]

/-- Between two lines with text one blank line is left of any number of them, and none of none. -/
theorem between_groupLines_iff {raws gap : List (List Char)} {i : Nat} :
    Between (groupLines raws) i gap ↔
      ∃ blanks, Between (raws.flatMap bodyLines) i blanks ∧ gap = blanks.take 1 := by
  have hstep : ∀ {blanks}, Between (raws.flatMap bodyLines) i blanks →
      Between (groupLines raws) i (blanks.take 1) := fun h => (h.squeeze false).dropLastBlank
  constructor
  · intro h
    -- the lines with text are the same, so there are blank lines to compare with
    have hlt := exists_between_iff.mp ⟨gap, h⟩
    rw [withText_groupLines] at hlt
    obtain ⟨blanks, hblanks⟩ := exists_between_iff.mpr hlt
    exact ⟨blanks, hblanks, h.unique (hstep hblanks)⟩
  · rintro ⟨blanks, hblanks, rfl⟩
    exact hstep hblanks

/-! ## The text of a group -/

/-- A text in normal form: it ends with one line feed, it starts and ends with a line that is not
blank, no line ends with white space, no two blank lines follow each other, and there are no
carriage returns. -/
structure NormalForm (text : List Char) : Prop where
  closed : ∃ front c, text = front ++ [c, '\n'] ∧ c ≠ '\n'
  first : ∃ l ls, lines text = l :: ls ∧ l ≠ []
  last : ∃ ls l, lines text = ls ++ [l] ∧ l ≠ []
  flush : ∀ l ∈ lines text, ∀ c ∈ l.getLast?, isBlank c = false
  single : ∀ front back, lines text ≠ front ++ [] :: [] :: back
  returns : '\r' ∉ text

theorem dropReturn_eq_self {l : List Char} (h : '\r' ∉ l) : dropReturn l = l := by
  unfold dropReturn
  exact if_neg fun hlast => h (List.mem_of_getLast? hlast)

/-- The lines of a text are found again when each of them is closed by a line feed. -/
theorem lines_join_append {ls : List (List Char)} (hne : ls ≠ []) (h : ∀ l ∈ ls, PlainLine l) :
    lines (join ['\n'] ls ++ ['\n']) = ls := by
  have hpieces : split '\n' (join ['\n'] ls ++ ['\n']) = ls ++ [[]] := by
    rw [split_append_cons, join, split_intercalate hne fun l hl => (h l hl).feed]
    rfl
  unfold lines
  simp only [hpieces, List.getLast?_concat, List.dropLast_concat]
  rw [List.map_congr_left fun l hl => dropReturn_eq_self (h l hl).ret, List.map_id']

theorem exists_join_concat (sep : List Char) (ws : List (List Char)) (w : List Char) :
    ∃ front, join sep (ws ++ [w]) = front ++ w := by
  induction ws with
  | nil => exact ⟨[], by simp [join]⟩
  | cons v ws ih =>
    obtain ⟨front, hfront⟩ := ih
    obtain ⟨u, us, hus⟩ := List.exists_cons_of_ne_nil (l := ws ++ [w]) (by simp)
    refine ⟨v ++ sep ++ front, ?_⟩
    rw [List.cons_append, hus, join, List.intercalate_cons_cons, ← hus, List.append_assoc _ front,
      ← hfront]
    rfl

theorem groupText_eq (raws : List (List Char)) :
    groupText raws
      = if groupLines raws = [] then [] else join ['\n'] (groupLines raws) ++ ['\n'] := by
  unfold groupText
  simp only [List.isEmpty_iff]

/-- The lines of the text of a group. -/
theorem lines_groupText (raws : List (List Char)) : lines (groupText raws) = groupLines raws := by
  rw [groupText_eq]
  split
  next h =>
    rw [h]
    rfl
  next h => exact lines_join_append h (normalLines_groupLines raws).plain

/-- Lines that are closed by line feeds are a text in normal form. -/
theorem NormalLines.normalForm {ls : List (List Char)} (h : NormalLines ls) (hne : ls ≠ []) :
    NormalForm (join ['\n'] ls ++ ['\n']) := by
  have hlines := lines_join_append hne h.plain
  obtain ⟨front, last, hconcat⟩ := (List.eq_nil_or_concat' ls).resolve_left hne
  have hlast : last ≠ [] := by
    intro hnil
    exact h.last (by rw [hconcat, hnil, List.getLast?_concat])
  refine ⟨?_, ?_, ?_, ?_, ?_, ?_⟩
  · -- the last line is not empty, and its last character is no line feed
    obtain ⟨before, hbefore⟩ := exists_join_concat ['\n'] front last
    obtain ⟨init, c, rfl⟩ := (List.eq_nil_or_concat' last).resolve_left hlast
    refine ⟨before ++ init, c, ?_, ?_⟩
    · rw [hconcat, hbefore]
      simp
    · rintro rfl
      exact (h.plain (init ++ ['\n']) (by simp [hconcat])).feed (by simp)
  · rw [hlines]
    obtain ⟨l, rest, hcons⟩ := List.exists_cons_of_ne_nil hne
    exact ⟨l, rest, hcons, (hcons ▸ h.loose).head_ne⟩
  · rw [hlines]
    exact ⟨front, last, hconcat, hlast⟩
  · rw [hlines]
    exact fun l hl => (h.plain l hl).flush
  · rw [hlines]
    intro above below heq
    exact Loose.not_blank_blank (heq ▸ h.loose)
  · intro hmem
    rcases List.mem_append.mp hmem with hmem | hmem
    · rcases mem_join hmem with hsep | ⟨l, hl, hret⟩
      · simp at hsep
      · exact (h.plain l hl).ret hret
    · simp at hmem

/-- **The text of a group is in normal form and loses nothing.** It is empty or in normal form. Its
lines with text are those that the comments say, in the same order, and between two of them there is
a blank line, and then one, exactly if the comments say blank lines there. -/
theorem groupText_normal (group : List Remark) :
    (groupText (group.map Remark.raw) = [] ∨ NormalForm (groupText (group.map Remark.raw))) ∧
      withText (lines (groupText (group.map Remark.raw))) = withText (group.flatMap Remark.lines) ∧
      ∀ i gap, Between (lines (groupText (group.map Remark.raw))) i gap ↔
        ∃ blanks, Between (group.flatMap Remark.lines) i blanks ∧ gap = blanks.take 1 := by
  have hsaid : (group.map Remark.raw).flatMap bodyLines = group.flatMap Remark.lines := by
    rw [List.flatMap_map]
    exact List.flatMap_congr fun r _ => r.bodyLines_raw
  generalize group.map Remark.raw = raws at hsaid ⊢
  rw [lines_groupText, ← hsaid]
  refine ⟨?_, withText_groupLines raws, fun i gap => between_groupLines_iff⟩
  rw [groupText_eq]
  split
  next => exact Or.inl rfl
  next hne => exact Or.inr ((normalLines_groupLines raws).normalForm hne)

example :
    let raws := ["/*\n A. \r\n\n\n*/", "//go:generate x", "//", "//Note: b"]
    groupText (raws.map String.toList) = " A.\n\nNote: b\n".toList := by decide

/-! ## Comments made of a text -/

/-- A line as a comment. -/
def Remark.ofLine (l : List Char) : Remark :=
  .line (if l = [] then [] else ' ' :: l)

/-- A comment made of a line says the line. -/
theorem bodyLines_ofLine {l : List Char} (h : PlainLine l) :
    bodyLines (Remark.ofLine l).raw = [l] := by
  have hret : l.filter (· != '\r') = l := by
    rw [List.filter_eq_self]
    intro c hc
    rw [bne_iff_ne]
    rintro rfl
    exact h.ret hc
  have hsaid : (Remark.ofLine l).said? = some l := by
    unfold Remark.ofLine
    by_cases hl : l = []
    · subst hl
      decide
    · rw [if_neg hl]
      show some (l.filter (· != '\r')) = some l
      rw [hret]
  rw [Remark.bodyLines_raw, Remark.lines, hsaid]
  show (split '\n' l).map trimEnd = [l]
  rw [split_eq_singleton h.feed, List.map_singleton, trimEnd, dropEndWhile_eq_self h.flush]

/-- **A text is the same when it is put into comments again.** The group with a comment for each
line of the text of a group has the text that the group has. -/
theorem groupText_recommented (raws : List (List Char)) :
    groupText ((lines (groupText raws)).map fun l => (Remark.ofLine l).raw) = groupText raws := by
  have hnormal := normalLines_groupLines raws
  have hsaid : ((groupLines raws).map fun l => (Remark.ofLine l).raw).flatMap bodyLines
      = groupLines raws := by
    rw [List.flatMap_map, List.flatMap_congr fun l hl => bodyLines_ofLine (hnormal.plain l hl)]
    exact List.flatMap_singleton' _
  rw [lines_groupText, groupText_eq, groupText_eq, hnormal.groupLines_eq hsaid]

end DocHarvest.Comment
