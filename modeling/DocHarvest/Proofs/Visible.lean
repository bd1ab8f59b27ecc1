import DocHarvest.Proofs.Pieces

/-!
# Texts that show something

A text shows something if it has a character other than white space (`Visible`). What is trimmed
begins and ends with such characters (`Flush`), so it shows something unless it is empty. Words have
no other characters (`Solid`), and a text that shows something has words.
-/

namespace DocHarvest.Text

open DocHarvest.Unicode

/-- Some character of a text is not white space. -/
def Visible (cs : List Char) : Prop :=
  ∃ c ∈ cs, isBlank c = false

/-- A text has no white space. -/
def Solid (cs : List Char) : Prop :=
  ∀ c ∈ cs, isBlank c = false

/-- A text is nothing but white space. -/
def Blank (cs : List Char) : Prop :=
  ∀ c ∈ cs, isBlank c = true

/-- A text has no white space at either end. -/
structure Flush (cs : List Char) : Prop where
  head : ∀ c ∈ cs.head?, isBlank c = false
  last : ∀ c ∈ cs.getLast?, isBlank c = false

namespace Visible

theorem cons {c : Char} (hc : isBlank c = false) (cs : List Char) : Visible (c :: cs) :=
  ⟨c, List.mem_cons_self, hc⟩

theorem mono {cs ds : List Char} (h : Visible cs) (hsub : cs ⊆ ds) : Visible ds := by
  obtain ⟨c, hc, hvisible⟩ := h
  exact ⟨c, hsub hc, hvisible⟩

theorem ne_nil {cs : List Char} (h : Visible cs) : cs ≠ [] := by
  obtain ⟨c, hc, -⟩ := h
  exact List.ne_nil_of_mem hc

end Visible

namespace Solid

instance : DecidablePred Solid := fun cs =>
  decidable_of_iff (cs.all (!isBlank ·) = true) (by simp [Solid])

theorem append {cs ds : List Char} (hcs : Solid cs) (hds : Solid ds) : Solid (cs ++ ds) := by
  intro c hc
  rcases List.mem_append.mp hc with hc | hc
  · exact hcs c hc
  · exact hds c hc

theorem cons {c : Char} {cs : List Char} (hc : isBlank c = false) (hcs : Solid cs) :
    Solid (c :: cs) :=
  List.forall_mem_cons.mpr ⟨hc, hcs⟩

end Solid

instance : DecidablePred Blank := fun cs =>
  decidable_of_iff (cs.all isBlank = true) List.all_eq_true

/-! ## Trimmed texts -/

theorem flush_trim (cs : List Char) : Flush (trim cs) := by
  unfold trim trimWhere dropEndWhile
  refine ⟨?_, ?_⟩
  · intro c hc
    -- what is left at the front is the front of the text without its leading white space
    have hpre : ((cs.dropWhile isBlank).reverse.dropWhile isBlank).reverse
        <+: cs.dropWhile isBlank := by
      rw [← List.reverse_suffix, List.reverse_reverse]
      exact List.dropWhile_suffix _
    obtain ⟨rest, hrest⟩ := hpre
    apply head?_dropWhile
    rw [← hrest]
    exact Option.mem_def.mpr (by rw [List.head?_append, Option.mem_def.mp hc, Option.some_or])
  · intro c hc
    rw [List.getLast?_reverse] at hc
    exact head?_dropWhile hc

theorem Flush.visible {cs : List Char} (h : Flush cs) (hne : cs ≠ []) : Visible cs := by
  cases cs with
  | nil => exact absurd rfl hne
  | cons c cs => exact .cons (h.head c rfl) cs

theorem flush_trimmed (s : String) : Flush (trimmed s).toList := by
  rw [trimmed, String.toList_ofList]
  exact flush_trim s.toList

theorem Solid.flush {cs : List Char} (h : Solid cs) : Flush cs :=
  ⟨fun c hc => h c (List.mem_of_head? hc), fun c hc => h c (List.mem_of_getLast? hc)⟩

/-- White space around a text is trimmed away, and nothing else is. -/
theorem Flush.trim_append {front cs back : List Char} (h : Flush cs) (hfront : Blank front)
    (hback : Blank back) : trim (front ++ cs ++ back) = cs :=
  trimWhere_append hfront hback h.head h.last

/-! ## Words -/

theorem subset_join {sep piece : List Char} {pieces : List (List Char)} (h : piece ∈ pieces) :
    piece ⊆ join sep pieces := by
  unfold join
  induction pieces with
  | nil => cases h
  | cons first rest ih =>
    cases rest with
    | nil =>
      rw [List.mem_singleton.mp h, List.intercalate_singleton]
      exact List.Subset.refl _
    | cons second rest =>
      rw [List.intercalate_cons_cons]
      rcases List.mem_cons.mp h with rfl | h
      · exact fun c hc => List.mem_append_left _ (List.mem_append_left _ hc)
      · exact fun c hc => List.mem_append_right _ (ih h hc)

theorem words_ne_nil {cs : List Char} (h : Visible cs) : words cs ≠ [] := by
  obtain ⟨c, hc, hvisible⟩ := h
  obtain ⟨piece, hpiece, hmem⟩ := exists_mem_splitWhere_iff.mpr ⟨hc, hvisible⟩
  refine List.ne_nil_of_mem (a := piece) (List.mem_filter.mpr ⟨hpiece, ?_⟩)
  rw [Bool.not_eq_true', List.isEmpty_eq_false_iff]
  exact List.ne_nil_of_mem hmem

theorem solid_of_mem_words {cs w : List Char} (h : w ∈ words cs) : w ≠ [] ∧ Solid w := by
  obtain ⟨hpiece, hne⟩ := List.mem_filter.mp h
  refine ⟨by simpa using hne, ?_⟩
  intro c hc
  exact (exists_mem_splitWhere_iff.mp ⟨w, hpiece, hc⟩).2

/-- White space between two texts keeps their words apart. -/
theorem words_append_cons {c : Char} (hc : isBlank c = true) (cs ds : List Char) :
    words (cs ++ c :: ds) = words cs ++ words ds := by
  unfold words
  rw [splitWhere_append_cons hc, List.filter_append]

theorem words_append_blank {bs : List Char} (hbs : Blank bs) (cs : List Char) :
    words (cs ++ bs) = words cs := by
  induction bs generalizing cs with
  | nil => rw [List.append_nil]
  | cons b bs ih =>
    obtain ⟨hb, hbs⟩ := List.forall_mem_cons.mp hbs
    have hnone : words ([] ++ bs) = words [] := ih hbs []
    rw [List.nil_append] at hnone
    rw [words_append_cons hb, hnone]
    exact List.append_nil _

/-- White space in front of a text is no part of its words. -/
theorem words_blank_append {bs : List Char} (hbs : Blank bs) (cs : List Char) :
    words (bs ++ cs) = words cs := by
  induction bs with
  | nil => rfl
  | cons b bs ih =>
    obtain ⟨hb, hbs⟩ := List.forall_mem_cons.mp hbs
    rw [List.cons_append, ← List.nil_append (b :: _), words_append_cons hb, ih hbs]
    rfl

theorem words_eq_nil {bs : List Char} (hbs : Blank bs) : words bs = [] := by
  rw [← List.append_nil bs, words_blank_append hbs]
  rfl

/-- A text that does not start with white space starts with its first word. -/
theorem exists_head?_words {c : Char} (hc : isBlank c = false) (cs : List Char) :
    ∃ w, (words (c :: cs)).head? = some (c :: w) := by
  obtain ⟨piece, pieces, -, hsplit⟩ := exists_splitWhere_cons hc cs
  refine ⟨piece, ?_⟩
  rw [words, hsplit, List.filter_cons_of_pos rfl]
  rfl

theorem words_eq_singleton {w : List Char} (hne : w ≠ []) (hw : Solid w) : words w = [w] := by
  rw [words, splitWhere_eq_singleton hw, List.filter_cons_of_pos (by simpa using hne)]
  rfl

/-- The last word of a text is told apart by the white space around it. -/
theorem getLastD_words {front w bs : List Char} (hfront : ∀ c ∈ front.getLast?, isBlank c = true)
    (hne : w ≠ []) (hw : Solid w) (hbs : Blank bs) :
    (words (front ++ w ++ bs)).getLastD [] = w := by
  rw [words_append_blank hbs]
  rcases List.eq_nil_or_concat front with rfl | ⟨cs, c, rfl⟩
  · rw [List.nil_append, words_eq_singleton hne hw]
    rfl
  · have hc : isBlank c = true := hfront c (by simp)
    rw [List.concat_append, words_append_cons hc, words_eq_singleton hne hw, List.getLastD_concat]

end DocHarvest.Text
