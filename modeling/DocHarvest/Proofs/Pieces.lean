import DocHarvest.Text.Basic

/-!
# Pieces of a text

A text is cut at a separator into pieces that do not have it, and pieces without it are found again
when they are written with the separator between them. Import paths, keys and paths of files are all
written and read in this way.
-/

namespace DocHarvest.Text

/-! ## Trimming -/

/-- What is left begins with something that was not to be dropped. -/
theorem head?_dropWhile {α : Type} {p : α → Bool} {xs : List α} {x : α}
    (h : x ∈ (xs.dropWhile p).head?) : p x = false := by
  have hnot := List.head?_dropWhile_not p xs
  rw [Option.mem_def] at h
  rw [h] at hnot
  simpa using hnot

/-- What is left at the end of a text was not to be dropped. -/
theorem getLast?_dropEndWhile {p : Char → Bool} {cs : List Char} {c : Char}
    (h : c ∈ (dropEndWhile p cs).getLast?) : p c = false := by
  rw [dropEndWhile, List.getLast?_reverse] at h
  exact head?_dropWhile h

theorem dropEndWhile_eq_self {p : Char → Bool} {cs : List Char}
    (h : ∀ c ∈ cs.getLast?, p c = false) : dropEndWhile p cs = cs := by
  unfold dropEndWhile
  rw [List.reverse_eq_iff]
  cases hrev : cs.reverse with
  | nil => rfl
  | cons c rest =>
    have hlast : c ∈ cs.getLast? := by
      rw [← List.head?_reverse, hrev]
      rfl
    rw [List.dropWhile_cons_of_neg (by simp [h c hlast])]

theorem dropEndWhile_subset (p : Char → Bool) (cs : List Char) : dropEndWhile p cs ⊆ cs := by
  intro c hc
  rw [dropEndWhile, List.mem_reverse] at hc
  exact List.mem_reverse.mp (List.dropWhile_subset _ hc)

/-- What stands between characters that are dropped is kept, if it neither begins nor ends with
one. -/
theorem trimWhere_append {p : Char → Bool} {front cs back : List Char}
    (hfront : ∀ c ∈ front, p c = true) (hback : ∀ c ∈ back, p c = true)
    (hhead : ∀ c ∈ cs.head?, p c = false) (hlast : ∀ c ∈ cs.getLast?, p c = false) :
    trimWhere p (front ++ cs ++ back) = cs := by
  cases cs with
  | nil =>
    have hall : ∀ c ∈ front ++ back, p c = true := List.forall_mem_append.mpr ⟨hfront, hback⟩
    rw [List.append_nil, trimWhere, ← List.append_nil (front ++ back),
      List.dropWhile_append_of_pos hall]
    rfl
  | cons c cs =>
    have hreverse : ∀ d ∈ back.reverse, p d = true := fun d hd => hback d (List.mem_reverse.mp hd)
    have hend : dropEndWhile p (c :: cs ++ back) = c :: cs := by
      rw [dropEndWhile, List.reverse_append, List.dropWhile_append_of_pos hreverse]
      exact dropEndWhile_eq_self hlast
    rw [trimWhere, List.append_assoc, List.dropWhile_append_of_pos hfront, List.cons_append,
      List.dropWhile_cons_of_neg (by simp [hhead c rfl])]
    exact hend

/-- Nothing is trimmed away but what was to be dropped. -/
theorem exists_append_trimWhere (p : Char → Bool) (cs : List Char) :
    ∃ front back, cs = front ++ trimWhere p cs ++ back ∧ (∀ c ∈ front, p c = true) ∧
      ∀ c ∈ back, p c = true := by
  have hback : cs.dropWhile p
      = trimWhere p cs ++ ((cs.dropWhile p).reverse.takeWhile p).reverse := by
    rw [trimWhere, dropEndWhile, ← List.reverse_append, List.takeWhile_append_dropWhile,
      List.reverse_reverse]
  refine ⟨cs.takeWhile p, ((cs.dropWhile p).reverse.takeWhile p).reverse, ?_, ?_, ?_⟩
  · rw [List.append_assoc, ← hback, List.takeWhile_append_dropWhile]
  · exact List.all_eq_true.mp List.all_takeWhile
  · intro c hc
    exact List.all_eq_true.mp List.all_takeWhile c (List.mem_reverse.mp hc)

/-- What stands between two characters that are dropped is kept, if it neither begins nor ends with
one. -/
theorem trimWhere_cons_concat {p : Char → Bool} {a b : Char} {cs : List Char} (ha : p a = true)
    (hb : p b = true) (hhead : ∀ c ∈ cs.head?, p c = false)
    (hlast : ∀ c ∈ cs.getLast?, p c = false) : trimWhere p (a :: (cs ++ [b])) = cs := by
  show trimWhere p ([a] ++ cs ++ [b]) = cs
  exact trimWhere_append (List.forall_mem_singleton.mpr ha) (List.forall_mem_singleton.mpr hb) hhead
    hlast

/-! ## Splitting -/

/-- A text does not have a separator, or it has a first one. -/
theorem takeWhile_ne_cases (sep : Char) (cs : List Char) :
    cs.takeWhile (· != sep) = cs ∨ ∃ rest, cs = cs.takeWhile (· != sep) ++ sep :: rest := by
  induction cs with
  | nil => exact Or.inl rfl
  | cons c cs ih =>
    by_cases hc : c = sep
    · subst hc
      exact Or.inr ⟨cs, by simp⟩
    · rw [List.takeWhile_cons_of_pos (by simpa using hc)]
      rcases ih with hall | ⟨rest, hrest⟩
      · exact Or.inl (by rw [hall])
      · exact Or.inr ⟨rest, congrArg (c :: ·) hrest⟩

/-- Two texts are the same up to the first occurrence of a character, and from there on. -/
theorem eq_of_append_cons_eq {c : Char} {as bs xs ys : List Char} (has : c ∉ as) (hbs : c ∉ bs)
    (h : as ++ c :: xs = bs ++ c :: ys) : as = bs ∧ xs = ys := by
  have hfront : ∀ {ds zs : List Char}, c ∉ ds → (ds ++ c :: zs).takeWhile (· ≠ c) = ds := by
    intro ds zs hds
    have hpos : ∀ d ∈ ds, decide (d ≠ c) = true := fun d hd =>
      decide_eq_true fun heq => hds (heq ▸ hd)
    rw [List.takeWhile_append_of_pos hpos]
    simp
  have heq : as = bs := by rw [← hfront has, h, hfront hbs]
  subst heq
  rw [List.append_cancel_left_eq, List.cons.injEq] at h
  exact ⟨rfl, h.2⟩

theorem splitWhere_ne_nil (p : Char → Bool) (cs : List Char) : splitWhere p cs ≠ [] := by
  cases cs with
  | nil => simp [splitWhere]
  | cons c cs =>
    unfold splitWhere
    split
    next => simp
    next => split <;> simp

theorem split_ne_nil (sep : Char) (cs : List Char) : split sep cs ≠ [] :=
  splitWhere_ne_nil _ cs

/-- A separator starts a new piece. -/
theorem splitWhere_cons_of_pos {p : Char → Bool} {c : Char} (h : p c = true) (cs : List Char) :
    splitWhere p (c :: cs) = [] :: splitWhere p cs := by
  rw [splitWhere, if_pos h]

/-- Any other character comes to the first piece. -/
theorem exists_splitWhere_cons {p : Char → Bool} {c : Char} (h : p c = false) (cs : List Char) :
    ∃ piece pieces, splitWhere p cs = piece :: pieces ∧
      splitWhere p (c :: cs) = (c :: piece) :: pieces := by
  obtain ⟨piece, pieces, hcs⟩ := List.exists_cons_of_ne_nil (splitWhere_ne_nil p cs)
  exact ⟨piece, pieces, hcs, by rw [splitWhere, if_neg (Bool.eq_false_iff.mp h), hcs]⟩

theorem splitWhere_append_cons {p : Char → Bool} {c : Char} (h : p c = true)
    (xs ys : List Char) : splitWhere p (xs ++ c :: ys) = splitWhere p xs ++ splitWhere p ys := by
  induction xs with
  | nil => rw [List.nil_append, splitWhere_cons_of_pos h, splitWhere, List.singleton_append]
  | cons x xs ih =>
    rw [List.cons_append, splitWhere, splitWhere, ih]
    split
    next => rfl
    next =>
      cases hpieces : splitWhere p xs with
      | nil => exact absurd hpieces (splitWhere_ne_nil _ _)
      | cons piece pieces => rfl

theorem split_append_cons (sep : Char) (xs ys : List Char) :
    split sep (xs ++ sep :: ys) = split sep xs ++ split sep ys :=
  splitWhere_append_cons (p := (· == sep)) (beq_self_eq_true sep) xs ys

theorem splitWhere_eq_singleton {p : Char → Bool} {cs : List Char} (h : ∀ c ∈ cs, p c = false) :
    splitWhere p cs = [cs] := by
  induction cs with
  | nil => rfl
  | cons c cs ih =>
    obtain ⟨hc, hcs⟩ := List.forall_mem_cons.mp h
    rw [splitWhere, ih hcs, if_neg (Bool.eq_false_iff.mp hc)]

theorem split_eq_singleton {sep : Char} {cs : List Char} (h : sep ∉ cs) : split sep cs = [cs] := by
  refine splitWhere_eq_singleton fun c hc => ?_
  rw [beq_eq_false_iff_ne]
  rintro rfl
  exact h hc

/-- Splitting loses the characters that separate, and nothing else. -/
theorem flatten_splitWhere (p : Char → Bool) (cs : List Char) :
    (splitWhere p cs).flatten = cs.filter (!p ·) := by
  induction cs with
  | nil => rfl
  | cons c cs ih =>
    rw [splitWhere, List.filter_cons]
    cases p c with
    | true => exact ih
    | false =>
      cases hpieces : splitWhere p cs with
      | nil => exact absurd hpieces (splitWhere_ne_nil _ _)
      | cons piece pieces =>
        rw [hpieces] at ih
        exact congrArg (c :: ·) ih

/-- The characters of the pieces are those of the text that do not separate. -/
theorem exists_mem_splitWhere_iff {p : Char → Bool} {cs : List Char} {c : Char} :
    (∃ piece ∈ splitWhere p cs, c ∈ piece) ↔ c ∈ cs ∧ p c = false := by
  rw [← List.mem_flatten, flatten_splitWhere, List.mem_filter, Bool.not_eq_true']

theorem mem_of_mem_splitWhere {p : Char → Bool} {cs piece : List Char} {c : Char}
    (hpiece : piece ∈ splitWhere p cs) (hc : c ∈ piece) : c ∈ cs :=
  (exists_mem_splitWhere_iff.mp ⟨piece, hpiece, hc⟩).1

theorem sep_notMem_of_mem_split {sep : Char} {cs piece : List Char} (h : piece ∈ split sep cs) :
    sep ∉ piece := by
  intro hsep
  obtain ⟨-, hnot⟩ := exists_mem_splitWhere_iff.mp ⟨piece, h, hsep⟩
  simp at hnot

/-- Pieces with the separator between them are found again. -/
theorem split_intercalate {sep : Char} {pieces : List (List Char)} (hne : pieces ≠ [])
    (h : ∀ piece ∈ pieces, sep ∉ piece) : split sep (List.intercalate [sep] pieces) = pieces := by
  induction pieces with
  | nil => exact absurd rfl hne
  | cons piece pieces ih =>
    obtain ⟨hpiece, hpieces⟩ := List.forall_mem_cons.mp h
    cases pieces with
    | nil => rw [List.intercalate_singleton, split_eq_singleton hpiece]
    | cons next pieces =>
      rw [List.intercalate_cons_cons, List.append_assoc, List.singleton_append, split_append_cons,
        split_eq_singleton hpiece, ih (List.cons_ne_nil _ _) hpieces]
      rfl

/-- What is in joined pieces is in a piece or in what stands between them. -/
theorem mem_join {sep : List Char} {pieces : List (List Char)} {c : Char}
    (h : c ∈ join sep pieces) : c ∈ sep ∨ ∃ piece ∈ pieces, c ∈ piece := by
  unfold join at h
  induction pieces with
  | nil => cases h
  | cons piece pieces ih =>
    cases pieces with
    | nil => exact Or.inr ⟨piece, List.mem_cons_self, by simpa using h⟩
    | cons next pieces =>
      rw [List.intercalate_cons_cons, List.mem_append, List.mem_append] at h
      rcases h with (hpiece | hsep) | hrest
      · exact Or.inr ⟨piece, List.mem_cons_self, hpiece⟩
      · exact Or.inl hsep
      · refine (ih hrest).imp_right fun hmem => ?_
        obtain ⟨other, hother, hc⟩ := hmem
        exact ⟨other, List.mem_cons_of_mem _ hother, hc⟩

/-! ## Starts of a text -/

theorem dropStart?_eq_some_iff {start cs rest : List Char} :
    dropStart? start cs = some rest ↔ cs = start ++ rest := by
  induction start generalizing cs with
  | nil => simp [dropStart?, eq_comm]
  | cons s start ih =>
    cases cs with
    | nil => simp [dropStart?]
    | cons c cs =>
      rw [dropStart?, List.cons_append, List.cons.injEq]
      by_cases hs : s = c
      · rw [if_pos hs, ih, and_iff_right hs.symm]
      · rw [if_neg hs]
        constructor
        · intro h
          cases h
        · intro h
          exact absurd h.1.symm hs

theorem startsWith_iff_prefix {start cs : List Char} :
    startsWith start cs = true ↔ start <+: cs := by
  rw [startsWith, Option.isSome_iff_exists]
  simp only [dropStart?_eq_some_iff]
  exact ⟨fun ⟨rest, h⟩ => ⟨rest, h.symm⟩, fun ⟨rest, h⟩ => ⟨rest, h.symm⟩⟩

theorem endsWith_iff_suffix {ending cs : List Char} :
    endsWith ending cs = true ↔ ending <:+ cs := by
  rw [endsWith, startsWith_iff_prefix, List.reverse_prefix]

/-! ## Up to a mark -/

theorem before_prefix (mark cs : List Char) : before mark cs <+: cs := by
  induction cs with
  | nil => exact List.nil_prefix
  | cons c cs ih =>
    rw [before]
    split
    next => exact List.nil_prefix
    next => exact (List.prefix_cons_inj c).mpr ih

theorem before_singleton (mark : Char) (cs : List Char) :
    before [mark] cs = cs.takeWhile (· != mark) := by
  induction cs with
  | nil => rfl
  | cons c cs ih =>
    rw [before, ih, List.takeWhile_cons]
    by_cases hc : mark = c
    · simp [startsWith, dropStart?, hc]
    · simp [startsWith, dropStart?, hc, Ne.symm hc]

theorem before_append {mark : Char} {front : List Char} (h : mark ∉ front) (rest : List Char) :
    before [mark] (front ++ rest) = front ++ before [mark] rest := by
  have hpos : ∀ c ∈ front, (c != mark) = true := by
    intro c hc
    rw [bne_iff_ne]
    rintro rfl
    exact h hc
  rw [before_singleton, before_singleton, List.takeWhile_append_of_pos hpos]

theorem before_cons_self (mark : Char) (rest : List Char) : before [mark] (mark :: rest) = [] := by
  rw [before_singleton, List.takeWhile_cons_of_neg (by simp)]

end DocHarvest.Text
