import DocHarvest.Doc.Sentence

/-!
# Where the first sentence ends

The scan for the end of a sentence carries the last three characters with it. What it looks for can
be told without a scan: a position of a text is a cut (`IsCut`) by the characters at it and right
before it, where the text is thought to be preceded by spaces. The scan stops at the first cut and
nowhere else (`endsAtFirstCut_firstSentence`), which is shown for the scan from any position, with
the characters before that position in the window.

Whether a position is a cut depends on nothing that comes after it (`isCut_append`). So a first
sentence has no cut inside, and what follows a text that has more than one sentence does not matter.
-/

namespace DocHarvest.Doc

open DocHarvest.Unicode

/-! ## Cuts -/

/-- The character at a position of a text as the scan reads it. There are spaces before the text. -/
def charAt (cs : List Char) (i : Int) : Char :=
  if i < 0 then ' ' else flatten (cs.getD i.toNat ' ')

/-- A sentence ends right before a position: at white space that follows a period, unless the period
follows a single upper-case letter, or behind a period that needs no white space. -/
def IsCut (cs : List Char) (i : Nat) : Prop :=
  i < cs.length ∧
    ((charAt cs i = ' ' ∧ charAt cs (i - 1) = '.' ∧
        (isUppercase (charAt cs (i - 2)) = false ∨ isUppercase (charAt cs (i - 3)) = true)) ∨
      charAt cs (i - 1) = '\u3002' ∨ charAt cs (i - 1) = '\uff0e')

instance (cs : List Char) : DecidablePred (IsCut cs) := fun i => by
  unfold IsCut
  exact inferInstance

theorem charAt_of_drop {cs rest : List Char} {i : Nat} {c : Char} (h : cs.drop i = c :: rest) :
    charAt cs i = flatten c := by
  have hget : cs[i]? = some c := by
    rw [← List.head?_drop, h, List.head?_cons]
  rw [charAt, if_neg (by omega), Int.toNat_natCast, List.getD_eq_getElem?_getD, hget]
  rfl

theorem charAt_append (cs more : List Char) {i : Int} (h : i < cs.length) :
    charAt (cs ++ more) i = charAt cs i := by
  unfold charAt
  by_cases hneg : i < 0
  · rw [if_pos hneg, if_pos hneg]
  · rw [if_neg hneg, if_neg hneg, List.getD_eq_getElem?_getD, List.getD_eq_getElem?_getD,
      List.getElem?_append_left (by omega)]

/-- A cut is known from the text up to it. -/
theorem isCut_append (cs more : List Char) {i : Nat} (h : i < cs.length) :
    IsCut (cs ++ more) i ↔ IsCut cs i := by
  unfold IsCut
  rw [charAt_append cs more (i := i) (by omega), charAt_append cs more (i := i - 1) (by omega),
    charAt_append cs more (i := i - 2) (by omega), charAt_append cs more (i := i - 3) (by omega),
    List.length_append]
  have hlt : i < cs.length + more.length := by omega
  simp only [h, hlt]

/-! ## The scan -/

theorem isWidePeriod_iff {c : Char} :
    isWidePeriod c = true ↔ c = '\u3002' ∨ c = '\uff0e' := by
  rw [isWidePeriod, Bool.or_eq_true, beq_iff_eq, beq_iff_eq, Char.ext_iff, Char.ext_iff,
    ← UInt32.toNat_inj, ← UInt32.toNat_inj]
  rfl

/-- The window tells whether a position is a cut. -/
theorem endsBefore_iff {cs rest : List Char} {i : Nat} {c : Char} (h : cs.drop i = c :: rest) :
    endsBefore (charAt cs (i - 1)) (charAt cs (i - 2)) (charAt cs (i - 3)) c = true ↔
      IsCut cs i := by
  have hlt : i < cs.length := by
    have := congrArg List.length h
    rw [List.length_drop, List.length_cons] at this
    omega
  unfold IsCut endsBefore
  rw [charAt_of_drop h, Bool.or_eq_true, isWidePeriod_iff]
  simp [hlt, and_assoc]

/-- A text is cut off at its first cut from a position on, or not at all. -/
structure EndsAtFirstCut (cs : List Char) (i : Nat) (front : List Char) : Prop where
  pre : front <+: cs.drop i
  not_before : ∀ j < front.length, ¬IsCut cs (i + j)
  cut : i + front.length < cs.length → IsCut cs (i + front.length)

/-- The scan from a position on, with the three characters before it in the window. -/
theorem endsAtFirstCut_from (cs rest : List Char) (i : Nat) (h : cs.drop i = rest) :
    EndsAtFirstCut cs i
      (firstSentenceFrom (charAt cs (i - 1)) (charAt cs (i - 2)) (charAt cs (i - 3)) rest) := by
  induction rest generalizing i with
  | nil =>
    rw [firstSentenceFrom]
    refine ⟨List.nil_prefix, by simp, ?_⟩
    intro hlt
    have := List.drop_eq_nil_iff.mp h
    simp at hlt
    omega
  | cons c rest ih =>
    rw [firstSentenceFrom]
    split
    next hends =>
      refine ⟨List.nil_prefix, by simp, ?_⟩
      intro _
      exact (endsBefore_iff h).mp hends
    next hends =>
      have hnot : ¬IsCut cs i := fun hcut => hends ((endsBefore_iff h).mpr hcut)
      have hdrop : cs.drop (i + 1) = rest := by
        rw [← List.drop_drop, h]
        rfl
      -- the window moves by one: the character at `i` becomes the nearest of the three
      have hnext := ih (i + 1) hdrop
      have hone : ((i + 1 : Nat) : Int) - 1 = i := by omega
      have htwo : ((i + 1 : Nat) : Int) - 2 = i - 1 := by omega
      have hthree : ((i + 1 : Nat) : Int) - 3 = i - 2 := by omega
      rw [hone, htwo, hthree, charAt_of_drop h] at hnext
      refine ⟨?_, ?_, ?_⟩
      · rw [h]
        exact List.cons_prefix_cons.mpr ⟨rfl, hdrop ▸ hnext.pre⟩
      · intro j hj
        cases j with
        | zero => exact hnot
        | succ j =>
          have := hnext.not_before j (by simpa using hj)
          rwa [Nat.add_right_comm] at this
      · intro hlt
        rw [List.length_cons] at hlt ⊢
        have := hnext.cut (by omega)
        rwa [Nat.add_assoc, Nat.add_comm 1] at this

/-- **The first sentence ends at the first cut.** -/
theorem endsAtFirstCut_firstSentence (cs : List Char) :
    EndsAtFirstCut cs 0 (firstSentence cs) :=
  endsAtFirstCut_from cs cs 0 rfl

/-- There is only one place where a text can be cut off in this way. -/
theorem EndsAtFirstCut.unique {cs front front' : List Char} {i : Nat}
    (h : EndsAtFirstCut cs i front) (h' : EndsAtFirstCut cs i front') : front = front' := by
  have hle := h.pre.length_le
  have hle' := h'.pre.length_le
  rw [List.length_drop] at hle hle'
  -- where one of them ends sooner there is a cut, which the other one has inside
  have hlength : front.length = front'.length := by
    rcases Nat.lt_trichotomy front.length front'.length with hlt | heq | hgt
    · exact absurd (h.cut (by omega)) (h'.not_before _ hlt)
    · exact heq
    · exact absurd (h'.cut (by omega)) (h.not_before _ hgt)
  rw [List.prefix_iff_eq_take.mp h.pre, List.prefix_iff_eq_take.mp h'.pre, hlength]

/-- What follows the first sentence of a text, if the text goes on. -/
theorem EndsAtFirstCut.append {cs front : List Char} (h : EndsAtFirstCut cs 0 front)
    (hlt : front.length < cs.length) (more : List Char) :
    EndsAtFirstCut (cs ++ more) 0 front := by
  refine ⟨h.pre.trans (List.prefix_append cs more), ?_, ?_⟩
  · intro j hj
    rw [isCut_append cs more (by omega)]
    exact h.not_before j hj
  · intro _
    rw [isCut_append cs more (by omega)]
    exact h.cut (by omega)

/-- There is no cut inside of a first sentence. -/
theorem EndsAtFirstCut.self {cs front : List Char} (h : EndsAtFirstCut cs 0 front) :
    EndsAtFirstCut front 0 front := by
  obtain ⟨rest, hrest⟩ := h.pre
  rw [List.drop_zero] at hrest
  refine ⟨List.prefix_rfl, ?_, fun hlt => absurd hlt (by omega)⟩
  intro j hj
  rw [← isCut_append front rest (by omega), hrest]
  exact h.not_before j hj

/-! ## First sentences -/

theorem firstSentence_subset (cs : List Char) : firstSentence cs ⊆ cs :=
  (endsAtFirstCut_firstSentence cs).pre.subset

/-- **The first sentence is what comes before the first cut**, or all of the text if it has none. A
first sentence is its own first sentence, and what follows a text that goes on behind its first
sentence does not change it. -/
theorem firstSentence_eq_before_cut (cs : List Char) :
    (∀ i, IsCut cs i → (∀ j < i, ¬IsCut cs j) → firstSentence cs = cs.take i) ∧
      ((∀ i, ¬IsCut cs i) → firstSentence cs = cs) ∧
      firstSentence (firstSentence cs) = firstSentence cs ∧
      (firstSentence cs ≠ cs → ∀ more, firstSentence (cs ++ more) = firstSentence cs) := by
  have hends := endsAtFirstCut_firstSentence cs
  refine ⟨?_, ?_, ?_, ?_⟩
  · intro i hcut hleast
    have hlength : (cs.take i).length = i := List.length_take_of_le (Nat.le_of_lt hcut.1)
    have htake : EndsAtFirstCut cs 0 (cs.take i) := by
      refine ⟨List.take_prefix i cs, ?_, ?_⟩
      · intro j hj
        rw [Nat.zero_add]
        exact hleast j (hlength ▸ hj)
      · intro _
        rwa [Nat.zero_add, hlength]
    exact hends.unique htake
  · intro hnone
    have hwhole : EndsAtFirstCut cs 0 cs :=
      ⟨List.prefix_rfl, fun j _ => hnone _, fun hlt => absurd hlt (by omega)⟩
    exact hends.unique hwhole
  · exact (endsAtFirstCut_firstSentence _).unique hends.self
  · intro hne more
    have hlt : (firstSentence cs).length < cs.length := by
      refine Nat.lt_of_le_of_ne hends.pre.length_le ?_
      intro heq
      exact hne (hends.pre.eq_of_length heq)
    exact (endsAtFirstCut_firstSentence _).unique (hends.append hlt more)

/-- The periods of an abbreviation end no sentence, and a line feed reads as a space. -/
theorem firstSentence_eq_before_cut_after_abbreviation :
    IsCut "U.S. law.\nMore".toList 9 ∧ (∀ j < 9, ¬IsCut "U.S. law.\nMore".toList j) ∧
      firstSentence "U.S. law.\nMore".toList = "U.S. law.".toList ∧
      firstSentence ("U.S. law.\nMore".toList ++ ". End".toList) = "U.S. law.".toList := by
  have hcut : IsCut "U.S. law.\nMore".toList 9 := by decide
  have hleast : ∀ j < 9, ¬IsCut "U.S. law.\nMore".toList j := by decide
  obtain ⟨hfirst, -, -, hmore⟩ := firstSentence_eq_before_cut "U.S. law.\nMore".toList
  have heq := hfirst 9 hcut hleast
  have hne : firstSentence "U.S. law.\nMore".toList ≠ "U.S. law.\nMore".toList := by
    rw [heq]
    decide
  exact ⟨hcut, hleast, heq, (hmore hne _).trans heq⟩

end DocHarvest.Doc
