/-!
# Comment maps

A comment map takes the qualified name of a symbol to the text of its comment. It is kept as a list
of entries in strictly increasing key order, so two maps with the same entries are equal and a map
has one rendering. Keys are ordered by code point. The order of the entries is part of the type.
-/

namespace DocHarvest

/-- A qualified symbol name and the text of its comment. -/
abbrev Entry := String × String

namespace Entry

/-- Entries with an entry inserted before the first greater key, or in place of an equal one. -/
def insertInto (key value : String) : List Entry → List Entry
  | [] => [(key, value)]
  | e :: es =>
    if key < e.1 then (key, value) :: e :: es
    else if key = e.1 then (key, value) :: es
    else e :: insertInto key value es

/-- Inserting brings no key but the inserted one. -/
theorem key_eq_or_mem_of_mem_insertInto {key value : String} {es : List Entry} {e : Entry}
    (h : e ∈ insertInto key value es) : e.1 = key ∨ e ∈ es := by
  induction es with
  | nil =>
    obtain rfl : e = (key, value) := by simpa [insertInto] using h
    exact Or.inl rfl
  | cons d ds ih =>
    by_cases hlt : key < d.1
    · rw [insertInto, if_pos hlt] at h
      rcases List.mem_cons.mp h with rfl | h
      · exact Or.inl rfl
      · exact Or.inr h
    by_cases heq : key = d.1
    · rw [insertInto, if_neg hlt, if_pos heq] at h
      rcases List.mem_cons.mp h with rfl | h
      · exact Or.inl rfl
      · exact Or.inr (List.mem_cons_of_mem _ h)
    · rw [insertInto, if_neg hlt, if_neg heq] at h
      rcases List.mem_cons.mp h with rfl | h
      · exact Or.inr List.mem_cons_self
      · exact (ih h).imp id (List.mem_cons_of_mem _)

/-- Of two different keys that are not in order, the other order holds. -/
theorem lt_of_not_lt_of_ne {a b : String} (h : ¬a < b) (hne : a ≠ b) : b < a := by
  by_cases hlt : b < a
  · exact hlt
  · exact absurd (String.le_antisymm (String.not_lt.mp hlt) (String.not_lt.mp h)) hne

/-- Insertion keeps the keys in strictly increasing order. -/
theorem pairwise_insertInto (key value : String) {es : List Entry}
    (h : es.Pairwise fun a b => a.1 < b.1) :
    (insertInto key value es).Pairwise fun a b => a.1 < b.1 := by
  induction es with
  | nil => simp [insertInto]
  | cons d ds ih =>
    obtain ⟨hd, hds⟩ := List.pairwise_cons.mp h
    by_cases hlt : key < d.1
    · rw [insertInto, if_pos hlt]
      refine List.pairwise_cons.mpr ⟨?_, h⟩
      intro e he
      rcases List.mem_cons.mp he with rfl | he
      · exact hlt
      · exact String.lt_trans hlt (hd e he)
    by_cases heq : key = d.1
    · rw [insertInto, if_neg hlt, if_pos heq]
      refine List.pairwise_cons.mpr ⟨?_, hds⟩
      intro e he
      rw [heq]
      exact hd e he
    · rw [insertInto, if_neg hlt, if_neg heq]
      refine List.pairwise_cons.mpr ⟨?_, ih hds⟩
      intro e he
      rcases key_eq_or_mem_of_mem_insertInto he with hkey | hmem
      · rw [hkey]
        exact lt_of_not_lt_of_ne hlt heq
      · exact hd e hmem

end Entry

/-- Entries in strictly increasing key order. -/
structure CommentMap where
  entries : List Entry
  ordered : entries.Pairwise fun a b => a.1 < b.1

namespace CommentMap

/-- The map without entries. -/
def empty : CommentMap :=
  ⟨[], List.Pairwise.nil⟩

/-- The map with an entry added; an entry with the same key gives way. -/
def insert (m : CommentMap) (key value : String) : CommentMap :=
  ⟨Entry.insertInto key value m.entries, Entry.pairwise_insertInto key value m.ordered⟩

/-- The map with entries added one after the other; the last one with a key stays. -/
def insertAll (m : CommentMap) (es : List Entry) : CommentMap :=
  es.foldl (fun m e => m.insert e.1 e.2) m

/-- The text at a key. -/
def get? (m : CommentMap) (key : String) : Option String :=
  m.entries.lookup key

/-- The number of entries. -/
def size (m : CommentMap) : Nat :=
  m.entries.length

end CommentMap

end DocHarvest
