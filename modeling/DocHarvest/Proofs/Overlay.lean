import DocHarvest.Harvest.CommentMap

/-!
# Comment maps as overlays

A comment map is seen through `CommentMap.get?`. Adding entries lays them over the map: at each key
stands the text of the last entry with that key, and where there is none the map shows through
(`get?_insertAll`). Nothing else about how maps are kept is used by the theory of the harvest, for
maps that show the same are the same (`ext_get?`).
-/

namespace DocHarvest

namespace Entry

theorem lookup_cons (e : Entry) (es : List Entry) (k : String) :
    (e :: es).lookup k = if k = e.1 then some e.2 else es.lookup k := by
  obtain ⟨key, value⟩ := e
  rw [List.lookup_cons]
  by_cases hk : k = key
  · rw [beq_iff_eq.mpr hk, if_pos hk]
  · rw [beq_eq_false_iff_ne.mpr hk, if_neg hk]

theorem lookup_insertInto (key value : String) (es : List Entry) (k : String) :
    (insertInto key value es).lookup k = if k = key then some value else es.lookup k := by
  induction es with
  | nil => rw [insertInto, lookup_cons]
  | cons e es ih =>
    rw [insertInto]
    split
    next => rw [lookup_cons]
    next =>
      split
      next heq =>
        rw [lookup_cons, lookup_cons, ← heq]
        split
        next => rfl
        next => rfl
      next hne =>
        rw [lookup_cons, lookup_cons, ih]
        by_cases hk : k = key
        · -- the entry in front has another key, so it does not hide the inserted one
          rw [if_neg (fun h => hne (hk.symm.trans h)), if_pos hk, if_pos hk]
        · rw [if_neg hk, if_neg hk]

theorem lookup_eq_none_of_lt {es : List Entry} {k : String} (h : ∀ e ∈ es, k < e.1) :
    es.lookup k = none := by
  rw [List.lookup_eq_none_iff]
  intro e he
  rw [bne_iff_ne]
  intro heq
  exact String.lt_irrefl k (heq ▸ h e he)

/-- The first key of a list that shows what an ordered list shows is not before the first one there,
because it is not found among greater keys. -/
theorem not_lt_of_lookup_eq {e d : Entry} {es ds : List Entry}
    (hds : (d :: ds).Pairwise fun a b => a.1 < b.1)
    (h : (e :: es).lookup e.1 = (d :: ds).lookup e.1) : ¬e.1 < d.1 := by
  intro hlt
  have hnone : (d :: ds).lookup e.1 = none := by
    apply lookup_eq_none_of_lt
    intro f hf
    rcases List.mem_cons.mp hf with rfl | hf
    · exact hlt
    · exact String.lt_trans hlt ((List.pairwise_cons.mp hds).1 f hf)
  rw [lookup_cons, if_pos rfl, hnone] at h
  cases h

/-- Entries in key order are told by what is found under each key. -/
theorem eq_of_lookup_eq {es ds : List Entry} (hes : es.Pairwise fun a b => a.1 < b.1)
    (hds : ds.Pairwise fun a b => a.1 < b.1) (h : ∀ k, es.lookup k = ds.lookup k) : es = ds := by
  induction es generalizing ds with
  | nil =>
    cases ds with
    | nil => rfl
    | cons d ds =>
      have hfound := h d.1
      rw [lookup_cons, if_pos rfl] at hfound
      cases hfound
  | cons e es ih =>
    cases ds with
    | nil =>
      have hfound := h e.1
      rw [lookup_cons, if_pos rfl] at hfound
      cases hfound
    | cons d ds =>
      have hkey : e.1 = d.1 := String.le_antisymm
        (String.not_lt.mp (not_lt_of_lookup_eq hes (h d.1).symm))
        (String.not_lt.mp (not_lt_of_lookup_eq hds (h e.1)))
      have hvalue : e.2 = d.2 := by
        have hfound := h e.1
        rw [lookup_cons, if_pos rfl, lookup_cons, if_pos hkey] at hfound
        exact Option.some.inj hfound
      obtain rfl : e = d := Prod.ext hkey hvalue
      obtain ⟨he, hes⟩ := List.pairwise_cons.mp hes
      obtain ⟨hd, hds⟩ := List.pairwise_cons.mp hds
      refine congrArg _ (ih hes hds fun k => ?_)
      by_cases hk : k = e.1
      · rw [hk, lookup_eq_none_of_lt he, lookup_eq_none_of_lt hd]
      · have hfound := h k
        rwa [lookup_cons, if_neg hk, lookup_cons, if_neg hk] at hfound

end Entry

namespace CommentMap

/-- Maps that show the same at every key are the same. -/
theorem ext_get? {m m' : CommentMap} (h : ∀ key, m.get? key = m'.get? key) : m = m' := by
  obtain ⟨es, hes⟩ := m
  obtain ⟨ds, hds⟩ := m'
  obtain rfl : es = ds := Entry.eq_of_lookup_eq hes hds h
  rfl

theorem get?_insert (m : CommentMap) (key value k : String) :
    (m.insert key value).get? k = if k = key then some value else m.get? k :=
  Entry.lookup_insertInto key value m.entries k

/-- The text of the last of some entries with a key. -/
def lastText (es : List Entry) (key : String) : Option String :=
  es.reverse.lookup key

theorem lastText_append (es ds : List Entry) (key : String) :
    lastText (es ++ ds) key = (lastText ds key).or (lastText es key) := by
  rw [lastText, List.reverse_append, List.lookup_append]
  rfl

theorem lastText_cons (e : Entry) (es : List Entry) (key : String) :
    lastText (e :: es) key = (lastText es key).or (if key = e.1 then some e.2 else none) := by
  rw [← List.singleton_append, lastText_append]
  exact congrArg _ (Entry.lookup_cons e [] key)

/-- **The last write wins.** A map with entries added shows at each key the last of them, and where
there is none what it showed before. -/
theorem get?_insertAll (m : CommentMap) (es : List Entry) (key : String) :
    (m.insertAll es).get? key = (lastText es key).or (m.get? key) := by
  induction es generalizing m with
  | nil => rfl
  | cons e es ih =>
    rw [show m.insertAll (e :: es) = (m.insert e.1 e.2).insertAll es from rfl, ih, get?_insert,
      lastText_cons]
    split
    next => cases lastText es key <;> rfl
    next => cases lastText es key <;> rfl

/-! ## Maps over maps -/

/-- The map with another map laid over it. -/
def overlay (m layer : CommentMap) : CommentMap :=
  m.insertAll layer.entries

/-- The entries of a map have different keys, so the last of them with a key is the only one. -/
theorem lastText_entries (m : CommentMap) (key : String) :
    lastText m.entries key = m.get? key := by
  obtain ⟨es, hes⟩ := m
  show lastText es key = es.lookup key
  induction es with
  | nil => rfl
  | cons e es ih =>
    obtain ⟨he, hes⟩ := List.pairwise_cons.mp hes
    rw [lastText_cons, ih hes, Entry.lookup_cons]
    by_cases hk : key = e.1
    · rw [if_pos hk, if_pos hk, hk, Entry.lookup_eq_none_of_lt he]
      rfl
    · rw [if_neg hk, if_neg hk, Option.or_none]

theorem get?_overlay (m layer : CommentMap) (key : String) :
    (m.overlay layer).get? key = (layer.get? key).or (m.get? key) := by
  rw [overlay, get?_insertAll, lastText_entries]

/-- Entries are laid over a map as the map that they make by themselves. -/
theorem insertAll_eq_overlay (m : CommentMap) (es : List Entry) :
    m.insertAll es = m.overlay (empty.insertAll es) := by
  apply ext_get?
  intro key
  rw [get?_overlay, get?_insertAll, get?_insertAll, show empty.get? key = none from rfl,
    Option.or_none]

end CommentMap

end DocHarvest
