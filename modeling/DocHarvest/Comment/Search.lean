/-!
# Searching places in order

Comments and tokens are kept in source order, so a condition on where they stand holds of the ones
at the front and fails from some position on. `partitionPoint` finds that position by halving the
range in which it can lie, and `partitionPoint_eq` says that it is the right one.
-/

namespace DocHarvest.Comment

/-- The position from `lo` on and not behind `hi` where `p` starts to fail, found by halving. -/
def searchFrom (p : α → Bool) (a : Array α) (lo hi : Nat) : Nat :=
  if lo < hi then
    let mid := lo + (hi - lo) / 2
    if a[mid]?.any p then searchFrom p a (mid + 1) hi else searchFrom p a lo mid
  else lo
  termination_by hi - lo
  decreasing_by all_goals omega

/-- How many elements satisfy `p`, if those that do stand before those that do not. -/
def partitionPoint (p : α → Bool) (a : Array α) : Nat :=
  searchFrom p a 0 a.size

/-- The search closes in on the border of a partition from any range that holds it. -/
theorem searchFrom_eq {p : α → Bool} {a : Array α} {n : Nat}
    (hfront : ∀ i < n, a[i]?.any p = true)
    (hback : ∀ i, n ≤ i → a[i]?.any p = false) :
    ∀ (lo hi : Nat), lo ≤ n → n ≤ hi → searchFrom p a lo hi = n
  | lo, hi, hlo, hhi => by
    rw [searchFrom]
    split
    next hlt =>
      dsimp only
      split
      next hmid =>
        refine searchFrom_eq hfront hback _ hi ?_ hhi
        rcases Nat.lt_or_ge (lo + (hi - lo) / 2) n with hin | hout
        · exact hin
        · rw [hback _ hout] at hmid
          cases hmid
      next hmid =>
        refine searchFrom_eq hfront hback lo _ hlo ?_
        rcases Nat.lt_or_ge (lo + (hi - lo) / 2) n with hin | hout
        · exact absurd (hfront _ hin) hmid
        · exact hout
    next hge => omega
  termination_by lo hi => hi - lo
  decreasing_by all_goals omega

/-- **The search finds the border of a partition.** -/
theorem partitionPoint_eq {p : α → Bool} {a : Array α} {front back : List α}
    (h : a.toList = front ++ back) (hfront : ∀ x ∈ front, p x = true)
    (hback : ∀ x ∈ back, p x = false) : partitionPoint p a = front.length := by
  have hsize : a.size = front.length + back.length := by
    rw [← Array.length_toList, h, List.length_append]
  refine searchFrom_eq ?_ ?_ 0 a.size (Nat.zero_le _) (by omega)
  · intro i hi
    rw [← Array.getElem?_toList, h, List.getElem?_append_left hi, List.getElem?_eq_getElem hi]
    exact hfront _ (List.getElem_mem hi)
  · intro i hi
    rw [← Array.getElem?_toList, h, List.getElem?_append_right hi]
    cases hx : back[i - front.length]? with
    | none => rfl
    | some x => exact hback x (List.mem_of_getElem? hx)

end DocHarvest.Comment
