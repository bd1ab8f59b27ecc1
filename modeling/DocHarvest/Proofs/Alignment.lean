import DocHarvest.Comment.Index
import DocHarvest.Comment.Text
import Mathlib.Data.List.Forall2
import Mathlib.Data.Option.Basic

/-!
# Comments in two files at once

Which comment belongs to a node is decided by rows and by the order of offsets. So if the comments
and tokens of two files correspond to each other, on the same rows and in the same order, then so do
the comments of two nodes that correspond (`lead_aligned`, `trail_aligned`), although all offsets
may differ. What corresponds is a relation between spans, of which nothing but that is asked
(`Aligned`).

Each step of the attribution is carried over by itself: the search for a position, the runs of
comments, and what stands between two tokens.
-/

namespace DocHarvest.Comment

open DocHarvest.Syntax

/-! ## Lists that correspond -/

section

variable {α β : Type} {R : α → β → Prop} {xs : List α} {ys : List β} {p : α → Bool} {q : β → Bool}

theorem forall₂_getElem? (h : List.Forall₂ R xs ys) (i : Nat) : Option.Rel R xs[i]? ys[i]? := by
  induction h generalizing i with
  | nil => exact .none
  | cons hx hxs ih =>
    cases i with
    | zero => exact .some hx
    | succ i => exact ih i

theorem forall₂_head? (h : List.Forall₂ R xs ys) : Option.Rel R xs.head? ys.head? := by
  cases h with
  | nil => exact .none
  | cons hx hxs => exact .some hx

theorem forall₂_getLast? (h : List.Forall₂ R xs ys) : Option.Rel R xs.getLast? ys.getLast? := by
  rw [List.getLast?_eq_getElem?, List.getLast?_eq_getElem?, h.length_eq]
  exact forall₂_getElem? h _

/-- Nothing is found in either list, or what is found corresponds. -/
theorem forall₂_find? (h : List.Forall₂ R xs ys) (hpq : ∀ x y, R x y → p x = q y) :
    (xs.find? p = none ∧ ys.find? q = none) ∨
      ∃ x y, xs.find? p = some x ∧ ys.find? q = some y ∧ R x y ∧ y ∈ ys.filter q := by
  induction h with
  | nil => exact Or.inl ⟨rfl, rfl⟩
  | @cons x y xs ys hx hxs ih =>
    rw [List.find?_cons, List.find?_cons, hpq x y hx]
    cases hy : q y with
    | true => exact Or.inr ⟨x, y, rfl, rfl, hx, List.mem_filter.mpr ⟨List.mem_cons_self, hy⟩⟩
    | false => rwa [List.filter_cons_of_neg (by simp [hy])]

theorem forall₂_takeWhile (h : List.Forall₂ R xs ys) (hpq : ∀ x y, R x y → p x = q y) :
    List.Forall₂ R (xs.takeWhile p) (ys.takeWhile q) := by
  induction h with
  | nil => exact .nil
  | @cons x y xs ys hx hxs ih =>
    rw [List.takeWhile_cons, List.takeWhile_cons, hpq x y hx]
    cases q y with
    | true => exact .cons hx ih
    | false => exact .nil

theorem forall₂_any (h : List.Forall₂ R xs ys) (hpq : ∀ x y, R x y → p x = q y) :
    xs.any p = ys.any q := by
  induction h with
  | nil => rfl
  | @cons x y xs ys hx hxs ih => rw [List.any_cons, List.any_cons, hpq x y hx, ih]

theorem forall₂_flatMap {γ : Type} {f : α → List γ} {g : β → List γ} (h : List.Forall₂ R xs ys)
    (hfg : ∀ x y, R x y → f x = g y) : xs.flatMap f = ys.flatMap g := by
  induction h with
  | nil => rfl
  | @cons x y xs ys hx hxs ih => rw [List.flatMap_cons, List.flatMap_cons, hfg x y hx, ih]

theorem rel_any {x : Option α} {y : Option β} (h : Option.Rel R x y)
    (hpq : ∀ x y, R x y → p x = q y) : x.any p = y.any q := by
  cases h with
  | none => rfl
  | some hx => exact hpq _ _ hx

theorem rel_all {x : Option α} {y : Option β} (h : Option.Rel R x y)
    (hpq : ∀ x y, R x y → p x = q y) : x.all p = y.all q := by
  cases h with
  | none => rfl
  | some hx => exact hpq _ _ hx

/-- A search asks nothing but its condition. -/
theorem searchFrom_congr {a : Array α} {b : Array β} (h : ∀ i : Nat, a[i]?.any p = b[i]?.any q) :
    ∀ lo hi, searchFrom p a lo hi = searchFrom q b lo hi
  | lo, hi => by
    rw [searchFrom, searchFrom]
    dsimp only
    rw [h]
    split
    next hlt =>
      split
      next => exact searchFrom_congr h _ _
      next => exact searchFrom_congr h _ _
    next => rfl
  termination_by lo hi => hi - lo
  decreasing_by all_goals omega

theorem partitionPoint_congr {a : Array α} {b : Array β} (h : List.Forall₂ R a.toList b.toList)
    (hpq : ∀ x y, R x y → p x = q y) : partitionPoint p a = partitionPoint q b := by
  have hsize : a.size = b.size := by
    rw [← Array.length_toList, ← Array.length_toList, h.length_eq]
  unfold partitionPoint
  rw [hsize]
  refine searchFrom_congr (fun i => ?_) 0 b.size
  rw [← Array.getElem?_toList, ← Array.getElem?_toList]
  exact rel_any (forall₂_getElem? h i) hpq

end

/-! ## Spans that correspond -/

/-- Spans that correspond are on the same rows, and one ends before another starts in the one file
if it does in the other. -/
structure Aligned (T : Span → Span → Prop) : Prop where
  startRow : ∀ {s s'}, T s s' → s.startRow = s'.startRow
  endRow : ∀ {s s'}, T s s' → s.endRow = s'.endRow
  order : ∀ {a a' b b'}, T a a' → T b b' → (a.stop ≤ b.start ↔ a'.stop ≤ b'.start)

/-- The comments and tokens of two files correspond. -/
structure Index.Aligned (T : Span → Span → Prop) (i i' : Index) : Prop where
  comments : List.Forall₂ T i.comments.toList i'.comments.toList
  tokens : List.Forall₂ (fun t t' => T t.span t'.span ∧ t.semicolon = t'.semicolon)
    i.tokens.toList i'.tokens.toList

section

variable {T : Span → Span → Prop} (hT : Aligned T)
include hT

theorem decide_stop_le {a a' b b' : Span} (ha : T a a') (hb : T b b') :
    decide (a.stop ≤ b.start) = decide (a'.stop ≤ b'.start) :=
  decide_eq_decide.mpr (hT.order ha hb)

theorem decide_start_lt {a a' b b' : Span} (ha : T a a') (hb : T b b') :
    decide (b.start < a.stop) = decide (b'.start < a'.stop) := by
  rw [decide_eq_decide, ← Nat.not_le, ← Nat.not_le, hT.order ha hb]

/-! ## Runs -/

theorem forall₂_lineRunFrom {cs cs' : List Span} (h : List.Forall₂ T cs cs') (row : Nat) :
    List.Forall₂ T (lineRunFrom row cs) (lineRunFrom row cs') := by
  induction h generalizing row with
  | nil => exact .nil
  | cons hc hcs ih =>
    unfold lineRunFrom
    rw [hT.startRow hc, hT.endRow hc]
    split
    next => exact .cons hc (ih _)
    next => exact .nil

theorem forall₂_lineRun {cs cs' : List Span} (h : List.Forall₂ T cs cs') :
    List.Forall₂ T (lineRun cs) (lineRun cs') := by
  cases h with
  | nil => exact .nil
  | cons hc hcs =>
    unfold lineRun
    dsimp only
    rw [hT.startRow hc]
    exact forall₂_lineRunFrom hT (.cons hc hcs) _

theorem forall₂_blockRuns {cs cs' : List Span} (h : List.Forall₂ T cs cs') :
    List.Forall₂ (List.Forall₂ T) (blockRuns cs) (blockRuns cs') := by
  induction h with
  | nil => exact .nil
  | @cons c c' cs cs' hc hcs ih =>
    unfold blockRuns
    generalize blockRuns cs = runs at ih ⊢
    generalize blockRuns cs' = runs' at ih ⊢
    -- whether `c` starts a run of its own depends on the first comment of the run behind it
    cases ih with
    | nil => exact .cons (.cons hc .nil) .nil
    | cons hrun hruns =>
      cases hrun with
      | nil => exact .cons (.cons hc .nil) (.cons .nil hruns)
      | cons hd hrun =>
        dsimp only
        rw [hT.startRow hd, hT.endRow hc]
        split
        next => exact .cons (.cons hc (.cons hd hrun)) hruns
        next => exact .cons (.cons hc .nil) (.cons (.cons hd hrun) hruns)

/-! ## Attribution -/

variable {i i' : Index} (h : i.Aligned T i') {n n' : Span} (hn : T n n')
include h hn

theorem tokenBefore?_aligned :
    Option.Rel (fun t t' => T t.span t'.span ∧ t.semicolon = t'.semicolon)
      (i.tokenBefore? n.start) (i'.tokenBefore? n'.start) := by
  have hpoint : partitionPoint (·.span.stop ≤ n.start) i.tokens
      = partitionPoint (·.span.stop ≤ n'.start) i'.tokens :=
    partitionPoint_congr h.tokens fun t t' ht => decide_stop_le hT ht.1 hn
  unfold Index.tokenBefore?
  rw [hpoint]
  split
  next => exact .none
  next k _ =>
    rw [← Array.getElem?_toList, ← Array.getElem?_toList]
    exact forall₂_getElem? h.tokens k

theorem tokenAfter?_aligned :
    Option.Rel (fun t t' => T t.span t'.span ∧ t.semicolon = t'.semicolon)
      (i.tokenAfter? n.stop) (i'.tokenAfter? n'.stop) := by
  have hpoint : partitionPoint (·.span.start < n.stop) i.tokens
      = partitionPoint (·.span.start < n'.stop) i'.tokens :=
    partitionPoint_congr h.tokens fun t t' ht => decide_start_lt hT hn ht.1
  unfold Index.tokenAfter?
  rw [hpoint, ← Array.getElem?_toList, ← Array.getElem?_toList]
  exact forall₂_getElem? h.tokens _

/-- The comments that start from an offset on and end before a node. -/
theorem commentsWithin_aligned {start start' : Nat}
    (hstart : ∀ c c', T c c' → decide (c.start < start) = decide (c'.start < start')) :
    List.Forall₂ T (i.commentsWithin start n.start) (i'.commentsWithin start' n'.start) := by
  have hfirst : partitionPoint (·.start < start) i.comments
      = partitionPoint (·.start < start') i'.comments := partitionPoint_congr h.comments hstart
  have hlast : partitionPoint (·.stop ≤ n.start) i.comments
      = partitionPoint (·.stop ≤ n'.start) i'.comments :=
    partitionPoint_congr h.comments fun c c' hc => decide_stop_le hT hc hn
  unfold Index.commentsWithin
  dsimp only
  rw [hfirst, hlast, Array.toList_extract, Array.toList_extract]
  exact List.forall₂_take _ (List.forall₂_drop _ h.comments)

theorem commentsAbove_aligned :
    List.Forall₂ T (i.commentsAbove n) (i'.commentsAbove n') := by
  have htoken := tokenBefore?_aligned hT h hn
  unfold Index.commentsAbove
  generalize i.tokenBefore? n.start = before at htoken ⊢
  generalize i'.tokenBefore? n'.start = before' at htoken ⊢
  cases htoken with
  | none => exact commentsWithin_aligned hT h hn fun _ _ _ => rfl
  | @some t t' ht =>
    have hbetween := commentsWithin_aligned hT h hn fun c c' hc => decide_start_lt hT ht.1 hc
    -- the comments on the last line of the token in front belong to that token
    have hcloses := rel_any (forall₂_head? hbetween) fun c c' (hc : T c c') => by
      show decide (c.startRow = t.span.endRow) = decide (c'.startRow = t'.span.endRow)
      rw [hT.startRow hc, hT.endRow ht.1]
    dsimp only
    rw [hcloses]
    split
    next =>
      rw [(forall₂_lineRun hT hbetween).length_eq]
      exact List.forall₂_drop _ hbetween
    next => exact hbetween

/-- **The comment groups above two nodes that correspond do so themselves.** -/
theorem lead_aligned : Option.Rel (List.Forall₂ T) (i.lead n) (i'.lead n') := by
  have hrun := forall₂_getLast? (forall₂_blockRuns hT (commentsAbove_aligned hT h hn))
  unfold Index.lead
  generalize (blockRuns (i.commentsAbove n)).getLast? = run at hrun ⊢
  generalize (blockRuns (i'.commentsAbove n')).getLast? = run' at hrun ⊢
  cases hrun with
  | none => exact .none
  | @some run run' hrun =>
    have hadjoins := rel_any (forall₂_getLast? hrun) fun c c' (hc : T c c') => by
      show decide (c.endRow + 1 = n.startRow) = decide (c'.endRow + 1 = n'.startRow)
      rw [hT.endRow hc, hT.startRow hn]
    dsimp only
    rw [hadjoins]
    split
    next => exact .some hrun
    next => exact .none

theorem commentsBelow_aligned :
    List.Forall₂ T (i.commentsBelow n) (i'.commentsBelow n') := by
  have hfirst : partitionPoint (·.start < n.stop) i.comments
      = partitionPoint (·.start < n'.stop) i'.comments :=
    partitionPoint_congr h.comments fun c c' hc => decide_start_lt hT hn hc
  unfold Index.commentsBelow
  dsimp only
  rw [hfirst]
  refine forall₂_takeWhile (List.forall₂_drop _ h.comments) fun c c' hc => ?_
  exact rel_all (tokenAfter?_aligned hT h hn) fun t t' ht => decide_stop_le hT hc ht.1

/-- **The comment groups that close the lines of two nodes that correspond do so themselves.** -/
theorem trail_aligned : Option.Rel (List.Forall₂ T) (i.trail n) (i'.trail n') := by
  have hbelow := commentsBelow_aligned hT h hn
  have hrun := forall₂_lineRun hT hbelow
  have hcloses := rel_any (forall₂_head? hbelow) fun c c' (hc : T c c') => by
    show decide (c.startRow = n.endRow) = decide (c'.startRow = n'.endRow)
    rw [hT.startRow hc, hT.endRow hn]
  -- a token on the last line of the group takes it away, unless it is a semicolon
  have hfollowed := rel_any (tokenAfter?_aligned hT h hn) fun t t' ht => by
    show ((lineRun (i.commentsBelow n)).getLast?.any (·.endRow = t.span.startRow) && !t.semicolon)
      = ((lineRun (i'.commentsBelow n')).getLast?.any (·.endRow = t'.span.startRow)
        && !t'.semicolon)
    rw [ht.2]
    congr 1
    refine rel_any (forall₂_getLast? hrun) fun c c' hc => ?_
    rw [hT.endRow hc, hT.startRow ht.1]
  unfold Index.trail
  dsimp only
  rw [hcloses, hfollowed]
  split
  next =>
    split
    next => exact .none
    next => exact .some hrun
  next => exact .none

end

/-! ## Texts -/

/-- Groups whose comments have the same lines have the same text. -/
theorem textOf_eq {source source' : List Char} {T : Span → Span → Prop}
    (hlines : ∀ c c', T c c' → bodyLines (c.text source) = bodyLines (c'.text source'))
    {group group' : Option (List Span)} (h : Option.Rel (List.Forall₂ T) group group') :
    textOf source group = textOf source' group' := by
  have hgroup : ∀ {cs cs' : List Span}, List.Forall₂ T cs cs' →
      groupText (cs.map (·.text source)) = groupText (cs'.map (·.text source')) := by
    intro cs cs' hcs
    have hflat : (cs.map (·.text source)).flatMap bodyLines
        = (cs'.map (·.text source')).flatMap bodyLines := by
      rw [List.flatMap_map, List.flatMap_map]
      exact forall₂_flatMap hcs hlines
    unfold groupText groupLines
    rw [hflat]
  unfold textOf
  cases h with
  | none => rfl
  | some hcs => exact congrArg String.ofList (hgroup hcs)

end DocHarvest.Comment
