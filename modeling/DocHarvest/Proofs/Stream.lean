import DocHarvest.Comment.Index

/-!
# The stream of tokens and comments

Comments are attributed by where they stand among the tokens, so the theory of attribution reads a
file as one stream: its tokens and comments merged in source order (`stream`).

`Node.WellFormed` says what a syntax tree promises about places, and nothing else: children stand in
order, without overlap and inside their parent, and rows never decrease along the source. From it
follows that the stream is in order (`inOrder_stream`), with nothing empty in it, and that an index
keeps exactly the comments of the tree and exactly its leaves that are neither missing nor blank
(`comments_ofSource_eq`, `tokens_ofSource_eq`).
-/

namespace DocHarvest.Syntax

/-- The two ends of a span, each as an offset and its row. -/
def Span.ends (s : Span) : List (Nat × Nat) :=
  [(s.start, s.startRow), (s.stop, s.endRow)]

namespace Node

/-! ## Well-formed trees -/

mutual

/-- The children stand in order, without overlap and inside the node, and so on below them. A
comment is a leaf and not empty, for it has at least the mark with which it begins. -/
def Nested : Node → Prop
  | mk k _ s cs =>
    s.start ≤ s.stop ∧ (k = .comment → cs = [] ∧ s.start < s.stop) ∧ NestedAll s.start s.stop cs

/-- The trees stand in order and without overlap between two offsets. -/
def NestedAll (lo hi : Nat) : List Node → Prop
  | [] => lo ≤ hi
  | n :: ns => lo ≤ n.span.start ∧ Nested n ∧ NestedAll n.span.stop hi ns

end

/-- What a syntax tree promises about the places of its nodes. -/
structure WellFormed (root : Node) : Prop where
  nested : root.Nested
  /-- Rows never decrease along the source. -/
  rows : ∀ a ∈ root.preorder.flatMap (·.span.ends), ∀ b ∈ root.preorder.flatMap (·.span.ends),
    a.1 ≤ b.1 → a.2 ≤ b.2

theorem WellFormed.row_eq {root : Node} (h : root.WellFormed) {m n : Node}
    (hm : m ∈ root.preorder) (hn : n ∈ root.preorder) {a b : Nat × Nat}
    (ha : a ∈ m.span.ends) (hb : b ∈ n.span.ends) (heq : a.1 = b.1) : a.2 = b.2 := by
  have ha' : a ∈ root.preorder.flatMap (·.span.ends) := List.mem_flatMap.mpr ⟨m, hm, ha⟩
  have hb' : b ∈ root.preorder.flatMap (·.span.ends) := List.mem_flatMap.mpr ⟨n, hn, hb⟩
  exact Nat.le_antisymm (h.rows a ha' b hb' (Nat.le_of_eq heq))
    (h.rows b hb' a ha' (Nat.le_of_eq heq.symm))

/-! ## Leaves -/

theorem leaves_mk (k : Kind) (r : Option Role) (s : Span) (cs : List Node) :
    leaves (mk k r s cs) = if k = .comment ∨ cs = [] then [mk k r s cs] else leavesAll cs := by
  by_cases hk : k = .comment
  · subst hk
    rw [leaves, if_pos (Or.inl rfl)]
  · cases cs with
    | nil =>
      rw [leaves, if_pos (Or.inr rfl)]
      exact hk
    | cons c cs =>
      rw [leaves, if_neg (by simp [hk])]
      exact hk

/-- Whether the tree is not looked into below a node. -/
def isLeaf (n : Node) : Bool :=
  n.kind = .comment || n.children.isEmpty

mutual

/-- The leaves of a tree whose comments have nothing below them are its nodes that are leaves. -/
theorem leaves_eq_filter : ∀ n : Node, n.Nested → n.leaves = n.preorder.filter isLeaf
  | mk k r s cs, h => by
    rw [Nested] at h
    obtain ⟨-, hcomment, hcs⟩ := h
    rw [leaves_mk, preorder, List.filter_cons]
    split
    next hleaf =>
      have hnil : cs = [] := hleaf.elim (fun hk => (hcomment hk).1) id
      subst hnil
      simp [isLeaf, kind, children, preorderAll]
    next hnot =>
      have hinner : isLeaf (mk k r s cs) = false := by
        rw [not_or] at hnot
        simp [isLeaf, kind, children, hnot.1, hnot.2]
      rw [hinner, leavesAll_eq_filter cs hcs]
      rfl

theorem leavesAll_eq_filter {lo hi : Nat} :
    ∀ ns : List Node, NestedAll lo hi ns → leavesAll ns = (preorderAll ns).filter isLeaf
  | [], _ => rfl
  | n :: ns, h => by
    rw [NestedAll] at h
    rw [leavesAll, preorderAll, List.filter_append, leaves_eq_filter n h.2.1,
      leavesAll_eq_filter ns h.2.2]

end

theorem WellFormed.mem_preorder_of_mem_leaves {root n : Node} (h : root.WellFormed)
    (hn : n ∈ root.leaves) : n ∈ root.preorder ∧ n.isLeaf = true := by
  rw [leaves_eq_filter root h.nested] at hn
  exact List.mem_filter.mp hn

theorem Nested.start_le_stop {n : Node} (h : n.Nested) : n.span.start ≤ n.span.stop := by
  cases n with
  | mk k r s cs =>
    rw [Nested] at h
    exact h.1

theorem NestedAll.le {lo hi : Nat} : ∀ {ns : List Node}, NestedAll lo hi ns → lo ≤ hi
  | [], h => by rw [NestedAll] at h; exact h
  | n :: ns, h => by
    rw [NestedAll] at h
    have hn := h.2.1.start_le_stop
    have hns := NestedAll.le h.2.2
    omega

mutual

/-- The leaves of a tree lie inside it and are nested themselves. -/
theorem Nested.mem_leaves :
    ∀ {n : Node}, n.Nested → ∀ l ∈ n.leaves,
      n.span.start ≤ l.span.start ∧ l.Nested ∧ l.span.stop ≤ n.span.stop
  | mk k r s cs, h, l, hl => by
    have hself := h
    rw [Nested] at h
    rw [leaves_mk] at hl
    split at hl
    next =>
      rw [List.mem_singleton] at hl
      subst hl
      exact ⟨Nat.le_refl _, hself, Nat.le_refl _⟩
    next => exact NestedAll.mem_leavesAll h.2.2 l hl

theorem NestedAll.mem_leavesAll {lo hi : Nat} :
    ∀ {ns : List Node}, NestedAll lo hi ns → ∀ l ∈ leavesAll ns,
      lo ≤ l.span.start ∧ l.Nested ∧ l.span.stop ≤ hi
  | [], _, l, hl => by simp [leavesAll] at hl
  | n :: ns, h, l, hl => by
    rw [NestedAll] at h
    rw [leavesAll, List.mem_append] at hl
    have hn := h.2.1.start_le_stop
    have hns := NestedAll.le h.2.2
    rcases hl with hl | hl
    · have := Nested.mem_leaves h.2.1 l hl
      exact ⟨by omega, this.2.1, by omega⟩
    · have := NestedAll.mem_leavesAll h.2.2 l hl
      exact ⟨by omega, this.2.1, by omega⟩

end

mutual

/-- The leaves of a tree stand in order and without overlap. -/
theorem Nested.pairwise_leaves :
    ∀ {n : Node}, n.Nested → n.leaves.Pairwise fun a b => a.span.stop ≤ b.span.start
  | mk k r s cs, h => by
    rw [Nested] at h
    rw [leaves_mk]
    split
    next => exact List.pairwise_singleton _ _
    next => exact NestedAll.pairwise_leavesAll h.2.2

theorem NestedAll.pairwise_leavesAll {lo hi : Nat} :
    ∀ {ns : List Node}, NestedAll lo hi ns →
      (leavesAll ns).Pairwise fun a b => a.span.stop ≤ b.span.start
  | [], _ => List.Pairwise.nil
  | n :: ns, h => by
    rw [NestedAll] at h
    rw [leavesAll, List.pairwise_append]
    refine ⟨Nested.pairwise_leaves h.2.1, NestedAll.pairwise_leavesAll h.2.2, ?_⟩
    -- the first tree ends between a leaf of it and a leaf of a later one
    intro a ha b hb
    exact Nat.le_trans (Nested.mem_leaves h.2.1 a ha).2.2 (NestedAll.mem_leavesAll h.2.2 b hb).1

end

end Node

end DocHarvest.Syntax

namespace DocHarvest.Comment

open DocHarvest.Syntax

/-! ## Items of the stream -/

/-- A token or a comment. -/
inductive Item where
  | token (t : Token)
  | comment (c : Span)

namespace Item

/-- The place of an item. -/
def span : Item → Span
  | token t => t.span
  | comment c => c

/-- The token that an item is. -/
def token? : Item → Option Token
  | token t => some t
  | comment _ => none

/-- The comment that an item is. -/
def comment? : Item → Option Span
  | token _ => none
  | comment c => some c

/-- The item that a leaf is, if it is a comment or a token of its source text. -/
def ofLeaf? (source : List Char) (n : Node) : Option Item :=
  if n.kind = .comment then some (comment n.span)
  else if n.isWritten source then some (token ⟨n.span, n.span.text source = [';']⟩)
  else none

theorem span_of_ofLeaf? {source : List Char} {n : Node} {a : Item}
    (h : ofLeaf? source n = some a) : a.span = n.span := by
  unfold ofLeaf? at h
  split at h
  next => cases h; rfl
  next =>
    split at h
    next => cases h; rfl
    next => cases h

end Item

/-- The tokens and comments of a tree in source order. -/
def stream (source : List Char) (root : Node) : List Item :=
  root.leaves.filterMap (Item.ofLeaf? source)

/-- Items that stand in order, without overlap and with nothing empty among them. -/
structure InOrder (items : List Item) : Prop where
  apart : items.Pairwise fun a b => a.span.stop ≤ b.span.start
  filled : ∀ a ∈ items, a.span.start < a.span.stop

/-- An index that keeps the comments and the tokens of a stream. -/
structure Index.Keeps (index : Index) (items : List Item) : Prop where
  comments : index.comments.toList = items.filterMap Item.comment?
  tokens : index.tokens.toList = items.filterMap Item.token?

/-- A comment is no token. -/
theorem isWritten_of_comment {source : List Char} {n : Node} (h : n.kind = .comment) :
    n.isWritten source = false := by
  simp [Node.isWritten, h]

/-- The index of a tree keeps its stream. -/
theorem keeps_ofSource (source : List Char) (root : Node) :
    (Index.ofSource source root).Keeps (stream source root) := by
  unfold Index.ofSource stream
  constructor
  · rw [List.toList_toArray, List.filterMap_filterMap]
    induction root.leaves with
    | nil => rfl
    | cons n ns ih =>
      rw [List.filter_cons, List.filterMap_cons, ← ih]
      by_cases hk : n.kind = .comment
      · simp [Item.ofLeaf?, Item.comment?, hk]
      · cases hw : n.isWritten source <;> simp [Item.ofLeaf?, Item.comment?, hk, hw]
  · rw [List.toList_toArray, List.filterMap_filterMap]
    induction root.leaves with
    | nil => rfl
    | cons n ns ih =>
      rw [List.filter_cons, List.filterMap_cons, ← ih]
      by_cases hk : n.kind = .comment
      · simp [Item.ofLeaf?, Item.token?, hk, isWritten_of_comment hk]
      · cases hw : n.isWritten source <;> simp [Item.ofLeaf?, Item.token?, hk, hw]

/-! ## What the index of a well-formed tree holds -/

section WellFormed

variable {source : List Char} {root : Node}

/-- Text that is not blank is not empty. -/
theorem start_lt_stop_of_isWritten {n : Node} (h : n.isWritten source = true) :
    n.span.start < n.span.stop := by
  rcases Nat.lt_or_ge n.span.start n.span.stop with hlt | hge
  · exact hlt
  · have hempty : n.span.text source = [] := by
      rw [Span.text, Nat.sub_eq_zero_of_le hge, List.take_zero]
    rw [Node.isWritten, hempty] at h
    simp [Text.trim, Text.trimWhere, Text.dropEndWhile] at h

/-- The stream of a well-formed tree is in order. -/
theorem inOrder_stream (source : List Char) (h : root.WellFormed) :
    InOrder (stream source root) := by
  constructor
  · refine List.Pairwise.filterMap (Item.ofLeaf? source) ?_ h.nested.pairwise_leaves
    intro m n hle a ha b hb
    rw [Item.span_of_ofLeaf? ha, Item.span_of_ofLeaf? hb]
    exact hle
  · intro a ha
    obtain ⟨n, hn, hna⟩ := List.mem_filterMap.mp ha
    rw [Item.span_of_ofLeaf? hna]
    unfold Item.ofLeaf? at hna
    split at hna
    next hk =>
      have hnested := (h.nested.mem_leaves n hn).2.1
      obtain ⟨k, r, s, cs⟩ := n
      rw [Node.Nested] at hnested
      exact (hnested.2.1 hk).2
    next =>
      split at hna
      next hwritten => exact start_lt_stop_of_isWritten hwritten
      next => cases hna

/-- The index of a well-formed tree keeps every comment of the tree once, in order. -/
theorem comments_ofSource_eq (source : List Char) (h : root.WellFormed) :
    (Index.ofSource source root).comments.toList
      = (root.preorder.filter (·.kind = .comment)).map (·.span) := by
  rw [Index.ofSource, List.toList_toArray, Node.leaves_eq_filter root h.nested,
    List.filter_filter]
  congr 1
  refine List.filter_congr fun n _ => ?_
  simp only [Node.isLeaf]
  cases decide (n.kind = .comment) <;> simp

/-- The index of a well-formed tree keeps every leaf that is neither missing nor blank once, in
order. -/
theorem tokens_ofSource_eq (source : List Char) (h : root.WellFormed) :
    (Index.ofSource source root).tokens.toList
      = (root.preorder.filter (·.isWritten source)).map fun n =>
        ⟨n.span, n.span.text source = [';']⟩ := by
  rw [Index.ofSource, List.toList_toArray, Node.leaves_eq_filter root h.nested,
    List.filter_filter]
  congr 1
  refine List.filter_congr fun n _ => ?_
  simp only [Node.isWritten, Node.isLeaf]
  cases n.children.isEmpty <;> simp

/-- A line break that ends a statement and a missing token are leaves, but no tokens. -/
example :
    let leaf (k : Kind) (s : Span) : Node := .mk k none s []
    let root : Node := .mk .sourceFile none ⟨0, 3, 0, 1⟩ [leaf .identifier ⟨0, 1, 0, 0⟩,
      leaf .symbol ⟨1, 2, 0, 1⟩, leaf .missing ⟨2, 2, 1, 1⟩, leaf .semicolon ⟨2, 3, 1, 1⟩]
    (Index.ofSource ['a', '\n', ';'] root).tokens.toList
      = [⟨⟨0, 1, 0, 0⟩, false⟩, ⟨⟨2, 3, 1, 1⟩, true⟩] := by
  decide

end WellFormed

end DocHarvest.Comment
