import DocHarvest.Proofs.Grammar
import DocHarvest.Proofs.Lexing
import DocHarvest.Proofs.Stream
import Mathlib.Data.List.TakeWhile

/-!
# What a parse promises

The tree of a source text is well formed (`Node.wellFormed_of_parse?`): everything that the
attribution of comments asks of a tree holds of every tree that the parser returns. In it the kinds
of the leaves tell as much as their texts (`Node.ofSource_eq_ofTree`). The names that it binds
outside of imports are identifiers, so none of them has a dot in it
(`Node.isIdentifierPart_of_parse?`).

All come from two facts that are proved apart. The leaves of the tree are the lexemes of the text,
which are in their places; and every inner node spans from its first leaf to its last, by induction
on its shape (`Shaped.hull`).
-/

namespace DocHarvest.Syntax

namespace Node

/-! ## Nodes below nodes -/

theorem preorderAll_eq_flatMap (ns : List Node) : preorderAll ns = ns.flatMap preorder := by
  induction ns with
  | nil => rfl
  | cons n ns ih => rw [preorderAll, ih, List.flatMap_cons]

theorem mem_preorderAll {m : Node} {cs : List Node} :
    m ∈ preorderAll cs ↔ ∃ c ∈ cs, m ∈ c.preorder := by
  rw [preorderAll_eq_flatMap, List.mem_flatMap]

theorem mem_preorder_self (n : Node) : n ∈ n.preorder := by
  cases n with
  | mk k r s cs => exact List.mem_cons_self

theorem mem_preorder_of_mem_children {n c : Node} :
    ∀ {root : Node}, n ∈ root.preorder → c ∈ n.children → c ∈ root.preorder
  | mk k r s cs, hn, hc => by
    rw [preorder, List.mem_cons] at hn ⊢
    right
    rcases hn with rfl | hn
    · exact mem_preorderAll.mpr ⟨c, hc, mem_preorder_self c⟩
    · obtain ⟨d, hd, hnd⟩ := mem_preorderAll.mp hn
      have := List.sizeOf_lt_of_mem hd
      exact mem_preorderAll.mpr ⟨d, hd, mem_preorder_of_mem_children hnd hc⟩

theorem mem_leavesAll {m : Node} {cs : List Node} :
    m ∈ leavesAll cs ↔ ∃ c ∈ cs, m ∈ c.leaves := by
  rw [leavesAll_eq_flatMap, List.mem_flatMap]

theorem leaves_sublist_leavesAll {c : Node} {cs : List Node} (h : c ∈ cs) :
    c.leaves.Sublist (leavesAll cs) := by
  rw [leavesAll_eq_flatMap]
  exact List.sublist_flatten_of_mem (List.mem_map_of_mem h)

namespace Shaped

variable {m n : Node}

/-- A node below a shaped one is shaped, and its leaves are among the leaves of that one. -/
theorem of_mem_preorder (h : n.Shaped) (hm : m ∈ n.preorder) :
    m.Shaped ∧ m.leaves.Sublist n.leaves := by
  induction h with
  | leaf l role hbreak hstray =>
    have heq : m = l.leaf role := by simpa [Lexeme.leaf, preorder, preorderAll] using hm
    subst heq
    exact ⟨leaf l role hbreak hstray, List.Sublist.refl _⟩
  | @inner k role cs first last hk hfirst hlast hcs hfits ih =>
    rw [preorder, List.mem_cons] at hm
    rcases hm with rfl | hm
    · exact ⟨inner k role hk hfirst hlast hcs hfits, List.Sublist.refl _⟩
    · obtain ⟨c, hc, hmc⟩ := mem_preorderAll.mp hm
      have hne : cs ≠ [] := List.ne_nil_of_mem hc
      rw [leaves_inner hk _ _ hne]
      exact ⟨(ih c hc hmc).1, (ih c hc hmc).2.trans (leaves_sublist_leavesAll hc)⟩

/-- The children of a shaped node are shaped and fit into it. -/
theorem children_spec (h : n.Shaped) :
    (∀ c ∈ n.children, c.Shaped ∧ c.Fits n.kind) ∧ (leavesAll n.children).Sublist n.leaves := by
  cases h with
  | leaf l role => exact ⟨fun c hc => absurd hc List.not_mem_nil, List.nil_sublist _⟩
  | @inner k role cs first last hk hfirst hlast hcs hfits =>
    have hne : cs ≠ [] := List.ne_nil_of_mem (List.mem_of_head? hfirst)
    rw [leaves_inner hk _ _ hne]
    exact ⟨fun c hc => ⟨hcs c hc, hfits c hc⟩, List.Sublist.refl _⟩

/-- A shaped node of the kind of a token or comment is a leaf. -/
theorem leaves_eq_singleton (h : n.Shaped) (hk : n.kind.isInner = false) : n.leaves = [n] := by
  cases h with
  | leaf l role => exact leaves_leaf l role
  | inner k role hinner => exact absurd (hinner.symm.trans hk) (by simp)

end Shaped

/-! ## Spans -/

/-- A node that spans from one of its leaves to another, with all of them between. -/
structure Hull (n : Node) : Prop where
  start_mem : ∃ l ∈ n.leaves, l.span.start = n.span.start ∧ l.span.startRow = n.span.startRow
  stop_mem : ∃ l ∈ n.leaves, l.span.stop = n.span.stop ∧ l.span.endRow = n.span.endRow
  start_le : ∀ l ∈ n.leaves, n.span.start ≤ l.span.start
  le_stop : ∀ l ∈ n.leaves, l.span.stop ≤ n.span.stop

/-- Leaves in order, none of them empty. -/
def Ordered (ls : List Node) : Prop :=
  (∀ l ∈ ls, l.span.start < l.span.stop) ∧ ls.Pairwise fun a b => a.span.stop ≤ b.span.start

theorem Ordered.sublist {ls ms : List Node} (h : Ordered ms) (hs : ls.Sublist ms) : Ordered ls :=
  ⟨fun l hl => h.1 l (hs.subset hl), h.2.sublist hs⟩

namespace Shaped

variable {n : Node}

/-- A shaped node spans from its first leaf to its last. -/
theorem hull (h : n.Shaped) (ho : Ordered n.leaves) : n.Hull := by
  induction h with
  | leaf l role hbreak hstray =>
    rw [leaves_leaf] at ho
    refine ⟨⟨l.leaf role, ?_, rfl, rfl⟩, ⟨l.leaf role, ?_, rfl, rfl⟩, ?_, ?_⟩
    all_goals simp [leaves_leaf]
  | @inner k role cs first last hk hfirst hlast hcs hfits ih =>
    have hne : cs ≠ [] := List.ne_nil_of_mem (List.mem_of_head? hfirst)
    rw [leaves_inner hk _ _ hne] at ho
    have hulls : ∀ c ∈ cs, c.Hull := fun c hc => ih c hc (ho.sublist (leaves_sublist_leavesAll hc))
    have hfirstMem := List.mem_of_head? hfirst
    have hlastMem := List.mem_of_getLast? hlast
    obtain ⟨f, hf, hfstart⟩ := (hulls first hfirstMem).start_mem
    obtain ⟨g, hg, hgstop⟩ := (hulls last hlastMem).stop_mem
    -- the first leaf of the first child and the last leaf of the last child bound the node
    refine ⟨⟨f, ?_, hfstart⟩, ⟨g, ?_, hgstop⟩, ?_, ?_⟩
    · rw [leaves_inner hk _ _ hne]
      exact mem_leavesAll.mpr ⟨first, hfirstMem, hf⟩
    · rw [leaves_inner hk _ _ hne]
      exact mem_leavesAll.mpr ⟨last, hlastMem, hg⟩
    · intro l hl
      rw [leaves_inner hk _ _ hne] at hl
      -- a leaf is in the first child or behind one that is
      obtain ⟨rest, rfl⟩ : ∃ rest, cs = first :: rest := List.head?_eq_some_iff.mp hfirst
      rw [leavesAll] at hl ho
      rcases List.mem_append.mp hl with hl | hl
      · exact (hulls first hfirstMem).start_le l hl
      · have hfl := (List.pairwise_append.mp ho.2).2.2 f hf l hl
        have hlt := ho.1 f (List.mem_append_left _ hf)
        show first.span.start ≤ l.span.start
        omega
    · intro l hl
      rw [leaves_inner hk _ _ hne] at hl
      obtain ⟨rest, rfl⟩ : ∃ rest, cs = rest ++ [last] := List.getLast?_eq_some_iff.mp hlast
      rw [leavesAll_eq_flatMap, List.flatMap_append, List.flatMap_singleton] at hl ho
      rcases List.mem_append.mp hl with hl | hl
      · have hlg := (List.pairwise_append.mp ho.2).2.2 l hl g hg
        have hlt := ho.1 g (List.mem_append_right _ hg)
        show l.span.stop ≤ last.span.stop
        omega
      · exact (hulls last hlastMem).le_stop l hl

/-- Trees that span from leaf to leaf are nested between offsets that enclose their leaves. -/
theorem nestedAll_of_hull {cs : List Node} {low high : Nat} (hle : low ≤ high)
    (hcs : ∀ c ∈ cs, c.Hull ∧ c.Nested) (ho : Ordered (leavesAll cs))
    (hlow : ∀ l ∈ leavesAll cs, low ≤ l.span.start)
    (hhigh : ∀ l ∈ leavesAll cs, l.span.stop ≤ high) :
    NestedAll low high cs := by
  induction cs generalizing low with
  | nil => rw [NestedAll]; exact hle
  | cons c cs ih =>
    rw [leavesAll] at ho hlow hhigh
    obtain ⟨⟨hhull, hnested⟩, hrest⟩ := List.forall_mem_cons.mp hcs
    obtain ⟨f, hf, hfstart, -⟩ := hhull.start_mem
    obtain ⟨g, hg, hgstop, -⟩ := hhull.stop_mem
    rw [NestedAll]
    refine ⟨?_, hnested, ih ?_ hrest (ho.sublist (List.sublist_append_right _ _)) ?_ ?_⟩
    · have := hlow f (List.mem_append_left _ hf)
      omega
    · have := hhigh g (List.mem_append_left _ hg)
      omega
    · intro l hl
      have := (List.pairwise_append.mp ho.2).2.2 g hg l hl
      omega
    · exact fun l hl => hhigh l (List.mem_append_right _ hl)

/-- A shaped node is nested. -/
theorem nested (h : n.Shaped) (ho : Ordered n.leaves) : n.Nested := by
  have hhull := h.hull ho
  induction h with
  | leaf l role hbreak hstray =>
    have hlt := ho.1 (l.leaf role) (by rw [leaves_leaf]; exact List.mem_singleton_self _)
    rw [Lexeme.leaf, Nested, NestedAll]
    exact ⟨Nat.le_of_lt hlt, fun _ => ⟨rfl, hlt⟩, Nat.le_of_lt hlt⟩
  | @inner k role cs first last hk hfirst hlast hcs hfits ih =>
    have hne : cs ≠ [] := List.ne_nil_of_mem (List.mem_of_head? hfirst)
    have hle : first.span.start ≤ last.span.stop := by
      obtain ⟨f, hf, -⟩ := hhull.start_mem
      have hstart : first.span.start ≤ f.span.start := hhull.start_le f hf
      have hstop : f.span.stop ≤ last.span.stop := hhull.le_stop f hf
      have hlt := ho.1 f hf
      omega
    have hstart := hhull.start_le
    have hstop := hhull.le_stop
    rw [leaves_inner hk _ _ hne] at ho hstart hstop
    rw [Nested]
    refine ⟨hle, ?_, nestedAll_of_hull hle ?_ ho hstart hstop⟩
    · rintro rfl
      cases hk
    · intro c hc
      have hoc := ho.sublist (leaves_sublist_leavesAll hc)
      exact ⟨(hcs c hc).hull hoc, ih c hc hoc ((hcs c hc).hull hoc)⟩

/-- Trees that stand side by side take up different spans. -/
theorem eq_of_span_eq {cs : List Node} (hcs : ∀ c ∈ cs, c.Shaped) (ho : Ordered (leavesAll cs))
    {a b : Node} (ha : a ∈ cs) (hb : b ∈ cs) (hspan : a.span = b.span) : a = b := by
  induction cs with
  | nil => cases ha
  | cons c cs ih =>
    obtain ⟨hc, hcs⟩ := List.forall_mem_cons.mp hcs
    rw [leavesAll] at ho
    have hoc : Ordered c.leaves := ho.sublist (List.sublist_append_left _ _)
    have hos : Ordered (leavesAll cs) := ho.sublist (List.sublist_append_right _ _)
    -- a later tree starts where `c` ends or behind, and `c` is not empty
    have hlater : ∀ d ∈ cs, d.span ≠ c.span := by
      intro d hd heq
      obtain ⟨f, hf, hfstart, -⟩ := (hc.hull hoc).start_mem
      obtain ⟨g, hg, hgstart, -⟩ :=
        ((hcs d hd).hull (hos.sublist (leaves_sublist_leavesAll hd))).start_mem
      have hle := (List.pairwise_append.mp ho.2).2.2 f hf g (mem_leavesAll.mpr ⟨d, hd, hg⟩)
      have hlt := hoc.1 f hf
      rw [heq] at hgstart
      omega
    rcases List.mem_cons.mp ha, List.mem_cons.mp hb with ⟨rfl | ha', rfl | hb'⟩
    · rfl
    · exact absurd hspan.symm (hlater b hb')
    · exact absurd hspan (hlater a ha')
    · exact ih hcs hos ha' hb'

end Shaped

end Node

/-! ## Parse trees -/

/-- The rows of a span count the line feeds before its ends. -/
def Span.CountsRows (source : List Char) (s : Span) : Prop :=
  s.startRow = rowAt source s.start ∧ s.endRow = rowAt source s.stop

namespace Node

variable {source : List Char} {root : Node}

/-- A leaf of a parsed file is made of one of its lexemes. -/
theorem exists_mem_lexemes_of_covers {children : List Node}
    (h : Covers (Fits .sourceFile) (lexemes source) children) {n : Node}
    (hn : n ∈ leavesAll children) :
    ∃ l ∈ lexemes source, l.kind ≠ .lineBreak ∧ n.kind = l.leafKind ∧ n.span = l.span := by
  have hmark : n.mark ∈ ((lexemes source).filter (·.kind ≠ .lineBreak)).map Lexeme.mark := by
    rw [← h.leaves]
    exact List.mem_map_of_mem hn
  obtain ⟨l, hl, heq⟩ := List.mem_map.mp hmark
  obtain ⟨hmem, hbreak⟩ := List.mem_filter.mp hl
  exact ⟨l, hmem, by simpa using hbreak, (congrArg Prod.fst heq).symm, (congrArg Prod.snd heq).symm⟩

/-- A leaf of a parsed file and the lexeme that it was made of. -/
theorem exists_lexeme_of_covers {children : List Node}
    (h : Covers (Fits .sourceFile) (lexemes source) children) {n : Node}
    (hn : n ∈ leavesAll children) :
    ∃ l : Lexeme, l.Placed source ∧ l.kind ≠ .lineBreak ∧ l.kind ≠ .stray ∧
      n.kind = l.leafKind ∧ n.span = l.span := by
  obtain ⟨l, hmem, hbreak, hkind, hspan⟩ := exists_mem_lexemes_of_covers h hn
  exact ⟨l, (inPlace_lexemes source).placed l hmem, hbreak, h.plain l hmem, hkind, hspan⟩

theorem ordered_of_covers {children : List Node}
    (h : Covers (Fits .sourceFile) (lexemes source) children) : Ordered (leavesAll children) := by
  constructor
  · intro n hn
    obtain ⟨l, hl, -, -, -, hspan⟩ := exists_lexeme_of_covers h hn
    rw [hspan]
    exact hl.start_lt_stop
  · have hpair := ((inPlace_lexemes source).pairwise.filter (·.kind ≠ .lineBreak))
    have hmarks : (((lexemes source).filter (·.kind ≠ .lineBreak)).map Lexeme.mark).Pairwise
        fun a b => a.2.stop ≤ b.2.start := List.pairwise_map.mpr hpair
    rw [← h.leaves] at hmarks
    exact List.pairwise_map.mp hmarks

/-- A node below the top of a parse tree is shaped. -/
theorem shaped_of_covers {children : List Node}
    (h : Covers (Fits .sourceFile) (lexemes source) children) {n : Node}
    (hn : n ∈ preorderAll children) : n.Shaped ∧ n.leaves.Sublist (leavesAll children) := by
  obtain ⟨c, hc, hnc⟩ := mem_preorderAll.mp hn
  obtain ⟨hshaped, hsub⟩ := (h.shaped c hc).of_mem_preorder hnc
  exact ⟨hshaped, hsub.trans (leaves_sublist_leavesAll hc)⟩

/-- The children of any node of a parse tree are shaped and fit into it, and their leaves are in
order. -/
theorem children_of_parse? (h : Node.parse? source = some root) {n : Node}
    (hn : n ∈ root.preorder) :
    (∀ c ∈ n.children, c.Shaped ∧ c.Fits n.kind) ∧
      (leavesAll n.children).Sublist (leavesAll root.children) := by
  obtain ⟨children, rfl, hcovers⟩ := parse?_covers h
  rw [preorder, List.mem_cons] at hn
  rcases hn with rfl | hn
  · exact ⟨fun c hc => ⟨hcovers.shaped c hc, hcovers.admitted c hc⟩, List.Sublist.refl _⟩
  · obtain ⟨hshaped, hsub⟩ := shaped_of_covers hcovers hn
    exact ⟨hshaped.children_spec.1, hshaped.children_spec.2.trans hsub⟩

/-- Spans from leaf to leaf count rows if the leaves do. -/
theorem Hull.countsRows {n : Node} (h : n.Hull)
    (hleaves : ∀ l ∈ n.leaves, l.span.CountsRows source) : n.span.CountsRows source := by
  obtain ⟨f, hf, hstart, hstartRow⟩ := h.start_mem
  obtain ⟨g, hg, hstop, hendRow⟩ := h.stop_mem
  exact ⟨by rw [← hstart, ← hstartRow, (hleaves f hf).1],
    by rw [← hstop, ← hendRow, (hleaves g hg).2]⟩

/-- A text that starts with a visible character is not trimmed to nothing. -/
theorem trim_cons_ne_nil {c : Char} (hc : Unicode.isBlank c = false) (cs : List Char) :
    Text.trim (c :: cs) ≠ [] := by
  intro h
  rw [Text.trim, Text.trimWhere, List.dropWhile_cons_of_neg (by simp [hc]), Text.dropEndWhile,
    List.reverse_eq_nil_iff, List.dropWhile_eq_nil_iff] at h
  have := h c (List.mem_reverse.mpr List.mem_cons_self)
  rw [hc] at this
  cases this

/-- The kind of a leaf tells whether it is a token, and whether it is a semicolon. -/
theorem leaf_spec {n : Node} {l : Lexeme} (hl : l.Placed source) (hbreak : l.kind ≠ .lineBreak)
    (hstray : l.kind ≠ .stray) (hkind : n.kind = l.leafKind) (hspan : n.span = l.span)
    (hcs : n.children = []) (hcomment : n.kind ≠ .comment) :
    n.kind.isToken = n.isWritten source ∧
      (n.kind = .semicolon ↔ n.span.text source = [';']) := by
  obtain ⟨c, cs, hdrop, hmunched⟩ := hl.munched hbreak
  obtain ⟨m, hm⟩ := Nat.exists_eq_add_one.mpr hmunched.pos
  have htext : l.text = c :: cs.take m := by
    rw [← hl.text, Span.text, hdrop, hm, List.take_succ_cons]
  have hwritten : (Text.trim l.text).isEmpty = false := by
    rw [htext, List.isEmpty_eq_false_iff]
    exact trim_cons_ne_nil (hmunched.visible hstray) _
  -- a semicolon is a symbol, so its text alone decides its kind
  have hsemicolon : l.text = [';'] → l.leafKind = .semicolon := by
    intro h
    have hc : c = ';' := by
      rw [htext, List.cons.injEq] at h
      exact h.1
    rw [Lexeme.leafKind, hmunched.semicolon hc, h]
    rfl
  rw [isWritten, hspan, hl.text, hkind, hwritten, hcs]
  rw [hkind] at hcomment
  rcases l.leafKind_cases with ⟨-, h⟩ | ⟨-, h⟩ | h | h | ⟨h, htext'⟩ | h
  · exact absurd h hcomment
  · simp_all [Kind.isToken]
  · simp_all [Kind.isToken]
  · simp_all [Kind.isToken]
  · simp_all [Kind.isToken]
  · simp_all [Kind.isToken]

/-- **A parse tree is well formed.** The comments of a parsed file are attributed in a tree that
keeps all promises about places. -/
theorem wellFormed_of_parse? (h : Node.parse? source = some root) : root.WellFormed := by
  obtain ⟨children, rfl, hcovers⟩ := parse?_covers h
  have ho := ordered_of_covers hcovers
  have hrows : ∀ n ∈ preorder (mk .sourceFile none (Span.whole source) children),
      n.span.CountsRows source := by
    intro n hn
    rw [preorder, List.mem_cons] at hn
    rcases hn with rfl | hn
    · exact ⟨rfl, by simp [Span.whole, rowAt, span]⟩
    · obtain ⟨hshaped, hsub⟩ := shaped_of_covers hcovers hn
      refine (hshaped.hull (ho.sublist hsub)).countsRows fun l hl => ?_
      obtain ⟨k, hk, -, -, -, hspan⟩ := exists_lexeme_of_covers hcovers (hsub.subset hl)
      rw [hspan]
      exact ⟨hk.startRow, hk.endRow⟩
  constructor
  · rw [Nested]
    refine ⟨Nat.zero_le _, by simp, Shaped.nestedAll_of_hull (Nat.zero_le _) ?_ ho ?_ ?_⟩
    · intro c hc
      have hoc := ho.sublist (leaves_sublist_leavesAll hc)
      exact ⟨(hcovers.shaped c hc).hull hoc, (hcovers.shaped c hc).nested hoc⟩
    · exact fun l _ => Nat.zero_le _
    · intro l hl
      obtain ⟨k, hk, -, -, -, hspan⟩ := exists_lexeme_of_covers hcovers hl
      rw [hspan]
      exact hk.stop_le
  · intro a ha b hb hle
    obtain ⟨m, hm, ham⟩ := List.mem_flatMap.mp ha
    obtain ⟨n, hn, hbn⟩ := List.mem_flatMap.mp hb
    have hends : ∀ {s : Span}, s.CountsRows source → ∀ e ∈ s.ends, e.2 = rowAt source e.1 := by
      intro s hs e he
      simp only [Span.ends, List.mem_cons, List.not_mem_nil, or_false] at he
      rcases he with rfl | rfl
      · exact hs.1
      · exact hs.2
    rw [hends (hrows m hm) a ham, hends (hrows n hn) b hbn]
    exact rowAt_mono source hle

/-- The kind of a leaf of a parse tree tells what its text is. The tree of a blank file is a leaf
itself and makes an exception. -/
theorem leaf_of_parse? (h : Node.parse? source = some root) (hne : root.children ≠ []) {n : Node}
    (hn : n ∈ root.leaves) (hcomment : n.kind ≠ .comment) :
    n.kind.isToken = n.isWritten source ∧
      (n.kind = .semicolon ↔ n.span.text source = [';']) := by
  have hleaf := ((wellFormed_of_parse? h).mem_preorder_of_mem_leaves hn).2
  have hcs : n.children = [] := by simpa [isLeaf, hcomment] using hleaf
  obtain ⟨children, rfl, hcovers⟩ := parse?_covers h
  have hinner : ¬(Kind.sourceFile = .comment ∨ children = []) := by simpa [Node.children] using hne
  rw [leaves_mk, if_neg hinner] at hn
  obtain ⟨l, hl, hbreak, hstray, hkind, hspan⟩ := exists_lexeme_of_covers hcovers hn
  exact leaf_spec hl hbreak hstray hkind hspan hcs hcomment

/-- **In a parsed file kinds tell as much as texts.** The index that goes by the kinds of the leaves
is the one that goes by their texts. -/
theorem ofSource_eq_ofTree (h : Node.parse? source = some root) (hne : root.children ≠ []) :
    Comment.Index.ofSource source root = Comment.Index.ofTree root := by
  have hleaf : ∀ n ∈ root.leaves, n.kind.isToken = n.isWritten source := by
    intro n hn
    by_cases hk : n.kind = .comment
    · simp [isWritten, hk, Kind.isToken]
    · exact (leaf_of_parse? h hne hn hk).1
  have htokens : (root.leaves.filter (·.isWritten source)).map
        (fun n => (⟨n.span, n.span.text source = [';']⟩ : Comment.Token))
      = (root.leaves.filter (·.kind.isToken)).map fun n => ⟨n.span, n.kind = .semicolon⟩ := by
    rw [List.filter_congr fun n hn => (hleaf n hn).symm]
    refine List.map_congr_left fun n hn => ?_
    obtain ⟨hmem, htoken⟩ := List.mem_filter.mp hn
    have hcomment : n.kind ≠ .comment := by
      intro hk
      rw [hk] at htoken
      cases htoken
    simp only [(leaf_of_parse? h hne hmem hcomment).2]
  rw [Comment.Index.ofSource, Comment.Index.ofTree, htokens]

/-- **An identifier is written with the characters of names**, and with one at least. -/
theorem text_of_identifier (h : Node.parse? source = some root) {n : Node}
    (hn : n ∈ root.preorder) (hk : n.kind = .identifier) :
    n.span.text source ≠ [] ∧
      ∀ d ∈ n.span.text source, Unicode.isIdentifierPart d = true := by
  obtain ⟨children, rfl, hcovers⟩ := parse?_covers h
  rw [preorder, List.mem_cons] at hn
  rcases hn with rfl | hn
  · cases hk
  obtain ⟨hshaped, hsub⟩ := shaped_of_covers hcovers hn
  have hleaf : n ∈ leavesAll children := by
    apply hsub.subset
    rw [hshaped.leaves_eq_singleton (by rw [hk]; rfl)]
    exact List.mem_singleton_self n
  obtain ⟨l, hl, hbreak, -, hkind, hspan⟩ := exists_lexeme_of_covers hcovers hleaf
  have hlkind : l.kind = .identifier := by
    rw [hk] at hkind
    rcases l.leafKind_cases with ⟨-, h⟩ | ⟨h, -⟩ | h | h | ⟨h, -⟩ | h
    · rw [h] at hkind; cases hkind
    · exact h
    all_goals rw [h] at hkind; cases hkind
  obtain ⟨d, ds, hdrop, hmunched⟩ := hl.munched hbreak
  obtain ⟨m, hm⟩ := Nat.exists_eq_add_one.mpr hmunched.pos
  rw [hspan, Span.text, hdrop]
  refine ⟨?_, hmunched.identifier hlkind⟩
  rw [hm, List.take_succ_cons]
  exact List.cons_ne_nil _ _

/-- **The names that a file binds are identifiers**, except for the local names of imports. -/
theorem isIdentifierPart_of_parse? (h : Node.parse? source = some root) {n : Node}
    (hn : n ∈ root.preorder) (hk : n.kind ≠ .importSpec) {name : String}
    (hname : name ∈ n.names source) : ∀ d ∈ name.toList, Unicode.isIdentifierPart d = true := by
  obtain ⟨c, hc, rfl⟩ := List.mem_map.mp hname
  obtain ⟨hmem, hrole⟩ := List.mem_filter.mp hc
  have hfits := ((children_of_parse? h hn).1 c hmem).2
  have hident : c.kind = .identifier := (hfits.2.1 (of_decide_eq_true hrole)).resolve_right hk
  rw [text, String.toList_ofList]
  exact (text_of_identifier h (mem_preorder_of_mem_children hn hmem) hident).2

/-- So there are no dots in these names. -/
theorem dot_notMem_of_parse? (h : Node.parse? source = some root) {n : Node}
    (hn : n ∈ root.preorder) (hk : n.kind ≠ .importSpec) {name : String}
    (hname : name ∈ n.names source) : '.' ∉ name.toList := by
  intro hdot
  exact absurd (isIdentifierPart_of_parse? h hn hk hname '.' hdot) (by decide +kernel)

/-- **Comments play no part** in what they stand in. -/
theorem kind_ne_comment_of_parse? (h : Node.parse? source = some root) {n c : Node}
    (hn : n ∈ root.preorder) (hc : c ∈ n.children) (hrole : c.role ≠ none) : c.kind ≠ .comment :=
  fun hk => hrole (((children_of_parse? h hn).1 c hc).2.2.2 hk)

/-- Siblings in a parse tree take up different spans. -/
theorem eq_of_span_eq_of_parse? (h : Node.parse? source = some root) {n a b : Node}
    (hn : n ∈ root.preorder) (ha : a ∈ n.children) (hb : b ∈ n.children) (hspan : a.span = b.span) :
    a = b := by
  obtain ⟨hchildren, hsub⟩ := children_of_parse? h hn
  obtain ⟨children, rfl, hcovers⟩ := parse?_covers h
  exact Shaped.eq_of_span_eq (fun c hc => (hchildren c hc).1)
    ((ordered_of_covers hcovers).sublist hsub) ha hb hspan

end Node

end DocHarvest.Syntax
