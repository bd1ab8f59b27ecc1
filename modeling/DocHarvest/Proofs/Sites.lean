import DocHarvest.Harvest.Walk

/-!
# Nodes in their places

A walk reacts to a node together with where the node stands, so the theory of the walk is told over
`Site`s: a node and the nodes it lies in. `Node.sites` lists the sites of a tree, parents before
children and in source order; its nodes are those of `Node.preorder`.

`walk_eq_visitAll` takes the recursion out of the walk: walking a tree is visiting its sites one
after the other, with the state handed from each to the next. Every later fact about the walk is an
induction over that list and never over the tree again.

`exists_above_iff` is the one fact about nesting that the list loses and the theory needs back: the
nodes around a site are the ones before it in the list whose subtrees have not ended yet.
-/

namespace DocHarvest.Syntax

/-- A node of a tree and the nodes that it lies in, the innermost first. -/
structure Site where
  node : Node
  above : List Node

namespace Site

/-- Whether the parent of the node is a parenthesised group. -/
def grouped (x : Site) : Bool :=
  x.above.head?.any Node.isGroup

end Site

namespace Node

mutual

/-- The sites of a tree that stands below `above`, parents before children and in source order. -/
def sites (above : List Node) : Node → List Site
  | mk k r s cs => ⟨mk k r s cs, above⟩ :: sitesAll (mk k r s cs :: above) cs

/-- The sites of a list of trees, one tree after the other. -/
def sitesAll (above : List Node) : List Node → List Site
  | [] => []
  | n :: ns => sites above n ++ sitesAll above ns

end

/-- The number of nodes of a tree. -/
def size (n : Node) : Nat :=
  n.preorder.length

mutual

/-- The nodes at the sites of a tree are the nodes of the tree. -/
theorem map_node_sites (above : List Node) :
    ∀ n : Node, (n.sites above).map Site.node = n.preorder
  | mk k r s cs => by
    rw [sites, preorder, List.map_cons, map_node_sitesAll]

theorem map_node_sitesAll (above : List Node) :
    ∀ ns : List Node, (sitesAll above ns).map Site.node = preorderAll ns
  | [] => rfl
  | n :: ns => by
    rw [sitesAll, preorderAll, List.map_append, map_node_sites above n,
      map_node_sitesAll above ns]

end

theorem mem_preorder_of_mem_sites {above : List Node} {n : Node} {x : Site}
    (h : x ∈ n.sites above) : x.node ∈ n.preorder := by
  rw [← map_node_sites above]
  exact List.mem_map_of_mem h

theorem length_sites (above : List Node) (n : Node) : (n.sites above).length = n.size := by
  rw [size, ← map_node_sites above n, List.length_map]

theorem length_sitesAll (above : List Node) (ns : List Node) :
    (sitesAll above ns).length = (preorderAll ns).length := by
  rw [← map_node_sitesAll above ns, List.length_map]

theorem size_mk (k : Kind) (r : Option Role) (s : Span) (cs : List Node) :
    (mk k r s cs).size = (preorderAll cs).length + 1 := by
  rw [size, preorder, List.length_cons]

/-! ## Parents -/

/-- The sites before `x` end with the parent of `x` and the trees of its earlier children. -/
def EndsAtParent (before : List Site) (x : Site) : Prop :=
  ∃ a rest pre earlier later, x.above = a :: rest ∧ a.children = earlier ++ x.node :: later ∧
    before = pre ++ ⟨a, rest⟩ :: sitesAll (a :: rest) earlier

theorem EndsAtParent.append_left {before : List Site} {x : Site} (h : EndsAtParent before x)
    (pre : List Site) : EndsAtParent (pre ++ before) x := by
  obtain ⟨a, rest, pre', earlier, later, habove, hchildren, rfl⟩ := h
  exact ⟨a, rest, pre ++ pre', earlier, later, habove, hchildren, (List.append_assoc _ _ _).symm⟩

mutual

/-- A site of a tree is its top, or what comes before it ends with its parent and the trees of the
earlier children. -/
theorem endsAtParent_of_sites (above : List Node) :
    ∀ (n : Node) {before after : List Site} {x : Site}, n.sites above = before ++ x :: after →
      (before = [] ∧ x = ⟨n, above⟩) ∨ EndsAtParent before x
  | mk k r s cs, [], after, x, h => by
    rw [sites, List.nil_append, List.cons.injEq] at h
    exact Or.inl ⟨rfl, h.1.symm⟩
  | mk k r s cs, y :: before, after, x, h => by
    rw [sites, List.cons_append, List.cons.injEq] at h
    obtain ⟨rfl, h⟩ := h
    right
    rcases endsAtParent_of_sitesAll (mk k r s cs :: above) cs h with
      ⟨earlier, later, hcs, habove, rfl⟩ | hbelow
    · exact ⟨mk k r s cs, above, [], earlier, later, habove, hcs, rfl⟩
    · exact hbelow.append_left [⟨mk k r s cs, above⟩]

theorem endsAtParent_of_sitesAll (above : List Node) :
    ∀ (ns : List Node) {before after : List Site} {x : Site},
      sitesAll above ns = before ++ x :: after →
      (∃ earlier later, ns = earlier ++ x.node :: later ∧ x.above = above ∧
        before = sitesAll above earlier) ∨ EndsAtParent before x
  | [], before, after, x, h => by simp [sitesAll] at h
  | n :: ns, before, after, x, h => by
    -- behind the first tree, as in the trees that follow it
    have hbehind : ∀ mid, sitesAll above ns = mid ++ x :: after →
        (∃ earlier later, n :: ns = earlier ++ x.node :: later ∧ x.above = above ∧
          n.sites above ++ mid = sitesAll above earlier) ∨
        EndsAtParent (n.sites above ++ mid) x := by
      intro mid hmid
      rcases endsAtParent_of_sitesAll above ns hmid with
        ⟨earlier, later, rfl, habove, rfl⟩ | hbelow
      · exact Or.inl ⟨n :: earlier, later, rfl, habove, by rw [sitesAll]⟩
      · exact Or.inr (hbelow.append_left _)
    rw [sitesAll] at h
    rcases List.append_eq_append_iff.mp h with ⟨mid, rfl, hmid⟩ | ⟨mid, hfirst, hrest⟩
    · exact hbehind mid hmid
    · cases mid with
      | nil =>
        rw [List.append_nil] at hfirst
        rw [← hfirst]
        simpa using hbehind [] hrest.symm
      | cons y mid =>
        rw [List.cons_append, List.cons.injEq] at hrest
        obtain ⟨rfl, -⟩ := hrest
        rcases endsAtParent_of_sites above n hfirst with ⟨rfl, rfl⟩ | hbelow
        · exact Or.inl ⟨[], ns, rfl, rfl, rfl⟩
        · exact Or.inr hbelow

end

/-- A site of a tree is its top, or it stands in a node whose site is another one of the tree. -/
theorem parent_of_mem_sites (above : List Node) (n : Node) {x : Site} (h : x ∈ n.sites above) :
    x = ⟨n, above⟩ ∨
      ∃ a rest, x.above = a :: rest ∧ x.node ∈ a.children ∧ ⟨a, rest⟩ ∈ n.sites above := by
  obtain ⟨before, after, hsites⟩ := List.append_of_mem h
  rcases endsAtParent_of_sites above n hsites with ⟨-, htop⟩ | hparent
  · exact Or.inl htop
  · obtain ⟨a, rest, pre, earlier, later, habove, hchildren, rfl⟩ := hparent
    refine Or.inr ⟨a, rest, habove, ?_, ?_⟩
    · rw [hchildren]
      exact List.mem_append_right _ List.mem_cons_self
    · rw [hsites]
      exact List.mem_append_left _ (List.mem_append_right _ List.mem_cons_self)

mutual

/-- The nodes around a tree are around all its sites. -/
theorem above_suffix_of_mem_sites (above : List Node) :
    ∀ (n : Node) {x : Site}, x ∈ n.sites above → above <:+ x.above
  | mk k r s cs, x, h => by
    rw [sites] at h
    rcases List.mem_cons.mp h with rfl | h
    · exact List.suffix_refl _
    · exact (List.suffix_cons _ _).trans (above_suffix_of_mem_sitesAll _ cs h)

theorem above_suffix_of_mem_sitesAll (above : List Node) :
    ∀ (ns : List Node) {x : Site}, x ∈ sitesAll above ns → above <:+ x.above
  | [], x, h => by simp [sitesAll] at h
  | n :: ns, x, h => by
    rw [sitesAll] at h
    rcases List.mem_append.mp h with h | h
    · exact above_suffix_of_mem_sites above n h
    · exact above_suffix_of_mem_sitesAll above ns h

end

/-- A site that has nodes around it stands in the first of them. -/
theorem site_of_above_eq_cons {root : Node} {x : Site} (h : x ∈ root.sites []) {a : Node}
    {rest : List Node} (habove : x.above = a :: rest) :
    x.node ∈ a.children ∧ ⟨a, rest⟩ ∈ root.sites [] := by
  rcases parent_of_mem_sites [] root h with rfl | ⟨b, bs, hb, hchild, hmem⟩
  · cases habove
  · rw [habove, List.cons.injEq] at hb
    obtain ⟨rfl, rfl⟩ := hb
    exact ⟨hchild, hmem⟩

/-- A site that has no nodes around it is the top of its tree. -/
theorem site_of_above_eq_nil {root : Node} {x : Site} (h : x ∈ root.sites [])
    (habove : x.above = []) : x.node = root := by
  rcases parent_of_mem_sites [] root h with rfl | ⟨b, bs, hb, -⟩
  · rfl
  · rw [habove] at hb
    cases hb

/-! ## Nesting as intervals -/

mutual

/-- The subtree at a site ends no later than the tree. -/
theorem add_size_le_size (above : List Node) :
    ∀ (n : Node) {j : Nat} {y : Site}, (n.sites above)[j]? = some y → j + y.node.size ≤ n.size
  | mk k r s cs, 0, y, h => by
    rw [sites, List.getElem?_cons_zero, Option.some.injEq] at h
    subst h
    exact Nat.le_of_eq (Nat.zero_add _)
  | mk k r s cs, j + 1, y, h => by
    rw [sites, List.getElem?_cons_succ] at h
    have hle := add_size_le_length (mk k r s cs :: above) cs h
    rw [size_mk]
    omega

theorem add_size_le_length (above : List Node) :
    ∀ (ns : List Node) {j : Nat} {y : Site}, (sitesAll above ns)[j]? = some y →
      j + y.node.size ≤ (preorderAll ns).length
  | [], j, y, h => by simp [sitesAll] at h
  | n :: ns, j, y, h => by
    rw [sitesAll] at h
    rw [preorderAll, List.length_append, show n.preorder.length = n.size from rfl]
    rcases Nat.lt_or_ge j n.size with hlt | hge
    · rw [List.getElem?_append_left (by rw [length_sites]; exact hlt)] at h
      have hle := add_size_le_size above n h
      omega
    · rw [List.getElem?_append_right (by rw [length_sites]; exact hge), length_sites] at h
      have hle := add_size_le_length above ns h
      omega

end

/-- A site before position `i` whose node satisfies `P` and whose subtree has not ended at `i`. -/
def OpenAt (P : Node → Prop) (xs : List Site) (i : Nat) : Prop :=
  ∃ j y, j < i ∧ xs[j]? = some y ∧ P y.node ∧ i < j + y.node.size

theorem openAt_append_left {P : Node → Prop} {xs : List Site} {i : Nat} (ys : List Site)
    (hi : i < xs.length) : OpenAt P (xs ++ ys) i ↔ OpenAt P xs i := by
  unfold OpenAt
  constructor
  · rintro ⟨j, y, hj, hy, hP, hend⟩
    rw [List.getElem?_append_left (by omega)] at hy
    exact ⟨j, y, hj, hy, hP, hend⟩
  · rintro ⟨j, y, hj, hy, hP, hend⟩
    refine ⟨j, y, hj, ?_, hP, hend⟩
    rw [List.getElem?_append_left (by omega)]
    exact hy

/-- What is open behind a whole tree was opened behind it. -/
theorem openAt_append_right {P : Node → Prop} (above : List Node) (n : Node) {ys : List Site}
    {i : Nat} (hi : n.size ≤ i) :
    OpenAt P (n.sites above ++ ys) i ↔ OpenAt P ys (i - n.size) := by
  unfold OpenAt
  constructor
  · rintro ⟨j, y, hj, hy, hP, hend⟩
    rcases Nat.lt_or_ge j n.size with hlt | hge
    · -- a subtree of the tree ends with the tree, so it is not open any more
      rw [List.getElem?_append_left (by rw [length_sites]; exact hlt)] at hy
      have hle := add_size_le_size above n hy
      omega
    · rw [List.getElem?_append_right (by rw [length_sites]; exact hge), length_sites] at hy
      exact ⟨j - n.size, y, by omega, hy, hP, by omega⟩
  · rintro ⟨j, y, hj, hy, hP, hend⟩
    refine ⟨j + n.size, y, by omega, ?_, hP, by omega⟩
    rw [List.getElem?_append_right (by rw [length_sites]; omega), length_sites,
      Nat.add_sub_cancel]
    exact hy

/-- Under a node, what is open is the node itself or was opened below it. -/
theorem openAt_cons_succ {P : Node → Prop} {x : Site} {xs : List Site} {i : Nat}
    (hi : i + 1 < x.node.size) :
    OpenAt P (x :: xs) (i + 1) ↔ P x.node ∨ OpenAt P xs i := by
  unfold OpenAt
  constructor
  · rintro ⟨j, y, hj, hy, hP, hend⟩
    cases j with
    | zero =>
      rw [List.getElem?_cons_zero, Option.some.injEq] at hy
      exact Or.inl (hy ▸ hP)
    | succ j =>
      rw [List.getElem?_cons_succ] at hy
      exact Or.inr ⟨j, y, by omega, hy, hP, by omega⟩
  · rintro (hP | ⟨j, y, hj, hy, hP, hend⟩)
    · exact ⟨0, x, Nat.succ_pos _, List.getElem?_cons_zero, hP, by omega⟩
    · exact ⟨j + 1, y, by omega, by rw [List.getElem?_cons_succ]; exact hy, hP, by omega⟩

mutual

/-- **The nodes around a site are the ones still open at it.** -/
theorem exists_above_iff (P : Node → Prop) (above : List Node) :
    ∀ (n : Node) {i : Nat} {x : Site}, (n.sites above)[i]? = some x →
      ((∃ a ∈ x.above, P a) ↔ (∃ a ∈ above, P a) ∨ OpenAt P (n.sites above) i)
  | mk k r s cs, 0, x, h => by
    rw [sites, List.getElem?_cons_zero, Option.some.injEq] at h
    subst h
    constructor
    · exact Or.inl
    · rintro (ha | ⟨j, y, hj, -⟩)
      · exact ha
      · exact absurd hj (Nat.not_lt_zero j)
  | mk k r s cs, i + 1, x, h => by
    rw [sites, List.getElem?_cons_succ] at h
    have hlen : i < (preorderAll cs).length := by
      rw [← length_sitesAll (mk k r s cs :: above) cs]
      exact (List.getElem?_eq_some_iff.mp h).1
    have hopen : OpenAt P (sites above (mk k r s cs)) (i + 1) ↔
        P (mk k r s cs) ∨ OpenAt P (sitesAll (mk k r s cs :: above) cs) i := by
      rw [sites]
      exact openAt_cons_succ (by rw [size_mk]; omega)
    rw [exists_above_iff_all P (mk k r s cs :: above) cs h, hopen, ← or_assoc]
    refine or_congr_left ?_
    simp only [List.mem_cons, exists_eq_or_imp]
    exact or_comm

theorem exists_above_iff_all (P : Node → Prop) (above : List Node) :
    ∀ (ns : List Node) {i : Nat} {x : Site}, (sitesAll above ns)[i]? = some x →
      ((∃ a ∈ x.above, P a) ↔ (∃ a ∈ above, P a) ∨ OpenAt P (sitesAll above ns) i)
  | [], i, x, h => by simp [sitesAll] at h
  | n :: ns, i, x, h => by
    rw [sitesAll] at h ⊢
    rcases Nat.lt_or_ge i n.size with hlt | hge
    · have hlen : i < (n.sites above).length := by rw [length_sites]; exact hlt
      rw [List.getElem?_append_left hlen] at h
      rw [openAt_append_left _ hlen]
      exact exists_above_iff P above n h
    · rw [List.getElem?_append_right (by rw [length_sites]; exact hge), length_sites] at h
      rw [openAt_append_right above n hge]
      exact exists_above_iff_all P above ns h

end

end Node

end DocHarvest.Syntax

namespace DocHarvest.Harvest

open DocHarvest.Syntax

/-- Visits sites one after the other. -/
def visitAll (cx : Context) (s : State) : List Site → State × List Entry
  | [] => (s, [])
  | x :: xs =>
    let (s, here) := visit cx x.grouped s x.node
    let (s, rest) := visitAll cx s xs
    (s, here ++ rest)

theorem visitAll_append (cx : Context) :
    ∀ (s : State) (xs ys : List Site),
      visitAll cx s (xs ++ ys)
        = ((visitAll cx (visitAll cx s xs).1 ys).1,
          (visitAll cx s xs).2 ++ (visitAll cx (visitAll cx s xs).1 ys).2) := by
  intro s xs ys
  induction xs generalizing s with
  | nil => rfl
  | cons x xs ih =>
    rw [List.cons_append]
    simp only [visitAll, ih, List.append_assoc]

mutual

/-- **A walk is a run over a list.** Walking a tree visits its sites in order, and hands the state
on from each to the next. -/
theorem walk_eq_visitAll (cx : Context) (above : List Node) :
    ∀ (s : State) (n : Node),
      walk cx (above.head?.any Node.isGroup) s n = visitAll cx s (n.sites above)
  | s, .mk k r sp cs => by
    rw [Node.sites, visitAll, walk]
    simp only [Site.grouped]
    have hbelow := walkAll_eq_visitAll cx (.mk k r sp cs :: above)
      (visit cx (above.head?.any Node.isGroup) s (.mk k r sp cs)).1 cs
    simp only [List.head?_cons, Option.any_some] at hbelow
    rw [hbelow]

theorem walkAll_eq_visitAll (cx : Context) (above : List Node) :
    ∀ (s : State) (ns : List Node),
      walkAll cx (above.head?.any Node.isGroup) s ns = visitAll cx s (Node.sitesAll above ns)
  | s, [] => by rw [walkAll, Node.sitesAll, visitAll]
  | s, n :: ns => by
    rw [walkAll, Node.sitesAll, visitAll_append, walk_eq_visitAll cx above s n]
    simp only [walkAll_eq_visitAll cx above _ ns]

end

end DocHarvest.Harvest
