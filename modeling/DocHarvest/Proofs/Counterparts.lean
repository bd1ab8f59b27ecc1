import DocHarvest.Harvest.Walk
import DocHarvest.Proofs.Alignment
import DocHarvest.Proofs.Parsed
import DocHarvest.Proofs.Returns

/-!
# Trees that correspond

Two trees of the same shape have nodes at the same places (`pairs`). They are alike if nodes at the
same place are of one kind, play one part and are on the same rows, if their texts are the same once
the carriage returns before line feeds are deleted, and if nodes end and start in the same order
(`Alike`). A comment may have one more carriage return at its end, for a comment that goes to the
end of its line can take it in.

What a walk reads off such trees is the same: the names that nodes bind (`names_eq`), the comments
that belong to them (`leadText_eq`, `trailText_eq`), and so all entries (`walk_eq`).
-/

namespace DocHarvest.Syntax.Node

open DocHarvest.Text DocHarvest.Comment

/-! ## Nodes at the same place -/

mutual

/-- The nodes at the same places of two trees. -/
def pairs : Node → Node → List (Node × Node)
  | mk k r s cs, mk k' r' s' cs' => (mk k r s cs, mk k' r' s' cs') :: pairsAll cs cs'

/-- The nodes at the same places of two lists of trees. -/
def pairsAll : List Node → List Node → List (Node × Node)
  | n :: ns, n' :: ns' => pairs n n' ++ pairsAll ns ns'
  | _, _ => []

end

/-- What is the same about two nodes at the same place. -/
structure Same (source source' : List Char) (n n' : Node) : Prop where
  kind : n.kind = n'.kind
  role : n.role = n'.role
  startRow : n.span.startRow = n'.span.startRow
  endRow : n.span.endRow = n'.span.endRow
  children : n.children.length = n'.children.length
  text : dropReturns (n'.span.text source') = n.span.text source ∨
    n.kind = .comment ∧ dropReturns (n'.span.text source') = n.span.text source ++ ['\r']

/-- Trees that correspond. -/
structure Alike (source source' : List Char) (root root' : Node) : Prop where
  same : ∀ t ∈ pairs root root', Same source source' t.1 t.2
  order : ∀ a ∈ pairs root root', ∀ b ∈ pairs root root',
    (a.1.span.stop ≤ b.1.span.start ↔ a.2.span.stop ≤ b.2.span.start)

instance (source source' : List Char) (n n' : Node) : Decidable (Same source source' n n') :=
  decidable_of_iff (n.kind = n'.kind ∧ n.role = n'.role ∧ n.span.startRow = n'.span.startRow ∧
      n.span.endRow = n'.span.endRow ∧ n.children.length = n'.children.length ∧
      (dropReturns (n'.span.text source') = n.span.text source ∨
        n.kind = .comment ∧ dropReturns (n'.span.text source') = n.span.text source ++ ['\r']))
    ⟨fun h => ⟨h.1, h.2.1, h.2.2.1, h.2.2.2.1, h.2.2.2.2.1, h.2.2.2.2.2⟩,
      fun h => ⟨h.kind, h.role, h.startRow, h.endRow, h.children, h.text⟩⟩

instance (source source' : List Char) (root root' : Node) :
    Decidable (Alike source source' root root') :=
  decidable_of_iff ((∀ t ∈ pairs root root', Same source source' t.1 t.2) ∧
      ∀ a ∈ pairs root root', ∀ b ∈ pairs root root',
        (a.1.span.stop ≤ b.1.span.start ↔ a.2.span.stop ≤ b.2.span.start))
    ⟨fun h => ⟨h.1, h.2⟩, fun h => ⟨h.same, h.order⟩⟩

instance decidableRel {α β : Type} (R : α → β → Prop) [∀ a b, Decidable (R a b)] :
    ∀ x y, Decidable (Option.Rel R x y)
  | none, none => isTrue .none
  | some a, some b => decidable_of_iff (R a b) ⟨.some, fun | .some h => h⟩
  | none, some _ => isFalse nofun
  | some _, none => isFalse nofun

/-- Two texts have syntax errors both, or trees that correspond. -/
def ParseAlike (source source' : List Char) : Prop :=
  Option.Rel (Alike source source') (parse? source) (parse? source')

instance (source source' : List Char) : Decidable (ParseAlike source source') :=
  inferInstanceAs (Decidable (Option.Rel (Alike source source') _ _))

/-- Two nodes are at the same place. -/
def Twins (root root' n n' : Node) : Prop :=
  (n, n') ∈ pairs root root'

section

variable {t u : Node × Node} {root root' : Node}

theorem mem_pairs_self (n n' : Node) : (n, n') ∈ pairs n n' := by
  cases n with
  | mk k r s cs =>
    cases n' with
    | mk k' r' s' cs' => exact List.mem_cons_self

theorem mem_pairsAll {ns ns' : List Node} :
    t ∈ pairsAll ns ns' ↔ ∃ u ∈ ns.zip ns', t ∈ pairs u.1 u.2 := by
  induction ns generalizing ns' with
  | nil => simp [pairsAll]
  | cons n ns ih =>
    cases ns' with
    | nil => simp [pairsAll]
    | cons n' ns' => simp [pairsAll, ih]

theorem mem_pairs_of_mem_zip :
    ∀ {root root' : Node}, t ∈ pairs root root' → u ∈ t.1.children.zip t.2.children →
      u ∈ pairs root root'
  | mk k r s cs, mk k' r' s' cs', ht, hu => by
    rw [pairs, List.mem_cons] at ht ⊢
    right
    rcases ht with rfl | ht
    · exact mem_pairsAll.mpr ⟨u, hu, mem_pairs_self u.1 u.2⟩
    · obtain ⟨v, hv, htv⟩ := mem_pairsAll.mp ht
      have := List.sizeOf_lt_of_mem (List.of_mem_zip hv).1
      exact mem_pairsAll.mpr ⟨v, hv, mem_pairs_of_mem_zip htv hu⟩

theorem mem_preorder_of_mem_pairs :
    ∀ {root root' : Node}, t ∈ pairs root root' → t.2 ∈ root'.preorder
  | mk k r s cs, mk k' r' s' cs', ht => by
    rw [pairs, List.mem_cons] at ht
    rw [preorder, List.mem_cons]
    rcases ht with rfl | ht
    · exact Or.inl rfl
    · obtain ⟨v, hv, htv⟩ := mem_pairsAll.mp ht
      have := List.sizeOf_lt_of_mem (List.of_mem_zip hv).1
      exact Or.inr (mem_preorderAll.mpr
        ⟨v.2, (List.of_mem_zip hv).2, mem_preorder_of_mem_pairs htv⟩)

end

/-! ## Texts of nodes -/

section

variable {source source' : List Char} {n n' : Node}

/-- Carriage returns apart, the texts are the same. -/
theorem Same.filter_text (h : Same source source' n n') :
    (n.span.text source).filter (· != '\r') = (n'.span.text source').filter (· != '\r') := by
  have hdrop := (recodes_dropReturns (n'.span.text source')).filter_eq
  rcases h.text with heq | ⟨-, heq⟩
  · rw [← hdrop, heq]
  · rw [← hdrop, heq, List.filter_append]
    exact (List.append_nil _).symm

/-- The text of a node that is no comment is recoded. -/
theorem Same.recodes (h : Same source source' n n') (hk : n.kind ≠ .comment) :
    Recodes (n.span.text source) (n'.span.text source') := by
  have hdrop := recodes_dropReturns (n'.span.text source')
  rcases h.text with heq | ⟨hcomment, -⟩
  · rwa [heq] at hdrop
  · exact absurd hcomment hk

/-- Where there is neither a line feed nor a carriage return, the texts are the same. -/
theorem Same.text_eq (h : Same source source' n n') (hfeed : '\n' ∉ n'.span.text source')
    (hreturn : '\r' ∉ n'.span.text source') : n.text source = n'.text source' := by
  have hdrop := (recodes_dropReturns (n'.span.text source')).eq_of_notMem hfeed
  rcases h.text with heq | ⟨-, heq⟩
  · rw [Node.text, Node.text, ← heq, hdrop]
  · rw [hdrop] at heq
    exact absurd (by rw [heq]; simp) hreturn

/-- Identifiers are the same. -/
theorem Same.text_eq_of_identifier (h : Same source source' n n')
    (hpart : ∀ c ∈ n'.span.text source', Unicode.isIdentifierPart c = true) :
    n.text source = n'.text source' := by
  have hnot : ∀ c, Unicode.isIdentifierPart c = false → c ∉ n'.span.text source' := by
    intro c hc hmem
    rw [hpart c hmem] at hc
    cases hc
  exact h.text_eq (hnot '\n' (by decide +kernel)) (hnot '\r' (by decide +kernel))

end

/-! ## Lists of nodes -/

namespace Alike

variable {source source' : List Char} {root root' : Node}

theorem twins (h : Alike source source' root root') {n n' : Node} (hn : Twins root root' n n') :
    Same source source' n n' :=
  h.same (n, n') hn

theorem children (h : Alike source source' root root') {n n' : Node} (hn : Twins root root' n n') :
    List.Forall₂ (Twins root root') n.children n'.children :=
  List.forall₂_iff_zip.mpr ⟨(h.twins hn).children, fun hmem => mem_pairs_of_mem_zip hn hmem⟩

mutual

theorem preorder (h : Alike source source' root root') :
    ∀ n n', Twins root root' n n' → List.Forall₂ (Twins root root') n.preorder n'.preorder
  | .mk k r s cs, .mk k' r' s' cs', hn => by
    rw [Node.preorder, Node.preorder]
    exact .cons hn (h.preorderAll cs cs' (h.children hn))

theorem preorderAll (h : Alike source source' root root') :
    ∀ ns ns', List.Forall₂ (Twins root root') ns ns' →
      List.Forall₂ (Twins root root') (Node.preorderAll ns) (Node.preorderAll ns')
  | [], [], .nil => .nil
  | n :: ns, n' :: ns', .cons hn hns => by
    rw [Node.preorderAll, Node.preorderAll]
    exact List.rel_append (h.preorder n n' hn) (h.preorderAll ns ns' hns)

end

mutual

theorem leaves (h : Alike source source' root root') :
    ∀ n n', Twins root root' n n' → List.Forall₂ (Twins root root') n.leaves n'.leaves
  | .mk k r s cs, .mk k' r' s' cs', hn => by
    have hkind : k = k' := (h.twins hn).kind
    have hchildren : List.Forall₂ (Twins root root') cs cs' := h.children hn
    -- so a node is a leaf in both trees or in neither
    have hempty : cs = [] ↔ cs' = [] := by
      rw [← List.length_eq_zero_iff, ← List.length_eq_zero_iff, hchildren.length_eq]
    rw [leaves_mk, leaves_mk]
    simp only [hkind, hempty]
    split
    next => exact .cons (hkind ▸ hn) .nil
    next => exact h.leavesAll cs cs' hchildren

theorem leavesAll (h : Alike source source' root root') :
    ∀ ns ns', List.Forall₂ (Twins root root') ns ns' →
      List.Forall₂ (Twins root root') (Node.leavesAll ns) (Node.leavesAll ns')
  | [], [], .nil => .nil
  | n :: ns, n' :: ns', .cons hn hns => by
    rw [Node.leavesAll, Node.leavesAll]
    exact List.rel_append (h.leaves n n' hn) (h.leavesAll ns ns' hns)

end

/-! ## Comments of nodes -/

/-- The spans of two nodes at the same place. -/
def Spans (root root' : Node) (s s' : Span) : Prop :=
  ∃ n n', Twins root root' n n' ∧ n.span = s ∧ n'.span = s'

theorem aligned (h : Alike source source' root root') : Aligned (Spans root root') where
  startRow := by
    intro s s' hs
    obtain ⟨n, n', hn, rfl, rfl⟩ := hs
    exact (h.twins hn).startRow
  endRow := by
    intro s s' hs
    obtain ⟨n, n', hn, rfl, rfl⟩ := hs
    exact (h.twins hn).endRow
  order := by
    intro a a' b b' ha hb
    obtain ⟨m, m', hm, rfl, rfl⟩ := ha
    obtain ⟨n, n', hn, rfl, rfl⟩ := hb
    exact h.order _ hm _ hn

/-- The comments and tokens of the trees correspond. -/
theorem aligned_index (h : Alike source source' root root') :
    (Index.ofTree root).Aligned (Spans root root') (Index.ofTree root') := by
  have hleaves := h.leaves root root' (mem_pairs_self root root')
  have hfilter : ∀ p : Kind → Bool, List.Forall₂ (Twins root root')
      (root.leaves.filter (p ·.kind)) (root'.leaves.filter (p ·.kind)) := by
    intro p
    refine List.rel_filter (fun n n' hn => ?_) hleaves
    show p n.kind = true ↔ p n'.kind = true
    rw [(h.twins hn).kind]
  refine ⟨?_, ?_⟩
  · refine List.rel_map (fun n n' hn => ?_) (hfilter fun k => k = .comment)
    exact ⟨n, n', hn, rfl, rfl⟩
  · refine List.rel_map (fun n n' hn => ?_) (hfilter Kind.isToken)
    refine ⟨⟨n, n', hn, rfl, rfl⟩, ?_⟩
    show decide (n.kind = .semicolon) = decide (n'.kind = .semicolon)
    rw [(h.twins hn).kind]

/-- Comments at the same place have the same lines. -/
theorem bodyLines_eq (h : Alike source source' root root') (s s' : Span)
    (hs : Spans root root' s s') : bodyLines (s.text source) = bodyLines (s'.text source') := by
  obtain ⟨n, n', hn, rfl, rfl⟩ := hs
  exact bodyLines_congr (h.twins hn).filter_text

/-! ## Names of nodes -/

/-- A name that a node binds is the same, except for the local name of an import. -/
theorem name_eq (h : Alike source source' root root') (hparse : parse? source' = some root')
    {n n' c c' : Node} (hn : Twins root root' n n') (hk : n.kind ≠ .importSpec)
    (hc : Twins root root' c c') (hname : c' ∈ n'.childrenAs .name) :
    c.text source = c'.text source' := by
  have hmem : c'.text source' ∈ n'.names source' := List.mem_map_of_mem hname
  have hpart := isIdentifierPart_of_parse? hparse (mem_preorder_of_mem_pairs hn)
    (fun hk' => hk ((h.twins hn).kind.trans hk')) hmem
  rw [Node.text, String.toList_ofList] at hpart
  exact (h.twins hc).text_eq_of_identifier hpart

/-- The names that a node binds are the same. -/
theorem names_eq (h : Alike source source' root root') (hparse : parse? source' = some root')
    {n n' : Node} (hn : Twins root root' n n') (hk : n.kind ≠ .importSpec) :
    n.names source = n'.names source' := by
  have hnames : List.Forall₂ (Twins root root') (n.childrenAs .name) (n'.childrenAs .name) := by
    refine List.rel_filter (fun c c' hc => ?_) (h.children hn)
    show decide (c.role = some .name) = true ↔ decide (c'.role = some .name) = true
    rw [(h.twins hc).role]
  have htexts : List.Forall₂ (fun c c' => c.text source = c'.text source')
      (n.childrenAs .name) (n'.childrenAs .name) := by
    -- pairs of the zip, not of the relation: that the node is a name has to be known
    refine List.forall₂_iff_zip.mpr ⟨hnames.length_eq, fun {c c'} hmem => ?_⟩
    exact h.name_eq hparse hn hk (List.forall₂_zip hnames hmem) (List.of_mem_zip hmem).2
  rw [names, names, ← List.forall₂_eq_eq_eq, List.forall₂_map_left_iff, List.forall₂_map_right_iff]
  exact htexts

end Alike

end DocHarvest.Syntax.Node

namespace DocHarvest.Harvest

open DocHarvest.Syntax DocHarvest.Comment

/-! ## The walk -/

section

variable {source source' : List Char} {root root' : Node}

/-- What the walk of a tree knows that goes by the kinds of its leaves. -/
abbrev contextOf (importPath : String) (summarize : String → String) (source : List Char)
    (root : Node) : Context :=
  ⟨importPath, summarize, source, Index.ofTree root⟩

variable (h : Node.Alike source source' root root') (hparse : Node.parse? source' = some root')
  (importPath : String) (summarize : String → String)

section

variable {n n' : Node} (hn : Node.Twins root root' n n')
include h hn

theorem leadText_eq : (contextOf importPath summarize source root).leadText n
    = (contextOf importPath summarize source' root').leadText n' :=
  textOf_eq h.bodyLines_eq (lead_aligned h.aligned h.aligned_index ⟨n, n', hn, rfl, rfl⟩)

theorem trailText_eq : (contextOf importPath summarize source root).trailText n
    = (contextOf importPath summarize source' root').trailText n' :=
  textOf_eq h.bodyLines_eq (trail_aligned h.aligned h.aligned_index ⟨n, n', hn, rfl, rfl⟩)

include hparse

/-- The step: two nodes at the same place are visited alike. -/
theorem visit_eq (grouped : Bool) (s : State) :
    visit (contextOf importPath summarize source root) grouped s n
      = visit (contextOf importPath summarize source' root') grouped s n' := by
  have hkind := (h.twins hn).kind
  have hlead := leadText_eq h importPath summarize hn
  have hnames := h.names_eq hparse hn
  unfold visit
  rw [show isGeneral n = isGeneral n' by rw [isGeneral, isGeneral, hkind],
    show isTypeSpec n = isTypeSpec n' by rw [isTypeSpec, isTypeSpec, hkind],
    show isField n = isField n' by rw [isField, isField, hkind], hlead]
  split
  next => rfl
  next =>
    split
    -- imports bind names as well, but they are neither types nor fields
    next hspec =>
      have hne : n.kind ≠ .importSpec := by
        intro hk
        rw [isTypeSpec, ← hkind, hk] at hspec
        cases hspec
      unfold visitTypeSpec
      rw [hlead, hnames hne]
      rfl
    next =>
      split
      next hfield =>
        have hne : n.kind ≠ .importSpec := by
          intro hk
          rw [isField, ← hkind, hk] at hfield
          cases hfield
        unfold visitField fieldText
        rw [hlead, hnames hne, trailText_eq h importPath summarize hn]
        rfl
      next => rfl

end

mutual

/-- The run: so are the nodes below them. -/
theorem walk_eq (h : Node.Alike source source' root root')
    (hparse : Node.parse? source' = some root') (importPath : String)
    (summarize : String → String) :
    ∀ n n', Node.Twins root root' n n' → ∀ grouped s,
      walk (contextOf importPath summarize source root) grouped s n
        = walk (contextOf importPath summarize source' root') grouped s n'
  | .mk k r sp cs, .mk k' r' sp' cs', hn, grouped, s => by
    have hchildren : List.Forall₂ (Node.Twins root root') cs cs' := h.children hn
    have hgroup : (Node.mk k r sp cs).isGroup = (Node.mk k' r' sp' cs').isGroup :=
      forall₂_any hchildren fun c c' hc => by rw [(h.twins hc).kind]
    rw [walk, walk]
    simp only [visit_eq h hparse importPath summarize hn, hgroup,
      walkAll_eq h hparse importPath summarize cs cs' hchildren]

theorem walkAll_eq (h : Node.Alike source source' root root')
    (hparse : Node.parse? source' = some root') (importPath : String)
    (summarize : String → String) :
    ∀ ns ns', List.Forall₂ (Node.Twins root root') ns ns' → ∀ grouped s,
      walkAll (contextOf importPath summarize source root) grouped s ns
        = walkAll (contextOf importPath summarize source' root') grouped s ns'
  | [], [], .nil, grouped, s => rfl
  | n :: ns, n' :: ns', .cons hn hns, grouped, s => by
    rw [walkAll, walkAll]
    simp only [walk_eq h hparse importPath summarize n n' hn,
      walkAll_eq h hparse importPath summarize ns ns' hns]

end

/-- A whole tree is walked alike. -/
theorem walk_root_eq (h : Node.Alike source source' root root')
    (hparse : Node.parse? source = some root) (hparse' : Node.parse? source' = some root')
    (importPath : String) (summarize : String → String) :
    walk ⟨importPath, summarize, source, .ofSource source root⟩ false .initial root
      = walk ⟨importPath, summarize, source', .ofSource source' root'⟩ false .initial root' := by
  have htop := Node.mem_pairs_self root root'
  have hempty : root.children = [] ↔ root'.children = [] := by
    rw [← List.length_eq_zero_iff, ← List.length_eq_zero_iff, (h.children htop).length_eq]
  by_cases hne : root.children = []
  · -- the walk of a blank file meets nothing, whatever its index is
    obtain ⟨children, rfl, -⟩ := Node.parse?_covers hparse
    obtain ⟨children', rfl, -⟩ := Node.parse?_covers hparse'
    obtain rfl : children' = [] := hempty.mp hne
    obtain rfl : children = [] := hne
    rfl
  · rw [Node.ofSource_eq_ofTree hparse hne,
      Node.ofSource_eq_ofTree hparse' fun hnil => hne (hempty.mpr hnil)]
    exact walk_eq h hparse' importPath summarize root root' htop false .initial

end

end DocHarvest.Harvest
