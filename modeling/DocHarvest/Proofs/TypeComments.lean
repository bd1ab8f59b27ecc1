import DocHarvest.Proofs.Modes

/-!
# Whose comment a type is recorded with

A general declaration leaves its comment to the next exported type that has none of its own, and it
does so wherever it stands. The comment should reach the types of the declaration itself. It does
not, if an earlier spec of the same group has a general declaration inside it: the length of an
array may be the call of a function literal, whose body declares a variable. That declaration comes
between the group and its later specs, and the first of them without a comment gets the comment of
the variable.

This is the only way in which a type gets the comment of another declaration (`type_comment_iff`).
Between a declaration and one of its specs the walk sees the earlier specs and nothing else
(`Node.endsAtParent_of_sites`), so the last general declaration before the spec is its own parent or
is nested in one of these.
-/

namespace DocHarvest

open DocHarvest.Syntax DocHarvest.Harvest

namespace Place

/-- The text of the comment above a node of the file. -/
def lead (q : Place) (n : Node) : String :=
  (q.context "" id).leadText n

/-- The text that the walk hands on to be recorded for the type at a place. -/
def doc (q : Place) : String :=
  typeDoc (q.context "" id) q.before q.site

/-- The last general declaration in the earlier children of the parent. These children are walked
between the parent and the site, so their sites are the last ones that lie no higher than it. -/
def nested? (q : Place) : Option Site :=
  (q.before.reverse.takeWhile fun y => q.site.above.length ≤ y.above.length).find?
    (isGeneral ·.node)

/-- The earlier children of the parent are what is walked between the parent and the site. -/
theorem nested?_eq {q : Place} {a : Node} {rest earlier : List Node} {pre : List Site}
    (habove : q.site.above = a :: rest)
    (hbefore : q.before = pre ++ ⟨a, rest⟩ :: Node.sitesAll (a :: rest) earlier) :
    q.nested? = (Node.sitesAll (a :: rest) earlier).reverse.find? (isGeneral ·.node) := by
  have hdeep : ∀ y ∈ (Node.sitesAll (a :: rest) earlier).reverse,
      decide (q.site.above.length ≤ y.above.length) = true := by
    intro y hy
    rw [habove]
    have hsuffix := Node.above_suffix_of_mem_sitesAll _ earlier (List.mem_reverse.mp hy)
    exact decide_eq_true hsuffix.length_le
  have hhigh : decide (q.site.above.length ≤ rest.length) = false := by
    rw [habove, List.length_cons]
    exact decide_eq_false (by omega)
  rw [nested?, hbefore, List.reverse_append, List.reverse_cons, List.append_assoc,
    List.takeWhile_append_of_pos hdeep, List.singleton_append, List.takeWhile_cons_of_neg,
    List.append_nil]
  rw [hhigh]
  exact Bool.false_ne_true

variable {q : Place}

/-- A type spec stands in a type declaration, behind the earlier children of that. -/
theorem Reached.typeDeclaration (h : q.Reached) (hspec : isTypeSpec q.site.node = true) :
    ∃ decl rest pre earlier, q.site.above = decl :: rest ∧ decl.kind = .typeDeclaration ∧
      q.before = pre ++ ⟨decl, rest⟩ :: Node.sitesAll (decl :: rest) earlier := by
  obtain ⟨after, hsites⟩ := h.run
  rw [List.append_assoc, List.singleton_append] at hsites
  have hhost : q.site.node.kind.host? = some .typeDeclaration := by
    unfold isTypeSpec at hspec
    rw [Bool.or_eq_true, decide_eq_true_eq, decide_eq_true_eq] at hspec
    rcases hspec with hk | hk <;> rw [hk] <;> rfl
  rcases Node.endsAtParent_of_sites [] q.root hsites.symm with ⟨-, htop⟩ | hparent
  · -- the top of a file is no type spec
    obtain ⟨children, hroot, -⟩ := Node.parse?_covers h.parsed
    rw [htop, hroot] at hhost
    cases hhost
  · obtain ⟨decl, rest, pre, earlier, later, habove, hchildren, hbefore⟩ := hparent
    obtain ⟨hchild, hsite⟩ := Node.site_of_above_eq_cons h.site_mem habove
    have hfits := ((Node.children_of_parse? h.parsed (Node.mem_preorder_of_mem_sites hsite)).1
      q.site.node hchild).2
    exact ⟨decl, rest, pre, earlier, habove, (hfits.1 _ hhost).symm, hbefore⟩

/-- What the sites before a type spec leave to it, if they leave anything, is the comment of the
last general declaration nested in an earlier spec, or else of the declaration of the spec. -/
theorem Reached.leftDoc_eq (h : q.Reached) (hspec : isTypeSpec q.site.node = true) :
    ∃ decl, q.site.above.head? = some decl ∧ decl.kind = .typeDeclaration ∧
      (leftDoc (q.context "" id) q.before ≠ "" →
        leftDoc (q.context "" id) q.before = q.lead ((q.nested?.map Site.node).getD decl)) := by
  obtain ⟨decl, rest, pre, earlier, habove, hkind, hbefore⟩ := h.typeDeclaration hspec
  refine ⟨decl, by rw [habove]; rfl, hkind, ?_⟩
  have hgeneral : isGeneral decl = true := by simp [isGeneral, hkind]
  have hlast : q.before.reverse.find? (isGeneral ·.node)
      = some (q.nested?.getD ⟨decl, rest⟩) := by
    rw [nested?_eq habove hbefore, hbefore, List.reverse_append, List.reverse_cons,
      List.append_assoc, List.find?_append, List.singleton_append, List.find?_cons, hgeneral]
    cases (Node.sitesAll (decl :: rest) earlier).reverse.find? (isGeneral ·.node) <;> rfl
  intro hne
  unfold leftDoc at hne ⊢
  rw [hlast] at hne ⊢
  dsimp only at hne ⊢
  split at hne
  next => exact absurd rfl hne
  next htaken =>
    rw [if_neg htaken]
    cases q.nested? <;> rfl

/-- In a group the comment of the spec itself goes first. -/
theorem doc_of_comment (hgrouped : q.site.grouped = true) (hlead : q.lead q.site.node ≠ "") :
    q.doc = q.lead q.site.node := by
  have hown : ownDoc (q.context "" id) q.site = q.lead q.site.node := if_pos hgrouped
  rw [doc, typeDoc, hown, if_neg]
  rwa [String.isEmpty_iff]

/-- A spec without a comment of its own gets what the sites before it leave. -/
theorem doc_of_no_comment (h : ¬(q.site.grouped = true ∧ q.lead q.site.node ≠ "")) :
    q.doc = leftDoc (q.context "" id) q.before := by
  have hnone : ownDoc (q.context "" id) q.site = "" := by
    show (if q.site.grouped then q.lead q.site.node else "") = ""
    split
    next hgrouped => exact not_not.mp fun hne => h ⟨hgrouped, hne⟩
    next => rfl
  rw [doc, typeDoc, hnone]
  rfl

/-- What is written at a type spec is the entry of the type. -/
theorem mem_typeEntries_of_written {importPath : String} {summarize : String → String} {e : Entry}
    (hspec : isTypeSpec q.site.node = true) (he : e ∈ q.written importPath summarize) :
    e ∈ typeEntries (q.context importPath summarize) q.before q.site := by
  rw [written_eq_siteEntries, siteEntries, List.mem_append] at he
  refine he.resolve_right fun hfield => ?_
  unfold fieldEntries at hfield
  rw [isField_of_isTypeSpec hspec] at hfield
  split at hfield <;> cases hfield

end Place

/-- Nothing is recorded for a type without a comment. -/
theorem summarizer_empty {mode : Mode} {p : Package} {summarize : String → String}
    (h : summarizer mode p = .ok summarize) : summarize "" = "" := by
  cases mode with
  | full =>
    cases h
    rfl
  | synopsis =>
    obtain ⟨view, -, rfl⟩ := view_of_summarizer rfl h
    exact view.synopsis_eq_empty rfl

/-- **Which types are recorded with a comment of their own declaration.** In a loaded package the
entry of a type records the text of a comment, and that is the comment of the spec in a group, or of
the type declaration around the spec, exactly if the spec has a comment of its own or no general
declaration is nested in an earlier spec of the group; a nested one that has the same comment as the
group makes no difference. -/
theorem type_comment_iff {load : Load.Loader} (hload : Load.Parses load) {path : String}
    {p : Package} (hp : load path = .ok p) {mode : Mode} {summarize : String → String}
    (hsum : summarizer mode p = .ok summarize) {q : Place} (hq : q ∈ p.places)
    (hspec : isTypeSpec q.site.node = true) {e : Entry}
    (he : e ∈ q.written p.importPath summarize) :
    ∃ name decl, typeName? q.source q.site.node = some name ∧
      q.site.above.head? = some decl ∧ decl.kind = .typeDeclaration ∧
      e = (p.importPath ++ "." ++ name, summarize q.doc) ∧
      ((q.site.grouped = true ∧ q.doc = q.lead q.site.node ∨ q.doc = q.lead decl) ↔
        (q.site.grouped = true ∧ q.lead q.site.node ≠ "") ∨
          ∀ g ∈ q.nested?, q.lead g.node = q.lead decl) := by
  have hreached := ((hload hp).reached hq).1
  obtain ⟨decl, hdecl, hkind, hleft⟩ := hreached.leftDoc_eq hspec
  obtain ⟨name, hname, -, hrecorded, rfl⟩ := mem_typeEntries_iff.mp
    (Place.mem_typeEntries_of_written hspec he)
  refine ⟨name, decl, hname, hdecl, hkind, rfl, ?_⟩
  have hdoc : q.doc ≠ "" := by
    intro hempty
    refine hrecorded ?_
    show summarize q.doc = ""
    rw [hempty]
    exact summarizer_empty hsum
  by_cases hcomment : q.site.grouped = true ∧ q.lead q.site.node ≠ ""
  · have heq := Place.doc_of_comment hcomment.1 hcomment.2
    exact iff_of_true (Or.inl ⟨hcomment.1, heq⟩) (Or.inl hcomment)
  · have heq := Place.doc_of_no_comment hcomment
    rw [heq] at hdoc
    rw [heq, hleft hdoc, or_iff_right hcomment, or_iff_right]
    · cases q.nested? with
      | none => simp
      | some g => simp
    · -- the spec has no comment, and the text that is recorded is not empty
      rintro ⟨hgrouped, htext⟩
      refine hcomment ⟨hgrouped, ?_⟩
      rw [← htext, ← hleft hdoc]
      exact hdoc

/-- The comment of a variable, declared in the length of an array, is recorded for the next type of
the group. -/
theorem type_comment_of_variable :
    let source := "package p\n\ntype (\n\t// A is an array.\n\tA [func() int \x7b\n" ++
      "\t\t// v is local.\n\t\tvar v int\n\t\treturn v\n\t\x7d()]int\n\n\tB int\n)\n"
    let p := (Package.empty "example.com/p").addFile (.ofSource "p.go" source)
    ∃ q ∈ p.places, q.written p.importPath Text.trimmed = [("example.com/p.B", "v is local.")] ∧
      ∃ decl, q.site.above.head? = some decl ∧
        ¬(q.site.grouped = true ∧ q.doc = q.lead q.site.node ∨ q.doc = q.lead decl) := by
  intro source p
  have hplace : p.places.any (fun q => isTypeSpec q.site.node &&
      q.written p.importPath Text.trimmed = [("example.com/p.B", "v is local.")] &&
      q.lead q.site.node = "" &&
      q.nested?.any fun g => q.site.above.head?.any (q.lead g.node ≠ q.lead ·)) = true := by
    decide +kernel
  obtain ⟨q, hq, hcond⟩ := List.any_eq_true.mp hplace
  simp only [Bool.and_eq_true, decide_eq_true_eq] at hcond
  obtain ⟨⟨⟨hspec, hwritten⟩, hlead⟩, hnested⟩ := hcond
  have hload : Load.memory [⟨"example.com/p", "p.go", source⟩] "example.com/p" = .ok p := rfl
  have he : ("example.com/p.B", "v is local.") ∈ q.written p.importPath Text.trimmed := by
    rw [hwritten]
    exact List.mem_singleton_self _
  have hsum : summarizer .full p = .ok Text.trimmed := rfl
  obtain ⟨name, decl, -, hdecl, -, -, hiff⟩ :=
    type_comment_iff (Load.parses_memory _) hload hsum hq hspec he
  refine ⟨q, hq, hwritten, decl, hdecl, ?_⟩
  rw [hiff]
  rintro (⟨-, hne⟩ | hsame)
  · exact hne hlead
  · obtain ⟨g, hg, hdiffers⟩ := (Option.any_eq_true _ _).mp hnested
    rw [hdecl, Option.any_some, decide_eq_true_eq] at hdiffers
    exact hdiffers (hsame g hg)

end DocHarvest
