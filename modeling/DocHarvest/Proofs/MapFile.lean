import DocHarvest.Proofs.Declared
import DocHarvest.Proofs.Generated
import DocHarvest.Proofs.Parsed

/-!
# What the generated file declares

A generated file may be loaded again as a file of a package. Its tree is a package clause and the
declaration of one variable (`parse?_render`), so it names the package that it was rendered for,
makes `CommentMap` a symbol of it, imports nothing, and has no entries (`declares_render`).
-/

namespace DocHarvest.Syntax

/-! ## Forests of leaves -/

namespace Forest

/-- No type spec is in a forest. -/
def NoTypes (ns : Forest) : Prop :=
  ∀ n ∈ Node.preorderAll ns, Harvest.isTypeSpec n = false

theorem NoTypes.append {ms ns : Forest} (hms : NoTypes ms) (hns : NoTypes ns) :
    NoTypes (ms ++ ns) := by
  intro n hn
  rw [Node.preorderAll_eq_flatMap, List.flatMap_append, ← Node.preorderAll_eq_flatMap,
    ← Node.preorderAll_eq_flatMap] at hn
  rcases List.mem_append.mp hn with hn | hn
  · exact hms n hn
  · exact hns n hn

/-- A node of another kind brings no type spec but those below it. -/
theorem noTypes_mk {kind : Kind} (role : Option Role) (span : Span) {children : Forest}
    (hkind : kind ≠ .typeSpec ∧ kind ≠ .typeAlias) (h : NoTypes children) :
    NoTypes [.mk kind role span children] := by
  intro n hn
  rw [Node.preorderAll, Node.preorderAll, List.append_nil, Node.preorder] at hn
  rcases List.mem_cons.mp hn with rfl | hn
  · simp [Harvest.isTypeSpec, Node.kind, hkind]
  · exact h n hn

theorem noTypes_leaf (l : Lexeme) (role : Option Role) : NoTypes [l.leaf role] := by
  refine noTypes_mk role l.span ?_ fun n hn => ?_
  · rcases l.leafKind_cases with ⟨-, h⟩ | ⟨-, h⟩ | h | h | ⟨h, -⟩ | h <;> simp [h]
  · rw [Node.preorderAll] at hn
    cases hn

theorem Bare.noTypes {ns : Forest} (h : Bare ns) : NoTypes ns := by
  intro n hn
  obtain ⟨c, hc, hnc⟩ := Node.mem_preorderAll.mp hn
  obtain ⟨l, rfl⟩ := h c hc
  refine noTypes_leaf l none n ?_
  rwa [Node.preorderAll, Node.preorderAll, List.append_nil]

theorem OneToken.noTypes {source : List Char} {role : Option Role} {t : Lexeme} {ns : Forest}
    (h : OneToken source role t ns) : NoTypes ns := by
  obtain ⟨skipped, l, rfl, hskipped, -⟩ := h
  exact hskipped.bare.noTypes.append (noTypes_leaf l role)

theorem OneNode.noTypes {kind : Kind} {Q : Forest → Prop} {ns : Forest} (h : OneNode kind Q ns)
    (hkind : kind ≠ .typeSpec ∧ kind ≠ .typeAlias) (hQ : ∀ cs, Q cs → NoTypes cs) :
    NoTypes ns := by
  obtain ⟨skipped, span, children, rfl, hskipped, hchildren⟩ := h
  exact hskipped.bare.noTypes.append (noTypes_mk none span hkind (hQ children hchildren))

/-- Comments are not found by another kind. -/
theorem Comments.find?_eq_none {ns : Forest} (h : Comments ns) {kind : Kind}
    (hkind : kind ≠ .comment) : ns.find? (·.kind = kind) = none := by
  rw [List.find?_eq_none]
  intro n hn
  obtain ⟨l, hl, rfl⟩ := h n hn
  rw [decide_eq_true_eq, show (l.leaf none).kind = l.leafKind from rfl, Lexeme.leafKind, hl]
  exact fun heq => hkind heq.symm

/-- Leaves without a part bind no names. -/
theorem Bare.names_eq_nil {ns : Forest} (h : Bare ns) (source : List Char) :
    (ns.filter fun n => n.role = some .name).map (·.text source) = [] := by
  rw [List.map_eq_nil_iff, List.filter_eq_nil_iff]
  intro n hn
  obtain ⟨l, rfl⟩ := h n hn
  simp [Lexeme.leaf, Node.role]

/-- A token that binds a name binds its own text. -/
theorem OneToken.names_eq {source : List Char} {t : Lexeme} {ns : Forest}
    (h : OneToken source (some .name) t ns) :
    (ns.filter fun n => n.role = some .name).map (·.text source) = [String.ofList t.text] := by
  obtain ⟨skipped, l, rfl, hskipped, hplaced, rfl⟩ := h
  rw [List.filter_append, List.map_append, hskipped.bare.names_eq_nil]
  have htext : (l.leaf (some .name)).text source = String.ofList l.text :=
    congrArg String.ofList hplaced.text
  simpa [Lexeme.leaf, Node.role, Lexeme.form] using htext

/-- Leaves are no specs. -/
theorem Bare.filter_isSpec {ns : Forest} (h : Bare ns) : ns.filter Doc.isSpec = [] := by
  rw [List.filter_eq_nil_iff]
  intro n hn
  obtain ⟨l, rfl⟩ := h n hn
  rw [Doc.isSpec, show (l.leaf none).kind = l.leafKind from rfl]
  rcases l.leafKind_cases with ⟨-, h⟩ | ⟨-, h⟩ | h | h | ⟨h, -⟩ | h <;> simp [h]

/-- Leaves declare nothing. -/
theorem Bare.flatMap_symbolsOf {ns : Forest} (h : Bare ns) (source : List Char) :
    ns.flatMap (Doc.symbolsOf source) = [] := by
  rw [List.flatMap_eq_nil_iff]
  intro n hn
  obtain ⟨l, rfl⟩ := h n hn
  rw [Doc.symbolsOf, show (l.leaf none).kind = l.leafKind from rfl]
  rcases l.leafKind_cases with ⟨-, h⟩ | ⟨-, h⟩ | h | h | ⟨h, -⟩ | h <;> rw [h]

end Forest

end DocHarvest.Syntax

namespace DocHarvest.Harvest

open DocHarvest.Syntax

/-- A file without type specs has no entries, for there is no type under which a field could be
recorded. -/
theorem fileEntries_eq_nil {f : SourceFile}
    (h : ∀ root ∈ f.tree, ∀ n ∈ root.preorder, isTypeSpec n = false) (importPath : String)
    (summarize : String → String) : fileEntries importPath summarize f = [] := by
  rw [fileEntries_eq_declaredEntries, declaredEntries]
  cases htree : f.tree with
  | none => rfl
  | some root =>
    have hname : ∀ x ∈ root.sites [], typeName? f.source.toList x.node = none := fun x hx =>
      typeName?_of_not_isTypeSpec _ (h root htree x.node (Node.mem_preorder_of_mem_sites hx))
    refine List.flatten_eq_nil_iff.mpr fun es hes => ?_
    obtain ⟨i, hi, rfl⟩ := List.exists_of_mem_mapIdx hes
    have howner : owner? f.source.toList ((root.sites []).take i) = none := by
      rw [owner?, List.findSome?_eq_none_iff.mpr]
      · rfl
      · exact fun x hx => hname x (List.mem_of_mem_take (List.mem_reverse.mp hx))
    rw [siteEntries, typeEntries, hname _ (List.getElem_mem hi), fieldEntries, howner]
    rfl

end DocHarvest.Harvest

namespace DocHarvest.Output

open DocHarvest.Syntax

/-! ## The tree of the generated file -/

variable {source : List Char} {package : String} {children : Forest}

theorem IsMapFile.noTypes (h : IsMapFile source package children) : Forest.NoTypes children := by
  obtain ⟨clause, rest, rfl, hclause, declaration, comments, rfl, hdecl, hcomments⟩ := h
  refine (hclause.noTypes (by decide) ?_).append
    ((hdecl.noTypes (by decide) ?_).append hcomments.bare.noTypes)
  · rintro cs ⟨word, name, rfl, hword, hname⟩
    exact hword.noTypes.append hname.noTypes
  · rintro cs ⟨word, spec, rfl, hword, hspec⟩
    refine hword.noTypes.append (hspec.noTypes (by decide) ?_)
    rintro cs ⟨bound, values, rfl, hbound, hvalues⟩
    exact hbound.noTypes.append hvalues.noTypes

/-- The first package clause of the file has the name of the package. -/
theorem IsMapFile.packageName (h : IsMapFile source package children) :
    ∃ clause name, children.find? (·.kind = .packageClause) = some clause ∧
      clause.children.find? (·.kind = .identifier) = some name ∧ name.text source = package := by
  obtain ⟨_, rest, rfl, ⟨skipped, span, cs, rfl, hskipped, hclause⟩, -⟩ := h
  obtain ⟨_, _, rfl, ⟨before, word, rfl, hbefore, -, hword⟩, hname⟩ := hclause
  obtain ⟨between, name, rfl, hbetween, hplaced, hform⟩ := hname
  have hwordKind : (word.leaf none).kind = .symbol := by
    rw [show (word.leaf none).kind = word.form.leafKind from rfl, hword]
    rfl
  have hnameKind : (name.leaf none).kind = .identifier := by
    rw [show (name.leaf none).kind = name.form.leafKind from rfl, hform]
    rfl
  refine ⟨.mk .packageClause none span
    (before ++ [word.leaf none] ++ (between ++ [name.leaf none])), name.leaf none, ?_, ?_, ?_⟩
  · rw [List.append_assoc, List.find?_append, hskipped.find?_eq_none (by decide)]
    rfl
  · rw [Node.children, List.append_assoc, List.find?_append, hbefore.find?_eq_none (by decide),
      List.singleton_append, List.find?_cons, hwordKind, List.find?_append,
      hbetween.find?_eq_none (by decide), List.find?_singleton, hnameKind]
    rfl
  · have htext : name.text = package.toList := congrArg Lexeme.text hform
    rw [Node.text, show (name.leaf none).span = name.span from rfl, hplaced.text, htext,
      String.ofList_toList]

theorem IsMapFile.symbols (h : IsMapFile source package children) :
    children.flatMap (Doc.symbolsOf source) = ["CommentMap"] := by
  obtain ⟨_, _, rfl, ⟨skipped, span, cs, rfl, hskipped, -⟩, _, comments, rfl, hdecl, hcomments⟩ := h
  obtain ⟨skipped', span', _, rfl, hskipped', word, _, rfl, hword, hspec⟩ := hdecl
  obtain ⟨skipped'', span'', _, rfl, hskipped'', bound, values, rfl, hbound, hvalues⟩ := hspec
  have hclause : Doc.symbolsOf source (.mk .packageClause none span cs) = [] := rfl
  have hnames : (Node.mk .varSpec none span'' (bound ++ values)).names source = ["CommentMap"] := by
    rw [Node.names, Node.childrenAs, Node.children, List.filter_append, List.map_append,
      hbound.names_eq, hvalues.names_eq_nil]
    rfl
  have hdeclaration : Doc.symbolsOf source (.mk .varDeclaration none span'
      (word ++ (skipped'' ++ [.mk .varSpec none span'' (bound ++ values)]))) = ["CommentMap"] := by
    have hspecs : (word ++ (skipped'' ++ [Node.mk .varSpec none span'' (bound ++ values)])).filter
        Doc.isSpec = [.mk .varSpec none span'' (bound ++ values)] := by
      rw [List.filter_append, List.filter_append, hword.filter_isSpec,
        hskipped''.bare.filter_isSpec]
      rfl
    show List.filter isExported (List.flatMap (·.names source) (List.filter Doc.isSpec _)) = _
    rw [Node.children, hspecs, List.flatMap_singleton, hnames]
    decide
  rw [List.flatMap_append, List.flatMap_append, List.flatMap_append, List.flatMap_append,
    hskipped.bare.flatMap_symbolsOf, hskipped'.bare.flatMap_symbolsOf,
    hcomments.bare.flatMap_symbolsOf, List.flatMap_singleton, List.flatMap_singleton, hclause,
    hdeclaration]
  rfl

theorem IsMapFile.imports (h : IsMapFile source package children) :
    children.flatMap (Doc.importsOf source) = [] := by
  obtain ⟨_, _, rfl, ⟨skipped, span, cs, rfl, hskipped, -⟩, _, comments, rfl,
    ⟨skipped', span', cs', rfl, hskipped', -⟩, hcomments⟩ := h
  have hleaves : ∀ {ns : Forest}, Forest.Comments ns →
      ∀ n ∈ ns, Doc.importsOf source n = [] := by
    intro ns hns n hn
    obtain ⟨l, hl, rfl⟩ := hns n hn
    rw [Doc.importsOf, show (l.leaf none).kind = l.leafKind from rfl, Lexeme.leafKind, hl]
    rfl
  refine List.flatMap_eq_nil_iff.mpr fun n hn => ?_
  simp only [List.mem_append, List.mem_singleton] at hn
  rcases hn with (hn | rfl) | (hn | rfl) | hn
  · exact hleaves hskipped n hn
  · rfl
  · exact hleaves hskipped' n hn
  · rfl
  · exact hleaves hcomments n hn

end DocHarvest.Output

namespace DocHarvest

open DocHarvest.Syntax DocHarvest.Output

/-! ## The generated file as a file of a package -/

/-- A file that gives its package a name and symbols, and nothing else. -/
structure SourceFile.DeclaresOnly (f : SourceFile) (package : String) (symbols : List String) :
    Prop where
  parsed : f.tree.isSome = true
  name : f.packageName? = some package
  symbols : f.topLevel.flatMap (Doc.symbolsOf f.source.toList) = symbols
  imports : f.topLevel.flatMap (Doc.importsOf f.source.toList) = []
  entries : ∀ importPath summarize, Harvest.fileEntries importPath summarize f = []

/-- **What the generated file declares**: the package that it was rendered for and the comment map,
whatever is in the map. -/
theorem declares_render (path : String) {package : String}
    (hpackage : isPackageName package = true) (m : CommentMap)
    (mpl2 : Bool) :
    (SourceFile.ofSource path (render package m mpl2)).DeclaresOnly package ["CommentMap"] := by
  obtain ⟨children, hparse, hfile⟩ := parse?_render hpackage m mpl2
  have htree : (SourceFile.ofSource path (render package m mpl2)).tree = some (.mk .sourceFile none
      (Span.whole (render package m mpl2).toList) children) := hparse
  have htop : (SourceFile.ofSource path (render package m mpl2)).topLevel = children := by
    rw [SourceFile.topLevel, htree]
    rfl
  refine ⟨by rw [htree]; rfl, ?_, by rw [htop]; exact hfile.symbols,
    by rw [htop]; exact hfile.imports, ?_⟩
  · obtain ⟨clause, name, hclause, hname, htext⟩ := hfile.packageName
    rw [SourceFile.packageName?, htop, hclause]
    show (clause.children.find? _).bind _ = _
    rw [hname]
    exact congrArg some htext
  · refine Harvest.fileEntries_eq_nil fun root hroot n hn => ?_
    rw [htree] at hroot
    cases hroot
    rw [Node.preorder] at hn
    rcases List.mem_cons.mp hn with rfl | hn
    · rfl
    · exact hfile.noTypes n hn

end DocHarvest
