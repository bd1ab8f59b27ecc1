import DocHarvest.Harvest.Basic
import DocHarvest.Proofs.Counterparts
import DocHarvest.Proofs.Views

/-!
# Line ends

Files can be written with a line feed at the end of each line, or with a carriage return and a line
feed. Nothing that is asked of a file or of its package depends on which it is, as far as the parser
does not tell the two apart (`Node.IgnoresReturns`): whether there are syntax errors, and which tree
there is otherwise, up to carriage returns.

A file is asked for its package clause, for what it declares and imports, and for its entries. Only
the name of an import can change, and only if there is a line feed in it. No doc link can refer to
such a name, because links stand in one line, so synopses stay as they are too. Hence the entries
of a package and its faults do not change (`packageEntries_recoded`).
-/

namespace DocHarvest

open DocHarvest.Syntax DocHarvest.Text DocHarvest.Comment DocHarvest.Harvest

/-! ## What files declare and import -/

namespace Doc

section

variable {source source' : List Char} {root root' n n' : Node}
  (h : Node.Alike source source' root root') (hparse : Node.parse? source' = some root')
  (hn : Node.Twins root root' n n')
include h hn

/-- The children that play a part are at the same place, or there are none. -/
theorem childAs?_cases (role : Role) :
    (n.childAs? role = none ∧ n'.childAs? role = none) ∨
      ∃ c c', n.childAs? role = some c ∧ n'.childAs? role = some c' ∧
        Node.Twins root root' c c' ∧ c' ∈ n'.childrenAs role :=
  forall₂_find? (h.children hn) fun c c' hc => by rw [(h.twins hc).role]

include hparse

/-- The text of a node that plays a part is recoded, for it is no comment. -/
theorem recodes_of_childrenAs {role : Role} {c c' : Node} (hc : Node.Twins root root' c c')
    (hmem : c' ∈ n'.childrenAs role) : Recodes (c.span.text source) (c'.span.text source') := by
  obtain ⟨hchild, hrole⟩ := List.mem_filter.mp hmem
  have hne := Node.kind_ne_comment_of_parse? hparse (Node.mem_preorder_of_mem_pairs hn) hchild
    (by simp [of_decide_eq_true hrole])
  exact (h.twins hc).recodes fun hk => hne ((h.twins hc).kind.symm.trans hk)

theorem methodSymbol?_eq (hk : n.kind ≠ .importSpec) :
    methodSymbol? source n = methodSymbol? source' n' := by
  unfold methodSymbol?
  rcases childAs?_cases h hn .name with ⟨hnone, hnone'⟩ | ⟨name, name', hname, hname', htwins, hmem⟩
  · rw [hnone, hnone']
    rfl
  rcases childAs?_cases h hn .receiver with
    ⟨hnone, hnone'⟩ | ⟨receiver, receiver', hfound, hfound', htwins', hmem'⟩
  · rw [hname, hname', hnone, hnone']
    simp only [Option.bind_eq_bind, Option.bind_some, Option.bind_none]
  rw [hname, hname', hfound, hfound']
  simp only [Option.bind_eq_bind, Option.bind_some]
  rw [receiverBase_eq (recodes_of_childrenAs h hparse hn htwins' hmem'),
    h.name_eq hparse hn hk htwins hmem]

/-- The symbols that a node declares are the same. -/
theorem symbolsOf_eq : symbolsOf source n = symbolsOf source' n' := by
  have hnames := h.names_eq hparse hn
  have hmethod := methodSymbol?_eq h hparse hn
  have hspecs : (n.children.filter isSpec).flatMap (·.names source)
      = (n'.children.filter isSpec).flatMap (·.names source') := by
    have hchildren : List.Forall₂ (Node.Twins root root') (n.children.filter isSpec)
        (n'.children.filter isSpec) := by
      refine List.rel_filter (fun c c' hc => ?_) (h.children hn)
      show isSpec c = true ↔ isSpec c' = true
      rw [isSpec, isSpec, (h.twins hc).kind]
    have hspec : ∀ c ∈ n.children.filter isSpec, isSpec c = true := fun c hc =>
      (List.mem_filter.mp hc).2
    refine forall₂_flatMap ((List.forall₂_and_left _ _).mpr ⟨hspec, hchildren⟩) fun c c' hc => ?_
    refine h.names_eq hparse hc.2 fun hk => ?_
    have hfalse := hc.1
    rw [isSpec, hk] at hfalse
    cases hfalse
  unfold symbolsOf
  rw [hspecs, ← (h.twins hn).kind]
  split
  next hk => rw [hnames (by simp [hk])]
  next hk => rw [hmethod (by simp [hk])]
  all_goals rfl

/-- The name of an import is recoded. -/
theorem importName?_recodes :
    Option.Rel (fun s s' : String => Recodes s.toList s'.toList) (importName? source n)
      (importName? source' n') := by
  have hgiven : ∀ {s s' : String}, Recodes s.toList s'.toList →
      Option.Rel (fun s s' : String => Recodes s.toList s'.toList)
        (if s = "_" ∨ s = "." then none else some s)
        (if s' = "_" ∨ s' = "." then none else some s') := by
    intro s s' hs
    -- the two names that stand for none have no line feed
    have heq : ∀ t : String, '\n' ∉ t.toList → (s = t ↔ s' = t) := fun t ht => by
      rw [← String.toList_inj, ← String.toList_inj, hs.eq_iff ht]
    simp only [heq "_" (by decide), heq "." (by decide)]
    split
    next => exact .none
    next => exact .some hs
  unfold importName?
  rcases childAs?_cases h hn .path with ⟨hnone, hnone'⟩ | ⟨path, path', hpath, hpath', htwins, hmem⟩
  · rw [hnone, hnone']
    exact .none
  rw [hpath, hpath']
  refine hgiven ?_
  rcases childAs?_cases h hn .name with
    ⟨hnone, hnone'⟩ | ⟨name, name', hname, hname', htwins', hmem'⟩
  · rw [hnone, hnone']
    simpa only [String.toList_ofList]
      using recodes_lastElement (recodes_of_childrenAs h hparse hn htwins hmem)
  · rw [hname, hname']
    simpa only [Node.text, String.toList_ofList]
      using recodes_of_childrenAs h hparse hn htwins' hmem'

theorem importsOf_recodes :
    List.Forall₂ (fun s s' : String => Recodes s.toList s'.toList) (importsOf source n)
      (importsOf source' n') := by
  unfold importsOf
  rw [(h.twins hn).kind]
  split
  next =>
    refine List.rel_filterMap (fun m m' hm => importName?_recodes h hparse hm) ?_
    refine List.rel_filter (fun m m' hm => ?_) (h.preorder n n' hn)
    show decide (m.kind = .importSpec) = true ↔ decide (m'.kind = .importSpec) = true
    rw [(h.twins hm).kind]
  next => exact .nil

end

/-- Recoding keeps the names without line feeds. -/
theorem contains_eq_of_recodes {xs ys : List String}
    (h : List.Forall₂ (fun s s' : String => Recodes s.toList s'.toList) xs ys) {t : String}
    (ht : '\n' ∉ t.toList) : xs.contains t = ys.contains t := by
  rw [List.contains_eq_any_beq, List.contains_eq_any_beq]
  refine forall₂_any h fun s s' hs => ?_
  have heq : s = t ↔ s' = t := by rw [← String.toList_inj, ← String.toList_inj, hs.eq_iff ht]
  rw [Bool.eq_iff_iff, beq_iff_eq, beq_iff_eq, eq_comm, heq, eq_comm]

end Doc

/-! ## Files -/

/-- The text with a carriage return before each line feed. -/
def Text.recoded (s : String) : String :=
  String.ofList (withReturns s.toList)

theorem Text.recodes_recoded (s : String) : Recodes s.toList (recoded s).toList := by
  rw [recoded, String.toList_ofList]
  exact recodes_withReturns s.toList

/-- The parser does not tell the line ends of a text apart. -/
def Syntax.Node.IgnoresReturns (s : String) : Prop :=
  Node.ParseAlike s.toList (recoded s).toList

instance (s : String) : Decidable (Node.IgnoresReturns s) :=
  inferInstanceAs (Decidable (Node.ParseAlike _ _))

namespace SourceFile

/-- The file with a carriage return before each line feed. -/
def recoded (f : SourceFile) : SourceFile :=
  .ofSource f.path (Text.recoded f.source)

/-- A file has the tree that the parser finds, and the parser does not tell its line ends apart. -/
structure IgnoresReturns (f : SourceFile) : Prop where
  tree : f.tree = Node.parse? f.source.toList
  alike : Node.IgnoresReturns f.source

theorem path_recoded (f : SourceFile) : f.recoded.path = f.path := rfl

theorem source_recoded (f : SourceFile) : f.recoded.source = Text.recoded f.source := rfl

theorem tree_recoded (f : SourceFile) :
    f.recoded.tree = Node.parse? (Text.recoded f.source).toList := by
  simp only [recoded, ofSource]

variable {f : SourceFile} (h : f.IgnoresReturns)
include h

/-- Both versions of the file have syntax errors, or they have trees that correspond. -/
theorem tree_cases :
    (f.tree = none ∧ f.recoded.tree = none) ∨
      ∃ root root', f.tree = some root ∧ f.recoded.tree = some root' ∧
        Node.Alike f.source.toList f.recoded.source.toList root root' := by
  have hrel : Option.Rel (Node.Alike f.source.toList f.recoded.source.toList) f.tree
      f.recoded.tree := by
    rw [h.tree, tree_recoded, source_recoded]
    exact h.alike
  generalize f.tree = tree at hrel ⊢
  generalize f.recoded.tree = tree' at hrel ⊢
  cases hrel with
  | none => exact Or.inl ⟨rfl, rfl⟩
  | some halike => exact Or.inr ⟨_, _, rfl, rfl, halike⟩

/-- Both versions declare nothing, or what they declare corresponds. -/
theorem topLevel_cases :
    (f.topLevel = [] ∧ f.recoded.topLevel = []) ∨
      ∃ root root', Node.parse? f.recoded.source.toList = some root' ∧
        Node.Alike f.source.toList f.recoded.source.toList root root' ∧
        List.Forall₂ (Node.Twins root root') f.topLevel f.recoded.topLevel := by
  unfold topLevel
  rcases tree_cases h with ⟨htree, htree'⟩ | ⟨root, root', htree, htree', halike⟩
  · rw [htree, htree']
    exact Or.inl ⟨rfl, rfl⟩
  · rw [htree, htree']
    rw [tree_recoded, ← source_recoded] at htree'
    refine Or.inr ⟨root, root', htree', halike, ?_⟩
    exact halike.children (Node.mem_pairs_self root root')

theorem diagnostics_recoded : f.recoded.diagnostics = f.diagnostics := by
  unfold diagnostics
  rw [path_recoded]
  rcases tree_cases h with ⟨htree, htree'⟩ | ⟨root, root', htree, htree', -⟩
  · rw [htree, htree']
  · rw [htree, htree', Option.isSome_some, Option.isSome_some]

theorem packageName?_recoded : f.recoded.packageName? = f.packageName? := by
  unfold packageName?
  simp only [Option.bind_eq_bind]
  rcases topLevel_cases h with ⟨htop, htop'⟩ | ⟨root, root', hparse, halike, htop⟩
  · rw [htop, htop', List.find?_nil, Option.bind_none, Option.bind_none]
  have hkind : ∀ kind n n', Node.Twins root root' n n' →
      decide (n.kind = kind) = decide (n'.kind = kind) := fun kind n n' hn => by
    rw [(halike.twins hn).kind]
  rcases forall₂_find? htop (hkind .packageClause) with
    ⟨hnone, hnone'⟩ | ⟨clause, clause', hclause, hclause', hn, -⟩
  · rw [hnone, hnone', Option.bind_none, Option.bind_none]
  rw [hclause, hclause', Option.bind_some, Option.bind_some]
  rcases forall₂_find? (halike.children hn) (hkind .identifier) with
    ⟨hnone, hnone'⟩ | ⟨name, name', hname, hname', hc, hmem⟩
  · rw [hnone, hnone', Option.bind_none, Option.bind_none]
  rw [hname, hname', Option.bind_some, Option.bind_some]
  have hident := of_decide_eq_true (List.mem_filter.mp hmem).2
  obtain ⟨-, hpart⟩ := Node.text_of_identifier hparse (Node.mem_preorder_of_mem_pairs hc) hident
  rw [(halike.twins hc).text_eq_of_identifier hpart]

theorem symbols_recoded :
    f.recoded.topLevel.flatMap (Doc.symbolsOf f.recoded.source.toList)
      = f.topLevel.flatMap (Doc.symbolsOf f.source.toList) := by
  rcases topLevel_cases h with ⟨htop, htop'⟩ | ⟨root, root', hparse, halike, htop⟩
  · rw [htop, htop', List.flatMap_nil, List.flatMap_nil]
  · exact (forall₂_flatMap htop fun n n' hn => Doc.symbolsOf_eq halike hparse hn).symm

/-- An import keeps its name, unless there is a line feed in it. -/
theorem contains_imports_recoded {s : String} (hs : '\n' ∉ s.toList) :
    (f.recoded.topLevel.flatMap (Doc.importsOf f.recoded.source.toList)).contains s
      = (f.topLevel.flatMap (Doc.importsOf f.source.toList)).contains s := by
  rcases topLevel_cases h with ⟨htop, htop'⟩ | ⟨root, root', hparse, halike, htop⟩
  · rw [htop, htop', List.flatMap_nil, List.flatMap_nil]
  · refine (Doc.contains_eq_of_recodes (List.rel_flatMap htop fun n n' hn => ?_) hs).symm
    exact Doc.importsOf_recodes halike hparse hn

/-- **A file has the same entries in both versions.** -/
theorem fileEntries_recoded (importPath : String) (summarize : String → String) :
    fileEntries importPath summarize f.recoded = fileEntries importPath summarize f := by
  unfold fileEntries
  rcases tree_cases h with ⟨htree, htree'⟩ | ⟨root, root', htree, htree', halike⟩
  · rw [htree, htree']
  · rw [htree, htree']
    rw [tree_recoded, ← source_recoded] at htree'
    dsimp only
    rw [walk_root_eq halike (h.tree ▸ htree) htree' importPath summarize]

end SourceFile

/-! ## Packages -/

namespace Package

/-- The package with its files recoded. -/
def recoded (p : Package) : Package :=
  { p with files := p.files.map SourceFile.recoded }

/-- The parser does not tell the line ends of the files apart. -/
def IgnoresReturns (p : Package) : Prop :=
  ∀ f ∈ p.files, f.IgnoresReturns

/-- A recoded file is added to a package as the file itself is. -/
theorem addFile_recoded (p : Package) {f : SourceFile} (hf : f.IgnoresReturns) :
    p.recoded.addFile f.recoded = (p.addFile f).recoded := by
  unfold addFile recoded
  dsimp only
  rw [SourceFile.packageName?_recoded hf, SourceFile.diagnostics_recoded hf, List.map_append,
    List.map_singleton]

theorem IgnoresReturns.addFile {p : Package} (h : p.IgnoresReturns) {f : SourceFile}
    (hf : f.IgnoresReturns) : (p.addFile f).IgnoresReturns := by
  intro g hg
  rcases List.mem_append.mp hg with hg | hg
  · exact h g hg
  · rw [List.mem_singleton.mp hg]
    exact hf

end Package

namespace Doc.View

variable {v w : View}

theorem AlikeInLine.addFile (h : AlikeInLine v w) {f : SourceFile} (hf : f.IgnoresReturns) :
    AlikeInLine (v.addFile f.recoded) (w.addFile f) where
  name := h.name
  symbols s := by
    unfold View.addFile
    dsimp only
    rw [SourceFile.symbols_recoded hf, List.contains_append, List.contains_append, h.symbols]
  imports s hs := by
    unfold View.addFile
    dsimp only
    rw [List.contains_append, List.contains_append, SourceFile.contains_imports_recoded hf hs,
      h.imports s hs]

/-- Recoded files disagree about the name of the package as the files do, or else their view answers
as that of the files. -/
theorem addFiles_recoded {fs : List SourceFile} (hfs : ∀ f ∈ fs, f.IgnoresReturns)
    (h : AlikeInLine v w) :
    (∃ m, v.addFiles (fs.map SourceFile.recoded) = .error m ∧ w.addFiles fs = .error m) ∨
      ∃ v' w', v.addFiles (fs.map SourceFile.recoded) = .ok v' ∧ w.addFiles fs = .ok w' ∧
        AlikeInLine v' w' := by
  -- along the files, with both views at once: they branch on the name and on the clause alone
  induction fs generalizing v w with
  | nil => exact Or.inr ⟨v, w, rfl, rfl, h⟩
  | cons f fs ih =>
    obtain ⟨hf, hfs⟩ := List.forall_mem_cons.mp hfs
    rw [List.map_cons, addFiles, addFiles, SourceFile.packageName?_recoded hf, f.path_recoded,
      h.name]
    split
    next => exact ih hfs h
    next name _ =>
      split
      next => exact ih hfs h
      next =>
        split
        next =>
          have hnamed : AlikeInLine { v with name := name } { w with name := name } :=
            ⟨rfl, h.symbols, h.imports⟩
          exact ih hfs (hnamed.addFile hf)
        next =>
          split
          next => exact Or.inl ⟨_, rfl, rfl⟩
          next => exact ih hfs (h.addFile hf)

end Doc.View

namespace Harvest

variable {p : Package} (hp : p.IgnoresReturns) (mode : Mode)
include hp

theorem summarizer_recoded : summarizer mode p.recoded = summarizer mode p := by
  cases mode with
  | full => rfl
  | synopsis =>
    have hview := Doc.View.addFiles_recoded hp (v := .empty p.name p.importPath)
      ⟨rfl, fun _ => rfl, fun _ _ => rfl⟩
    unfold summarizer Doc.View.ofPackage Package.recoded
    dsimp only
    rcases hview with ⟨m, hm, hm'⟩ | ⟨v, w, hv, hw, halike⟩
    · rw [hm, hm']
    · rw [hv, hw]
      exact congrArg Except.ok (funext (Doc.View.synopsis_congr_inLine halike))

/-- **A package has the same entries, or the same faults, once its files are recoded.** -/
theorem packageEntries_recoded : packageEntries mode p.recoded = packageEntries mode p := by
  have hfiles : ∀ importPath summarize,
      p.recoded.files.flatMap (fileEntries importPath summarize)
        = p.files.flatMap (fileEntries importPath summarize) := by
    intro importPath summarize
    rw [Package.recoded, List.flatMap_map]
    exact List.flatMap_congr fun f hf => SourceFile.fileEntries_recoded (hp f hf) _ _
  have hfault : p.recoded.fault? = p.fault? := rfl
  unfold packageEntries
  rw [hfault, summarizer_recoded hp]
  simp only [hfiles]
  rfl

end Harvest

end DocHarvest
