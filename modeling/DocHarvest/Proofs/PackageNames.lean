import DocHarvest.Proofs.Batches
import DocHarvest.Proofs.Parsed
import DocHarvest.Proofs.Rereading
import DocHarvest.Proofs.Views

/-!
# The name of a package

The files of a package have to agree about its name, and the files of a test are not to be asked.
But the name is chosen in one place and judged in another. A loader takes it from the first file
that has a package clause, whatever that clause says; the view then holds it against the files that
are not of a test (`View.exists_ofPackage_iff`). So a package is refused where two such files
disagree (`Disagree`), and it is refused as well where the first of its files is of a test and
another is not (`TestFirst`), although there is no disagreement then. These are all the reasons
(`refused_by_name_iff`). The first does not depend on the order of the files; the second does.
-/

namespace DocHarvest

open DocHarvest.Syntax DocHarvest.Text DocHarvest.Load DocHarvest.Harvest

/-! ## Declared names -/

/-- Whether a name is that of the package of a test. -/
def isTestName (name : String) : Bool :=
  endsWith "_test".toList name.toList

/-- Two names differ, and neither of them is that of a test. -/
def Disagree (names : List String) : Prop :=
  ∃ a ∈ names, ∃ b ∈ names, isTestName a = false ∧ isTestName b = false ∧ a ≠ b

/-- The first name is that of a test, and another is not. -/
def TestFirst (names : List String) : Prop :=
  names.head?.any isTestName = true ∧ ∃ a ∈ names, isTestName a = false

instance (names : List String) : Decidable (Disagree names) :=
  inferInstanceAs (Decidable (∃ a ∈ names, ∃ b ∈ names, _))

instance (names : List String) : Decidable (TestFirst names) :=
  inferInstanceAs (Decidable (_ ∧ ∃ a ∈ names, _))

/-- Whatever is not the name of a test is the first name, unless one of the two things is wrong. -/
theorem forall_eq_first_iff (first : String) (rest : List String) :
    (∀ a ∈ first :: rest, isTestName a = false → a = first) ↔
      ¬(Disagree (first :: rest) ∨ TestFirst (first :: rest)) := by
  constructor
  · intro hall hwrong
    rcases hwrong with ⟨a, ha, b, hb, htestA, htestB, hne⟩ | ⟨hfirst, a, ha, htestA⟩
    · exact hne ((hall a ha htestA).trans (hall b hb htestB).symm)
    · have htest : isTestName first = true := hfirst
      rw [hall a ha htestA, htest] at htestA
      cases htestA
  · intro hright a ha htest
    by_contra hne
    apply hright
    -- what is not the first name disagrees with it, if the first name is to be asked at all
    cases hfirst : isTestName first with
    | true => exact Or.inr ⟨hfirst, a, ha, htest⟩
    | false => exact Or.inl ⟨a, ha, first, List.mem_cons_self, htest, hfirst, hne⟩

/-- The name in the package clause of a parsed file is not empty. -/
theorem SourceFile.isEmpty_of_packageName? {f : SourceFile}
    (hf : f.tree = Node.parse? f.source.toList) {name : String} (h : f.packageName? = some name) :
    name.isEmpty = false := by
  unfold packageName? topLevel at h
  obtain ⟨clause, hclause, h⟩ := Option.bind_eq_some_iff.mp h
  obtain ⟨n, hn, h⟩ := Option.bind_eq_some_iff.mp h
  obtain rfl : n.text f.source.toList = name := Option.some.inj h
  cases htree : f.tree with
  | none =>
    rw [htree] at hclause
    cases hclause
  | some root =>
    rw [htree] at hclause hf
    have hmem : clause ∈ root.preorder :=
      Node.mem_preorder_of_mem_children root.mem_preorder_self (List.mem_of_find?_eq_some hclause)
    have htext := (Node.text_of_identifier hf.symm
      (Node.mem_preorder_of_mem_children hmem (List.mem_of_find?_eq_some hn))
      (by simpa using List.find?_some hn)).1
    rw [← Bool.not_eq_true, String.isEmpty_iff, Node.text, String.ofList_eq_empty_iff]
    exact htext

/-- A file with a package clause has no syntax errors. -/
theorem SourceFile.diagnostics_of_packageName? {f : SourceFile} {name : String}
    (h : f.packageName? = some name) : f.diagnostics = [] := by
  unfold diagnostics
  cases htree : f.tree with
  | none =>
    rw [packageName?, topLevel, htree] at h
    cases h
  | some root => rfl

/-! ## The view of a package -/

/-- A package has a view if the files that count have its name. -/
theorem Doc.View.exists_ofPackage_iff {p : Package} (hname : p.name.isEmpty = false) :
    (∃ view, ofPackage p = .ok view) ↔
      ∀ f ∈ p.files, counts f = true → f.packageName? = some p.name := by
  unfold ofPackage
  constructor
  · intro h
    obtain ⟨view, hview⟩ := h
    exact ((addFiles_eq_ok_iff hname).mp hview).1
  · intro h
    exact ⟨_, (addFiles_eq_ok_iff hname).mpr ⟨h, rfl⟩⟩

/-- Without faults there is nothing but the view that can go wrong. -/
theorem harvest_synopsis {load : Loader} {path : String} {p : Package}
    (hpath : validatePath path = .ok ()) (hload : load path = .ok p) (hfault : p.fault? = none)
    (m : CommentMap) :
    ((∃ m', harvest load .synopsis m path = .ok m') ↔ ∃ view, Doc.View.ofPackage p = .ok view) ∧
      ((∃ names, harvest load .synopsis m path = .error (.mismatch names)) ↔
        ¬∃ view, Doc.View.ofPackage p = .ok view) := by
  rw [harvest_eq]
  cases hview : Doc.View.ofPackage p with
  | ok view =>
    have hentries : pathEntries load .synopsis path
        = .ok (p.files.flatMap (fileEntries p.importPath view.synopsis)) := by
      simp [pathEntries, packageEntries, summarizer, hpath, hload, hfault, hview, bind,
        Except.bind, pure, Except.pure]
    simp [hentries, Except.map]
  | error names =>
    have hentries : pathEntries load .synopsis path = .error (.mismatch names) :=
      pathEntries_eq_error_iff.mpr (.mismatch hpath hload hfault rfl hview)
    simp [hentries, Except.map]

/-! ## Packages in memory -/

/-- The source file that a file in memory is. -/
def Load.MemoryFile.parsed (f : MemoryFile) : SourceFile :=
  .ofSource f.path f.source

/-- The files of the package at a path, of which there is one at least, declare these names one
after the other. So each of them has a package clause. -/
structure Load.Declare (files : List MemoryFile) (path : String) (names : List String) : Prop where
  nonempty : names ≠ []
  clauses : (files.filter (·.importPath = path)).map (·.parsed.packageName?) = names.map some

section

variable {files : List MemoryFile} {path first : String} {rest : List String}

/-- The package is named by its first file, and nothing is wrong with it. -/
theorem Load.Declare.package (h : Declare files path (first :: rest)) :
    ∃ p, memory files path = .ok p ∧ p.name = first ∧ first.isEmpty = false ∧ p.fault? = none ∧
      p.files.map SourceFile.packageName? = (first :: rest).map some := by
  have hclauses := h.clauses
  unfold memory
  cases hfound : files.filter (·.importPath = path) with
  | nil =>
    rw [hfound] at hclauses
    cases hclauses
  | cons f fs =>
    rw [hfound] at hclauses
    have hfirst : f.parsed.packageName? = some first := (List.cons.inj hclauses).1
    have hempty : first.isEmpty = false := SourceFile.isEmpty_of_packageName? rfl hfirst
    have hnamed : ((Package.empty path).addFile f.parsed).name = first := by
      show f.parsed.packageName?.getD "" = first
      rw [hfirst, Option.getD_some]
    -- a file with a clause has no syntax errors, and nothing else can be wrong with it
    have hdiagnostics : ∀ g ∈ (f :: fs).map MemoryFile.parsed, g.diagnostics = [] := by
      intro parsed hparsed
      obtain ⟨g, hg, rfl⟩ := List.mem_map.mp hparsed
      have hclause : g.parsed.packageName? ∈ (first :: rest).map some := by
        rw [← hclauses]
        exact List.mem_map_of_mem hg
      obtain ⟨name, -, hname⟩ := List.mem_map.mp hclause
      exact SourceFile.diagnostics_of_packageName? hname.symm
    refine ⟨((f :: fs).map MemoryFile.parsed).foldl Package.addFile (.empty path), ?_, ?_, hempty,
      ?_, ?_⟩
    · rw [List.foldl_map]
      rfl
    · rw [List.map_cons, List.foldl_cons, name_foldl_addFile _ (by rw [hnamed]; exact hempty),
        hnamed]
    · obtain ⟨name, hfold⟩ := foldl_addFile (.empty path) ((f :: fs).map MemoryFile.parsed)
      rw [fault?_eq_none_iff, hfold]
      exact ⟨List.flatMap_eq_nil_iff.mpr hdiagnostics, rfl⟩
    · obtain ⟨name, hfold⟩ := foldl_addFile (.empty path) ((f :: fs).map MemoryFile.parsed)
      rw [hfold]
      show ((f :: fs).map MemoryFile.parsed).map SourceFile.packageName? = _
      rw [List.map_map]
      exact hclauses

end

/-- The files that count have the name of the package, said of the names alone. -/
theorem forall_counts_iff {fs : List SourceFile} {names : List String}
    (h : fs.map SourceFile.packageName? = names.map some) (name : String) :
    (∀ f ∈ fs, Doc.View.counts f = true → f.packageName? = some name) ↔
      ∀ a ∈ names, isTestName a = false → a = name := by
  constructor
  · intro hall a ha htest
    have hmem : some a ∈ fs.map SourceFile.packageName? := h ▸ List.mem_map_of_mem ha
    obtain ⟨f, hf, hclause⟩ := List.mem_map.mp hmem
    have hcounts : Doc.View.counts f = true := by
      rw [Doc.View.counts, hclause, Option.any_some]
      exact congrArg not htest
    exact Option.some.inj (hclause.symm.trans (hall f hf hcounts))
  · intro hall f hf hcounts
    have hmem : f.packageName? ∈ names.map some := h ▸ List.mem_map_of_mem hf
    obtain ⟨a, ha, hclause⟩ := List.mem_map.mp hmem
    rw [Doc.View.counts, ← hclause, Option.any_some] at hcounts
    have htest : isTestName a = false := by simpa [isTestName] using hcounts
    rw [← hclause, hall a ha htest]

/-- **When a package is refused for its name.** A package in memory whose files all have a package
clause is refused exactly if two of its files that are not of a test disagree, or if the first file
is of a test and another is not; and otherwise it is harvested. -/
theorem refused_by_name_iff {files : List MemoryFile} {path : String} {names : List String}
    (hpath : validatePath path = .ok ()) (h : Declare files path names) (m : CommentMap) :
    ((∃ found, harvest (memory files) .synopsis m path = .error (.mismatch found)) ↔
        Disagree names ∨ TestFirst names) ∧
      ((∃ m', harvest (memory files) .synopsis m path = .ok m') ↔
        ¬(Disagree names ∨ TestFirst names)) := by
  obtain ⟨first, rest, rfl⟩ := List.exists_cons_of_ne_nil h.nonempty
  obtain ⟨p, hload, hname, hempty, hfault, hclauses⟩ := h.package
  have hview : (∃ view, Doc.View.ofPackage p = .ok view) ↔
      ¬(Disagree (first :: rest) ∨ TestFirst (first :: rest)) := by
    rw [Doc.View.exists_ofPackage_iff (by rw [hname]; exact hempty), hname,
      forall_counts_iff hclauses, forall_eq_first_iff]
  obtain ⟨hok, hmismatch⟩ := harvest_synopsis hpath hload hfault m
  exact ⟨hmismatch.trans ((not_congr hview).trans not_not), hok.trans hview⟩

/-- A test in front of the only other file. -/
theorem refused_by_name_of_test_first :
    let files : List MemoryFile := [⟨"example.com/p", "p_test.go", "package p_test\n"⟩,
      ⟨"example.com/p", "p.go", "package p\n"⟩]
    validatePath "example.com/p" = .ok () ∧ Declare files "example.com/p" ["p_test", "p"] ∧
      ¬Disagree ["p_test", "p"] ∧
      ∃ found, harvest (memory files) .synopsis .empty "example.com/p"
        = .error (.mismatch found) := by
  intro files
  have hpath : validatePath "example.com/p" = .ok () := by decide +kernel
  have hdeclare : Declare files "example.com/p" ["p_test", "p"] := ⟨by decide, by decide +kernel⟩
  have htest : TestFirst ["p_test", "p"] := by decide
  exact ⟨hpath, hdeclare, by decide,
    (refused_by_name_iff hpath hdeclare .empty).1.mpr (Or.inr htest)⟩

end DocHarvest
