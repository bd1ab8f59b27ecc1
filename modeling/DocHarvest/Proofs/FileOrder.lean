import DocHarvest.Proofs.Loading
import DocHarvest.Proofs.PackageNames

/-!
# The order of the files of a package

The view of a package takes the name of the first file that counts, if the package has no name of
its own, and stops at the first file that has another. What comes of it can be told without an
order. There is a view exactly if some name fits the package (`Fits`), that is, if it is the name of
the package, where that is known, and of every file that counts; and then the view has this name,
and the symbols and imports of the files that count (`View.ofPackage_eq_ok_iff`). Whether a name
fits depends on which files there are and nothing else. So the files can be put in any order
(`View.ofPackage_perm`), although not every order gives the same list of symbols: only which of them
are listed matters to a synopsis.
-/

namespace DocHarvest

/-- A file that is read holds the tree of its source. -/
theorem SourceFile.tree_ofSource (path source : String) :
    (ofSource path source).tree = Syntax.Node.parse? (ofSource path source).source.toList :=
  rfl

namespace Doc

open DocHarvest.Syntax DocHarvest.Text

namespace View

theorem exists_clause_of_counts {f : SourceFile} (h : counts f = true) :
    ∃ name, f.packageName? = some name := by
  cases hclause : f.packageName? with
  | none => simp [counts, hclause] at h
  | some name => exact ⟨name, rfl⟩

/-- A name is that of a package with a preset name, which can be empty, and some files. -/
structure Fits (preset : String) (fs : List SourceFile) (name : String) : Prop where
  given : preset ≠ "" → name = preset
  clauses : ∀ f ∈ fs, counts f = true → f.packageName? = some name
  /-- Without a preset name and a file that counts there is no name. -/
  unnamed : preset = "" → (∀ f ∈ fs, counts f = false) → name = ""

namespace Fits

variable {preset name name' : String} {fs gs : List SourceFile}

theorem unique (h : Fits preset fs name) (h' : Fits preset fs name') : name = name' := by
  by_cases hpreset : preset = ""
  · by_cases hnone : ∀ f ∈ fs, counts f = false
    · rw [h.unnamed hpreset hnone, h'.unnamed hpreset hnone]
    · push Not at hnone
      obtain ⟨f, hf, hcounts⟩ := hnone
      rw [ne_eq, Bool.not_eq_false] at hcounts
      exact Option.some.inj ((h.clauses f hf hcounts).symm.trans (h'.clauses f hf hcounts))
  · rw [h.given hpreset, h'.given hpreset]

/-- Whether a name fits does not depend on the order of the files. -/
theorem of_subset (h : Fits preset fs name) (hsub : gs ⊆ fs) (hsup : fs ⊆ gs) :
    Fits preset gs name := by
  refine ⟨h.given, ?_, ?_⟩
  · exact fun f hf hcounts => h.clauses f (hsub hf) hcounts
  · exact fun hpreset hnone => h.unnamed hpreset fun f hf => hnone f (hsup hf)

/-- A file that does not count has no say. -/
theorem cons_iff {f : SourceFile} (hcounts : counts f = false) :
    Fits preset (f :: fs) name ↔ Fits preset fs name := by
  constructor
  · intro h
    refine ⟨h.given, fun g hg => h.clauses g (List.mem_cons_of_mem _ hg), ?_⟩
    exact fun hpreset hnone => h.unnamed hpreset (List.forall_mem_cons.mpr ⟨hcounts, hnone⟩)
  · intro h
    refine ⟨h.given, List.forall_mem_cons.mpr ⟨?_, h.clauses⟩, ?_⟩
    · intro hpos
      rw [hcounts] at hpos
      cases hpos
    · exact fun hpreset hnone => h.unnamed hpreset (List.forall_mem_cons.mp hnone).2

end Fits

variable {v w : View}

/-- The first file that counts gives the view its name, if it has none. -/
theorem Fits.of_first {f : SourceFile} {fs : List SourceFile} {name : String}
    (hf : f.packageName? = some name) (hcounts : counts f = true)
    (h : ∀ g ∈ fs, counts g = true → g.packageName? = some name) : Fits "" (f :: fs) name := by
  refine ⟨fun hne => absurd rfl hne, ?_, ?_⟩
  · exact List.forall_mem_cons.mpr ⟨fun _ => hf, h⟩
  · intro _ hnone
    rw [hnone f List.mem_cons_self] at hcounts
    cases hcounts

theorem name_foldl_addFile (v : View) (fs : List SourceFile) :
    (fs.foldl addFile v).name = v.name := by
  rw [foldl_addFile]

/-- A file that does not count is passed over. -/
theorem addFiles_cons_of_not_counts {f : SourceFile} (hcounts : counts f = false)
    (fs : List SourceFile) : v.addFiles (f :: fs) = v.addFiles fs := by
  rw [addFiles]
  split
  next => rfl
  next name hclause =>
    have htest : endsWith "_test".toList name.toList = true := by
      rwa [counts, hclause, Option.any_some, Bool.not_eq_false'] at hcounts
    rw [if_pos htest]

/-- The first file that counts gives a view its name. -/
theorem addFiles_cons_of_counts {f : SourceFile} {name : String}
    (hclause : f.packageName? = some name) (hcounts : counts f = true)
    (hunnamed : v.name.isEmpty = true) (fs : List SourceFile) :
    v.addFiles (f :: fs) = ({ v with name := name }.addFile f).addFiles fs := by
  have htest : ¬endsWith "_test".toList name.toList = true := by
    rw [counts, hclause, Option.any_some, Bool.not_eq_true'] at hcounts
    exact Bool.eq_false_iff.mp hcounts
  rw [addFiles, hclause]
  dsimp only
  rw [if_neg htest, if_pos hunnamed]

/-- **A view is made if a name fits**, and then it has this name and what the files that count
declare and import. -/
theorem addFiles_eq_ok_iff_fits {fs : List SourceFile}
    (hfs : ∀ f ∈ fs, f.tree = Node.parse? f.source.toList) :
    v.addFiles fs = .ok w ↔
      Fits v.name fs w.name ∧ w = (fs.filter counts).foldl addFile { v with name := w.name } := by
  by_cases hname : v.name = ""
  · rw [hname]
    induction fs with
    | nil =>
      constructor
      · intro h
        cases h
        exact ⟨⟨fun hne => absurd rfl hne, nofun, fun _ _ => hname⟩, rfl⟩
      · intro h
        obtain ⟨hfits, hw⟩ := h
        rw [hfits.unnamed rfl nofun, ← hname] at hw
        rw [hw]
        rfl
    | cons f fs ih =>
      obtain ⟨hf, hrest⟩ := List.forall_mem_cons.mp hfs
      by_cases hcounts : counts f = true
      · obtain ⟨clause, hclause⟩ := exists_clause_of_counts hcounts
        have hne := SourceFile.isEmpty_of_packageName? hf hclause
        have hnext : ({ v with name := clause }.addFile f).addFiles fs = .ok w ↔
            (∀ g ∈ fs, counts g = true → g.packageName? = some clause) ∧
              w = (fs.filter counts).foldl addFile ({ v with name := clause }.addFile f) :=
          addFiles_eq_ok_iff hne
        rw [addFiles_cons_of_counts hclause hcounts (by rw [hname]; rfl), hnext,
          List.filter_cons_of_pos hcounts]
        constructor
        · intro h
          obtain ⟨hall, rfl⟩ := h
          rw [name_foldl_addFile]
          exact ⟨.of_first hclause hcounts hall, rfl⟩
        · intro h
          obtain ⟨hfits, hw⟩ := h
          have hwname : w.name = clause :=
            Option.some.inj ((hfits.clauses f List.mem_cons_self hcounts).symm.trans hclause)
          rw [hwname] at hfits hw
          exact ⟨fun g hg => hfits.clauses g (List.mem_cons_of_mem _ hg), hw⟩
      · rw [Bool.not_eq_true] at hcounts
        rw [addFiles_cons_of_not_counts hcounts, ih hrest, Fits.cons_iff hcounts,
          List.filter_cons_of_neg (Bool.eq_false_iff.mp hcounts)]
  · have hne : v.name.isEmpty = false := by simpa using hname
    rw [addFiles_eq_ok_iff hne]
    constructor
    · intro h
      obtain ⟨hall, rfl⟩ := h
      rw [name_foldl_addFile]
      exact ⟨⟨fun _ => rfl, hall, fun heq => absurd heq hname⟩, rfl⟩
    · intro h
      obtain ⟨hfits, hw⟩ := h
      have hwname := hfits.given hname
      rw [hwname] at hfits hw
      exact ⟨hfits.clauses, hw⟩

theorem ofPackage_eq_ok_iff {p : Package} (hp : p.Parsed) :
    ofPackage p = .ok v ↔
      Fits p.name p.files v.name ∧
        v = (p.files.filter counts).foldl addFile (empty v.name p.importPath) :=
  addFiles_eq_ok_iff_fits hp

/-- A package has a view if a name fits it. -/
theorem exists_ofPackage_iff_fits {p : Package} (hp : p.Parsed) :
    (∃ v, ofPackage p = .ok v) ↔ ∃ name, Fits p.name p.files name := by
  constructor
  · intro h
    obtain ⟨v, hv⟩ := h
    exact ⟨v.name, ((ofPackage_eq_ok_iff hp).mp hv).1⟩
  · intro h
    obtain ⟨name, hfits⟩ := h
    have hname := name_foldl_addFile (empty name p.importPath) (p.files.filter counts)
    refine ⟨(p.files.filter counts).foldl addFile (empty name p.importPath), ?_⟩
    rw [ofPackage_eq_ok_iff hp, hname]
    exact ⟨hfits, rfl⟩

/-! ## Declared names -/

/-- The names that files declare in their package clauses. -/
def declaredNames (fs : List SourceFile) : List String :=
  fs.filterMap SourceFile.packageName?

/-- The files that count declare the names that are not of a test. -/
theorem mem_declaredNames_iff {fs : List SourceFile} {name : String} :
    name ∈ declaredNames fs ∧ isTestName name = false ↔
      ∃ f ∈ fs, counts f = true ∧ f.packageName? = some name := by
  have hcounts : ∀ {f : SourceFile}, f.packageName? = some name →
      (counts f = true ↔ isTestName name = false) := by
    intro f hclause
    rw [counts, hclause, Option.any_some, isTestName, Bool.not_eq_true']
  rw [declaredNames, List.mem_filterMap]
  constructor
  · intro h
    obtain ⟨⟨f, hf, hclause⟩, htest⟩ := h
    exact ⟨f, hf, (hcounts hclause).mpr htest, hclause⟩
  · intro h
    obtain ⟨f, hf, hpos, hclause⟩ := h
    exact ⟨⟨f, hf, hclause⟩, (hcounts hclause).mp hpos⟩

/-- All files that count have one name, said of the names alone. -/
theorem forall_clause_iff {fs : List SourceFile} {name : String} :
    (∀ f ∈ fs, counts f = true → f.packageName? = some name) ↔
      ∀ a ∈ declaredNames fs, isTestName a = false → a = name := by
  constructor
  · intro h a ha htest
    obtain ⟨f, hf, hcounts, hclause⟩ := mem_declaredNames_iff.mp ⟨ha, htest⟩
    exact Option.some.inj (hclause.symm.trans (h f hf hcounts))
  · intro h f hf hcounts
    obtain ⟨a, hclause⟩ := exists_clause_of_counts hcounts
    obtain ⟨ha, htest⟩ := mem_declaredNames_iff.mpr ⟨f, hf, hcounts, hclause⟩
    rw [hclause, h a ha htest]

/-- A name fits unless two names disagree, or one of them disagrees with the name that is given. -/
theorem exists_fits_iff {preset : String} {fs : List SourceFile} :
    (∃ name, Fits preset fs name) ↔
      ¬Disagree (declaredNames fs) ∧
        (preset ≠ "" → ∀ a ∈ declaredNames fs, isTestName a = false → a = preset) := by
  constructor
  · intro h
    obtain ⟨name, hfits⟩ := h
    have hsame := forall_clause_iff.mp hfits.clauses
    refine ⟨?_, ?_⟩
    · intro hdisagree
      obtain ⟨a, ha, b, hb, htestA, htestB, hne⟩ := hdisagree
      exact hne ((hsame a ha htestA).trans (hsame b hb htestB).symm)
    · intro hpreset a ha htest
      rw [hsame a ha htest, hfits.given hpreset]
  · intro h
    obtain ⟨hagree, hgiven⟩ := h
    by_cases hpreset : preset = ""
    · by_cases hnone : ∀ f ∈ fs, counts f = false
      · refine ⟨"", fun hne => absurd hpreset hne, ?_, fun _ _ => rfl⟩
        intro f hf hcounts
        rw [hnone f hf] at hcounts
        cases hcounts
      · -- the name of any file that counts will do
        push Not at hnone
        obtain ⟨f, hf, hcounts⟩ := hnone
        rw [ne_eq, Bool.not_eq_false] at hcounts
        obtain ⟨name, hclause⟩ := exists_clause_of_counts hcounts
        obtain ⟨hmem, htest⟩ := mem_declaredNames_iff.mpr ⟨f, hf, hcounts, hclause⟩
        refine ⟨name, fun hne => absurd hpreset hne, forall_clause_iff.mpr ?_, ?_⟩
        · intro a ha htestA
          by_contra hne
          exact hagree ⟨a, ha, name, hmem, htestA, htest, hne⟩
        · intro _ hno
          rw [hno f hf] at hcounts
          cases hcounts
    · exact ⟨preset, fun _ => rfl, forall_clause_iff.mpr (hgiven hpreset),
        fun heq => absurd heq hpreset⟩

/-! ## Other orders -/

/-- Views of the same files with the same name answer alike. -/
theorem alike_of_perm {fs gs : List SourceFile} (hperm : fs.Perm gs) (v : View) :
    Alike (fs.foldl addFile v) (gs.foldl addFile v) := by
  have hcontains : ∀ {ss ts : List String}, ss.Perm ts → ∀ s, ss.contains s = ts.contains s := by
    intro ss ts h s
    rw [Bool.eq_iff_iff, List.contains_iff_mem, List.contains_iff_mem]
    exact h.mem_iff
  rw [foldl_addFile, foldl_addFile]
  refine ⟨rfl, hcontains ?_, hcontains ?_⟩
  · exact (hperm.flatMap_right _).append_left _
  · exact (hperm.flatMap_right _).append_left _

/-- **The view of a package does not depend on the order of its files.** There is a view exactly if
the declared names that are not of a test are equal to each other and to the name of the package, if
it has one. -/
theorem ofPackage_perm {p : Package} (hp : p.Parsed) {files : List SourceFile}
    (hperm : p.files.Perm files) :
    ((∃ v, ofPackage p = .ok v) ↔ ∃ w, ofPackage { p with files := files } = .ok w) ∧
      (∀ v w, ofPackage p = .ok v → ofPackage { p with files := files } = .ok w →
        v.name = w.name ∧ (∀ s, v.hasSymbol s = w.hasSymbol s) ∧
          ∀ text, v.synopsis text = w.synopsis text) ∧
      ((∃ v, ofPackage p = .ok v) ↔
        ¬Disagree (declaredNames p.files) ∧
          (p.name ≠ "" → ∀ a ∈ declaredNames p.files, isTestName a = false → a = p.name)) := by
  have hq : ({ p with files := files } : Package).Parsed :=
    fun f hf => hp f (hperm.mem_iff.mpr hf)
  have hfits : ∀ name, Fits p.name p.files name ↔ Fits p.name files name := by
    intro name
    constructor
    · exact fun h => h.of_subset hperm.symm.subset hperm.subset
    · exact fun h => h.of_subset hperm.subset hperm.symm.subset
  refine ⟨?_, ?_, ?_⟩
  · rw [exists_ofPackage_iff_fits hp, exists_ofPackage_iff_fits hq]
    exact exists_congr hfits
  · intro v w hv hw
    obtain ⟨hvname, hveq⟩ := (ofPackage_eq_ok_iff hp).mp hv
    obtain ⟨hwname, hweq⟩ := (ofPackage_eq_ok_iff hq).mp hw
    have hname : v.name = w.name := ((hfits _).mp hvname).unique hwname
    have halike : Alike v w := by
      rw [hveq, hweq, hname]
      exact alike_of_perm (hperm.filter counts) _
    exact ⟨hname, halike.symbols, synopsis_congr halike⟩
  · rw [exists_ofPackage_iff_fits hp, exists_fits_iff]

/-- A package without a name of its own, with a test, a file without a package clause, and two files
that declare different things. The order in which these are listed is not the same. -/
theorem ofPackage_perm_of_mixed_files :
    let a : SourceFile := .ofSource "a.go" "package p\n\nimport \"example.com/x\"\n\ntype A int\n"
    let test : SourceFile := .ofSource "a_test.go" "package p_test\n\ntype T int\n"
    let bare : SourceFile := .ofSource "bare.go" "// Nothing.\n"
    let b : SourceFile := .ofSource "b.go" "package p\n\nfunc B() {}\n"
    let p : Package := ⟨"", "example.com/p", none, [a, test, bare, b], [], none⟩
    p.Parsed ∧ p.files.Perm [b, bare, test, a] ∧
      ∃ v w, ofPackage p = .ok v ∧ ofPackage { p with files := [b, bare, test, a] } = .ok w ∧
        v.symbols = ["A", "B"] ∧ w.symbols = ["B", "A"] ∧
        v.name = w.name ∧ (∀ s, v.hasSymbol s = w.hasSymbol s) ∧
        ∀ text, v.synopsis text = w.synopsis text := by
  intro a test bare b p
  have hp : p.Parsed := by
    refine List.forall_mem_cons.mpr ⟨SourceFile.tree_ofSource _ _, ?_⟩
    refine List.forall_mem_cons.mpr ⟨SourceFile.tree_ofSource _ _, ?_⟩
    refine List.forall_mem_cons.mpr ⟨SourceFile.tree_ofSource _ _, ?_⟩
    exact List.forall_mem_singleton.mpr (SourceFile.tree_ofSource _ _)
  have hperm : p.files.Perm [b, bare, test, a] := (List.reverse_perm [a, test, bare, b]).symm
  obtain ⟨hiff, hsame, hexists⟩ := ofPackage_perm hp hperm
  have hdeclared : declaredNames p.files = ["p", "p_test", "p"] := by decide +kernel
  have hview : ∃ v, ofPackage p = .ok v := by
    rw [hexists, hdeclared]
    exact ⟨by decide, fun hne => absurd rfl hne⟩
  obtain ⟨v, hv⟩ := hview
  obtain ⟨w, hw⟩ := hiff.mp ⟨v, hv⟩
  have hsymbols : (ofPackage p).toOption.map View.symbols = some ["A", "B"] := by decide +kernel
  have hsymbols' : (ofPackage { p with files := [b, bare, test, a] }).toOption.map View.symbols
      = some ["B", "A"] := by decide +kernel
  rw [hv] at hsymbols
  rw [hw] at hsymbols'
  exact ⟨hp, hperm, v, w, hv, hw, Option.some.inj hsymbols, Option.some.inj hsymbols',
    hsame v w hv hw⟩

end View

end Doc

end DocHarvest
