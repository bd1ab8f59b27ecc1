import DocHarvest.Doc.Synopsis
import DocHarvest.Proofs.Links
import DocHarvest.Proofs.MapFile
import DocHarvest.Proofs.Pieces

/-!
# What a synopsis depends on

A synopsis asks the view of its package three things: what the package is called, which symbols it
has and which packages its files import. Neither the order of these nor how often they are listed
matters, so views that answer alike have the same synopses (`View.synopsis_congr`).

A view collects the files that count, those with a package clause that is not the one of a test
(`View.addFiles_eq_ok_iff`). If a file of the package is exchanged for one that declares the comment
map, the new view answers as if that symbol had been added (`View.addFiles_exchange`).
-/

namespace DocHarvest.Doc

open DocHarvest.Text

namespace View

variable {v w : View}

/-! ## Views that answer alike -/

/-- Two views have the same name, symbols and imports. -/
structure Alike (v w : View) : Prop where
  name : v.name = w.name
  symbols : ∀ s, v.symbols.contains s = w.symbols.contains s
  imports : ∀ s, v.imports.contains s = w.imports.contains s

/-- The same, as far as a single line can tell: an import whose name has a line feed in it cannot be
referred to in one. -/
structure AlikeInLine (v w : View) : Prop where
  name : v.name = w.name
  symbols : ∀ s, v.symbols.contains s = w.symbols.contains s
  imports : ∀ s : String, '\n' ∉ s.toList → v.imports.contains s = w.imports.contains s

theorem Alike.inLine (h : Alike v w) : AlikeInLine v w :=
  ⟨h.name, h.symbols, fun s _ => h.imports s⟩

theorem knowsPackage_congr (h : AlikeInLine v w) {cs : List Char} (hcs : '\n' ∉ cs) :
    v.knowsPackage cs = w.knowsPackage cs := by
  unfold knowsPackage
  dsimp only
  rw [h.name, h.imports (String.ofList cs) (by rwa [String.toList_ofList])]

/-- The parts of a name are parts of its text. -/
theorem splitName_subset {cs name : List Char} {qualifier : Option (List Char)}
    (h : splitName cs = some (qualifier, name)) : name ⊆ cs ∧ ∀ q ∈ qualifier, q ⊆ cs := by
  obtain ⟨-, rfl⟩ := splitName_eq_some h
  cases qualifier with
  | none => exact ⟨List.Subset.refl _, nofun⟩
  | some q =>
    refine ⟨?_, ?_⟩
    · exact fun c hc => List.mem_append_right _ (List.mem_cons_of_mem _ hc)
    · rintro _ ⟨⟩
      exact List.subset_append_left _ _

theorem isDocLink_congr (h : AlikeInLine v w) {target : List Char} (htarget : '\n' ∉ target) :
    v.isDocLink target = w.isDocLink target := by
  have hsymbol : ∀ s, v.hasSymbol s = w.hasSymbol s := h.symbols
  have hinner : '\n' ∉ if target.head? = some '*' then target.drop 1 else target := by
    split
    next => exact fun hmem => htarget (List.drop_subset _ _ hmem)
    next => exact htarget
  unfold isDocLink
  dsimp only
  split
  next => rfl
  next name hname => exact hsymbol _
  next qualifier name hname =>
    have hqualifier : '\n' ∉ qualifier := fun hmem =>
      hinner ((splitName_subset hname).2 qualifier rfl hmem)
    split
    next recv hrecv =>
      rw [hsymbol, knowsPackage_congr h fun hmem => hqualifier ((splitName_subset hrecv).1 hmem)]
    next package recv hpackage =>
      rw [knowsPackage_congr h fun hmem =>
        hqualifier ((splitName_subset hpackage).2 package rfl hmem)]
    next => rw [knowsPackage_congr h hqualifier]

theorem resolveFrom_congr (h : AlikeInLine v w) (last : Option Char) {inner : Option (List Char)}
    {cs : List Char} (hinner : ∀ i ∈ inner, '\n' ∉ i) (hcs : '\n' ∉ cs) :
    v.resolveFrom last inner cs = w.resolveFrom last inner cs := by
  induction cs generalizing last inner with
  | nil =>
    cases inner with
    | none => rfl
    | some inner => rfl
  | cons c cs ih =>
    obtain ⟨hc, hrest⟩ := not_or.mp fun hor => hcs (List.mem_cons.mpr hor)
    cases inner with
    | none =>
      have hnone : ∀ last, v.resolveFrom last none cs = w.resolveFrom last none cs := fun last =>
        ih last nofun hrest
      have hsome : ∀ last, v.resolveFrom last (some []) cs = w.resolveFrom last (some []) cs :=
        fun last => ih last (by simp) hrest
      simp only [resolveFrom, hnone, hsome]
    | some inner =>
      have hplain : '\n' ∉ inner := hinner inner rfl
      have hnone : ∀ last, v.resolveFrom last none cs = w.resolveFrom last none cs := fun last =>
        ih last nofun hrest
      have hsome : v.resolveFrom last (some (inner ++ [c])) cs
          = w.resolveFrom last (some (inner ++ [c])) cs := ih last (by simp [hplain, hc]) hrest
      simp only [resolveFrom, hnone, hsome, isDocLink_congr h hplain]

theorem mem_replacePair {q r c : Char} {cs : List Char} (h : c ∈ replacePair q r cs) :
    c ∈ cs ∨ c = r := by
  fun_induction replacePair q r cs with
  | case1 => exact Or.inl h
  | case2 => exact Or.inl h
  | case3 a b cs hpair ih =>
    rcases List.mem_cons.mp h with rfl | h
    · exact Or.inr rfl
    · exact (ih h).imp_left fun hmem => List.mem_cons_of_mem _ (List.mem_cons_of_mem _ hmem)
  | case4 a b cs hpair ih =>
    rcases List.mem_cons.mp h with rfl | h
    · exact Or.inl List.mem_cons_self
    · exact (ih h).imp_left fun hmem => List.mem_cons_of_mem _ hmem

/-- A paragraph on one line has no line feeds. -/
theorem lineFeed_notMem_oneLine (paragraph : List (List Char)) : '\n' ∉ oneLine paragraph := by
  have hjoined : '\n' ∉ join [' '] (words (join ['\n'] paragraph)) := by
    intro hmem
    rcases mem_join hmem with hspace | ⟨word, hword, hmem⟩
    · exact absurd hspace (by decide)
    · have hpiece := List.mem_of_mem_filter hword
      obtain ⟨-, hblank⟩ := exists_mem_splitWhere_iff.mp ⟨word, hpiece, hmem⟩
      cases hblank
  intro hmem
  unfold oneLine at hmem
  rcases mem_replacePair hmem with hmem | hmem
  · rcases mem_replacePair hmem with hmem | hmem
    · exact hjoined hmem
    · cases hmem
  · cases hmem

/-- Views that answer alike in a line have the same synopses, for a synopsis is one line. -/
theorem synopsis_congr_inLine (h : AlikeInLine v w) (text : String) :
    v.synopsis text = w.synopsis text := by
  unfold synopsis resolveLinks
  dsimp only
  split
  next => rfl
  next =>
    split
    next => rfl
    next paragraph _ =>
      rw [resolveFrom_congr h none (by simp) (lineFeed_notMem_oneLine paragraph)]

/-- Views that answer alike have the same synopses. -/
theorem synopsis_congr (h : Alike v w) (text : String) : v.synopsis text = w.synopsis text :=
  synopsis_congr_inLine h.inLine text

/-! ## The files that count -/

/-- Whether a file has a package clause other than that of a test. -/
def counts (f : SourceFile) : Bool :=
  f.packageName?.any fun name => !endsWith "_test".toList name.toList

theorem foldl_addFile (v : View) (fs : List SourceFile) :
    fs.foldl addFile v = { v with
      symbols := v.symbols ++ fs.flatMap fun f => f.topLevel.flatMap (symbolsOf f.source.toList)
      imports :=
        v.imports ++ fs.flatMap fun f => f.topLevel.flatMap (importsOf f.source.toList) } := by
  induction fs generalizing v with
  | nil => simp
  | cons f fs ih =>
    rw [List.foldl_cons, ih, addFile]
    simp

/-- A view that has a name takes in the files that count, if they all have that name. -/
theorem addFiles_eq_ok_iff {fs : List SourceFile} (hname : v.name.isEmpty = false) :
    v.addFiles fs = .ok w ↔
      (∀ f ∈ fs, counts f = true → f.packageName? = some v.name) ∧
        w = (fs.filter counts).foldl addFile v := by
  induction fs generalizing v with
  | nil =>
    constructor
    · intro h
      cases h
      exact ⟨fun f hf => absurd hf List.not_mem_nil, rfl⟩
    · rintro ⟨-, rfl⟩
      rfl
  | cons f fs ih =>
    rw [List.forall_mem_cons]
    have hskip (hcounts : counts f = false) : v.addFiles fs = .ok w ↔
        ((counts f = true → f.packageName? = some v.name) ∧
          ∀ g ∈ fs, counts g = true → g.packageName? = some v.name) ∧
            w = ((f :: fs).filter counts).foldl addFile v := by
      rw [ih hname, List.filter_cons_of_neg (Bool.eq_false_iff.mp hcounts)]
      simp [hcounts]
    unfold addFiles
    split
    next hclause => exact hskip (by rw [counts, hclause]; rfl)
    next name hclause =>
      have hcounts : counts f = !endsWith "_test".toList name.toList := by
        rw [counts, hclause, Option.any_some]
      by_cases htest : endsWith "_test".toList name.toList = true
      · rw [if_pos htest]
        exact hskip (by rw [hcounts, htest]; rfl)
      · have hpos : counts f = true := by
          rw [hcounts, Bool.eq_false_iff.mpr htest]
          rfl
        rw [if_neg htest, if_neg (Bool.eq_false_iff.mp hname), hclause,
          List.filter_cons_of_pos hpos]
        by_cases hsame : v.name = name
        · rw [if_neg (not_not.mpr hsame), ih (v := v.addFile f) hname]
          simp [hsame, addFile]
        · rw [if_pos hsame]
          simp [hpos, Ne.symm hsame]

/-! ## Exchanging a file -/

/-- The view as if the comment map were one more symbol of the package. -/
def withCommentMap (v : View) : View :=
  { v with symbols := "CommentMap" :: v.symbols }

/-- Files that declare the comment map at most give way to one that declares it. -/
theorem alike_exchange (v : View) (front back : List SourceFile) {old : List SourceFile}
    {f : SourceFile} {name : String} (hf : f.DeclaresOnly name ["CommentMap"])
    (hold : ∀ g ∈ old, g.topLevel.flatMap (symbolsOf g.source.toList) ⊆ ["CommentMap"] ∧
      g.topLevel.flatMap (importsOf g.source.toList) = []) :
    Alike ((front ++ f :: back).foldl addFile v)
      ((front ++ old ++ back).foldl addFile v).withCommentMap := by
  have hsymbols : ∀ s ∈ old.flatMap fun g => g.topLevel.flatMap (symbolsOf g.source.toList),
      s = "CommentMap" := by
    intro s hs
    obtain ⟨g, hg, hs⟩ := List.mem_flatMap.mp hs
    exact List.mem_singleton.mp ((hold g hg).1 hs)
  have himports : old.flatMap (fun g => g.topLevel.flatMap (importsOf g.source.toList)) = [] :=
    List.flatMap_eq_nil_iff.mpr fun g hg => (hold g hg).2
  rw [foldl_addFile, foldl_addFile]
  refine ⟨rfl, fun s => Bool.eq_iff_iff.mpr ?_, fun s => ?_⟩
  · have hcomment := hsymbols s
    simp only [List.contains_iff_mem, withCommentMap, List.flatMap_append, List.flatMap_cons,
      hf.symbols, List.mem_append, List.mem_cons, List.not_mem_nil, or_false]
    tauto
  · simp only [withCommentMap, List.flatMap_append, List.flatMap_cons, hf.imports, himports,
      List.append_nil, List.nil_append]

/-- The files of a package agree about its name, and then some of them, which declare the comment
map at most, give way to a file that declares it and has the same name. The files still agree, and
the view answers as before, but for the comment map. -/
theorem addFiles_exchange {front old back : List SourceFile} {f : SourceFile} {name : String}
    (hname : v.name = name) (hne : name.isEmpty = false)
    (hf : f.DeclaresOnly name ["CommentMap"])
    (hold : ∀ g ∈ old, g.topLevel.flatMap (symbolsOf g.source.toList) ⊆ ["CommentMap"] ∧
      g.topLevel.flatMap (importsOf g.source.toList) = [])
    (h : v.addFiles (front ++ old ++ back) = .ok w) :
    ∃ w', v.addFiles (front ++ f :: back) = .ok w' ∧ (Alike w' w ∨ Alike w' w.withCommentMap) := by
  subst hname
  obtain ⟨hagree, rfl⟩ := (addFiles_eq_ok_iff hne).mp h
  have hothers : ∀ g ∈ front ++ f :: back, counts g = true → g.packageName? = some v.name := by
    intro g hg hcounts
    rcases List.mem_append.mp hg with hg | hg
    · exact hagree g (by simp [hg]) hcounts
    rcases List.mem_cons.mp hg with rfl | hg
    · exact hf.name
    · exact hagree g (by simp [hg]) hcounts
  refine ⟨_, (addFiles_eq_ok_iff hne).mpr ⟨hothers, rfl⟩, ?_⟩
  by_cases hcounts : counts f = true
  · right
    rw [List.filter_append, List.filter_cons_of_pos hcounts, List.filter_append, List.filter_append]
    exact alike_exchange v _ _ hf fun g hg => hold g (List.mem_of_mem_filter hg)
  · -- then the name is that of a test, and no file counts
    left
    have hnone : ∀ g, g.packageName? = some v.name → ¬counts g = true := by
      intro g hg
      rw [counts, hg, ← hf.name]
      exact hcounts
    have hempty : ∀ gs : List SourceFile,
        (∀ g ∈ gs, counts g = true → g.packageName? = some v.name) → gs.filter counts = [] := by
      intro gs hgs
      rw [List.filter_eq_nil_iff]
      exact fun g hg hcounts => hnone g (hgs g hg hcounts) hcounts
    rw [hempty _ hagree, hempty _ hothers]
    exact ⟨rfl, fun _ => rfl, fun _ => rfl⟩

end View

end DocHarvest.Doc
