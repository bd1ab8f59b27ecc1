import DocHarvest.Proofs.Rereading
import DocHarvest.Proofs.TypeComments
import DocHarvest.Proofs.Views
import DocHarvest.Proofs.Writing

/-!
# Running again

A second run with the same options should find nothing to change. It can go wrong if the generated
file lies in the directory of a package that is harvested, for the second run loads it as one of the
files of the package. If its package clause is not the one of the other files, synopses are refused
(`generate_again_refused`). Where the clause fits, the comment map is a symbol of the package from
then on, so that a link to it that was text in the first run is a link in the second. And a file
with comments of its own is lost if it is overwritten.

`Tolerates` says that none of this happens to a package, and then it has the same entries in both
runs (`Tolerates.entries_exchange`): the generated file has no entries (`declares_render`), it
leaves all other files of the package as they were (`directory_put`), and only synopses depend on it
(`View.addFiles_exchange`). A package of which the generated file is no file has nothing to
tolerate.
-/

namespace DocHarvest.Harvest

open DocHarvest.Load

/-! ## Batches with another loader -/

/-- Every package of a batch is loaded without faults, and its comments can be summarized. -/
theorem Harvests.loaded {load : Loader} {mode : Mode} {paths : List String} {m m' : CommentMap}
    (h : Harvests load mode m paths m') {path : String} (hpath : path ∈ paths) :
    ∃ p summarize, load path = .ok p ∧ p.fault? = none ∧ summarizer mode p = .ok summarize := by
  induction h with
  | nil m => cases hpath
  | cons hfirst _ ih =>
    rcases List.mem_cons.mp hpath with rfl | hpath
    · obtain ⟨-, p, hload, hfault, summarize, hsum, -⟩ := harvest_eq_ok_iff.mp hfirst
      exact ⟨p, summarize, hload, hfault, hsum⟩
    · exact ih hpath

/-- Packages are harvested to the same map by a loader that finds the same entries. -/
theorem Harvests.of_pathEntries {load load' : Loader} {mode : Mode} {paths : List String}
    {m m' : CommentMap} (h : Harvests load mode m paths m')
    (hsame : ∀ path ∈ paths, ∀ es, pathEntries load mode path = .ok es →
      pathEntries load' mode path = .ok es) : Harvests load' mode m paths m' := by
  induction h with
  | nil m => exact .nil m
  | cons hfirst _ ih =>
    obtain ⟨hpath, hrest⟩ := List.forall_mem_cons.mp hsame
    refine .cons ?_ (ih hrest)
    obtain ⟨es, hes, hmap⟩ := bind_eq_ok.mp hfirst
    exact bind_eq_ok.mpr ⟨es, hpath es hes, hmap⟩

end DocHarvest.Harvest

namespace DocHarvest

open DocHarvest.Host DocHarvest.Load DocHarvest.Harvest DocHarvest.Output DocHarvest.Syntax
open DocHarvest.Command

/-! ## Packages of files -/

section

variable (importPath dir : String) (fs : List SourceFile)

theorem packageOf_eq : ∃ name, packageOf importPath dir fs =
    ⟨name, importPath, some dir, fs, fs.flatMap SourceFile.diagnostics, none⟩ := by
  obtain ⟨name, hfold⟩ := foldl_addFile (.empty importPath) fs
  refine ⟨name, ?_⟩
  rw [packageOf, hfold]
  rfl

theorem importPath_packageOf : (packageOf importPath dir fs).importPath = importPath := by
  obtain ⟨name, h⟩ := packageOf_eq importPath dir fs
  rw [h]

theorem files_packageOf : (packageOf importPath dir fs).files = fs := by
  obtain ⟨name, h⟩ := packageOf_eq importPath dir fs
  rw [h]

/-- A package with a file that has a name has one too. -/
theorem isEmpty_name_foldl_addFile {fs : List SourceFile} {f : SourceFile} {name : String}
    (hf : f ∈ fs) (hname : f.packageName? = some name) (hne : name.isEmpty = false) (p : Package) :
    (fs.foldl Package.addFile p).name.isEmpty = false := by
  obtain ⟨front, back, rfl⟩ := List.append_of_mem hf
  rw [List.foldl_append, List.foldl_cons]
  have hnamed : ((front.foldl Package.addFile p).addFile f).name.isEmpty = false := by
    rw [Package.addFile]
    dsimp only
    split
    next => rw [hname]; exact hne
    next hfront => exact Bool.eq_false_iff.mpr hfront
  rwa [name_foldl_addFile back hnamed]

/-- A file that has the name of its package can take the place of others. -/
theorem name_packageOf_exchange {front old back : List SourceFile} {f : SourceFile} {name : String}
    (hne : name.isEmpty = false) (hf : f.packageName? = some name)
    (h : (packageOf importPath dir (front ++ old ++ back)).name = name) :
    (packageOf importPath dir (front ++ f :: back)).name = name := by
  show ((front ++ f :: back).foldl Package.addFile (.empty importPath)).name = name
  have hbefore : ((front ++ old ++ back).foldl Package.addFile (.empty importPath)).name = name := h
  rw [List.append_assoc, List.foldl_append] at hbefore
  rw [List.foldl_append, List.foldl_cons]
  cases hfront : (front.foldl Package.addFile (.empty importPath)).name.isEmpty with
  | true =>
    -- the file is the first that has a name
    have hname : ((front.foldl Package.addFile (.empty importPath)).addFile f).name = name := by
      rw [Package.addFile, if_pos hfront, hf]
      rfl
    rw [name_foldl_addFile back (by rw [hname]; exact hne), hname]
  | false =>
    have hname : ((front.foldl Package.addFile (.empty importPath)).addFile f).name
        = (front.foldl Package.addFile (.empty importPath)).name := by
      rw [Package.addFile, if_neg (Bool.eq_false_iff.mp hfront)]
    rw [name_foldl_addFile back (by rw [hname]; exact hfront), hname, ← hbefore,
      name_foldl_addFile (old ++ back) hfront]

end

/-- In a package with a view, the files that count have one name. -/
theorem packageName?_eq_of_view {importPath dir name : String} {fs : List SourceFile}
    {view : Doc.View} (h : Doc.View.ofPackage (packageOf importPath dir fs) = .ok view)
    {f g : SourceFile} (hf : f ∈ fs) (hg : g ∈ fs) (hfcounts : Doc.View.counts f = true)
    (hgcounts : Doc.View.counts g = true) (hname : g.packageName? = some name)
    (hne : name.isEmpty = false) : f.packageName? = some name := by
  have hnamed : (packageOf importPath dir fs).name.isEmpty = false :=
    isEmpty_name_foldl_addFile hg hname hne _
  obtain ⟨hagree, -⟩ := (Doc.View.addFiles_eq_ok_iff hnamed).mp h
  rw [files_packageOf] at hagree
  rw [hagree f hf hfcounts, ← hagree g hg hgcounts, hname]

/-! ## What depends on a summary -/

/-- What is written at a place depends on nothing but the summary of the text that is handed on
there, and on that only at a type. -/
theorem Place.written_congr {q : Place} {importPath : String} {f g : String → String}
    (h : isTypeSpec q.site.node = true → f q.doc = g q.doc) :
    q.written importPath f = q.written importPath g := by
  rw [written_eq_siteEntries, written_eq_siteEntries, siteEntries, siteEntries]
  refine congrArg₂ (· ++ ·) ?_ rfl
  by_cases hspec : isTypeSpec q.site.node = true
  · have hsummary : (q.context importPath f).summarize (typeDoc (q.context importPath f) q.before
        q.site) = (q.context importPath g).summarize (typeDoc (q.context importPath g) q.before
        q.site) := h hspec
    unfold typeEntries
    rw [hsummary]
    rfl
  · have hname := typeName?_of_not_isTypeSpec q.source (Bool.eq_false_iff.mpr hspec)
    have hname' : ∀ f, typeName? (q.context importPath f).source q.site.node = none :=
      fun _ => hname
    rw [typeEntries, typeEntries, hname', hname']
    rfl

theorem fileEntries_congr {p : Package} {f g : String → String} {file : SourceFile}
    (hfile : file ∈ p.files)
    (h : ∀ q ∈ p.places, isTypeSpec q.site.node = true → f q.doc = g q.doc) :
    fileEntries p.importPath f file = fileEntries p.importPath g file := by
  rw [fileEntries_eq_written, fileEntries_eq_written]
  refine List.flatMap_congr fun q hq => Place.written_congr ?_
  exact h q (List.mem_flatMap.mpr ⟨file, hfile, hq⟩)

/-! ## Packages that tolerate the generated file -/

/-- A package does not change its entries if the generated file becomes one of its files. -/
structure Tolerates (o : Options) (file : String) (p : Package) : Prop where
  /-- The generated file is for a package with a name. -/
  named : isPackageName o.package = true
  /-- What was there before had no entries. -/
  silent : ∀ summarize, summarizer o.mode p = .ok summarize →
    ∀ f ∈ p.files, f.path = file → fileEntries p.importPath summarize f = []
  /-- The generated file is for this package, if the package has to be named. -/
  name : o.mode = .synopsis → p.name = o.package
  /-- What was there before lent nothing to synopses but the comment map. -/
  replaced : o.mode = .synopsis → ∀ f ∈ p.files, f.path = file →
    f.topLevel.flatMap (Doc.symbolsOf f.source.toList) ⊆ ["CommentMap"] ∧
      f.topLevel.flatMap (Doc.importsOf f.source.toList) = []
  /-- No synopsis of a type depends on whether there is a comment map. -/
  links : o.mode = .synopsis → ∀ view, Doc.View.ofPackage p = .ok view →
    ∀ q ∈ p.places, isTypeSpec q.site.node = true →
      view.withCommentMap.synopsis q.doc = view.synopsis q.doc

theorem isEmpty_of_isPackageName {package : String} (h : isPackageName package = true) :
    package.isEmpty = false := by
  rw [← Bool.not_eq_true, String.isEmpty_iff]
  rintro rfl
  cases h

section

variable {o : Options} {importPath dir file : String} {front old back : List SourceFile}
  {f : SourceFile} {summarize : String → String}

/-- The summaries of the types of a package are the same after the exchange. -/
theorem Tolerates.summarizer_exchange
    (h : Tolerates o file (packageOf importPath dir (front ++ old ++ back)))
    (hold : ∀ g ∈ old, g.path = file) (hf : f.DeclaresOnly o.package ["CommentMap"])
    (hsum : summarizer o.mode (packageOf importPath dir (front ++ old ++ back)) = .ok summarize) :
    ∃ summarize', summarizer o.mode (packageOf importPath dir (front ++ f :: back))
        = .ok summarize' ∧
      ∀ q ∈ (packageOf importPath dir (front ++ old ++ back)).places,
        isTypeSpec q.site.node = true → summarize' q.doc = summarize q.doc := by
  cases hmode : o.mode with
  | full =>
    rw [hmode] at hsum
    cases hsum
    exact ⟨Text.trimmed, rfl, fun _ _ _ => rfl⟩
  | synopsis =>
    have hne := isEmpty_of_isPackageName h.named
    have hname := h.name hmode
    have hname' := name_packageOf_exchange importPath dir hne hf.name hname
    obtain ⟨view, hview, rfl⟩ := view_of_summarizer hmode hsum
    have hadded := hview
    rw [Doc.View.ofPackage, hname, importPath_packageOf, files_packageOf] at hadded
    obtain ⟨view', hview', halike⟩ := Doc.View.addFiles_exchange rfl hne hf
      (fun g hg => h.replaced hmode g (by simp [files_packageOf, hg]) (hold g hg)) hadded
    refine ⟨view'.synopsis, ?_, fun q hq hspec => ?_⟩
    · rw [summarizer, Doc.View.ofPackage, hname', importPath_packageOf, files_packageOf, hview']
    · rcases halike with halike | halike
      · exact Doc.View.synopsis_congr halike q.doc
      · rw [Doc.View.synopsis_congr halike q.doc]
        exact h.links hmode view hview q hq hspec

/-- A package that tolerates the exchange has the same entries after it. -/
theorem Tolerates.entries_exchange
    (h : Tolerates o file (packageOf importPath dir (front ++ old ++ back)))
    (hold : ∀ g ∈ old, g.path = file) (hf : f.DeclaresOnly o.package ["CommentMap"])
    {es : List Entry}
    (hes : packageEntries o.mode (packageOf importPath dir (front ++ old ++ back)) = .ok es) :
    packageEntries o.mode (packageOf importPath dir (front ++ f :: back)) = .ok es := by
  obtain ⟨hfault, summarize, hsum, rfl⟩ := packageEntries_eq_ok_iff.mp hes
  obtain ⟨summarize', hsum', hsame⟩ := h.summarizer_exchange hold hf hsum
  refine packageEntries_eq_ok_iff.mpr ⟨?_, summarize', hsum', ?_⟩
  · rw [fault?_packageOf] at hfault ⊢
    intro g hg
    rcases List.mem_append.mp hg with hg | hg
    · exact hfault g (by simp [hg])
    rcases List.mem_cons.mp hg with rfl | hg
    · exact hf.parsed
    · exact hfault g (by simp [hg])
  · -- the other files have the same entries, and neither the old files nor the new one has any
    have hothers : ∀ g ∈ front ++ old ++ back,
        fileEntries importPath summarize' g = fileEntries importPath summarize g := by
      intro g hg
      have hfile : g ∈ (packageOf importPath dir (front ++ old ++ back)).files := by
        rwa [files_packageOf]
      have hentries := fileEntries_congr hfile hsame
      rwa [importPath_packageOf] at hentries
    have holdEntries : old.flatMap (fileEntries importPath summarize) = [] := by
      refine List.flatMap_eq_nil_iff.mpr fun g hg => ?_
      have hsilent := h.silent summarize hsum g (by simp [files_packageOf, hg]) (hold g hg)
      rwa [importPath_packageOf] at hsilent
    rw [Package.flatMap_written, Package.flatMap_written, files_packageOf, files_packageOf,
      importPath_packageOf, importPath_packageOf, List.flatMap_append, List.flatMap_append,
      List.flatMap_append, List.flatMap_cons, hf.entries, holdEntries, List.append_nil,
      List.nil_append]
    refine congrArg₂ (· ++ ·) ?_ ?_
    · exact List.flatMap_congr fun g hg => (hothers g (by simp [hg])).symm
    · exact List.flatMap_congr fun g hg => (hothers g (by simp [hg])).symm

end

/-! ## The second run -/

/-- A run with the check puts the rendered map in place as it is. -/
theorem generate_eq_ok_iff {d after : Disk} {tools : Toolbox} {o : Options} {path : String}
    {printed : Contents} {report : Report} {sink : Sink} (hformatter : o.formatter = .check)
    (hout : o.output = .file path) :
    generate d tools o sink = ⟨after, printed, .ok report⟩ ↔
      ∃ m loc, Harvests (loaderOf d tools o) o.mode .empty o.packages m ∧
        (Node.parse? (render o.package m o.mpl2).toList).isSome = true ∧
        sink.files = true ∧ d.Target path loc ∧
        after = d.put loc (render o.package m o.mpl2) ∧ printed = .text "" ∧
        report = ⟨o.packages.length, m.size, o.output⟩ := by
  have hcheck : ∀ m text, formatterOf d tools o (render o.package m o.mpl2) = .ok text ↔
      (Node.parse? (render o.package m o.mpl2).toList).isSome = true ∧
        text = render o.package m o.mpl2 := by
    intro m text
    unfold formatterOf
    rw [hformatter]
    show syntaxCheck _ = _ ↔ _
    rw [syntaxCheck, trimmedEnd_render]
    split
    next hparse => simp [hparse, eq_comm]
    next hparse => simp [hparse]
  unfold generate
  simp only [generateWith_eq_ok_iff, hcheck, hout, writeTo_file_eq_whole_iff]
  constructor
  · rintro ⟨m, _, hall, ⟨hparse, rfl⟩, ⟨hfiles, ⟨loc, hplace, rfl⟩, rfl⟩, rfl⟩
    exact ⟨m, loc, hall, hparse, hfiles, hplace, rfl, rfl, rfl⟩
  · rintro ⟨m, loc, hall, hparse, hfiles, hplace, rfl, rfl, rfl⟩
    exact ⟨m, _, hall, ⟨hparse, rfl⟩, ⟨hfiles, ⟨loc, hplace, rfl⟩, rfl⟩, rfl⟩

/-- A run whose file is written to a location can be repeated. -/
structure Repeatable (d : Disk) (tools : Toolbox) (o : Options) (loc : Location) : Prop where
  /-- The generated file is no module file. -/
  notModule : loc.getLast? ≠ some "go.mod"
  /-- The packages of which it becomes a file tolerate it. -/
  tolerated : ∀ path ∈ o.packages, ∀ p, loaderOf d tools o path = .ok p →
    ∀ file, LoadsFrom d loc p file → Tolerates o file p

/-- The packages are loaded again after a file was put in place. -/
theorem loaderOf_put {d : Disk} {tools : Toolbox} {o : Options} {out path text : String}
    {loc : Location} {p : Package} (hd : d.Named) (hloader : o.loader = .dir)
    (hplace : d.Target out loc) (hmod : loc.getLast? ≠ some "go.mod")
    (htext : (Node.parse? text.toList).isSome = true) (h : loaderOf d tools o path = .ok p)
    (hfault : p.fault? = none) :
    ∃ p', loaderOf (d.put loc text) tools o path = .ok p' ∧ Reloads d loc text p p' := by
  unfold loaderOf at h ⊢
  rw [hloader] at h ⊢
  exact directory_put hd hplace hmod htext h hfault

section

variable {d : Disk} {tools : Toolbox} {o : Options} {path : String} {loc : Location}
  {report : Report} {sink : Sink} (hd : d.Named) (hloader : o.loader = .dir)
  (hformatter : o.formatter = .check) (hout : o.output = .file path) (hplace : d.Target path loc)
  (h : (generate d tools o sink).result = .ok report)

include hformatter hout hplace h in
/-- What the first run has done. -/
theorem generate_first :
    ∃ m, Harvests (loaderOf d tools o) o.mode .empty o.packages m ∧
      (Node.parse? (render o.package m o.mpl2).toList).isSome = true ∧ sink.files = true ∧
      (generate d tools o sink).disk = d.put loc (render o.package m o.mpl2) ∧
      report = ⟨o.packages.length, m.size, o.output⟩ := by
  rcases hrun : generate d tools o sink with ⟨after, printed, result⟩
  rw [hrun] at h
  subst h
  obtain ⟨m, loc', hall, hparse, hfiles, hplace', rfl, -, hreport⟩ :=
    (generate_eq_ok_iff hformatter hout).mp hrun
  obtain rfl := hplace.unique hplace'
  exact ⟨m, hall, hparse, hfiles, rfl, hreport⟩

include hd hloader hformatter hout hplace h

/-- **Running again changes nothing**, whatever is on the disk and whatever is harvested, if no
module file is overwritten and every package of which the generated file becomes a file tolerates
it: the second run succeeds with the same report and leaves the disk of the first. -/
theorem generate_again (hrep : Repeatable d tools o loc) :
    generate (generate d tools o sink).disk tools o sink
      = ⟨(generate d tools o sink).disk, .text "", .ok report⟩ := by
  obtain ⟨m, hall, hparse, hfiles, hdisk, hreport⟩ := generate_first hformatter hout hplace h
  rw [hdisk]
  refine (generate_eq_ok_iff hformatter hout).mpr ⟨m, loc, ?_, hparse, hfiles,
    hplace.of_sameBut (hplace.sameBut _), (Disk.put_put _ _ _ _).symm, rfl, hreport⟩
  refine Harvests.of_pathEntries hall fun q hq es hes => ?_
  obtain ⟨hvalid, p, hload, hentries⟩ := pathEntries_eq_ok_iff.mp hes
  obtain ⟨hfault, -⟩ := packageEntries_eq_ok_iff.mp hentries
  obtain ⟨p', hload', hreloads⟩ := loaderOf_put hd hloader hplace hrep.notModule hparse hload hfault
  refine pathEntries_eq_ok_iff.mpr ⟨hvalid, p', hload', ?_⟩
  cases hreloads with
  | same => exact hentries
  | exchange hfile hp hold =>
    have htolerates := hrep.tolerated q hq p hload _ hfile
    subst hp
    exact htolerates.entries_exchange hold (declares_render _ htolerates.named m o.mpl2) hentries

/-- **Running again may fail.** The generated file becomes a file of a package that is harvested for
synopses, and another file of the package has another name. Then the second run is refused, and it
leaves the disk of the first. -/
theorem generate_again_refused (hmod : loc.getLast? ≠ some "go.mod") (hmode : o.mode = .synopsis)
    (hpackage : isPackageName o.package = true)
    (htest : Text.endsWith "_test".toList o.package.toList = false) {q : String}
    (hq : q ∈ o.packages) {p : Package} (hload : loaderOf d tools o q = .ok p) {file : String}
    (hfile : LoadsFrom d loc p file) {f : SourceFile} (hf : f ∈ p.files) (hkept : f.path ≠ file)
    (hcounts : Doc.View.counts f = true) (hother : f.packageName? ≠ some o.package) :
    ∃ e, generate (generate d tools o sink).disk tools o sink
      = ⟨(generate d tools o sink).disk, .text "", .error e⟩ := by
  obtain ⟨m, hall, hparse, -, hdisk, -⟩ := generate_first hformatter hout hplace h
  rw [hdisk]
  rcases hagain : generate (d.put loc (render o.package m o.mpl2)) tools o sink with
    ⟨after, printed, e | report'⟩
  · obtain ⟨rfl, hfails⟩ := generateWith_eq_error hagain
    obtain rfl := hfails.printed_eq (.inl (by rw [hout]; exact fun h => by cases h))
    exact ⟨e, rfl⟩
  -- a second run that succeeds would have a view of the package with both files
  exfalso
  obtain ⟨p₁, -, hload₁, hfault, -⟩ := hall.loaded hq
  obtain rfl : p = p₁ := Except.ok.inj (hload.symm.trans hload₁)
  obtain ⟨p', hload', hreloads⟩ := loaderOf_put hd hloader hplace hmod hparse hload hfault
  obtain ⟨m', -, hall', -⟩ := (generate_eq_ok_iff hformatter hout).mp hagain
  obtain ⟨p₂, summarize, hload₂, -, hsum⟩ := hall'.loaded hq
  obtain rfl : p' = p₂ := Except.ok.inj (hload'.symm.trans hload₂)
  obtain ⟨view, hview, -⟩ := view_of_summarizer hmode hsum
  cases hreloads with
  | same hnot => exact hnot ⟨file, hfile⟩
  | exchange hfile' hp hold =>
    obtain rfl := hfile.unique hfile'
    have hnew := declares_render file hpackage m o.mpl2
    have hnewCounts : Doc.View.counts (.ofSource file (render o.package m o.mpl2)) = true := by
      rw [Doc.View.counts, hnew.name, Option.any_some, htest]
      rfl
    rw [hp, files_packageOf, List.mem_append, List.mem_append] at hf
    refine hother (packageName?_eq_of_view hview ?_ (by simp) hcounts hnewCounts hnew.name
      (isEmpty_of_isPackageName hpackage))
    rcases hf with (hf | hf) | hf
    · exact List.mem_append_left _ hf
    · exact absurd (hold f hf) hkept
    · exact List.mem_append_right _ (List.mem_cons_of_mem _ hf)

end

/-! ## A package that gets the map of its own comments -/

/-- A module with a package of one file. -/
def smallModule : Disk where
  entries := [(["go.mod"], .file (.text "module example.com/m\n") 0o644), (["p"], .directory),
    (["p", "p.go"], .file (.text "package p\n\n// T is a type.\ntype T int\n") 0o644)]
  workingDirectory := []

/-- No program is installed. -/
def noTools : Toolbox :=
  ⟨⟨"go", none⟩, ⟨"gofmt", none⟩⟩

/-- The map of a package is written into its directory. -/
def intoPackage (package : String) : Options :=
  ⟨["./p"], package, .file "p/out.go", .synopsis, false, .dir, .check, none⟩

theorem named_smallModule : smallModule.Named := by
  decide

theorem target_smallModule : smallModule.Target "p/out.go" ["p", "out.go"] :=
  ⟨["p"], "out.go", by decide, by decide, by decide, rfl, by decide⟩

/-- The package is loaded, and what is written becomes its second file. -/
theorem loaded_smallModule (package : String) :
    ∃ p f, loaderOf smallModule noTools (intoPackage package) "./p" = .ok p ∧ p.name = "p" ∧
      p.files = [f] ∧ f.path = "/p/p.go" ∧ f.packageName? = some "p" ∧
      ∀ file, LoadsFrom smallModule ["p", "out.go"] p file ↔ file = "/p/out.go" := by
  have hfacts : (directory smallModule "/" "./p").toOption.map (fun p => (p.dir, p.name,
      p.files.map fun f => (f.path, f.packageName?)))
        = some (some "/p", "p", [("/p/p.go", some "p")]) := by decide +kernel
  show ∃ p f, directory smallModule "/" "./p" = .ok p ∧ _
  cases hload : directory smallModule "/" "./p" with
  | error e =>
    rw [hload] at hfacts
    cases hfacts
  | ok p =>
    rw [hload] at hfacts
    obtain ⟨hdir, hname, hfiles⟩ : p.dir = some "/p" ∧ p.name = "p" ∧
        p.files.map (fun f => (f.path, f.packageName?)) = [("/p/p.go", some "p")] := by
      simpa [Except.toOption] using hfacts
    obtain ⟨f, hf, hpath⟩ := List.map_eq_singleton_iff.mp hfiles
    obtain ⟨hpath, hclause⟩ := Prod.mk.inj hpath
    refine ⟨p, f, rfl, hname, hf, hpath, hclause, fun file => ⟨?_, ?_⟩⟩
    · rintro ⟨dir, hdir', dirLoc, name, -, heq, -, rfl⟩
      cases hdir.symm.trans hdir'
      have hlast : dirLoc ++ [name] = ["p"] ++ ["out.go"] := heq.symm
      obtain ⟨-, rfl⟩ := List.append_singleton_inj.mp hlast
      decide
    · rintro rfl
      exact ⟨"/p", hdir, ["p"], "out.go", by decide, rfl, by decide, by decide⟩

/-- The map is written for whatever package. -/
theorem generate_smallModule (package : String) (hpackage : isPackageName package = true) :
    (generate smallModule noTools (intoPackage package)).result
      = .ok ⟨1, 1, .file "p/out.go"⟩ := by
  have hfacts : (fun r => (r.1.size, r.2)) (harvestAll (directory smallModule "/") .synopsis .empty
      ["./p"]) = (1, .ok ()) := by decide +kernel
  rcases hall : harvestAll (directory smallModule "/") .synopsis .empty ["./p"] with ⟨m, result⟩
  rw [hall] at hfacts
  obtain ⟨hsize, rfl⟩ := Prod.mk.inj hfacts
  obtain ⟨children, hparse, -⟩ := parse?_render hpackage m false
  have hrun : generate smallModule noTools (intoPackage package) = ⟨_, _, .ok _⟩ :=
    (generate_eq_ok_iff rfl rfl).mpr ⟨m, ["p", "out.go"], harvestAll_eq_ok_iff.mp hall,
      Option.isSome_iff_exists.mpr ⟨_, hparse⟩, rfl, target_smallModule, rfl, rfl, rfl⟩
  rw [hrun, hsize]
  rfl

/-- The map is written for the package itself, and it can be written again. -/
theorem generate_again_into_package :
    (generate smallModule noTools (intoPackage "p")).result = .ok ⟨1, 1, .file "p/out.go"⟩ ∧
      generate (generate smallModule noTools (intoPackage "p")).disk noTools (intoPackage "p")
        = ⟨(generate smallModule noTools (intoPackage "p")).disk, .text "",
          .ok ⟨1, 1, .file "p/out.go"⟩⟩ := by
  have hrun := generate_smallModule "p" (by decide)
  have hlinks : (directory smallModule "/" "./p").toOption.all (fun p =>
      (Doc.View.ofPackage p).toOption.all fun view => p.places.all fun q =>
        decide (view.withCommentMap.synopsis q.doc = view.synopsis q.doc)) = true := by
    decide +kernel
  obtain ⟨p, f, hload, hname, hfiles, hpath, -, hfile⟩ := loaded_smallModule "p"
  have hnew : ∀ g ∈ p.files, g.path ≠ "/p/out.go" := by
    rw [hfiles, List.forall_mem_singleton, hpath]
    decide
  refine ⟨hrun, generate_again named_smallModule rfl rfl rfl target_smallModule hrun
    ⟨by decide, ?_⟩⟩
  intro path hpath' p' hload' file hfrom
  obtain rfl := List.mem_singleton.mp hpath'
  obtain rfl : p = p' := Except.ok.inj (hload.symm.trans hload')
  obtain rfl := (hfile file).mp hfrom
  refine ⟨by decide, fun _ _ g hg hsame => absurd hsame (hnew g hg), fun _ => hname,
    fun _ g hg hsame => absurd hsame (hnew g hg), fun _ view hview q hq _ => ?_⟩
  rw [show directory smallModule "/" "./p" = .ok p from hload] at hlinks
  have hview' : (p.places.all fun q => decide (view.withCommentMap.synopsis q.doc
      = view.synopsis q.doc)) = true := by
    simpa [Except.toOption, hview] using hlinks
  exact of_decide_eq_true (List.all_eq_true.mp hview' q hq)

/-- With the default package the map is not for the package in whose directory it is written. The
first run succeeds and the second does not. -/
theorem generate_again_mismatch :
    (intoPackage defaultPackage).loader = .dir ∧ (intoPackage defaultPackage).formatter = .check ∧
      (generate smallModule noTools (intoPackage defaultPackage)).result
        = .ok ⟨1, 1, .file "p/out.go"⟩ ∧
      ∃ e, generate (generate smallModule noTools (intoPackage defaultPackage)).disk noTools
          (intoPackage defaultPackage)
        = ⟨(generate smallModule noTools (intoPackage defaultPackage)).disk, .text "",
          .error e⟩ := by
  have hrun := generate_smallModule defaultPackage (by decide)
  obtain ⟨p, f, hload, -, hfiles, hpath, hclause, hfile⟩ := loaded_smallModule defaultPackage
  refine ⟨rfl, rfl, hrun, generate_again_refused named_smallModule rfl rfl rfl target_smallModule
    hrun (by decide) rfl (by decide) (by decide) List.mem_cons_self hload ((hfile _).mpr rfl)
    (by rw [hfiles]; exact List.mem_singleton_self f) ?_ ?_ ?_⟩
  · rw [hpath]
    decide
  · rw [Doc.View.counts, hclause]
    decide
  · rw [hclause]
    decide

end DocHarvest
