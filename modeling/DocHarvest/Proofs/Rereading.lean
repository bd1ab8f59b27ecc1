import DocHarvest.Proofs.Directories
import DocHarvest.Proofs.Volumes

/-!
# What a loader finds after a file was written

A package is loaded from the files of one directory, in name order. If a file is put in place
anywhere on the disk, a package that was loaded without faults is loaded again as it was, unless the
file has the name of a package file and lies in the directory of the package. Then it stands in the
package at its place in the order, instead of whatever was there before (`Reloads`,
`directory_put`).

The first file with a package clause names the package, so the order matters. What stands before and
behind the new name among the sorted names is what stood before and behind the old one
(`sorted_exchange`).
-/

namespace DocHarvest.Load

open DocHarvest.Host DocHarvest.Text

/-! ## Sorted names -/

/-- A list of names in name order. -/
def sorted (names : List String) : List String :=
  names.mergeSort fun a b => decide (a ≤ b)

theorem sorted_perm (names : List String) : (sorted names).Perm names :=
  List.mergeSort_perm _ _

theorem pairwise_sorted (names : List String) : (sorted names).Pairwise (· ≤ ·) := by
  refine List.Pairwise.imp of_decide_eq_true (List.pairwise_mergeSort ?_ ?_ names)
  · intro a b c hab hbc
    exact decide_eq_true (String.le_trans (of_decide_eq_true hab) (of_decide_eq_true hbc))
  · intro a b
    simpa using String.le_total a b

/-- Names in order are sorted. -/
theorem sorted_eq {names ordered : List String} (hperm : ordered.Perm names)
    (hordered : ordered.Pairwise (· ≤ ·)) : sorted names = ordered :=
  List.Perm.eq_of_pairwise (fun _ _ _ _ => String.le_antisymm) (pairwise_sorted names) hordered
    ((sorted_perm names).trans hperm.symm)

/-- One name is put into a list instead of all its occurrences there. Once sorted, the two lists
differ in nothing but how often they have that name at its place. -/
theorem sorted_exchange (name : String) (names : List String) :
    ∃ front back, sorted (name :: names.filter (· ≠ name)) = front ++ name :: back ∧
      sorted names = front ++ List.replicate (names.count name) name ++ back ∧
      ∀ n ∈ front ++ back, n ∈ names ∧ n ≠ name := by
  have hmem : name ∈ sorted (name :: names.filter (· ≠ name)) :=
    (sorted_perm _).mem_iff.mpr List.mem_cons_self
  obtain ⟨front, back, hsplit⟩ := List.append_of_mem hmem
  have hothers : (front ++ back).Perm (names.filter (· ≠ name)) := by
    have hperm := sorted_perm (name :: names.filter (· ≠ name))
    rw [hsplit] at hperm
    exact (List.perm_middle.symm.trans hperm).cons_inv
  refine ⟨front, back, hsplit, sorted_eq ?_ ?_, ?_⟩
  · -- both have the name as often as the list, and otherwise what is left of the list without it
    have hsame : names.filter (· = name) = List.replicate (names.count name) name :=
      List.filter_eq name
    calc front ++ List.replicate (names.count name) name ++ back
      _ = front ++ (List.replicate (names.count name) name ++ back) := List.append_assoc _ _ _
      List.Perm _ (List.replicate (names.count name) name ++ front ++ back) := by
        rw [← List.append_assoc]
        exact List.perm_append_comm.append_right back
      _ = List.replicate (names.count name) name ++ (front ++ back) := List.append_assoc _ _ _
      List.Perm _ (names.filter (· = name) ++ names.filter (· ≠ name)) := by
        rw [hsame]
        exact hothers.append_left _
      List.Perm _ names := by
        simpa using List.filter_append_perm (fun n => decide (n = name)) names
  · have hordered := pairwise_sorted (name :: names.filter (· ≠ name))
    rw [hsplit] at hordered
    obtain ⟨hfront, hcons, hcross⟩ := List.pairwise_append.mp hordered
    obtain ⟨hback, htail⟩ := List.pairwise_cons.mp hcons
    refine List.pairwise_append.mpr ⟨List.pairwise_append.mpr ⟨hfront, ?_, ?_⟩, htail, ?_⟩
    · exact List.pairwise_replicate.mpr (Or.inr (String.le_refl name))
    · intro a ha b hb
      rw [List.eq_of_mem_replicate hb]
      exact hcross a ha name List.mem_cons_self
    · intro a ha b hb
      rcases List.mem_append.mp ha with ha | ha
      · exact hcross a ha b (List.mem_cons_of_mem _ hb)
      · rw [List.eq_of_mem_replicate ha]
        exact hback b hb
  · intro n hn
    simpa using hothers.mem_iff.mp hn

/-! ## Files that are read -/

section

variable {d : Disk} {p q : Package} {paths : List String}

/-- Files that stand on the disk. -/
def OnDisk (d : Disk) (fs : List SourceFile) : Prop :=
  ∀ f ∈ fs, ∃ source, d.readText f.path = .ok source ∧ f = .ofSource f.path source

/-- Files are added to a package if all of them can be read. -/
theorem addFiles_eq_ok_iff :
    addFiles d p paths = .ok q ↔
      ∃ fs, fs.map SourceFile.path = paths ∧ OnDisk d fs ∧ q = fs.foldl Package.addFile p := by
  induction paths generalizing p with
  | nil =>
    constructor
    · intro h
      cases h
      exact ⟨[], rfl, fun f hf => absurd hf List.not_mem_nil, rfl⟩
    · rintro ⟨fs, hpaths, -, rfl⟩
      rw [List.map_eq_nil_iff.mp hpaths]
      rfl
  | cons path paths ih =>
    rw [addFiles]
    constructor
    · intro h
      split at h
      next => cases h
      next source hread =>
        obtain ⟨fs, hpaths, hdisk, rfl⟩ := ih.mp h
        refine ⟨.ofSource path source :: fs, by rw [List.map_cons, hpaths]; rfl, ?_, rfl⟩
        exact List.forall_mem_cons.mpr ⟨⟨source, hread, rfl⟩, hdisk⟩
    · rintro ⟨fs, hpaths, hdisk, rfl⟩
      obtain ⟨f, fs, rfl, rfl, hrest⟩ := List.map_eq_cons_iff.mp hpaths
      obtain ⟨⟨source, hread, hf⟩, hdisk⟩ := List.forall_mem_cons.mp hdisk
      rw [hread]
      exact ih.mpr ⟨fs, hrest, hdisk, by rw [List.foldl_cons, ← hf]⟩

/-- What files add to a package. -/
theorem foldl_addFile (p : Package) (fs : List SourceFile) :
    ∃ name, fs.foldl Package.addFile p = { p with
      name := name
      files := p.files ++ fs
      diagnostics := p.diagnostics ++ fs.flatMap SourceFile.diagnostics } := by
  induction fs generalizing p with
  | nil => exact ⟨p.name, by simp⟩
  | cons f fs ih =>
    obtain ⟨name, hname⟩ := ih (p.addFile f)
    refine ⟨name, ?_⟩
    rw [List.foldl_cons, hname]
    simp [Package.addFile]

/-- A package that has a name keeps it. -/
theorem name_foldl_addFile {p : Package} (fs : List SourceFile) (h : p.name.isEmpty = false) :
    (fs.foldl Package.addFile p).name = p.name := by
  induction fs generalizing p with
  | nil => rfl
  | cons f fs ih =>
    have hname : (p.addFile f).name = p.name := by
      rw [Package.addFile, if_neg (Bool.eq_false_iff.mp h)]
    rw [List.foldl_cons, ih (by rw [hname]; exact h), hname]

theorem fault?_eq_none_iff : p.fault? = none ↔ p.diagnostics = [] ∧ p.moduleError = none := by
  rw [Package.fault?, PackageFault.of?]
  split
  next h => simpa using h
  next h => simpa using h

end

/-! ## Packages without faults -/

/-- A package with some files from a directory. -/
def packageOf (importPath dir : String) (fs : List SourceFile) : Package :=
  { fs.foldl Package.addFile (.empty importPath) with dir := some dir }

/-- The names of package files that lead to files, in a directory and at its location. -/
def packageNames (d : Disk) (dir : String) (dirLoc : Location) : List String :=
  (d.namesIn dirLoc).filter fun n => isPackageFile (.text n) && d.isFile (Path.join dir n)

/-- They are what is loaded from the directory. -/
theorem packageFiles_namesIn (d : Disk) (dir : String) (dirLoc : Location) :
    packageFiles d dir ((d.namesIn dirLoc).map .text)
      = (sorted (packageNames d dir dirLoc)).map (Path.join dir) := by
  rw [packageFiles_eq, filterMap_text?_map_text]
  rfl

/-- The files of a directory, in the order in which they are loaded. -/
structure FilesOf (d : Disk) (dir : String) (fs : List SourceFile) : Prop where
  located : ∃ dirLoc, d.locateDirectory dir = .ok dirLoc ∧
    fs.map SourceFile.path = (sorted (packageNames d dir dirLoc)).map (Path.join dir)
  nonempty : fs ≠ []
  onDisk : OnDisk d fs

section

variable {d : Disk} {path dir : String} {p : Package}

/-- Nothing but the diagnostics says that there are no files. -/
theorem reportEmpty_eq (p : Package) (dir : String) (files : List String) :
    reportEmpty p dir files
      = { p with diagnostics := p.diagnostics ++ if files = [] then [noFiles dir] else [] } := by
  unfold reportEmpty
  cases files with
  | nil => rfl
  | cons file files => simp

/-- Files are loaded if they can all be read. -/
theorem loadFiles_eq_ok_iff {p₀ : Package} {files : List String} :
    loadFiles d dir p₀ files = .ok p ↔
      ∃ fs : List SourceFile, fs.map SourceFile.path = files ∧ OnDisk d fs ∧
        p = { fs.foldl Package.addFile (reportEmpty p₀ dir files) with dir := some dir } := by
  rw [loadFiles, bind_eq_ok]
  simp only [addFiles_eq_ok_iff]
  constructor
  · intro h
    obtain ⟨q, ⟨fs, hpaths, hdisk, rfl⟩, hp⟩ := h
    exact ⟨fs, hpaths, hdisk, (Except.ok.inj hp).symm⟩
  · intro h
    obtain ⟨fs, hpaths, hdisk, rfl⟩ := h
    exact ⟨_, ⟨fs, hpaths, hdisk, rfl⟩, rfl⟩

/-- From a directory that is there its package files are loaded. -/
theorem loadDirectory_eq_loadFiles {dirLoc : Location} (hdir : d.locateDirectory dir = .ok dirLoc)
    (p₀ : Package) :
    loadDirectory d path dir p₀
      = loadFiles d dir p₀ ((sorted (packageNames d dir dirLoc)).map (Path.join dir)) := by
  rw [loadDirectory_disk, Disk.readDirectory_eq_ok_iff.mpr ⟨dirLoc, hdir, rfl⟩,
    ← packageFiles_namesIn]

/-- A package keeps the error of its module. -/
theorem moduleError_of_loadDirectory {p₀ : Package} (h : loadDirectory d path dir p₀ = .ok p) :
    p.moduleError = p₀.moduleError := by
  unfold loadDirectory at h
  split at h
  next =>
    cases h
    rfl
  next =>
    obtain ⟨fs, -, -, rfl⟩ := loadFiles_eq_ok_iff.mp h
    obtain ⟨name, hfold⟩ := foldl_addFile (reportEmpty p₀ dir _) fs
    rw [hfold, reportEmpty_eq]

/-- A directory that is loaded without faults is loaded to its files. -/
theorem loadDirectory_eq_ok_iff (hfault : p.fault? = none) (importPath : String) :
    loadDirectory d path dir (.empty importPath) = .ok p ↔
      ∃ fs, FilesOf d dir fs ∧ p = packageOf importPath dir fs := by
  obtain ⟨hdiagnostics, -⟩ := fault?_eq_none_iff.mp hfault
  constructor
  · intro h
    cases hdir : d.locateDirectory dir with
    | error cause =>
      rw [loadDirectory_disk, Disk.readDirectory, hdir] at h
      cases h
      cases hdiagnostics
    | ok dirLoc =>
      rw [loadDirectory_eq_loadFiles hdir] at h
      obtain ⟨fs, hpaths, hdisk, rfl⟩ := loadFiles_eq_ok_iff.mp h
      rw [← hpaths] at hdiagnostics ⊢
      cases fs with
      | nil => cases hdiagnostics -- a package without files has a diagnostic
      | cons f fs => exact ⟨f :: fs, ⟨⟨dirLoc, hdir, hpaths⟩, List.cons_ne_nil f fs, hdisk⟩, rfl⟩
  · rintro ⟨fs, ⟨⟨dirLoc, hdir, hpaths⟩, hne, hdisk⟩, rfl⟩
    have hsome : (fs.map SourceFile.path).isEmpty = false :=
      List.isEmpty_eq_false_iff.mpr fun hnil => hne (List.map_eq_nil_iff.mp hnil)
    rw [loadDirectory_eq_loadFiles hdir, ← hpaths, loadFiles_eq_ok_iff]
    refine ⟨fs, rfl, hdisk, ?_⟩
    rw [reportEmpty, hsome, if_neg Bool.false_ne_true]
    rfl

end

/-! ## The new file among the files of its directory -/

section

variable {d : Disk} {out dir text name n : String} {outDir dirLoc : Location}
  {fs : List SourceFile} (hd : d.Named) (hout : d.Target out (outDir ++ [name]))
  (hdir : d.locateDirectory dir = .ok dirLoc)
include hd hout hdir

/-- What else is in the directory is found there as before. -/
theorem locate_join_put (hn : n ∈ d.namesIn dirLoc) (hne : dirLoc ++ [n] ≠ outDir ++ [name])
    (found : Location × DiskEntry) :
    (d.put (outDir ++ [name]) text).locate (Path.join dir n) = .ok found ↔
      d.locate (Path.join dir n) = .ok found := by
  have hsame := hout.sameBut text
  have hdir' := hsame.locateDirectory_eq_ok_iff.mpr hdir
  have hname := Disk.isName_of_mem_namesIn hd hn
  rw [Disk.locate_join_iff hdir' hname, Disk.locate_join_iff hdir hname]
  refine and_congr_right fun hloc => ?_
  rw [hloc, hsame.at?_eq hne]

theorem isFile_join_put (hn : n ∈ d.namesIn dirLoc) (hne : dirLoc ++ [n] ≠ outDir ++ [name]) :
    (d.put (outDir ++ [name]) text).isFile (Path.join dir n) = d.isFile (Path.join dir n) := by
  rw [Bool.eq_iff_iff, Disk.isFile_iff, Disk.isFile_iff]
  simp only [locate_join_put hd hout hdir hn hne]

theorem onDisk_put (h : OnDisk d fs)
    (hfs : ∀ f ∈ fs, ∃ n ∈ d.namesIn dirLoc,
      dirLoc ++ [n] ≠ outDir ++ [name] ∧ Path.join dir n = f.path) :
    OnDisk (d.put (outDir ++ [name]) text) fs := by
  intro f hf
  obtain ⟨n, hn, hne, hpath⟩ := hfs f hf
  obtain ⟨source, hsource, heq⟩ := h f hf
  refine ⟨source, ?_, heq⟩
  rw [← hpath, Disk.readText_eq_ok_iff] at hsource ⊢
  simpa only [locate_join_put hd hout hdir hn hne] using hsource

/-- The names of package files are as before, unless the new file is one of them. -/
theorem packageNames_put_of_not (h : ¬(dirLoc = outDir ∧ isPackageFile (.text name) = true)) :
    packageNames (d.put (outDir ++ [name]) text) dir dirLoc = packageNames d dir dirLoc := by
  have hcongr : (d.namesIn dirLoc).filter (fun n => isPackageFile (.text n) &&
      (d.put (outDir ++ [name]) text).isFile (Path.join dir n)) = packageNames d dir dirLoc := by
    refine List.filter_congr fun n hn => ?_
    cases hfile : isPackageFile (.text n) with
    | false => rfl
    | true =>
      rw [isFile_join_put hd hout hdir hn]
      intro heq
      rw [List.append_singleton_inj] at heq
      exact h ⟨heq.1, heq.2 ▸ hfile⟩
  rw [packageNames, Disk.namesIn_put, ← hcongr]
  split
  next heq =>
    have hname : isPackageFile (.text name) = false :=
      Bool.eq_false_iff.mpr fun hname => h ⟨heq, hname⟩
    rw [List.filter_cons_of_neg (by simp [hname]), List.filter_filter]
    refine List.filter_congr fun n hn => ?_
    by_cases hn : n = name
    · simp [hn, hname]
    · simp [hn]
  next => rfl

omit hout in
/-- The new file comes to the names of package files, or takes the place of an old one. -/
theorem packageNames_put_self (hout : d.Target out (dirLoc ++ [name]))
    (hfile : isPackageFile (.text name) = true) :
    packageNames (d.put (dirLoc ++ [name]) text) dir dirLoc
      = name :: (packageNames d dir dirLoc).filter (· ≠ name) := by
  obtain ⟨_, _, hname, heq⟩ := hout.isName
  obtain ⟨rfl, rfl⟩ := List.append_singleton_inj.mp heq
  have hthere : (d.put (dirLoc ++ [name]) text).isFile (Path.join dir name) = true := by
    have hdir' := (hout.sameBut text).locateDirectory_eq_ok_iff.mpr hdir
    exact Disk.isFile_iff.mpr ⟨_, _, _,
      (Disk.locate_join_iff hdir' hname).mpr ⟨rfl, Disk.at?_put d text hout.ne_nil⟩⟩
  rw [packageNames, packageNames, Disk.namesIn_put, if_pos rfl,
    List.filter_cons_of_pos (by simp [hfile, hthere]), List.filter_filter, List.filter_filter]
  refine congrArg (name :: ·) (List.filter_congr fun n hn => ?_)
  by_cases heq : n = name
  · simp [heq]
  · rw [isFile_join_put hd hout hdir hn (by simpa using heq), Bool.and_comm]

/-- If the new file is no package file of the directory, the files of the directory stay the
same. -/
theorem filesOf_put_of_not (hhere : ¬(dirLoc = outDir ∧ isPackageFile (.text name) = true))
    (h : FilesOf d dir fs) : FilesOf (d.put (outDir ++ [name]) text) dir fs := by
  obtain ⟨⟨dirLoc', hdirLoc', hpaths⟩, hne, hdisk⟩ := h
  obtain rfl : dirLoc = dirLoc' := Except.ok.inj (hdir.symm.trans hdirLoc')
  have hdir' := (hout.sameBut text).locateDirectory_eq_ok_iff.mpr hdir
  refine ⟨⟨dirLoc, hdir', by rw [hpaths, packageNames_put_of_not hd hout hdir hhere]⟩, hne, ?_⟩
  refine onDisk_put hd hout hdir hdisk fun f hf => ?_
  have hpath : f.path ∈ fs.map SourceFile.path := List.mem_map_of_mem hf
  rw [hpaths] at hpath
  obtain ⟨n, hn, hjoin⟩ := List.mem_map.mp hpath
  obtain ⟨hin, hcond⟩ := List.mem_filter.mp ((sorted_perm _).mem_iff.mp hn)
  refine ⟨n, hin, fun heq => hhere ?_, hjoin⟩
  rw [List.append_singleton_inj] at heq
  exact ⟨heq.1, heq.2 ▸ (Bool.and_eq_true_iff.mp hcond).1⟩

omit hout in
/-- If the new file is a package file of the directory, it stands between the files before and those
behind it, instead of what was there. -/
theorem filesOf_put_self (hout : d.Target out (dirLoc ++ [name]))
    (hfile : isPackageFile (.text name) = true) (h : FilesOf d dir fs) :
    ∃ front old back, fs = front ++ old ++ back ∧ (∀ f ∈ old, f.path = Path.join dir name) ∧
      FilesOf (d.put (dirLoc ++ [name]) text) dir
        (front ++ .ofSource (Path.join dir name) text :: back) := by
  obtain ⟨⟨dirLoc', hdirLoc', hpaths⟩, -, hdisk⟩ := h
  obtain rfl : dirLoc = dirLoc' := Except.ok.inj (hdir.symm.trans hdirLoc')
  have hdir' := (hout.sameBut text).locateDirectory_eq_ok_iff.mpr hdir
  obtain ⟨_, _, hname, heq⟩ := hout.isName
  obtain ⟨rfl, rfl⟩ := List.append_singleton_inj.mp heq
  obtain ⟨front, back, hnew, hold, hothers⟩ := sorted_exchange name (packageNames d dir dirLoc)
  rw [hold, List.map_append, List.map_append] at hpaths
  obtain ⟨fs', backFiles, rfl, hpaths, hback⟩ := List.map_eq_append_iff.mp hpaths
  obtain ⟨frontFiles, oldFiles, rfl, hfront, holdFiles⟩ := List.map_eq_append_iff.mp hpaths
  have hkept : OnDisk (d.put (dirLoc ++ [name]) text) (frontFiles ++ backFiles) := by
    refine onDisk_put hd hout hdir (fun f hf => hdisk f ?_) fun f hf => ?_
    · rcases List.mem_append.mp hf with hf | hf <;> simp [hf]
    · have hpath : f.path ∈ (front ++ back).map (Path.join dir) := by
        rw [List.map_append, ← hfront, ← hback, ← List.map_append]
        exact List.mem_map_of_mem hf
      obtain ⟨n, hn, hjoin⟩ := List.mem_map.mp hpath
      obtain ⟨hin, hdiffers⟩ := hothers n hn
      exact ⟨n, List.mem_of_mem_filter hin, by simpa using hdiffers, hjoin⟩
  have hread : (d.put (dirLoc ++ [name]) text).readText (Path.join dir name) = .ok text :=
    Disk.readText_eq_ok_iff.mpr ⟨_, _,
      (Disk.locate_join_iff hdir' hname).mpr ⟨rfl, Disk.at?_put d text hout.ne_nil⟩⟩
  refine ⟨frontFiles, oldFiles, backFiles, rfl, ?_, ⟨dirLoc, hdir', ?_⟩, by simp, ?_⟩
  · intro f hf
    have hpath : f.path ∈ oldFiles.map SourceFile.path := List.mem_map_of_mem hf
    rw [holdFiles, List.map_replicate] at hpath
    exact List.eq_of_mem_replicate hpath
  · rw [packageNames_put_self hd hdir hout hfile, hnew, List.map_append, List.map_append,
      List.map_cons, List.map_cons, hfront, hback]
    rfl
  · intro f hf
    rcases List.mem_append.mp hf with hf | hf
    · exact hkept f (List.mem_append_left _ hf)
    rcases List.mem_cons.mp hf with rfl | hf
    · exact ⟨text, hread, rfl⟩
    · exact hkept f (List.mem_append_right _ hf)

end

/-- What is at a location is a package file of a directory, and has a path there. -/
def PackageFileAt (d : Disk) (loc : Location) (dir file : String) : Prop :=
  ∃ dirLoc name, d.locateDirectory dir = .ok dirLoc ∧ loc = dirLoc ++ [name] ∧
    isPackageFile (.text name) = true ∧ file = Path.join dir name

/-- If a file is put in place, the files of a directory stay the same, or it takes its place among
them. -/
theorem filesOf_put {d : Disk} {out dir : String} {loc : Location} {fs : List SourceFile}
    (hd : d.Named) (hout : d.Target out loc) (text : String) (h : FilesOf d dir fs) :
    (¬(∃ file, PackageFileAt d loc dir file) ∧ FilesOf (d.put loc text) dir fs) ∨
      ∃ file front old back, PackageFileAt d loc dir file ∧ fs = front ++ old ++ back ∧
        (∀ f ∈ old, f.path = file) ∧
        FilesOf (d.put loc text) dir (front ++ .ofSource file text :: back) := by
  obtain ⟨outDir, name, -, rfl⟩ := hout.isName
  obtain ⟨dirLoc, hdir, -⟩ := h.located
  by_cases hhere : dirLoc = outDir ∧ isPackageFile (.text name) = true
  · obtain ⟨rfl, hfile⟩ := hhere
    obtain ⟨front, old, back, hfs, hold, hnew⟩ := filesOf_put_self hd hdir hout hfile h
    exact .inr ⟨_, front, old, back, ⟨dirLoc, name, hdir, rfl, hfile, rfl⟩, hfs, hold, hnew⟩
  · refine .inl ⟨?_, filesOf_put_of_not hd hout hdir hhere h⟩
    rintro ⟨_, dirLoc', name', hdirLoc', heq, hfile, -⟩
    obtain rfl : dirLoc = dirLoc' := Except.ok.inj (hdir.symm.trans hdirLoc')
    obtain ⟨rfl, rfl⟩ := List.append_singleton_inj.mp heq
    exact hhere ⟨rfl, hfile⟩

/-! ## Packages that are loaded again -/

/-- What is at a location is one of the files from which a package is loaded, and has a path in its
directory. -/
def LoadsFrom (d : Disk) (loc : Location) (p : Package) (file : String) : Prop :=
  ∃ dir, p.dir = some dir ∧ PackageFileAt d loc dir file

/-- It has one such path. -/
theorem LoadsFrom.unique {d : Disk} {loc : Location} {p : Package} {file file' : String}
    (h : LoadsFrom d loc p file) (h' : LoadsFrom d loc p file') : file = file' := by
  obtain ⟨dir, hdir, dirLoc, name, -, rfl, -, rfl⟩ := h
  obtain ⟨dir', hdir', dirLoc', name', -, heq, -, rfl⟩ := h'
  cases hdir.symm.trans hdir'
  obtain ⟨-, rfl⟩ := List.append_singleton_inj.mp heq
  rfl

/-- A package that is loaded again after a text was put at a location. It is the same, unless it is
loaded from there; then the new file has taken the place of what was there. -/
inductive Reloads (d : Disk) (loc : Location) (text : String) (p : Package) : Package → Prop
  | same : (¬∃ file, LoadsFrom d loc p file) → Reloads d loc text p p
  | exchange {importPath dir file : String} {front old back : List SourceFile} :
      LoadsFrom d loc p file → p = packageOf importPath dir (front ++ old ++ back) →
      (∀ f ∈ old, f.path = file) →
      Reloads d loc text p (packageOf importPath dir (front ++ .ofSource file text :: back))

section

variable {d d' : Disk} {out dir root path text : String} {loc : Location} {p : Package}

/-- A module is found as before, for its file is not the one in which the disks differ. -/
theorem findModule_eq (h : Disk.SameBut loc d d') (hmod : loc.getLast? ≠ some "go.mod")
    (cs : List Component) : findModule d' cs = findModule d cs := by
  unfold findModule
  refine congrArg (List.findSome? · _) (funext fun up => ?_)
  have hread : ∀ contents, d'.readText (Path.join (Path.ofComponents up) "go.mod") = .ok contents ↔
      d.readText (Path.join (Path.ofComponents up) "go.mod") = .ok contents := fun contents =>
    h.readText_join_iff isName_goMod hmod
  cases hd : d.readText (Path.join (Path.ofComponents up) "go.mod") with
  | ok contents => rw [(hread contents).mpr hd]
  | error e =>
    cases hd' : d'.readText (Path.join (Path.ofComponents up) "go.mod") with
    | ok contents => rw [(hread contents).mp hd'] at hd; cases hd
    | error e' => rfl

/-- A package whose files are exchanged for others without syntax errors has no faults either. -/
theorem fault?_packageOf (importPath dir : String) (fs : List SourceFile) :
    (packageOf importPath dir fs).fault? = none ↔ ∀ f ∈ fs, f.tree.isSome = true := by
  obtain ⟨name, hfold⟩ := foldl_addFile (.empty importPath) fs
  rw [fault?_eq_none_iff, packageOf, hfold]
  simp [Package.empty, SourceFile.diagnostics, Option.isSome_iff_ne_none]

theorem loadDirectory_put (hd : d.Named) (hout : d.Target out loc) {importPath : String}
    (h : loadDirectory d path dir (.empty importPath) = .ok p) (hfault : p.fault? = none)
    (htext : (Syntax.Node.parse? text.toList).isSome = true) :
    ∃ p', loadDirectory (d.put loc text) path dir (.empty importPath) = .ok p' ∧
      Reloads d loc text p p' := by
  obtain ⟨fs, hfs, rfl⟩ := (loadDirectory_eq_ok_iff hfault importPath).mp h
  rcases filesOf_put hd hout text hfs with
    ⟨hnot, hsame⟩ | ⟨file, front, old, back, hfile, rfl, hold, hnew⟩
  · refine ⟨_, (loadDirectory_eq_ok_iff hfault importPath).mpr ⟨fs, hsame, rfl⟩, .same ?_⟩
    rintro ⟨file, dir', hdir, hfile⟩
    cases hdir
    exact hnot ⟨file, hfile⟩
  · refine ⟨_, (loadDirectory_eq_ok_iff ?_ importPath).mpr ⟨_, hnew, rfl⟩,
      .exchange ⟨dir, rfl, hfile⟩ rfl hold⟩
    rw [fault?_packageOf] at hfault ⊢
    intro f hf
    rcases List.mem_append.mp hf with hf | hf
    · exact hfault f (by simp [hf])
    rcases List.mem_cons.mp hf with rfl | hf
    · exact htext
    · exact hfault f (by simp [hf])

/-- **A package is loaded again.** A text that parses is put in place, and not as a module file.
Then a package that was loaded without faults is loaded again, and all that can change is that the
new file is one of its files. -/
theorem directory_put (hd : d.Named) (hout : d.Target out loc)
    (hmod : loc.getLast? ≠ some "go.mod") (htext : (Syntax.Node.parse? text.toList).isSome = true)
    (h : directory d root path = .ok p) (hfault : p.fault? = none) :
    ∃ p', directory (d.put loc text) root path = .ok p' ∧ Reloads d loc text p p' := by
  have hmodule := findModule_eq (hout.sameBut text) hmod
  unfold directory at h ⊢
  split at h
  next hdirectory =>
    rw [if_pos hdirectory]
    unfold loadDirectoryPath at h ⊢
    simp only [Volume.followed_disk, hmodule] at h ⊢
    cases hfound : findModule d (Path.components (Path.normalize (Path.join root path))) with
    | none =>
      simp only [hfound] at h
      have hmissing := moduleError_of_loadDirectory h
      rw [(fault?_eq_none_iff.mp hfault).2] at hmissing
      cases hmissing
    | some m =>
      simp only [hfound] at h
      exact loadDirectory_put hd hout h hfault htext
  next hdirectory =>
    rw [if_neg hdirectory]
    unfold loadImportPath at h ⊢
    rw [Volume.followed_disk] at h ⊢
    rw [hmodule]
    split at h
    next hnone =>
      cases h
      cases (fault?_eq_none_iff.mp hfault).2
    next m hm =>
      split at h
      next hnone =>
        cases h
        cases (fault?_eq_none_iff.mp hfault).1
      next rest hrest =>
        exact loadDirectory_put hd hout h hfault htext

end

end DocHarvest.Load
