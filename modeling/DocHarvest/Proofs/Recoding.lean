import DocHarvest.Load.Listing
import DocHarvest.Proofs.Batches
import DocHarvest.Proofs.Directories
import DocHarvest.Proofs.LineEndings
import DocHarvest.Proofs.Listings

/-!
# Packages whose files are recoded

Packages can be kept in memory or on a disk, where they are found by directory or through a listing,
and they can be handed over as they are (`Store`). If all files of a store are recoded, then its
loader finds the same packages with their files recoded (`Recoded`), and it fails where it failed
before. So nothing changes in a harvest (`harvest_recoded`).

On a disk every file is recoded, also those that are no source. Paths lead where they led before,
because contents do not matter on the way, and a module file names the same module, because the
carriage return at the end of a line is white space there (`findModule_recoded`).
-/

namespace DocHarvest.Host

open DocHarvest.Syntax DocHarvest.Text

/-! ## Disks -/

/-- The contents with a carriage return before each line feed. -/
def Contents.recoded : Contents → Contents
  | .text s => .text (Text.recoded s)
  | .binary bytes => .binary (bytes.flatMap fun b => if b = 10 then [13, 10] else [b])

namespace DiskEntry

/-- A file is recoded, a directory stays as it is. -/
def recoded : DiskEntry → DiskEntry
  | .directory => .directory
  | .file contents mode => .file contents.recoded mode

/-- The text of a file, if it has text. -/
def text? : DiskEntry → Option String
  | .directory => none
  | .file contents _ => contents.text?

end DiskEntry

namespace Disk

/-- The disk with all its files recoded. -/
def recoded (d : Disk) : Disk :=
  { d with entries := d.entries.map fun e => (e.1, e.2.recoded) }

/-- The parser does not tell the line ends of any file apart. -/
def IgnoresReturns (d : Disk) : Prop :=
  ∀ e ∈ d.entries, ∀ s ∈ e.2.text?, Node.IgnoresReturns s

instance (d : Disk) : Decidable d.IgnoresReturns :=
  inferInstanceAs (Decidable (∀ e ∈ d.entries, ∀ s ∈ e.2.text?, Node.IgnoresReturns s))

variable (d : Disk)

theorem at?_recoded (loc : Location) : d.recoded.at? loc = (d.at? loc).map DiskEntry.recoded := by
  have hlookup : ∀ entries : List (Location × DiskEntry),
      (entries.map fun e => (e.1, e.2.recoded)).lookup loc
        = (entries.lookup loc).map DiskEntry.recoded := by
    intro entries
    induction entries with
    | nil => rfl
    | cons e entries ih =>
      rw [List.map_cons, List.lookup_cons, List.lookup_cons, ih]
      cases loc == e.1 with
      | true => rfl
      | false => rfl
  unfold at?
  split
  next => rfl
  next => exact hlookup d.entries

/-- The step: one piece of a path leads to the same location. -/
theorem step_recoded (loc : Location) (piece : List Char) :
    d.recoded.step loc piece = d.step loc piece := by
  unfold step
  rw [at?_recoded]
  cases d.at? loc with
  | none => rfl
  | some entry =>
    cases entry with
    | file contents mode => rfl
    | directory => simp only [Option.map_some, DiskEntry.recoded, at?_recoded, Option.isSome_map]

/-- The run: a path leads to the same location, and what is there is recoded. -/
theorem locate_recoded (path : String) :
    d.recoded.locate path = (d.locate path).map fun found => (found.1, found.2.recoded) := by
  have hstep : d.recoded.step = d.step := funext fun loc => funext (d.step_recoded loc)
  have hstart : d.recoded.startOf path = d.startOf path := rfl
  unfold locate
  rw [hstep, hstart]
  split
  next => rfl
  next =>
    cases (split '/' path.toList).foldlM d.step (d.startOf path) with
    | error e => rfl
    | ok loc =>
      simp only [bind, Except.bind, at?_recoded]
      cases d.at? loc with
      | none => rfl
      | some entry => rfl

theorem locateDirectory_recoded (path : String) :
    d.recoded.locateDirectory path = d.locateDirectory path := by
  unfold locateDirectory
  rw [locate_recoded]
  cases d.locate path with
  | error e => rfl
  | ok found =>
    obtain ⟨loc, entry⟩ := found
    cases entry with
    | directory => rfl
    | file contents mode => rfl

theorem isFile_recoded (path : String) : d.recoded.isFile path = d.isFile path := by
  unfold isFile
  rw [locate_recoded]
  cases d.locate path with
  | error e => rfl
  | ok found =>
    obtain ⟨loc, entry⟩ := found
    cases entry with
    | directory => rfl
    | file contents mode => rfl

theorem readDirectory_recoded (path : String) :
    d.recoded.readDirectory path = d.readDirectory path := by
  unfold readDirectory
  rw [locateDirectory_recoded]
  simp only [recoded, List.filterMap_map]
  rfl

/-- What is read is recoded, and what cannot be read still cannot be read. -/
theorem readText_recoded (path : String) :
    d.recoded.readText path = (d.readText path).map Text.recoded := by
  unfold readText
  rw [locate_recoded]
  cases d.locate path with
  | error e => rfl
  | ok found =>
    obtain ⟨loc, entry⟩ := found
    cases entry with
    | directory => rfl
    | file contents mode =>
      cases contents with
      | text s => rfl
      | binary bytes => rfl

variable {d}

theorem IgnoresReturns.of_readText (h : d.IgnoresReturns) {path text : String}
    (htext : d.readText path = .ok text) : Node.IgnoresReturns text := by
  obtain ⟨loc, mode, hfound⟩ := readText_eq_ok_iff.mp htext
  obtain ⟨-, -, hat⟩ := locate_eq_ok_iff.mp hfound
  unfold at? at hat
  split at hat
  next => cases hat
  next =>
    obtain ⟨before, after, hsplit, -⟩ := List.lookup_eq_some_iff.mp hat
    refine h (loc, .file (.text text) mode) ?_ text rfl
    rw [hsplit]
    simp

end Disk

end DocHarvest.Host

namespace DocHarvest.Load

open DocHarvest.Syntax DocHarvest.Host DocHarvest.Harvest

/-! ## Loaders -/

/-- What a loader finds, and what is found once all files are recoded. -/
inductive Recoded : Except LoadError Package → Except LoadError Package → Prop
  | error (e : LoadError) : Recoded (.error e) (.error e)
  | ok {p : Package} : p.IgnoresReturns → Recoded (.ok p) (.ok p.recoded)

/-- What is done to a package without looking at its files is done to both. -/
theorem Recoded.map {x y : Except LoadError Package} (h : Recoded x y) {g : Package → Package}
    (hg : ∀ p, g p.recoded = (g p).recoded) (hfiles : ∀ p, (g p).files = p.files) :
    Recoded (x >>= fun p => pure (g p)) (y >>= fun p => pure (g p)) := by
  cases h with
  | error e => exact .error e
  | @ok p hp =>
    show Recoded (.ok (g p)) (.ok (g p.recoded))
    rw [hg]
    refine .ok ?_
    rw [Package.IgnoresReturns, hfiles]
    exact hp

theorem ignoresReturns_ofSource {source : String} (h : Node.IgnoresReturns source)
    (path : String) : (SourceFile.ofSource path source).IgnoresReturns := by
  refine ⟨?_, h⟩
  simp only [SourceFile.ofSource]

/-- A package without files has nothing to recode. -/
theorem recoded_eq_self {p : Package} (h : p.files = []) : p.recoded = p := by
  rw [Package.recoded, h, List.map_nil, ← h]

theorem ignoresReturns_of_files_eq_nil {p : Package} (h : p.files = []) : p.IgnoresReturns := by
  rw [Package.IgnoresReturns, h]
  exact fun f hf => absurd hf List.not_mem_nil

theorem Recoded.of_files_eq_nil {p : Package} (h : p.files = []) : Recoded (.ok p) (.ok p) := by
  have hok := Recoded.ok (ignoresReturns_of_files_eq_nil h)
  rwa [recoded_eq_self h] at hok

/-- A file in memory with a carriage return before each line feed. -/
def MemoryFile.recoded (f : MemoryFile) : MemoryFile :=
  { f with source := Text.recoded f.source }

theorem memory_recoded {files : List MemoryFile}
    (h : ∀ f ∈ files, Node.IgnoresReturns f.source) (path : String) :
    Recoded (memory files path) (memory (files.map MemoryFile.recoded) path) := by
  -- the package grows on both sides, so the start is any package and its recoded version
  have hfold : ∀ (found : List MemoryFile) (p : Package),
      (∀ f ∈ found, Node.IgnoresReturns f.source) → p.IgnoresReturns →
      Recoded (.ok (found.foldl (fun p f => p.addFile (.ofSource f.path f.source)) p))
        (.ok ((found.map MemoryFile.recoded).foldl
          (fun p f => p.addFile (.ofSource f.path f.source)) p.recoded)) := by
    intro found
    induction found with
    | nil => exact fun p _ hp => .ok hp
    | cons f found ih =>
      intro p hfound hp
      obtain ⟨hf, hfound⟩ := List.forall_mem_cons.mp hfound
      have hfile := ignoresReturns_ofSource hf f.path
      rw [List.map_cons, List.foldl_cons, List.foldl_cons]
      have hadd := p.addFile_recoded hfile
      have hnext := ih (p.addFile (.ofSource f.path f.source)) hfound (hp.addFile hfile)
      rw [← hadd] at hnext
      exact hnext
  have hfilter : (files.map MemoryFile.recoded).filter (·.importPath = path)
      = (files.filter (·.importPath = path)).map MemoryFile.recoded := List.filter_map
  have hfound : ∀ f ∈ files.filter (·.importPath = path), Node.IgnoresReturns f.source :=
    fun f hf => h f (List.mem_of_mem_filter hf)
  unfold memory
  rw [hfilter]
  cases hcases : files.filter (·.importPath = path) with
  | nil => exact Recoded.of_files_eq_nil rfl
  | cons f found =>
    rw [hcases] at hfound
    exact hfold (f :: found) (.empty path) hfound (ignoresReturns_of_files_eq_nil rfl)

section

variable {d : Disk} (hd : d.IgnoresReturns)

/-- The module of a directory does not depend on the line ends of module files. -/
theorem findModule_recoded (d : Disk) (dir : List Component) :
    findModule d.recoded dir = findModule d dir := by
  unfold findModule
  -- every directory on the way up is asked, and each gives the same answer
  refine congrArg (List.findSome? · _) (funext fun up => ?_)
  rw [d.readText_recoded]
  cases d.readText (Path.join (Path.ofComponents up) "go.mod") with
  | error e => rfl
  | ok contents =>
    show (modulePath (Text.recoded contents)).map _ = (modulePath contents).map _
    rw [← modulePath_eq (Text.recodes_recoded contents)]

include hd

theorem addFiles_recoded {p : Package} (hp : p.IgnoresReturns) (paths : List String) :
    Recoded (addFiles d p paths) (addFiles d.recoded p.recoded paths) := by
  induction paths generalizing p with
  | nil => exact .ok hp
  | cons path paths ih =>
    rw [addFiles, addFiles, d.readText_recoded]
    cases hread : d.readText path with
    | error cause => exact .error _
    | ok source =>
      have hfile := ignoresReturns_ofSource (hd.of_readText hread) path
      have hnext := ih (hp.addFile hfile)
      rw [← p.addFile_recoded hfile] at hnext
      exact hnext

theorem loadDirectory_recoded {p : Package} (hp : p.files = []) (path dir : String) :
    Recoded (loadDirectory d path dir p) (loadDirectory d.recoded path dir p) := by
  have hfiles : ∀ names, packageFiles d.recoded dir names = packageFiles d dir names := by
    intro names
    simp only [packageFiles_eq, Volume.followed_disk, d.isFile_recoded]
  rw [loadDirectory_disk, loadDirectory_disk, d.readDirectory_recoded]
  cases d.readDirectory dir with
  | error cause => exact Recoded.of_files_eq_nil hp
  | ok names =>
    dsimp only
    rw [hfiles]
    refine Recoded.map ?_ (fun _ => rfl) (fun _ => rfl)
    have hempty : (reportEmpty p dir (packageFiles d dir (names.map .text))).files = [] := by
      rw [reportEmpty_eq, hp]
    have hrun := addFiles_recoded hd (ignoresReturns_of_files_eq_nil hempty)
      (packageFiles d dir (names.map .text))
    rwa [recoded_eq_self hempty] at hrun

theorem directory_recoded (root path : String) :
    Recoded (directory d root path) (directory d.recoded root path) := by
  unfold directory
  split
  next =>
    unfold loadDirectoryPath
    simp only [Volume.followed_disk, findModule_recoded]
    exact loadDirectory_recoded hd rfl _ _
  next =>
    unfold loadImportPath
    rw [Volume.followed_disk, Volume.followed_disk, findModule_recoded]
    split
    next => exact .of_files_eq_nil rfl
    next m _ =>
      split
      next => exact .of_files_eq_nil rfl
      next => exact loadDirectory_recoded hd rfl _ _

theorem toPackage_recoded (cwd : Option String) (l : Listing) :
    Recoded (l.toPackage d cwd) (l.toPackage d.recoded cwd) := by
  have herror : ∀ p : Package, Listing.withError p.recoded l.error
      = (Listing.withError p l.error).recoded := by
    intro p
    cases l.error with
    | none => rfl
    | some e =>
      unfold Listing.withError Package.recoded
      dsimp only
      split
      next => rfl
      next => rfl
  have hfiles : ∀ p : Package, (Listing.withError p l.error).files = p.files := by
    intro p
    rw [withError_eq]
  unfold Listing.toPackage
  dsimp only
  split
  next => exact (Recoded.of_files_eq_nil rfl).map herror hfiles
  next =>
    exact (addFiles_recoded hd (ignoresReturns_of_files_eq_nil rfl) _).map herror hfiles

theorem listed_recoded (tool : Tool) (dir : Option String) (path : String) :
    Recoded (listed tool d dir path) (listed tool d.recoded dir path) := by
  have hrun : tool.run d.recoded dir path = tool.run d dir path := by
    unfold Tool.run
    simp only [d.locateDirectory_recoded]
  unfold listed
  rw [hrun]
  cases tool.run d dir path with
  | error cause => exact .error _
  | ok result =>
    dsimp only
    split
    next => exact .error _
    next =>
      split
      next => exact .error _
      next listing _ => exact toPackage_recoded hd dir listing

end

/-! ## Harvests -/

/-- Where packages are kept. -/
inductive Store where
  | memory (files : List MemoryFile)
  /-- On a disk, by directory or by import path as seen from a directory. -/
  | directory (d : Disk) (root : String)
  /-- On a disk, as a program lists them that is run in a directory. -/
  | listed (tool : Tool) (d : Disk) (dir : Option String)
  /-- Packages that someone else has loaded. -/
  | loaded (load : Loader)

namespace Store

/-- How packages are found in a store. -/
def loader : Store → Loader
  | memory files => Load.memory files
  | directory d root => Load.directory d root
  | listed tool d dir => Load.listed tool d dir
  | loaded load => load

/-- The store with all its files recoded. -/
def recoded : Store → Store
  | memory files => memory (files.map MemoryFile.recoded)
  | directory d root => directory d.recoded root
  | listed tool d dir => listed tool d.recoded dir
  | loaded load => loaded fun path => (load path).map Package.recoded

/-- The parser does not tell the line ends of any file of the store apart. -/
def IgnoresReturns : Store → Prop
  | memory files => ∀ f ∈ files, Node.IgnoresReturns f.source
  | directory d _ | listed _ d _ => d.IgnoresReturns
  | loaded load => ∀ path p, load path = .ok p → p.IgnoresReturns

/-- The loader of a recoded store finds the same packages, recoded. -/
theorem loader_recoded {store : Store} (h : store.IgnoresReturns) (path : String) :
    Recoded (store.loader path) (store.recoded.loader path) := by
  cases store with
  | memory files => exact memory_recoded h path
  | directory d root => exact directory_recoded h root path
  | listed tool d dir => exact listed_recoded h tool dir path
  | loaded load =>
    show Recoded (load path) ((load path).map Package.recoded)
    cases hload : load path with
    | error e => exact .error e
    | ok p => exact .ok (h path p hload)

end Store

/-- **A harvest does not depend on line ends.** Whatever the store, the mode, the map and the path,
the harvest gives the same map or the same error once every line feed of every file is a carriage
return and a line feed, as long as the parser does not tell the two versions of a file apart. -/
theorem harvest_recoded (store : Store) (h : store.IgnoresReturns) (mode : Mode) (m : CommentMap)
    (path : String) :
    harvest store.recoded.loader mode m path = harvest store.loader mode m path := by
  have hload := Store.loader_recoded h path
  unfold harvest pathEntries
  generalize store.loader path = x at hload ⊢
  generalize store.recoded.loader path = y at hload ⊢
  cases hload with
  | error e => rfl
  | ok hp =>
    dsimp only
    rw [packageEntries_recoded hp]

/-- Two files on a disk, and the entry of the one that is source. -/
theorem harvest_recoded_of_disk :
    let d : Disk := ⟨[(["w"], .directory),
      (["w", "go.mod"], .file (.text "module example.com/m\n") 0o644),
      (["w", "m.go"], .file (.text "package m\n\n// T is a type.\ntype T int\n") 0o644)], ["w"]⟩
    let d' : Disk := ⟨[(["w"], .directory),
      (["w", "go.mod"], .file (.text "module example.com/m\r\n") 0o644),
      (["w", "m.go"],
        .file (.text "package m\r\n\r\n// T is a type.\r\ntype T int\r\n") 0o644)], ["w"]⟩
    d.recoded = d' ∧ d.IgnoresReturns ∧
      harvest (directory d' "/w") .synopsis .empty "."
        = .ok (CommentMap.empty.insertAll [("example.com/m.T", "T is a type.")]) := by
  intro d d'
  have hd : d.IgnoresReturns := by decide +kernel
  have hrecoded : d.recoded = d' := congrArg (Disk.mk · ["w"]) (by decide +kernel)
  have hentries : pathEntries (directory d "/w") .synopsis "."
      = .ok [("example.com/m.T", "T is a type.")] := by decide +kernel
  refine ⟨hrecoded, hd, ?_⟩
  calc harvest (directory d' "/w") .synopsis .empty "."
    _ = harvest (directory d "/w") .synopsis .empty "." := by
      rw [← hrecoded]
      exact harvest_recoded (.directory d "/w") hd .synopsis .empty "."
    _ = .ok (CommentMap.empty.insertAll [("example.com/m.T", "T is a type.")]) := by
      rw [harvest_eq, hentries]
      rfl

end DocHarvest.Load
