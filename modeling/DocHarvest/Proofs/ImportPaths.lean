import DocHarvest.Proofs.Rereading
import DocHarvest.Proofs.Sessions
import DocHarvest.Proofs.Spellings

/-!
# The import path of a directory

A package should have the import path of its directory: the path of the module that is found above
the directory, and behind it the names that lead from the one to the other (`FiledIn`). Then
packages from one directory have one import path, and so their keys start alike.

A path that is written as a directory is normalized before its module is looked for, so it is filed
like that. An import path of the main module is not. What of it lies below the path of the module is
put behind the directory of the module as it stands, with all its dots and slashes, and the path
itself is kept as the import path of whatever directory that is. So it is filed like that if it
consists of names, and if no other module lies on the way (`Canonical`), and otherwise it is not
(`filed_by_directory_iff`).

Here a path leads somewhere even where it goes up from the root, for above the root is the root
(`resolve`). A normalized path keeps up to one pair of dots there (`LeadTo`), and the module above
it is the same (`findModule_componentsAbove`).
-/

namespace DocHarvest.Host

open DocHarvest.Text

/-! ## Paths that go up from the root -/

/-- One piece of a path, seen from a location. Above the root is the root. -/
def resolvePiece (loc : Location) (piece : List Char) : Location :=
  match Component.ofPiece piece with
  | some (.name s) => loc ++ [s]
  | some .parent => loc.dropLast
  | _ => loc

/-- The location to which an absolute path leads by its text alone. -/
def resolve (path : String) : Location :=
  (split '/' path.toList).foldl resolvePiece []

/-- The components of a path that goes up from the root first, and then to a location. -/
def componentsAbove (loc : Location) : List Component :=
  .root :: .parent :: loc.map .name

/-- The components of a normalized path to a location. -/
def LeadTo (cs : List Component) (loc : Location) : Prop :=
  cs = componentsTo loc ∨ cs = componentsAbove loc

theorem componentsAbove_concat (loc : Location) (s : String) :
    componentsAbove (loc ++ [s]) = componentsAbove loc ++ [.name s] := by
  rw [componentsAbove, List.map_append]
  rfl

/-- A name is the last component, and two dots take it away. -/
theorem resolveComponent_concat_parent (cs : List Component) (s : String) :
    Path.resolveComponent (cs ++ [.name s]) .parent = cs := by
  rw [Path.resolveComponent, List.getLast?_concat, List.dropLast_concat]

section

variable {loc : Location} {cs : List Component} {path : String}

theorem LeadTo.name (h : LeadTo cs loc) (s : String) : LeadTo (cs ++ [.name s]) (loc ++ [s]) := by
  rcases h with rfl | rfl
  · exact Or.inl (componentsTo_concat loc s).symm
  · exact Or.inr (componentsAbove_concat loc s).symm

/-- Two dots go up from a location. From the root they go up once, and then they come back. -/
theorem LeadTo.parent (h : LeadTo cs loc) :
    LeadTo (Path.resolveComponent cs .parent) loc.dropLast := by
  rcases List.eq_nil_or_concat loc with rfl | ⟨front, last, rfl⟩
  · rcases h with rfl | rfl
    · exact Or.inr rfl
    · exact Or.inl rfl
  · rw [List.concat_eq_append] at *
    rw [List.dropLast_concat]
    rcases h with rfl | rfl
    · rw [componentsTo_concat, resolveComponent_concat_parent]
      exact Or.inl rfl
    · rw [componentsAbove_concat, resolveComponent_concat_parent]
      exact Or.inr rfl

/-- The step: a component is resolved as its piece is. -/
theorem LeadTo.piece (h : LeadTo cs loc) (piece : List Char) :
    LeadTo ((Component.ofPiece piece).toList.foldl Path.resolveComponent cs)
      (resolvePiece loc piece) := by
  unfold resolvePiece Component.ofPiece
  split
  next => exact h
  next =>
    split
    next => exact h.parent
    next => exact h.name _

/-- The run: so are the components of pieces. -/
theorem LeadTo.pieces (h : LeadTo cs loc) (pieces : List (List Char)) :
    LeadTo ((pieces.filterMap Component.ofPiece).foldl Path.resolveComponent cs)
      (pieces.foldl resolvePiece loc) := by
  induction pieces generalizing cs loc with
  | nil => exact h
  | cons piece pieces ih =>
    have hstep := ih (h.piece piece)
    rw [← List.foldl_append] at hstep
    rw [List.foldl_cons, List.filterMap_cons]
    cases hpiece : Component.ofPiece piece with
    | none =>
      rw [hpiece] at hstep
      exact hstep
    | some c =>
      rw [hpiece] at hstep
      exact hstep

/-- Pieces without slashes lead through names. -/
theorem named_foldl_resolvePiece {pieces : List (List Char)} (hloc : Named loc)
    (hpieces : ∀ piece ∈ pieces, '/' ∉ piece) : Named (pieces.foldl resolvePiece loc) := by
  induction pieces generalizing loc with
  | nil => exact hloc
  | cons piece pieces ih =>
    obtain ⟨hpiece, hpieces⟩ := List.forall_mem_cons.mp hpieces
    refine ih ?_ hpieces
    unfold resolvePiece Component.ofPiece
    split
    next s hs =>
      split at hs
      next => cases hs
      next hdot =>
        split at hs
        next => cases hs
        next hdots =>
          cases hs
          intro t ht
          rcases List.mem_append.mp ht with ht | ht
          · exact hloc t ht
          · rw [List.mem_singleton.mp ht]
            exact isName_of_piece hpiece hdot hdots
    next => exact fun t ht => hloc t (List.dropLast_subset _ ht)
    next => exact hloc

theorem named_resolve (path : String) : Named (resolve path) :=
  named_foldl_resolvePiece named_nil fun _ => sep_notMem_of_mem_split

/-! ## Paths of components -/

/-- The path that goes up from the root has two dots like a name in front. -/
theorem ofComponents_componentsAbove (loc : Location) :
    Path.ofComponents (componentsAbove loc) = pathTo (".." :: loc) := by
  show "/".intercalate ("" :: ".." :: (loc.map Component.name).map Component.text) = _
  rw [List.map_map, show (Component.text ∘ Component.name) = id from rfl, List.map_id,
    String.intercalate_cons_cons, String.empty_append]
  rfl

theorem split_pathTo_dots (h : Named loc) :
    split '/' (pathTo (".." :: loc)).toList = [] :: ['.', '.'] :: loc.map String.toList := by
  refine split_pathTo ?_ (List.cons_ne_nil _ _)
  exact List.forall_mem_cons.mpr ⟨by decide, fun s hs => (h s hs).slash_notMem⟩

/-- The components of a normalized path can be read off its text. -/
theorem LeadTo.components_ofComponents (h : LeadTo cs loc) (hloc : Named loc) :
    Path.components (Path.ofComponents cs) = cs := by
  rcases h with rfl | rfl
  · rw [ofComponents_componentsTo, components_pathTo hloc]
  · rw [ofComponents_componentsAbove, Path.components]
    simp only [isAbsolute_pathTo, if_true, split_pathTo_dots hloc]
    show .root :: .parent :: (loc.map String.toList).filterMap Component.ofPiece = _
    rw [filterMap_ofPiece hloc]
    rfl

theorem foldl_resolvePiece_names (h : Named loc) (start : Location) :
    (loc.map String.toList).foldl resolvePiece start = start ++ loc := by
  induction loc generalizing start with
  | nil => rw [List.map_nil, List.foldl_nil, List.append_nil]
  | cons s loc ih =>
    obtain ⟨hs, hrest⟩ := List.forall_mem_cons.mp h
    have hstep : resolvePiece start s.toList = start ++ [s] := by rw [resolvePiece, hs.component]
    rw [List.map_cons, List.foldl_cons, hstep, ih hrest, List.append_assoc, List.singleton_append]

theorem resolve_pathTo (h : Named loc) : resolve (pathTo loc) = loc := by
  by_cases hne : loc = []
  · rw [hne]
    rfl
  · rw [resolve, split_pathTo (fun s hs => (h s hs).slash_notMem) hne]
    exact foldl_resolvePiece_names h []

/-- A normalized path leads to its location. -/
theorem LeadTo.resolve_ofComponents (h : LeadTo cs loc) (hloc : Named loc) :
    resolve (Path.ofComponents cs) = loc := by
  rcases h with rfl | rfl
  · rw [ofComponents_componentsTo, resolve_pathTo hloc]
  · rw [ofComponents_componentsAbove, resolve, split_pathTo_dots hloc]
    exact foldl_resolvePiece_names hloc []

/-- An absolute path is normalized to a path to the location to which it leads. -/
theorem exists_leadTo_normalize (habs : Path.isAbsolute path = true) :
    ∃ cs, LeadTo cs (resolve path) ∧ Path.normalize path = Path.ofComponents cs := by
  have hstart : LeadTo (componentsTo []) [] := Or.inl rfl
  refine ⟨(Path.components path).foldl Path.resolveComponent [], ?_, rfl⟩
  rw [Path.components]
  simp only [habs, if_true]
  exact hstart.pieces _

/-- A relative path is resolved from where the other one leads. -/
theorem resolve_join {root q : String} (hroot : root.isEmpty = false)
    (hq : Path.isAbsolute q = false) :
    resolve (Path.join root q) = (split '/' q.toList).foldl resolvePiece (resolve root) := by
  unfold resolve Path.join
  rw [hroot, hq, if_neg (by simp)]
  split
  next hslash =>
    -- the slash at the end of the root makes one more piece, and that piece is empty
    obtain ⟨front, hfront⟩ := List.getLast?_eq_some_iff.mp hslash
    rw [String.toList_append, hfront, List.append_assoc, List.singleton_append, split_append_cons,
      split_append_cons, List.foldl_append, List.foldl_append]
    rfl
  next =>
    rw [String.append_assoc, String.toList_append, String.toList_append]
    show (split '/' (root.toList ++ '/' :: q.toList)).foldl _ _ = _
    rw [split_append_cons, List.foldl_append]

/-- Names with slashes between them lead down. -/
theorem foldl_resolvePiece_intercalate {rs : List String} (h : ∀ r ∈ rs, IsName r)
    (start : Location) :
    (split '/' ("/".intercalate rs).toList).foldl resolvePiece start = start ++ rs := by
  cases rs with
  | nil => exact (List.append_nil start).symm
  | cons r rs =>
    rw [String.toList_intercalate]
    show (split '/' (List.intercalate ['/'] ((r :: rs).map String.toList))).foldl _ _ = _
    rw [split_intercalate (by simp)]
    · exact foldl_resolvePiece_names h start
    · intro piece hpiece
      obtain ⟨s, hs, rfl⟩ := List.mem_map.mp hpiece
      exact (h s hs).slash_notMem

end

end DocHarvest.Host

namespace DocHarvest.Load

open DocHarvest.Host DocHarvest.Text

/-! ## The module above a path that goes up from the root -/

/-- A module that is found on a path that goes up from the root. -/
def Module.above (m : Module) : Module :=
  { m with dir := .root :: .parent :: m.dir.tail }

section

variable {d : Disk} {m : Module} {loc base : Location} {cs : List Component}

/-- On a disk there is nothing above the root but the root. -/
theorem foldlM_step_pathTo_dots (d : Disk) (h : Named loc) :
    (split '/' (pathTo (".." :: loc)).toList).foldlM d.step (d.startOf (pathTo (".." :: loc)))
      = (split '/' (pathTo loc).toList).foldlM d.step (d.startOf (pathTo loc)) := by
  have hstart : ∀ l : Location, d.startOf (pathTo l) = [] := fun l => by
    rw [Disk.startOf, isAbsolute_pathTo, if_pos rfl]
  rw [hstart, hstart, split_pathTo_dots h]
  by_cases hne : loc = []
  · rw [hne]
    rfl
  · rw [split_pathTo (fun s hs => (h s hs).slash_notMem) hne]
    rfl

theorem readText_pathTo_dots (d : Disk) (h : Named loc) {name : String} (hname : IsName name) :
    d.readText (Path.join (pathTo (".." :: loc)) name)
      = d.readText (Path.join (pathTo loc) name) := by
  have hway := foldlM_step_pathTo_dots d h
  unfold Disk.readText Disk.locate
  rw [Disk.join_isEmpty (isEmpty_pathTo _), Disk.join_isEmpty (isEmpty_pathTo _),
    Disk.foldlM_join (isEmpty_pathTo _) hname, Disk.foldlM_join (isEmpty_pathTo _) hname, hway]

theorem moduleAt?_componentsAbove (d : Disk) (h : Named loc) :
    moduleAt? d (componentsAbove loc) = (moduleAt? d (componentsTo loc)).map Module.above := by
  unfold moduleAt?
  rw [ofComponents_componentsAbove, ofComponents_componentsTo,
    readText_pathTo_dots d h isName_goMod]
  cases d.readText (Path.join (pathTo loc) "go.mod") with
  | error e => rfl
  | ok contents =>
    dsimp only
    rw [Option.map_map]
    rfl

/-- The module above such a path is the one above its location. -/
theorem findModule_componentsAbove (d : Disk) (h : Named loc) :
    findModule d (componentsAbove loc) = (findModule d (componentsTo loc)).map Module.above := by
  induction loc using List.reverseRecOn with
  | nil =>
    -- the root is looked at twice, and finds the same both times
    have hstep : findModule d (componentsAbove [])
        = (moduleAt? d (componentsAbove [])).or (findModule d (componentsTo [])) := by
      rw [show componentsAbove [] = componentsTo [] ++ [.parent] from rfl]
      exact findModule_append_singleton d (List.cons_ne_nil _ _) .parent
    rw [hstep, moduleAt?_componentsAbove d h, findModule_root]
    cases moduleAt? d (componentsTo []) with
    | none => rfl
    | some m => rfl
  | append_singleton loc s ih =>
    have hloc : Named loc := fun t ht => h t (List.mem_append_left _ ht)
    have hstep : findModule d (componentsAbove (loc ++ [s]))
        = (moduleAt? d (componentsAbove (loc ++ [s]))).or (findModule d (componentsAbove loc)) := by
      rw [componentsAbove_concat]
      exact findModule_append_singleton d (List.cons_ne_nil _ _) (.name s)
    rw [hstep, moduleAt?_componentsAbove d h, ih hloc, findModule_concat, Option.map_or]

theorem below?_cons (c : Component) (dir cs : List Component) :
    Path.below? (c :: dir) (c :: cs) = Path.below? dir cs := by
  simp [Path.below?]

/-- The names below a module are the same on a path that goes up from the root. -/
theorem importPath_above (hdir : m.dir = componentsTo base) (loc : Location) :
    m.above.importPath (componentsAbove loc) = m.importPath (componentsTo loc) := by
  have hbelow : Path.below? m.above.dir (componentsAbove loc)
      = Path.below? m.dir (componentsTo loc) := by
    rw [Module.above, hdir]
    show Path.below? (.root :: .parent :: base.map .name) (.root :: .parent :: loc.map .name)
      = Path.below? (.root :: base.map .name) (.root :: loc.map .name)
    rw [below?_cons, below?_cons, below?_cons]
  rw [Module.importPath, Module.importPath, hbelow]
  rfl

/-- What is found above a normalized path is the module above its location, and the import path that
is read off it is that of the location. -/
theorem exists_module_of_leadTo {found : Module} (h : LeadTo cs loc) (hloc : Named loc)
    (hfound : findModule d cs = some found) :
    ∃ m base rs, findModule d (componentsTo loc) = some m ∧ found.path = m.path ∧
      m.dir = componentsTo base ∧ LeadTo found.dir base ∧ loc = base ++ rs ∧
      found.importPath cs = some (pathBelow m.path rs) := by
  rcases h with rfl | rfl
  · obtain ⟨base, rs, rfl, hdir, -, -⟩ := exists_base_of_findModule hfound
    exact ⟨found, base, rs, hfound, rfl, hdir, Or.inl hdir, rfl, importPath_append hdir rs⟩
  · rw [findModule_componentsAbove d hloc] at hfound
    obtain ⟨m, hm, rfl⟩ := Option.map_eq_some_iff.mp hfound
    obtain ⟨base, rs, rfl, hdir, -, -⟩ := exists_base_of_findModule hm
    refine ⟨m, base, rs, hm, rfl, hdir, Or.inr ?_, rfl, ?_⟩
    · rw [Module.above, hdir]
      rfl
    · rw [importPath_above hdir, importPath_append hdir]

end

/-! ## Packages under the import path of their directory -/

/-- An import path is that of a directory in a module: the module is found above the directory, and
behind its path stand the names that lead from its directory to that one. -/
structure FiledIn (d : Disk) (m : Module) (dir importPath : String) : Prop where
  found : findModule d (componentsTo (resolve dir)) = some m
  names : ∃ base rs, m.dir = componentsTo base ∧ resolve dir = base ++ rs ∧
    importPath = pathBelow m.path rs

/-- A path is that of a module with names behind it, and these lead to no other module. -/
def Canonical (d : Disk) (m : Module) (path : String) : Prop :=
  ∃ rs, (∀ r ∈ rs, IsName r) ∧ path = pathBelow m.path rs ∧
    ∀ part, part ≠ [] → part <+: rs → moduleAt? d (m.below part) = none

/-- The absolute path above which the module of a path is looked for. -/
def lookedFrom (root path : String) : String :=
  if isDirectoryPath path then Path.join root path else root

section

variable {d : Disk} {m m' : Module} {root path dir dir' importPath importPath' : String}
  {p p' : Package} {base : Location}

/-- A directory has one import path. -/
theorem FiledIn.unique (h : FiledIn d m dir importPath) (h' : FiledIn d m' dir' importPath')
    (hsame : resolve dir = resolve dir') : importPath = importPath' := by
  obtain ⟨hfound, base, rs, hdir, hloc, rfl⟩ := h
  obtain ⟨hfound', base', rs', hdir', hloc', rfl⟩ := h'
  rw [hsame, hfound'] at hfound
  cases hfound
  obtain rfl : base = base' := componentsTo_injective (hdir.symm.trans hdir')
  rw [List.append_cancel_left (hloc.symm.trans (hsame.trans hloc'))]

/-- The names below a module lead to a directory of the module exactly if the path is canonical. -/
theorem filedIn_iff_canonical (hbase : m.dir = componentsTo base)
    (hmodule : findModule d (componentsTo base) = some m)
    (hdir : ∀ rs, (∀ r ∈ rs, IsName r) → path = pathBelow m.path rs → resolve dir = base ++ rs) :
    FiledIn d m dir path ↔ Canonical d m path := by
  constructor
  · intro h
    obtain ⟨hfound, base', rs, hbase', hloc, hpath⟩ := h
    obtain ⟨base'', rs'', hloc'', hbase'', -, hnone⟩ := exists_base_of_findModule hfound
    obtain rfl : base' = base'' := componentsTo_injective (hbase'.symm.trans hbase'')
    obtain rfl : rs = rs'' := List.append_cancel_left (hloc.symm.trans hloc'')
    refine ⟨rs, fun r hr => named_resolve dir r (by rw [hloc]; simp [hr]), hpath, ?_⟩
    intro part hne hpart
    rw [below_eq_componentsTo hbase']
    exact hnone part hne hpart
  · intro h
    obtain ⟨rs, hrs, hpath, hnone⟩ := h
    have hloc := hdir rs hrs hpath
    refine ⟨?_, base, rs, hbase, hloc, hpath⟩
    rw [hloc]
    refine findModule_append hmodule fun part hne hpart => ?_
    rw [← below_eq_componentsTo hbase]
    exact hnone part hne hpart

/-- What a directory loads without faults has that directory and the import path at hand. -/
theorem dir_of_loadDirectory (h : loadDirectory d path dir (.empty importPath) = .ok p)
    (hfault : p.fault? = none) : p.dir = some dir ∧ p.importPath = importPath := by
  obtain ⟨fs, -, rfl⟩ := (loadDirectory_eq_ok_iff hfault importPath).mp h
  obtain ⟨name, hfold⟩ := foldl_addFile (.empty importPath) fs
  refine ⟨rfl, ?_⟩
  rw [packageOf, hfold]
  rfl

/-- A path that is written as a directory is filed under the import path of that directory. -/
theorem filedIn_of_directoryPath (habs : Path.isAbsolute root = true)
    (h : loadDirectoryPath d root path = .ok p) (hfault : p.fault? = none) :
    ∃ m dir, findModule d (componentsTo (resolve (Path.join root path))) = some m ∧
      p.dir = some dir ∧ FiledIn d m dir p.importPath := by
  obtain ⟨cs, hcs, hnormal⟩ := exists_leadTo_normalize (isAbsolute_join (q := path) habs)
  have hnamed := named_resolve (Path.join root path)
  unfold loadDirectoryPath at h
  simp only [Volume.followed_disk, hnormal, hcs.components_ofComponents hnamed] at h
  cases hfound : findModule d cs with
  | none =>
    rw [hfound] at h
    have hmissing := moduleError_of_loadDirectory h
    rw [(fault?_eq_none_iff.mp hfault).2] at hmissing
    cases hmissing
  | some found =>
    obtain ⟨m, base, rs, hm, -, hbase, -, hloc, himport⟩ :=
      exists_module_of_leadTo hcs hnamed hfound
    rw [hfound, Option.bind_some, himport, Option.getD_some] at h
    obtain ⟨hdir, hpath⟩ := dir_of_loadDirectory h hfault
    have hresolve := hcs.resolve_ofComponents hnamed
    refine ⟨m, _, hm, hdir, ⟨hresolve.symm ▸ hm, base, rs, hbase, hresolve.trans hloc, hpath⟩⟩

/-- An import path is kept, and the directory is what lies behind that of the main module. -/
theorem filedIn_of_importPath (habs : Path.isAbsolute root = true)
    (h : loadImportPath d root path = .ok p) (hfault : p.fault? = none) :
    ∃ m dir, findModule d (componentsTo (resolve root)) = some m ∧ p.dir = some dir ∧
      p.importPath = path ∧ (FiledIn d m dir path ↔ Canonical d m path) := by
  obtain ⟨cs, hcs, hnormal⟩ := exists_leadTo_normalize habs
  unfold loadImportPath at h
  rw [Volume.followed_disk, hnormal, hcs.components_ofComponents (named_resolve root)] at h
  cases hfound : findModule d cs with
  | none =>
    rw [hfound] at h
    cases h
    cases (fault?_eq_none_iff.mp hfault).2
  | some found =>
    obtain ⟨m, base, rs, hm, hpath, hbase, hlead, hroot, -⟩ :=
      exists_module_of_leadTo hcs (named_resolve root) hfound
    obtain ⟨base', -, -, hbase', hmodule, -⟩ := exists_base_of_findModule hm
    obtain rfl : base = base' := componentsTo_injective (hbase.symm.trans hbase')
    have hnamed : Named base := fun s hs => named_resolve root s (by rw [hroot]; simp [hs])
    rw [hfound] at h
    dsimp only at h
    cases hrest : pathInModule found.path path with
    | none =>
      rw [hrest] at h
      cases h
      cases (fault?_eq_none_iff.mp hfault).1
    | some rest =>
      rw [hrest] at h
      obtain ⟨hdir, himport⟩ := dir_of_loadDirectory h hfault
      refine ⟨m, _, hm, hdir, himport,
        filedIn_iff_canonical hbase hmodule fun rs hrs hcanonical => ?_⟩
      -- names behind the module are found behind its directory
      rw [hpath, hcanonical, pathInModule_pathBelow] at hrest
      cases hrest
      have hmoduleDir : (Path.ofComponents found.dir).isEmpty = false := by
        rcases hlead with heq | heq
        · rw [heq, ofComponents_componentsTo, isEmpty_pathTo]
        · rw [heq, ofComponents_componentsAbove, isEmpty_pathTo]
      have hrelative : Path.isAbsolute ("/".intercalate rs) = false := by
        cases rs with
        | nil => rfl
        | cons r rs =>
          have hr := hrs r List.mem_cons_self
          exact isAbsolute_intercalate hr.toList_ne_nil hr.slash_notMem rs
      rw [resolve_join hmoduleDir hrelative, hlead.resolve_ofComponents hnamed,
        foldl_resolvePiece_intercalate hrs]

/-- A package that is loaded without errors has a module above its path, and whether it is filed in
that module depends on the path alone. -/
theorem exists_filedIn_iff (habs : Path.isAbsolute root = true)
    (h : directory d root path = .ok p) (hsound : p.hasErrors = false) :
    ∃ m dir, findModule d (componentsTo (resolve (lookedFrom root path))) = some m ∧
      p.dir = some dir ∧ (isDirectoryPath path = false → p.importPath = path) ∧
      (FiledIn d m dir p.importPath ↔ isDirectoryPath path = true ∨ Canonical d m path) := by
  have hfault := Harvest.hasErrors_eq_false_iff.mp hsound
  unfold directory at h
  unfold lookedFrom
  by_cases hpath : isDirectoryPath path = true
  · rw [if_pos hpath] at h ⊢
    obtain ⟨m, dir, hm, hdir, hfiled⟩ := filedIn_of_directoryPath habs h hfault
    refine ⟨m, dir, hm, hdir, ?_, iff_of_true hfiled (Or.inl hpath)⟩
    intro hfalse
    rw [hpath] at hfalse
    cases hfalse
  · rw [if_neg hpath] at h ⊢
    obtain ⟨m, dir, hm, hdir, himport, hiff⟩ := filedIn_of_importPath habs h hfault
    refine ⟨m, dir, hm, hdir, fun _ => himport, ?_⟩
    rw [himport, hiff]
    exact ⟨Or.inr, fun hor => hor.resolve_left hpath⟩

/-- A path is written as a directory, or it is a canonical path of the main module. -/
def Proper (d : Disk) (root path : String) : Prop :=
  isDirectoryPath path = true ∨
    ∃ m, findModule d (componentsTo (resolve root)) = some m ∧ Canonical d m path

/-- With such a path the package is filed under the import path of its directory. -/
theorem Proper.exists_filedIn (hpath : Proper d root path) (habs : Path.isAbsolute root = true)
    (h : directory d root path = .ok p) (hsound : p.hasErrors = false) :
    ∃ m dir, p.dir = some dir ∧ FiledIn d m dir p.importPath := by
  obtain ⟨m, dir, hm, hdir, -, hiff⟩ := exists_filedIn_iff habs h hsound
  refine ⟨m, dir, hdir, hiff.mpr ?_⟩
  by_cases hdirectory : isDirectoryPath path = true
  · exact Or.inl hdirectory
  · obtain ⟨m', hm', hcanonical⟩ := hpath.resolve_left hdirectory
    rw [lookedFrom, if_neg hdirectory, hm'] at hm
    cases hm
    exact Or.inr hcanonical

/-- **Packages are filed under the import path of their directory, unless an import path says
otherwise.** For a package that is loaded without errors a module is found where its path is looked
up. If the path is written as a directory, that is the module of the directory, and the package has
its import path there. If it is an import path, it is the module of the root. The package has the
path that is given, and it is filed in that module exactly if the path is canonical. Where a module
is nested in that one, a path that is not canonical may still be the import path that the directory
has in the nested module. Two paths that are proper and load the same directory load it under the
same import path. -/
theorem filed_by_directory_iff (habs : Path.isAbsolute root = true) :
    (∀ path p, directory d root path = .ok p → p.hasErrors = false →
        ∃ m dir, findModule d (componentsTo (resolve (lookedFrom root path))) = some m ∧
          p.dir = some dir ∧ (isDirectoryPath path = false → p.importPath = path) ∧
          (FiledIn d m dir p.importPath ↔ isDirectoryPath path = true ∨ Canonical d m path)) ∧
      ∀ path path' p p' dir dir', directory d root path = .ok p → p.hasErrors = false →
        directory d root path' = .ok p' → p'.hasErrors = false → p.dir = some dir →
        p'.dir = some dir' → resolve dir = resolve dir' → Proper d root path →
        Proper d root path' → p.importPath = p'.importPath := by
  refine ⟨fun path p h hsound => exists_filedIn_iff habs h hsound, ?_⟩
  intro path path' p p' dir dir' h hsound h' hsound' hdir hdir' hsame hpath hpath'
  obtain ⟨m, _, heq, hfiled⟩ := hpath.exists_filedIn habs h hsound
  obtain ⟨m', _, heq', hfiled'⟩ := hpath'.exists_filedIn habs h' hsound'
  cases hdir.symm.trans heq
  cases hdir'.symm.trans heq'
  exact hfiled.unique hfiled' hsame

end

/-- An import path with dots, which leads out of the main module. -/
theorem filed_outside_by_dots :
    let d : Disk := ⟨[(["w"], .directory), (["w", "m"], .directory),
      (["w", "m", "go.mod"], .file (.text "module example.com/m\n") 0o644),
      (["w", "x"], .directory), (["w", "x", "x.go"], .file (.text "package x\n") 0o644)], []⟩
    let m : Module := ⟨componentsTo ["w", "m"], "example.com/m"⟩
    ∃ p dir, directory d "/w/m" "example.com/m/../x" = .ok p ∧ p.hasErrors = false ∧
      p.dir = some dir ∧ resolve dir = ["w", "x"] ∧ p.importPath = "example.com/m/../x" ∧
      ¬FiledIn d m dir p.importPath ∧ ¬Canonical d m "example.com/m/../x" := by
  intro d m
  have hloads : (directory d "/w/m" "example.com/m/../x").map (fun p => (p.hasErrors, p.dir))
      = .ok (false, some "/w/m/../x") := by
    decide +kernel
  cases hp : directory d "/w/m" "example.com/m/../x" with
  | error e =>
    rw [hp] at hloads
    cases hloads
  | ok p =>
    rw [hp] at hloads
    obtain ⟨hsound, hdir⟩ := Prod.mk.inj (Except.ok.inj hloads)
    obtain ⟨m', dir, hm', hdir', himport, hiff⟩ :=
      (filed_by_directory_iff (by decide)).1 _ p hp hsound
    cases hdir.symm.trans hdir'
    obtain rfl : m = m' := Option.some.inj (Eq.trans (by rfl) hm')
    have houtside : ¬FiledIn d m "/w/m/../x" p.importPath := by
      intro hfiled
      obtain ⟨base, rs, hbase, hloc, -⟩ := hfiled.names
      obtain rfl := componentsTo_injective hbase
      exact absurd (hloc.symm.trans (by rfl : resolve "/w/m/../x" = ["w", "x"])) (by simp)
    exact ⟨p, _, rfl, hsound, hdir, by rfl, himport (by decide), houtside,
      fun hcanonical => houtside (hiff.mpr (Or.inr hcanonical))⟩

end DocHarvest.Load
