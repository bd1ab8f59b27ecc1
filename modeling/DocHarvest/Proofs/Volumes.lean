import DocHarvest.Load.Directory
import Mathlib.Data.List.Basic

/-!
# What a loader sees of a volume

A loader lists a directory, and all else that it does is to read paths. Of the names that are listed
it takes those that are text (`packageFiles_eq`). Hence it finds the same on a volume as on the disk
that is seen by reading (`directory_followed`): a link is to it the file where the link leads, and
what has a name that is not text is not there.

So what is proved of a loader on disks holds of it on volumes.
-/

namespace DocHarvest.Host.Volume

@[simp]
theorem followed_disk (d : Disk) : (d : Volume).followed = d := rfl

end DocHarvest.Host.Volume

namespace DocHarvest.Load

open DocHarvest.Host DocHarvest.Text

theorem filterMap_text?_map_text (names : List String) :
    (names.map FileName.text).filterMap FileName.text? = names := by
  simp [FileName.text?, Function.comp_def, List.filterMap_map]

/-- The names that are text are left. -/
theorem filterMap_text?_append (names : List String) (others : List (List UInt8)) :
    (names.map FileName.text ++ others.map FileName.binary).filterMap FileName.text? = names := by
  have hothers : (others.map FileName.binary).filterMap FileName.text? = [] := by
    simp [FileName.text?]
  rw [List.filterMap_append, filterMap_text?_map_text, hothers, List.append_nil]

section

variable (v : Volume) (dir : String)

/-- Of the names in a directory, those of package files are text. -/
theorem packageFiles_eq (names : List FileName) :
    packageFiles v dir names
      = (((names.filterMap FileName.text?).filter fun n =>
          isPackageFile (.text n) && v.followed.isFile (Path.join dir n)).mergeSort
            fun a b => decide (a ≤ b)).map (Path.join dir) := by
  have hwanted : (names.filter fun n => v.hasFile dir n && isPackageFile n).filterMap
        FileName.text?
      = (names.filterMap FileName.text?).filter fun n =>
          isPackageFile (.text n) && v.followed.isFile (Path.join dir n) := by
    rw [List.filterMap_filter, List.filter_filterMap]
    refine List.filterMap_congr fun n _ => ?_
    cases n with
    | text s =>
      show (if (_ && _) = true then some s else none) = Option.filter _ (some s)
      rw [Option.filter_some, Bool.and_comm]
      rfl
    | binary bytes =>
      show (if (_ && false) = true then none else none) = none
      rw [ite_self]
  rw [packageFiles, hwanted]

/-- What is listed on a volume is what is listed on the disk, and names that are not text. -/
theorem readNames_eq :
    ∃ others : List (List UInt8), v.readNames dir
      = (v.followed.readDirectory dir).map fun names => names.map .text ++ others.map .binary := by
  unfold Volume.readNames Disk.readDirectory
  cases v.followed.locateDirectory dir with
  | error cause => exact ⟨[], rfl⟩
  | ok loc => exact ⟨(v.strays.filter (·.directory = loc)).map Stray.name, by
      rw [List.map_map]
      rfl⟩

theorem loadDirectory_eq_match (path : String) (p : Package) :
    loadDirectory v path dir p = match v.followed.readDirectory dir with
      | .error cause => .ok (p.report (notListed path dir cause))
      | .ok names =>
        loadFiles v.followed dir p (packageFiles v.followed dir (names.map .text)) := by
  obtain ⟨others, hnames⟩ := readNames_eq v dir
  rw [loadDirectory, hnames]
  cases v.followed.readDirectory dir with
  | error cause => rfl
  | ok names =>
    show loadFiles _ _ _ (packageFiles v dir _) = loadFiles _ _ _ (packageFiles _ dir _)
    rw [packageFiles_eq, packageFiles_eq, filterMap_text?_append, filterMap_text?_map_text,
      Volume.followed_disk]

end

theorem loadDirectory_disk (d : Disk) (path dir : String) (p : Package) :
    loadDirectory d path dir p = match d.readDirectory dir with
      | .error cause => .ok (p.report (notListed path dir cause))
      | .ok names => loadFiles d dir p (packageFiles d dir (names.map .text)) :=
  loadDirectory_eq_match d dir path p

end DocHarvest.Load
