import DocHarvest.Proofs.Pieces
import DocHarvest.Proofs.Writing
import Mathlib.Data.List.Basic

/-!
# Names in directories

A loader lists the names in a directory and puts each behind the path of the directory. Such a path
leads to what stands under the name in that directory (`Disk.locate_join_iff`): the pieces of the
path are those of the directory and the name, whether or not the directory is written with a slash
at its end. That needs names without slashes and other than dots (`IsName`), and a disk has only
such names (`Disk.Named`).

If a file is put in place, its directory lists it, and all other names stay as they were
(`Disk.namesIn_put`).
-/

namespace DocHarvest.Host

open DocHarvest.Text

/-! ## Names in directories -/

/-- A text that can name a file: no slash is in it, and it is not empty and no dots. -/
structure IsName (s : String) : Prop where
  slash_notMem : '/' ∉ s.toList
  component : Component.ofPiece s.toList = some (.name s)

/-- The files and directories of a disk have names. -/
def Disk.Named (d : Disk) : Prop :=
  ∀ e ∈ d.entries, ∀ s ∈ e.1, IsName s

instance (s : String) : Decidable (IsName s) :=
  decidable_of_iff ('/' ∉ s.toList ∧ Component.ofPiece s.toList = some (.name s))
    ⟨fun h => ⟨h.1, h.2⟩, fun h => ⟨h.slash_notMem, h.component⟩⟩

instance (d : Disk) : Decidable d.Named :=
  inferInstanceAs (Decidable (∀ e ∈ d.entries, ∀ s ∈ e.1, IsName s))

theorem isName_goMod : IsName "go.mod" := by decide

namespace Disk

variable {d d' : Disk} {loc other dirLoc : Location} {dir path name text : String}

/-- A file is put in place under a name. -/
theorem Target.isName (h : d.Target path loc) :
    ∃ dirLoc name, IsName name ∧ loc = dirLoc ++ [name] := by
  obtain ⟨dirLoc, name, hlast, -, -, rfl, -⟩ := h
  refine ⟨dirLoc, name, ?_, rfl⟩
  have hpiece : (split '/' path.toList).getLastD [] = name.toList := by
    unfold Component.ofPiece at hlast
    split at hlast
    next => cases hlast
    next =>
      split at hlast
      next => cases hlast
      next =>
        cases hlast
        exact String.toList_ofList.symm
  have hmem : name.toList ∈ split '/' path.toList := by
    rw [← hpiece, List.getLastD_eq_getLast?, List.getLast?_eq_some_getLast (split_ne_nil _ _)]
    exact List.getLast_mem _
  exact ⟨sep_notMem_of_mem_split hmem, hpiece ▸ hlast⟩

theorem readText_eq_ok_iff :
    d.readText path = .ok text ↔
      ∃ loc mode, d.locate path = .ok (loc, .file (.text text) mode) := by
  unfold readText
  cases h : d.locate path with
  | error e => simp [bind, Except.bind]
  | ok found =>
    obtain ⟨loc, entry⟩ := found
    cases entry with
    | directory => simp [bind, Except.bind, throw, throwThe, MonadExceptOf.throw]
    | file contents mode =>
      cases contents with
      | text s => simp [bind, Except.bind, pure, Except.pure]
      | binary bytes => simp [bind, Except.bind, throw, throwThe, MonadExceptOf.throw]

theorem isFile_iff :
    d.isFile path = true ↔ ∃ loc contents mode, d.locate path = .ok (loc, .file contents mode) := by
  unfold isFile
  cases h : d.locate path with
  | error e => simp
  | ok found =>
    obtain ⟨loc, entry⟩ := found
    cases entry <;> simp [DiskEntry.isFile]

theorem locateDirectory_eq_ok_iff :
    d.locateDirectory path = .ok loc ↔ d.locate path = .ok (loc, .directory) := by
  unfold locateDirectory
  cases h : d.locate path with
  | error e => simp [bind, Except.bind]
  | ok found =>
    obtain ⟨loc', entry⟩ := found
    cases entry with
    | directory => simp [bind, Except.bind, pure, Except.pure]
    | file contents mode => simp [bind, Except.bind, throw, throwThe, MonadExceptOf.throw]

/-- A slash at the end of a path makes no difference to what comes behind it. -/
theorem step_nil_bind (d : Disk) (loc : Location) (piece : List Char) :
    (d.step loc [] >>= fun next => d.step next piece) = d.step loc piece := by
  cases hat : d.at? loc with
  | none => simp [step, hat, bind, Except.bind]
  | some entry =>
    cases entry with
    | directory => simp [step, hat, Component.ofPiece, bind, Except.bind]
    | file contents mode => simp [step, hat, bind, Except.bind]

/-- The front of a path decides where it starts. -/
theorem startOf_append (d : Disk) (hdir : dir.isEmpty = false) (rest : String) :
    d.startOf (dir ++ rest) = d.startOf dir := by
  have hnil : dir.toList ≠ [] := by
    intro hnil
    rw [String.toList_eq_nil_iff.mp hnil] at hdir
    cases hdir
  have habsolute : Path.isAbsolute (dir ++ rest) = Path.isAbsolute dir := by
    unfold Path.isAbsolute
    rw [String.toList_append, List.head?_append_of_ne_nil _ hnil]
  rw [startOf, startOf, habsolute]

/-- A name seen from a directory is one step further than the directory. -/
theorem foldlM_join (hdir : dir.isEmpty = false) (hname : IsName name) :
    (split '/' (Path.join dir name).toList).foldlM d.step (d.startOf (Path.join dir name))
      = (split '/' dir.toList).foldlM d.step (d.startOf dir) >>= fun loc =>
        d.step loc name.toList := by
  have hrelative : Path.isAbsolute name = false := by
    unfold Path.isAbsolute
    rw [decide_eq_false_iff_not]
    intro hhead
    exact hname.slash_notMem (List.mem_of_mem_head? hhead)
  rw [Path.join, if_neg (by simp [hrelative, hdir])]
  split
  next hslash =>
    obtain ⟨front, hfront⟩ := List.getLast?_eq_some_iff.mp hslash
    rw [d.startOf_append hdir, String.toList_append, hfront, List.append_assoc,
      List.singleton_append, split_append_cons, split_append_cons,
      split_eq_singleton hname.slash_notMem, List.foldlM_append, show split '/' [] = [[]] from rfl,
      List.foldlM_append]
    cases (split '/' front).foldlM d.step (d.startOf dir) with
    | error e => rfl
    | ok mid =>
      show d.step mid name.toList >>= pure = (d.step mid [] >>= pure) >>= _
      rw [bind_pure, bind_pure, step_nil_bind]
  next =>
    rw [String.append_assoc, d.startOf_append hdir, String.toList_append, String.toList_append]
    show (split '/' (dir.toList ++ '/' :: name.toList)).foldlM _ _ = _
    rw [split_append_cons, split_eq_singleton hname.slash_notMem, List.foldlM_append]
    cases (split '/' dir.toList).foldlM d.step (d.startOf dir) with
    | error e => rfl
    | ok mid => exact bind_pure (d.step mid name.toList)

theorem join_isEmpty (hdir : dir.isEmpty = false) (name : String) :
    (Path.join dir name).isEmpty = false := by
  rw [← Bool.not_eq_true, String.isEmpty_iff] at hdir ⊢
  unfold Path.join
  intro hjoin
  split at hjoin
  next h =>
    rcases Bool.or_eq_true_iff.mp h with habsolute | hempty
    · rw [hjoin] at habsolute
      cases habsolute
    · exact hdir (String.isEmpty_iff.mp hempty)
  next =>
    split at hjoin <;> simp [hdir] at hjoin

/-- What a name leads to from a directory. -/
theorem locate_join_iff (hdir : d.locateDirectory dir = .ok dirLoc) (hname : IsName name)
    {entry : DiskEntry} :
    d.locate (Path.join dir name) = .ok (loc, entry) ↔
      loc = dirLoc ++ [name] ∧ d.at? loc = some entry := by
  obtain ⟨hne, hway, hat⟩ := locate_eq_ok_iff.mp (locateDirectory_eq_ok_iff.mp hdir)
  have hstep : d.step dirLoc name.toList
      = if (d.at? (dirLoc ++ [name])).isSome then .ok (dirLoc ++ [name]) else .error .notFound := by
    rw [step, hat, hname.component]
  rw [locate_eq_ok_iff, foldlM_join hne hname, hway, and_iff_right (join_isEmpty hne name)]
  show d.step dirLoc name.toList = .ok loc ∧ _ ↔ _
  rw [hstep]
  constructor
  · rintro ⟨hloc, hentry⟩
    split at hloc
    next =>
      cases hloc
      exact ⟨rfl, hentry⟩
    next => cases hloc
  · rintro ⟨rfl, hentry⟩
    rw [if_pos (by rw [hentry]; rfl)]
    exact ⟨rfl, hentry⟩

/-- A path that ends in a name leads to something of that name. -/
theorem getLast?_of_locate_join (hname : IsName name) {entry : DiskEntry}
    (h : d.locate (Path.join dir name) = .ok (loc, entry)) : loc.getLast? = some name := by
  obtain ⟨-, hway, -⟩ := locate_eq_ok_iff.mp h
  have hlast : ∀ {start}, d.step start name.toList = .ok loc → loc.getLast? = some name := by
    intro start hstep
    rw [step, at?_of_step hstep, hname.component] at hstep
    dsimp only at hstep
    split at hstep
    next =>
      cases hstep
      simp
    next => cases hstep
  by_cases hdir : dir.isEmpty = true
  · rw [Path.join, if_pos (by simp [hdir]), split_eq_singleton hname.slash_notMem,
      List.foldlM_cons] at hway
    obtain ⟨mid, hstep, hmid⟩ := bind_eq_ok.mp hway
    cases hmid
    exact hlast hstep
  · rw [foldlM_join (Bool.eq_false_iff.mpr hdir) hname] at hway
    obtain ⟨mid, -, hstep⟩ := bind_eq_ok.mp hway
    exact hlast hstep

/-- What is written in a directory of the disk is written on the other disk too, as long as it is
not the file in which they differ. -/
theorem SameBut.readText_join_iff (h : SameBut loc d d') (hname : IsName name)
    (hlast : loc.getLast? ≠ some name) :
    d'.readText (Path.join dir name) = .ok text ↔ d.readText (Path.join dir name) = .ok text := by
  rw [readText_eq_ok_iff, readText_eq_ok_iff]
  constructor
  · rintro ⟨other, mode, hfound⟩
    have hne : other ≠ loc := fun heq => hlast (heq ▸ getLast?_of_locate_join hname hfound)
    exact ⟨other, mode, (h.locate_iff hne).mp hfound⟩
  · rintro ⟨other, mode, hfound⟩
    have hne : other ≠ loc := fun heq => hlast (heq ▸ getLast?_of_locate_join hname hfound)
    exact ⟨other, mode, (h.locate_iff hne).mpr hfound⟩

/-- A directory is the same place on both disks. -/
theorem SameBut.locateDirectory_eq_ok_iff (h : SameBut loc d d') :
    d'.locateDirectory dir = .ok other ↔ d.locateDirectory dir = .ok other := by
  rw [Disk.locateDirectory_eq_ok_iff, Disk.locateDirectory_eq_ok_iff]
  constructor
  · intro hfound
    have hne : other ≠ loc := by
      rintro rfl
      exact h.not_directory' (locate_eq_ok_iff.mp hfound).2.2
    exact (h.locate_iff hne).mp hfound
  · intro hfound
    have hne : other ≠ loc := by
      rintro rfl
      exact h.not_directory (locate_eq_ok_iff.mp hfound).2.2
    exact (h.locate_iff hne).mpr hfound

/-! ## Names that are listed -/

/-- The names in the directory at a location. -/
def namesIn (d : Disk) (dir : Location) : List String :=
  d.entries.filterMap fun e => if e.1.dropLast = dir then e.1.getLast? else none

theorem readDirectory_eq_ok_iff {names : List String} :
    d.readDirectory dir = .ok names ↔
      ∃ dirLoc, d.locateDirectory dir = .ok dirLoc ∧ names = d.namesIn dirLoc := by
  unfold readDirectory
  rw [bind_eq_ok]
  refine exists_congr fun dirLoc => and_congr_right fun _ => ?_
  exact ⟨fun h => (Except.ok.inj h).symm, fun h => congrArg Except.ok h.symm⟩

/-- A name is listed for what stands under it in the directory. -/
theorem nameIn_eq_some_iff {e : Location × DiskEntry} :
    (if e.1.dropLast = dirLoc then e.1.getLast? else none) = some name ↔
      e.1 = dirLoc ++ [name] := by
  constructor
  · intro h
    split at h
    next hdir => rw [← hdir, List.dropLast_append_getLast? _ h]
    next => cases h
  · intro h
    rw [h, List.dropLast_concat, if_pos rfl, List.getLast?_concat]

theorem isName_of_mem_namesIn (hd : d.Named) (h : name ∈ d.namesIn dirLoc) : IsName name := by
  obtain ⟨e, he, hsome⟩ := List.mem_filterMap.mp h
  refine hd e he name ?_
  rw [nameIn_eq_some_iff.mp hsome]
  exact List.mem_append_right _ (List.mem_singleton_self _)

/-- The new file is listed in its directory, and every other name as before. -/
theorem namesIn_put (d : Disk) (dirLoc other : Location) (name text : String) :
    (d.put (dirLoc ++ [name]) text).namesIn other
      = if other = dirLoc then name :: (d.namesIn other).filter (· ≠ name)
        else d.namesIn other := by
  have hrest : ((d.entries.filter (·.1 ≠ dirLoc ++ [name])).filterMap fun e =>
        if e.1.dropLast = other then e.1.getLast? else none)
      = (d.namesIn other).filter fun n => other ++ [n] ≠ dirLoc ++ [name] := by
    unfold namesIn
    rw [List.filter_filterMap, List.filterMap_filter]
    refine List.filterMap_congr fun e _ => ?_
    cases hname : (if e.1.dropLast = other then e.1.getLast? else none) with
    | none => simp
    | some n =>
      rw [Option.filter_some, nameIn_eq_some_iff.mp hname]
  rw [namesIn, put, List.filterMap_cons, hrest]
  dsimp only
  rw [List.dropLast_concat, List.getLast?_concat]
  by_cases heq : other = dirLoc
  · subst heq
    simp
  · rw [if_neg (Ne.symm heq), if_neg heq, List.filter_eq_self.mpr]
    intro n _
    rw [decide_eq_true_eq, Ne, List.append_singleton_inj]
    exact fun h => heq h.1

end Disk

end DocHarvest.Host
