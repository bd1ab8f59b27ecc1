import DocHarvest.Load.Listing

/-!
# Loaded packages are parsed

A `SourceFile` could hold any tree. The files of a loaded package hold the tree of their own source,
because every loader adds files with `SourceFile.ofSource` and none changes a file afterwards. So
what is proved of parse trees holds of every package that is harvested.
-/

namespace DocHarvest

open DocHarvest.Syntax DocHarvest.Host

/-- What a computation with two steps has computed. -/
theorem bind_eq_ok {ε α β : Type} {x : Except ε α} {f : α → Except ε β} {b : β} :
    x >>= f = .ok b ↔ ∃ a, x = .ok a ∧ f a = .ok b := by
  cases x with
  | error e => simp [bind, Except.bind]
  | ok a => simp [bind, Except.bind]

/-- Every file of the package holds the tree of its source. -/
def Package.Parsed (p : Package) : Prop :=
  ∀ f ∈ p.files, f.tree = Node.parse? f.source.toList

namespace Package.Parsed

theorem of_files_eq {p q : Package} (h : p.Parsed) (hfiles : q.files = p.files) : q.Parsed := by
  rw [Package.Parsed, hfiles]
  exact h

theorem of_files_eq_nil {p : Package} (h : p.files = []) : p.Parsed := by
  rw [Package.Parsed, h]
  simp

theorem addFile {p : Package} (h : p.Parsed) (path source : String) :
    (p.addFile (.ofSource path source)).Parsed := by
  intro f hf
  rcases List.mem_append.mp hf with hf | hf
  · exact h f hf
  · rw [List.mem_singleton] at hf
    subst hf
    rfl

theorem addFiles {d : Disk} {paths : List String} {p q : Package} (h : p.Parsed)
    (hq : Load.addFiles d p paths = .ok q) : q.Parsed := by
  induction paths generalizing p with
  | nil =>
    cases hq
    exact h
  | cons path paths ih =>
    rw [Load.addFiles] at hq
    split at hq
    next => cases hq
    next source _ => exact ih (h.addFile path source) hq

end Package.Parsed

namespace Load

/-- Every package that the loader finds is parsed. -/
def Parses (load : Loader) : Prop :=
  ∀ ⦃path p⦄, load path = .ok p → p.Parsed

theorem parses_memory (files : List MemoryFile) : Parses (memory files) := by
  intro path p h
  have hfold : ∀ (found : List MemoryFile) (q : Package), q.Parsed →
      (found.foldl (fun p f => p.addFile (.ofSource f.path f.source)) q).Parsed := by
    intro found
    induction found with
    | nil => exact fun q hq => hq
    | cons f found ih => exact fun q hq => ih _ (hq.addFile f.path f.source)
  unfold memory at h
  split at h
  next =>
    cases h
    exact .of_files_eq_nil rfl
  next =>
    cases h
    exact hfold _ _ (.of_files_eq_nil rfl)

theorem parsed_of_loadDirectory {v : Volume} {path dir : String} {p q : Package} (h : p.Parsed)
    (hq : loadDirectory v path dir p = .ok q) : q.Parsed := by
  unfold loadDirectory at hq
  split at hq
  next =>
    cases hq
    exact h.of_files_eq rfl
  next names _ =>
    obtain ⟨r, hr, hq⟩ := bind_eq_ok.mp hq
    cases hq
    refine Package.Parsed.of_files_eq (Package.Parsed.addFiles ?_ hr) rfl
    unfold reportEmpty
    split
    next => exact h.of_files_eq rfl
    next => exact h

theorem parses_directory (v : Volume) (root : String) : Parses (directory v root) := by
  intro path p h
  unfold directory at h
  split at h
  next => exact parsed_of_loadDirectory (.of_files_eq_nil rfl) h
  next =>
    unfold loadImportPath at h
    split at h
    next =>
      cases h
      exact .of_files_eq_nil rfl
    next =>
      split at h
      next =>
        cases h
        exact .of_files_eq_nil rfl
      next => exact parsed_of_loadDirectory (.of_files_eq_nil rfl) h

theorem parsed_withError {p : Package} (h : p.Parsed) (e : Option ListedError) :
    (Listing.withError p e).Parsed := by
  cases e with
  | none => exact h
  | some e =>
    rw [Listing.withError]
    split
    next => exact h
    next => exact h.of_files_eq rfl

theorem parses_listed (tool : Tool) (d : Disk) (dir : Option String) :
    Parses (listed tool d dir) := by
  intro path p h
  unfold listed at h
  split at h
  next => cases h
  split at h
  next => cases h
  split at h
  next => cases h
  next listing _ =>
    unfold Listing.toPackage at h
    dsimp only at h
    split at h
    next =>
      cases h
      exact parsed_withError (.of_files_eq_nil rfl) _
    next =>
      obtain ⟨q, hq, hp⟩ := bind_eq_ok.mp h
      cases hp
      exact parsed_withError (Package.Parsed.addFiles (.of_files_eq_nil rfl) hq) _

end Load

end DocHarvest
