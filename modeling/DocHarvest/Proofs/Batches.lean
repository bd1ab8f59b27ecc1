import DocHarvest.Harvest.Basic

/-!
# Failures and batches

A package that is refused changes nothing, and a batch stops at the first package that is refused.

`harvest` takes a map to a map, so a harvest that fails has no map to return, and what it would have
done to a map at hand is not said. `harvestInPlace` says it: it works on one map from its first step
to its last, writes entry by entry, and whatever it has written when it fails stays written. The two
are the same (`run_harvestInPlace`), because every reason to refuse a package (`Refused`) is found
before the first entry is written.

A batch is told by its runs. `Harvests` is the relation between the map before and the map after a
list of packages all of which are harvested, and `harvestAll` follows it as far as it goes.
-/

namespace DocHarvest.Harvest

open DocHarvest.Load

variable {load : Loader} {mode : Mode} {m m' : CommentMap} {path : String} {e : HarvestError}

/-! ## Packages that are refused -/

/-- The reasons to refuse the package at a path, each given only where those before it are not. The
map plays no part in them. -/
inductive Refused (load : Loader) (mode : Mode) (path : String) : HarvestError → Prop
  /-- The path does not name one package. -/
  | path {e : HarvestError} : validatePath path = .error e → Refused load mode path e
  /-- The loader has no package to return. -/
  | load {e : LoadError} : validatePath path = .ok () → load path = .error e →
      Refused load mode path (.load e)
  /-- The package has diagnostics, or its module an error. -/
  | package {p : Package} {fault : PackageFault} : validatePath path = .ok () →
      load path = .ok p → p.fault? = some fault → Refused load mode path (.package fault)
  /-- The files disagree about the name of the package, and synopses need it. -/
  | mismatch {p : Package} {names : Doc.Mismatch} : validatePath path = .ok () →
      load path = .ok p → p.fault? = none → mode = .synopsis →
      Doc.View.ofPackage p = .error names → Refused load mode path (.mismatch names)

theorem summarizer_eq_error_iff {p : Package} :
    summarizer mode p = .error e ↔
      mode = .synopsis ∧ ∃ names, Doc.View.ofPackage p = .error names ∧ e = .mismatch names := by
  unfold summarizer
  cases mode with
  | full => simp
  | synopsis =>
    cases Doc.View.ofPackage p with
    | ok view => simp
    | error names => simp [eq_comm]

/-- What a harvest adds, and whether it adds anything, does not depend on the map. -/
theorem harvest_eq (load : Loader) (mode : Mode) (m : CommentMap) (path : String) :
    harvest load mode m path = (pathEntries load mode path).map m.insertAll := by
  unfold harvest
  cases pathEntries load mode path with
  | error e => rfl
  | ok es => rfl

theorem packageEntries_eq_error_iff {p : Package} :
    packageEntries mode p = .error e ↔
      (∃ fault, p.fault? = some fault ∧ e = .package fault) ∨
        p.fault? = none ∧ summarizer mode p = .error e := by
  unfold packageEntries
  cases p.fault? with
  | some fault => simp [eq_comm]
  | none =>
    cases summarizer mode p with
    | ok summarize => simp [bind, Except.bind, pure, Except.pure]
    | error e' => simp [bind, Except.bind]

/-- A package is refused for one of these reasons and for no other. -/
theorem pathEntries_eq_error_iff :
    pathEntries load mode path = .error e ↔ Refused load mode path e := by
  constructor
  · intro h
    unfold pathEntries at h
    cases hpath : validatePath path with
    | error e' =>
      rw [hpath] at h
      cases h
      exact .path hpath
    | ok u =>
      rw [hpath] at h
      cases hload : load path with
      | error e' =>
        simp only [hload] at h
        cases h
        exact .load hpath hload
      | ok p =>
        simp only [hload] at h
        rcases packageEntries_eq_error_iff.mp h with ⟨fault, hfault, rfl⟩ | ⟨hfault, hsum⟩
        · exact .package hpath hload hfault
        · obtain ⟨hmode, names, hview, rfl⟩ := summarizer_eq_error_iff.mp hsum
          exact .mismatch hpath hload hfault hmode hview
  · intro h
    cases h with
    | path hpath => simp [pathEntries, hpath, bind, Except.bind]
    | load hpath hload => simp [pathEntries, hpath, hload, bind, Except.bind]
    | package hpath hload hfault =>
      have hentries : packageEntries mode _ = .error _ :=
        packageEntries_eq_error_iff.mpr (.inl ⟨_, hfault, rfl⟩)
      simp [pathEntries, hpath, hload, hentries, bind, Except.bind]
    | mismatch hpath hload hfault hmode hview =>
      have hsum := summarizer_eq_error_iff.mpr ⟨hmode, _, hview, rfl⟩
      have hentries := packageEntries_eq_error_iff.mpr (.inr ⟨hfault, hsum⟩)
      simp [pathEntries, hpath, hload, hentries, bind, Except.bind]

theorem harvest_eq_error_iff :
    harvest load mode m path = .error e ↔ Refused load mode path e := by
  rw [← pathEntries_eq_error_iff, harvest_eq]
  cases pathEntries load mode path with
  | error e' => simp [Except.map]
  | ok es => simp [Except.map]

/-! ## Harvesting in place -/

/-- A computation with a map at hand. What it has written when it fails stays written. -/
abbrev InPlace := ExceptT HarvestError (StateM CommentMap)

/-- Writes entries into the map at hand, one after the other. -/
def writeAll (es : List Entry) : InPlace Unit :=
  es.forM fun e => modify (·.insert e.1 e.2)

/-- Harvests a package into the map at hand: the path is checked, the package is loaded, its faults
and its name are looked at, and then its files are walked and their entries written. -/
def harvestInPlace (load : Loader) (mode : Mode) (path : String) : InPlace Unit := do
  ofExcept (validatePath path)
  let p ← ofExcept ((load path).mapError HarvestError.load)
  match p.fault? with
  | some fault => throw (.package fault)
  | none =>
    let summarize ← ofExcept (summarizer mode p)
    p.files.forM fun f => writeAll (fileEntries p.importPath summarize f)

/-- The steps of a computation in place work on the map that those before them leave, up to the
first that fails. -/
theorem run_bind {α β : Type} (x : InPlace α) (f : α → InPlace β) (m : CommentMap) :
    (x >>= f).run m = match x.run m with
      | (.ok a, m') => (f a).run m'
      | (.error e, m') => (.error e, m') := by
  rw [ExceptT.run_bind]
  cases hx : x.run m with
  | mk r m' =>
    cases r with
    | ok a => simp only [bind, StateT.bind, hx]
    | error e =>
      simp only [bind, StateT.bind, hx]
      rfl

theorem run_ofExcept {α : Type} (x : Except HarvestError α) (m : CommentMap) :
    (ofExcept x : InPlace α).run m = (x, m) := by
  cases x with
  | error e => rfl
  | ok a => rfl

theorem run_writeAll (es : List Entry) (m : CommentMap) :
    (writeAll es).run m = (.ok (), m.insertAll es) := by
  induction es generalizing m with
  | nil => rfl
  | cons e es ih => exact ih (m.insert e.1 e.2)

theorem insertAll_append (m : CommentMap) (es ds : List Entry) :
    m.insertAll (es ++ ds) = (m.insertAll es).insertAll ds :=
  List.foldl_append

theorem run_writeFiles (importPath : String) (summarize : String → String) (fs : List SourceFile)
    (m : CommentMap) :
    (fs.forM fun f => writeAll (fileEntries importPath summarize f) : InPlace Unit).run m
      = (.ok (), m.insertAll (fs.flatMap (fileEntries importPath summarize))) := by
  induction fs generalizing m with
  | nil => rfl
  | cons f fs ih =>
    rw [List.forM, run_bind, run_writeAll, List.flatMap_cons, insertAll_append]
    exact ih _

/-- **A harvest in place** leaves the map of the harvest where it succeeds, and the map that it
started with where it fails. -/
theorem run_harvestInPlace (load : Loader) (mode : Mode) (path : String) (m : CommentMap) :
    (harvestInPlace load mode path).run m = match harvest load mode m path with
      | .ok m' => (.ok (), m')
      | .error e => (.error e, m) := by
  rw [harvest_eq]
  unfold harvestInPlace pathEntries
  rw [run_bind, run_ofExcept]
  cases validatePath path with
  | error e => rfl
  | ok u =>
    dsimp only
    rw [run_bind, run_ofExcept]
    cases load path with
    | error e => rfl
    | ok p =>
      have hload : (Except.ok p).mapError HarvestError.load = .ok p := rfl
      simp only [hload, packageEntries]
      cases p.fault? with
      | some fault => rfl
      | none =>
        dsimp only
        rw [run_bind, run_ofExcept]
        cases summarizer mode p with
        | error e => rfl
        | ok summarize =>
          dsimp only
          rw [run_writeFiles]
          rfl

/-! ## Batches -/

/-- The map `m` becomes the map `m'` when packages are harvested in order and none is refused. -/
inductive Harvests (load : Loader) (mode : Mode) : CommentMap → List String → CommentMap → Prop
  | nil (m : CommentMap) : Harvests load mode m [] m
  | cons {m m' m'' : CommentMap} {path : String} {paths : List String} :
      harvest load mode m path = .ok m' → Harvests load mode m' paths m'' →
      Harvests load mode m (path :: paths) m''

theorem harvestAll_cons_ok (h : harvest load mode m path = .ok m') (paths : List String) :
    harvestAll load mode m (path :: paths) = harvestAll load mode m' paths := by
  rw [harvestAll, h]

theorem harvestAll_cons_error (h : harvest load mode m path = .error e) (paths : List String) :
    harvestAll load mode m (path :: paths) = (m, .error e) := by
  rw [harvestAll, h]

/-- A batch goes through the packages that are harvested. -/
theorem Harvests.harvestAll_append {done : List String} (h : Harvests load mode m done m')
    (rest : List String) :
    harvestAll load mode m (done ++ rest) = harvestAll load mode m' rest := by
  induction h with
  | nil m => rfl
  | cons hfirst _ ih => rw [List.cons_append, harvestAll_cons_ok hfirst, ih]

/-- A batch goes through all packages, or it comes to one that is refused. -/
theorem harvests_or_refused (load : Loader) (mode : Mode) (m : CommentMap) (paths : List String) :
    (∃ m', Harvests load mode m paths m') ∨
      ∃ done path rest m' e, paths = done ++ path :: rest ∧ Harvests load mode m done m' ∧
        harvest load mode m' path = .error e := by
  induction paths generalizing m with
  | nil => exact .inl ⟨m, .nil m⟩
  | cons path paths ih =>
    cases hfirst : harvest load mode m path with
    | error e => exact .inr ⟨[], path, paths, m, e, rfl, .nil m, hfirst⟩
    | ok m' =>
      rcases ih m' with ⟨m'', hall⟩ | ⟨done, path', rest, m'', e, rfl, hdone, herror⟩
      · exact .inl ⟨m'', .cons hfirst hall⟩
      · exact .inr ⟨path :: done, path', rest, m'', e, rfl, .cons hfirst hdone, herror⟩

theorem harvestAll_eq_ok_iff {paths : List String} :
    harvestAll load mode m paths = (m', .ok ()) ↔ Harvests load mode m paths m' := by
  constructor
  · intro h
    rcases harvests_or_refused load mode m paths with
      ⟨m'', hall⟩ | ⟨done, path, rest, m'', e, rfl, hdone, herror⟩
    · have hrun := hall.harvestAll_append []
      rw [List.append_nil, h, harvestAll] at hrun
      cases hrun
      exact hall
    · rw [hdone.harvestAll_append, harvestAll_cons_error herror] at h
      cases h
  · intro h
    have hrun := h.harvestAll_append []
    rwa [List.append_nil, harvestAll] at hrun

theorem harvestAll_eq_error_iff {paths : List String} :
    harvestAll load mode m paths = (m', .error e) ↔
      ∃ done path rest, paths = done ++ path :: rest ∧ Harvests load mode m done m' ∧
        harvest load mode m' path = .error e := by
  constructor
  · intro h
    rcases harvests_or_refused load mode m paths with
      ⟨m'', hall⟩ | ⟨done, path, rest, m'', e', rfl, hdone, herror⟩
    · rw [harvestAll_eq_ok_iff.mpr hall] at h
      cases h
    · rw [hdone.harvestAll_append, harvestAll_cons_error herror] at h
      cases h
      exact ⟨done, path, rest, rfl, hdone, herror⟩
  · rintro ⟨done, path, rest, rfl, hdone, herror⟩
    rw [hdone.harvestAll_append, harvestAll_cons_error herror]

/-- A batch in place leaves the map of the batch. -/
theorem run_harvestAllInPlace (load : Loader) (mode : Mode) (paths : List String) (m : CommentMap) :
    (paths.forM (harvestInPlace load mode)).run m = (harvestAll load mode m paths).swap := by
  induction paths generalizing m with
  | nil => rfl
  | cons path paths ih =>
    rw [List.forM, run_bind, run_harvestInPlace]
    cases hfirst : harvest load mode m path with
    | error e => rw [harvestAll_cons_error hfirst]; rfl
    | ok m' => rw [harvestAll_cons_ok hfirst]; exact ih m'

/-- **Failures are atomic, and a batch stops at the first.** A harvest fails exactly if the package
is refused, and then the map at hand is the one it started with. A batch, in place or not, harvests
all of its packages if none is refused; otherwise it ends with the error of the first that is and
the map of those before it, whatever comes after. So a batch of two parts is the second after the
first. -/
theorem batch_stops_at_refusal (load : Loader) (mode : Mode) (m : CommentMap) :
    (∀ path e, harvest load mode m path = .error e ↔ Refused load mode path e) ∧
    (∀ path, (harvestInPlace load mode path).run m = match harvest load mode m path with
      | .ok m' => (.ok (), m')
      | .error e => (.error e, m)) ∧
    (∀ paths, (paths.forM (harvestInPlace load mode)).run m
      = ((harvestAll load mode m paths).2, (harvestAll load mode m paths).1)) ∧
    (∀ paths m', harvestAll load mode m paths = (m', .ok ()) ↔ Harvests load mode m paths m') ∧
    (∀ paths m' e, harvestAll load mode m paths = (m', .error e) ↔
      ∃ done path rest, paths = done ++ path :: rest ∧ Harvests load mode m done m' ∧
        harvest load mode m' path = .error e) ∧
    ∀ xs ys, harvestAll load mode m (xs ++ ys) = match harvestAll load mode m xs with
      | (m', .ok ()) => harvestAll load mode m' ys
      | (m', .error e) => (m', .error e) := by
  refine ⟨fun path e => harvest_eq_error_iff, fun path => run_harvestInPlace load mode path m,
    fun paths => run_harvestAllInPlace load mode paths m, fun paths m' => harvestAll_eq_ok_iff,
    fun paths m' e => harvestAll_eq_error_iff, fun xs ys => ?_⟩
  rcases hxs : harvestAll load mode m xs with ⟨m', e | u⟩
  · -- the first part comes to a package that is refused, and so does the whole
    obtain ⟨done, path, rest, rfl, hdone, herror⟩ := harvestAll_eq_error_iff.mp hxs
    rw [List.append_assoc, List.cons_append, hdone.harvestAll_append, harvestAll_cons_error herror]
  · exact (harvestAll_eq_ok_iff.mp hxs).harvestAll_append ys

end DocHarvest.Harvest
