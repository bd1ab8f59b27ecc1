import DocHarvest.Proofs.Declared
import DocHarvest.Proofs.Loading
import DocHarvest.Proofs.Parsed
import Mathlib.Data.List.Basic

/-!
# The places of a package

A `Place` is a step of the walk of a file: a site together with the sites before it. The entries of
a package are what is written at its places, one after the other (`packageEntries_eq_written`), so a
statement about which node an entry comes from is a statement about places.

`Place.files` tells without a state whether a field is filed under a type at a place. Names have no
dots in a parsed file, so a key tells the type and the field that it was made of, and no type key is
a field key. Hence `Place.mem_written_iff`: an entry with the key of a field is written at a place
exactly if the place files that field.
-/

namespace DocHarvest

open DocHarvest.Syntax DocHarvest.Harvest

/-! ## Keys -/

theorem toList_fieldKey (cx : Context) (type field : String) :
    (cx.fieldKey type field).toList
      = (cx.importPath.toList ++ ['.']) ++ (type.toList ++ '.' :: field.toList) := by
  simp [Context.fieldKey]

/-- A field key tells the type and the field. -/
theorem fieldKey_inj {cx : Context} {type field : String} (htype : '.' ∉ type.toList)
    (hfield : '.' ∉ field.toList) {type' field' : String} :
    cx.fieldKey type field = cx.fieldKey type' field' ↔ type = type' ∧ field = field' := by
  rw [← String.toList_inj, toList_fieldKey, toList_fieldKey, List.append_cancel_left_eq,
    List.append_cons_inj_of_notMem htype hfield, String.toList_inj, String.toList_inj]
  simp

/-- A type key is no field key. -/
theorem typeKey_ne_fieldKey {cx : Context} {name : String} (hname : '.' ∉ name.toList)
    (type field : String) : cx.typeKey name ≠ cx.fieldKey type field := by
  intro h
  rw [← String.toList_inj, toList_fieldKey] at h
  have hkey : (cx.typeKey name).toList = (cx.importPath.toList ++ ['.']) ++ name.toList := by
    simp [Context.typeKey]
  rw [hkey, List.append_cancel_left_eq] at h
  exact hname (by simp [h])

/-! ## Places -/

/-- A step of the walk of a file: a site of the file, and the sites before it. -/
structure Place where
  file : SourceFile
  root : Node
  before : List Site
  site : Site

namespace Place

/-- The source text around a place. -/
def source (q : Place) : List Char :=
  q.file.source.toList

/-- What the walk knows at a place. -/
def context (importPath : String) (summarize : String → String) (q : Place) : Context :=
  ⟨importPath, summarize, q.source, .ofSource q.source q.root⟩

/-- The comment of a field at a place. -/
def text (q : Place) : String :=
  fieldText (q.context "" id) q.site.node

/-- Whether a field with a given name is filed under a given type at a place. -/
def files (type field : String) (q : Place) : Bool :=
  isField q.site.node && owner? q.source q.before = some type &&
    (q.site.node.names q.source).contains field && isExported field && !q.text.isEmpty

/-- What the walk writes at a place: it visits the site in the state that the sites before it have
left. -/
def written (importPath : String) (summarize : String → String) (q : Place) : List Entry :=
  let cx := q.context importPath summarize
  (visit cx q.site.grouped (visitAll cx State.initial q.before).1 q.site.node).2

/-- The walk writes at a place what is declared there. -/
theorem written_eq_siteEntries (importPath : String) (summarize : String → String) (q : Place) :
    q.written importPath summarize
      = siteEntries (q.context importPath summarize) q.before q.site := by
  have hstate := visitAll_after (q.context importPath summarize) [] q.before
  rw [stateAfter_nil, List.nil_append] at hstate
  rw [written]
  simp only [hstate, visit_after]

/-- A place to which the walk of a parsed file comes. -/
structure Reached (q : Place) : Prop where
  parsed : Node.parse? q.source = some q.root
  run : q.before ++ [q.site] <+: q.root.sites []

end Place

/-- The places of a file in the order of the walk. -/
def SourceFile.places (f : SourceFile) : List Place :=
  match f.tree with
  | none => []
  | some root => (root.sites []).mapIdx fun i x => ⟨f, root, (root.sites []).take i, x⟩

/-- The places of a package in the order of the walk. -/
def Package.places (p : Package) : List Place :=
  p.files.flatMap SourceFile.places

/-- The entries of a file are what is written at its places. -/
theorem fileEntries_eq_written (importPath : String) (summarize : String → String)
    (f : SourceFile) :
    fileEntries importPath summarize f
      = f.places.flatMap (Place.written importPath summarize) := by
  rw [fileEntries_eq_declaredEntries, declaredEntries, SourceFile.places]
  cases f.tree with
  | none => rfl
  | some root =>
    -- both are one list for each site, told with the sites before it
    simp only [declaredEntriesOf, List.flatMap_def, List.mapIdx_eq_zipIdx_map, List.map_map]
    refine congrArg List.flatten (List.map_congr_left fun e _ => ?_)
    rw [Function.comp_apply, Place.written_eq_siteEntries]
    rfl

/-- The entries of the files of a package are what is written at its places. -/
theorem Package.flatMap_written (importPath : String) (summarize : String → String) (p : Package) :
    p.places.flatMap (Place.written importPath summarize)
      = p.files.flatMap (fileEntries importPath summarize) := by
  rw [Package.places, List.flatMap_assoc]
  exact List.flatMap_congr fun f _ => (fileEntries_eq_written importPath summarize f).symm

/-- A package without faults is harvested to what is written at its places. -/
theorem packageEntries_eq_ok_iff {mode : Mode} {p : Package} {es : List Entry} :
    packageEntries mode p = .ok es ↔ p.fault? = none ∧ ∃ summarize,
      summarizer mode p = .ok summarize ∧
        es = p.places.flatMap (Place.written p.importPath summarize) := by
  unfold packageEntries
  cases p.fault? with
  | some fault => simp
  | none =>
    simp only [true_and]
    rw [bind_eq_ok]
    refine exists_congr fun summarize => and_congr_right fun _ => ?_
    rw [Package.flatMap_written]
    exact ⟨fun h => (Except.ok.inj h).symm, fun h => congrArg Except.ok h.symm⟩

/-- Synopses need a view of the package. -/
theorem view_of_summarizer {mode : Mode} {p : Package} {summarize : String → String}
    (hmode : mode = .synopsis) (h : summarizer mode p = .ok summarize) :
    ∃ view, Doc.View.ofPackage p = .ok view ∧ summarize = view.synopsis := by
  subst hmode
  unfold summarizer at h
  dsimp only at h
  split at h
  next view hview =>
    cases h
    exact ⟨view, hview, rfl⟩
  next => cases h

/-- The entries at a path are those of the package that is loaded for it. -/
theorem pathEntries_eq_ok_iff {load : Load.Loader} {mode : Mode} {path : String} {es : List Entry} :
    pathEntries load mode path = .ok es ↔
      validatePath path = .ok () ∧ ∃ p, load path = .ok p ∧ packageEntries mode p = .ok es := by
  unfold pathEntries
  rw [bind_eq_ok]
  constructor
  · rintro ⟨⟨⟩, hvalid, h⟩
    split at h
    next => cases h
    next p hload => exact ⟨hvalid, p, hload, h⟩
  · rintro ⟨hvalid, p, hload, h⟩
    refine ⟨(), hvalid, ?_⟩
    rw [hload]
    exact h

/-- The entries of a package are what is written at its places. -/
theorem packageEntries_eq_written {mode : Mode} {p : Package} {es : List Entry}
    (h : packageEntries mode p = .ok es) :
    ∃ summarize, es = p.places.flatMap (Place.written p.importPath summarize) := by
  obtain ⟨-, summarize, -, hes⟩ := packageEntries_eq_ok_iff.mp h
  exact ⟨summarize, hes⟩

/-- The places of a parsed package are reached in its files. -/
theorem Package.Parsed.reached {p : Package} (hp : p.Parsed) {q : Place} (hq : q ∈ p.places) :
    q.Reached ∧ q.file ∈ p.files ∧ q.file.tree = some q.root := by
  obtain ⟨f, hf, hqf⟩ := List.mem_flatMap.mp hq
  unfold SourceFile.places at hqf
  split at hqf
  next => cases hqf
  next root htree =>
    obtain ⟨i, hi, rfl⟩ := List.exists_of_mem_mapIdx hqf
    refine ⟨⟨(hp f hf).symm.trans htree, ?_⟩, hf, htree⟩
    rw [← List.take_succ_eq_append_getElem hi]
    exact List.take_prefix _ _

/-! ## Names at places -/

namespace Place.Reached

variable {q : Place}

theorem site_mem (h : q.Reached) : q.site ∈ q.root.sites [] :=
  h.run.subset (List.mem_append_right _ (List.mem_singleton_self _))

theorem before_subset (h : q.Reached) : ∀ x ∈ q.before, x ∈ q.root.sites [] :=
  fun _ hx => h.run.subset (List.mem_append_left _ hx)

/-- The names that are bound at a site have no dots, those of imports apart. -/
theorem dot_notMem (h : q.Reached) {x : Site} (hx : x ∈ q.root.sites [])
    (hk : x.node.kind ≠ .importSpec) {name : String} (hname : name ∈ x.node.names q.source) :
    '.' ∉ name.toList :=
  Node.dot_notMem_of_parse? h.parsed (Node.mem_preorder_of_mem_sites hx) hk hname

theorem dot_notMem_field (h : q.Reached) (hfield : isField q.site.node = true) {name : String}
    (hname : name ∈ q.site.node.names q.source) : '.' ∉ name.toList := by
  refine h.dot_notMem h.site_mem ?_ hname
  intro hk
  simp [isField, hk] at hfield

theorem dot_notMem_type (h : q.Reached) {x : Site} (hx : x ∈ q.root.sites []) {name : String}
    (hname : typeName? q.source x.node = some name) : '.' ∉ name.toList := by
  obtain ⟨hspec, hbound⟩ := isTypeSpec_of_typeName? hname
  refine h.dot_notMem hx ?_ hbound
  intro hk
  simp [isTypeSpec, hk] at hspec

theorem dot_notMem_owner (h : q.Reached) {type : String}
    (howner : owner? q.source q.before = some type) : '.' ∉ type.toList := by
  obtain ⟨hfound, -⟩ := Option.filter_eq_some_iff.mp howner
  obtain ⟨x, hx, hname⟩ := List.exists_of_findSome?_eq_some hfound
  exact h.dot_notMem_type (h.before_subset x (List.mem_reverse.mp hx)) hname

end Place.Reached

/-! ## What is written at a place -/

namespace Place

variable {q : Place} (h : q.Reached) (importPath : String) (summarize : String → String)
  (type field text : String)
include h

/-- The entry of a type does not have the key of a field. -/
theorem notMem_typeEntries :
    (importPath ++ "." ++ type ++ "." ++ field, text) ∉
      typeEntries (q.context importPath summarize) q.before q.site := by
  intro hmem
  unfold typeEntries at hmem
  split at hmem
  next => cases hmem
  next name hname =>
    dsimp only at hmem
    split at hmem
    next => cases hmem
    next =>
      rw [List.mem_singleton, Prod.mk.injEq] at hmem
      obtain ⟨hname, -⟩ := Option.filter_eq_some_iff.mp hname
      exact typeKey_ne_fieldKey (h.dot_notMem_type h.site_mem hname) type field hmem.1.symm

theorem mem_fieldEntries_iff :
    (importPath ++ "." ++ type ++ "." ++ field, text) ∈
        fieldEntries (q.context importPath summarize) q.before q.site ↔
      q.files type field = true ∧ text = q.text := by
  unfold fieldEntries files
  rw [show (q.context importPath summarize).source = q.source from rfl,
    show fieldText (q.context importPath summarize) q.site.node = q.text from rfl]
  cases howner : owner? q.source q.before with
  | none => simp
  | some owner =>
    dsimp only
    split
    next hdoc =>
      obtain ⟨hfield, htext⟩ := Bool.and_eq_true_iff.mp hdoc
      simp only [hfield, htext, Bool.true_and, Bool.and_true, Bool.and_eq_true, decide_eq_true_eq,
        Option.some.injEq, List.contains_iff_mem]
      constructor
      · -- the key tells the owner and the name, because neither has a dot
        intro hmem
        obtain ⟨name, hname, heq⟩ := List.mem_map.mp hmem
        obtain ⟨hname, hexported⟩ := List.mem_filter.mp hname
        obtain ⟨hkey, htext⟩ := Prod.mk.inj heq
        obtain ⟨rfl, rfl⟩ :=
          (fieldKey_inj (h.dot_notMem_owner howner) (h.dot_notMem_field hfield hname)).mp hkey
        exact ⟨⟨⟨rfl, hname⟩, hexported⟩, htext.symm⟩
      · rintro ⟨⟨⟨rfl, hname⟩, hexported⟩, rfl⟩
        exact List.mem_map.mpr ⟨field, List.mem_filter.mpr ⟨hname, hexported⟩, rfl⟩
    next hnot =>
      constructor
      · exact fun hmem => absurd hmem List.not_mem_nil
      · rintro ⟨hfiles, -⟩
        simp only [Bool.and_eq_true] at hfiles hnot
        exact absurd ⟨hfiles.1.1.1.1, hfiles.2⟩ hnot

/-- **A key tells what was filed.** An entry with the key of a field is written exactly where that
field is filed under that type, with the comment of the field. -/
theorem mem_written_iff :
    (importPath ++ "." ++ type ++ "." ++ field, text) ∈ q.written importPath summarize ↔
      q.files type field = true ∧ text = q.text := by
  rw [written_eq_siteEntries, siteEntries, List.mem_append,
    or_iff_right (notMem_typeEntries h importPath summarize type field text)]
  exact mem_fieldEntries_iff h importPath summarize type field text

end Place

end DocHarvest
