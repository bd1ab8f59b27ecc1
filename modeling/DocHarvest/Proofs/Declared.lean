import DocHarvest.Harvest.Basic
import DocHarvest.Proofs.Overlay
import DocHarvest.Proofs.Sites

/-!
# What a file declares, without a state

The walk carries two cells from node to node: the active type and the doc comment that waits for a
type. Here the entries of a file are told without them. What is written at a node depends only on
the node and on the nodes before it in preorder (`siteEntries`):

* a type spec with an exported name is recorded with its own comment, or else with the comment of
  the last general declaration before it, unless an exported type spec in between has taken that
  (`typeDoc`, `leftDoc`);
* a field is recorded under the name of the last type spec before it, if that is exported
  (`owner?`).

`visit_after` is the invariant: after any sites the two cells of the walk hold exactly `owner?` and
`leftDoc` of these sites, and the next visit writes exactly `siteEntries`. By induction along the
list of sites the walk writes what is declared (`fileEntries_eq_declaredEntries`), and so the map
after all files is the map before them with the declared entries laid over it
(`walked_eq_overlay_declared`).
-/

namespace DocHarvest.Harvest

open DocHarvest.Syntax

/-! ## The declared entries -/

/-- The name of a type spec. -/
def typeName? (source : List Char) (n : Node) : Option String :=
  if isTypeSpec n then (n.names source).head? else none

/-- The comment of a type spec itself, which it has only in a parenthesised group. -/
def ownDoc (cx : Context) (x : Site) : String :=
  if x.grouped then cx.leadText x.node else ""

/-- Whether a site is an exported type spec without a comment of its own. -/
def takesDoc (cx : Context) (x : Site) : Bool :=
  (typeName? cx.source x.node).any isExported && (ownDoc cx x).isEmpty

/-- The doc comment that some sites leave to the next type: the one of the last general declaration
among them, unless an exported type spec behind it has no comment of its own. -/
def leftDoc (cx : Context) (before : List Site) : String :=
  match before.reverse.find? (isGeneral ·.node) with
  | none => ""
  | some general =>
    let between := before.reverse.takeWhile (!isGeneral ·.node)
    if between.any (takesDoc cx) then "" else cx.leadText general.node

/-- The doc comment of a type spec: its own, or else what the sites before it leave. -/
def typeDoc (cx : Context) (before : List Site) (x : Site) : String :=
  if (ownDoc cx x).isEmpty then leftDoc cx before else ownDoc cx x

/-- The type under which a field after some sites is recorded: the last type spec among them that
has a name, if the name is exported. -/
def owner? (source : List Char) (before : List Site) : Option String :=
  (before.reverse.findSome? (typeName? source ·.node)).filter isExported

/-- The entry of a type spec. -/
def typeEntries (cx : Context) (before : List Site) (x : Site) : List Entry :=
  match (typeName? cx.source x.node).filter isExported with
  | none => []
  | some name =>
    let text := cx.summarize (typeDoc cx before x)
    if text.isEmpty then [] else [(cx.typeKey name, text)]

/-- The entries of a field: one for each exported name, with the comment above the field or else the
one that closes its line. -/
def fieldEntries (cx : Context) (before : List Site) (x : Site) : List Entry :=
  match owner? cx.source before with
  | none => []
  | some type =>
    if isField x.node && !(fieldText cx x.node).isEmpty then
      ((x.node.names cx.source).filter isExported).map fun name =>
        (cx.fieldKey type name, fieldText cx x.node)
    else []

/-- What is written at a site, given the sites before it. -/
def siteEntries (cx : Context) (before : List Site) (x : Site) : List Entry :=
  typeEntries cx before x ++ fieldEntries cx before x

/-- What is written at the sites of a list, each with those before it. -/
def declaredEntriesOf (cx : Context) (xs : List Site) : List Entry :=
  (xs.mapIdx fun i x => siteEntries cx (xs.take i) x).flatten

/-- The entries that a file declares, in preorder. -/
def declaredEntries (importPath : String) (summarize : String → String) (f : SourceFile) :
    List Entry :=
  match f.tree with
  | none => []
  | some root =>
    let source := f.source.toList
    declaredEntriesOf ⟨importPath, summarize, source, .ofSource source root⟩ (root.sites [])

/-! ## The kinds of sites exclude each other -/

theorem isTypeSpec_of_isGeneral {n : Node} (h : isGeneral n = true) : isTypeSpec n = false := by
  unfold isGeneral at h
  unfold isTypeSpec
  cases hk : n.kind <;> simp_all

theorem isField_of_isGeneral {n : Node} (h : isGeneral n = true) : isField n = false := by
  unfold isGeneral at h
  unfold isField
  cases hk : n.kind <;> simp_all

theorem isField_of_isTypeSpec {n : Node} (h : isTypeSpec n = true) : isField n = false := by
  unfold isTypeSpec at h
  unfold isField
  cases hk : n.kind <;> simp_all

theorem typeName?_of_not_isTypeSpec (source : List Char) {n : Node} (h : isTypeSpec n = false) :
    typeName? source n = none := by
  rw [typeName?, h]
  rfl

theorem typeName?_of_isTypeSpec (source : List Char) {n : Node} (h : isTypeSpec n = true) :
    typeName? source n = (n.names source).head? := by
  rw [typeName?, h]
  rfl

/-- Only a type spec has the name of a type, and it binds that name. -/
theorem isTypeSpec_of_typeName? {source : List Char} {n : Node} {name : String}
    (h : typeName? source n = some name) : isTypeSpec n = true ∧ name ∈ n.names source := by
  cases hspec : isTypeSpec n with
  | false =>
    rw [typeName?_of_not_isTypeSpec source hspec] at h
    cases h
  | true =>
    rw [typeName?_of_isTypeSpec source hspec] at h
    exact ⟨rfl, List.mem_of_head? h⟩

/-- What is written at a type spec: one entry, if the name is exported and the text recorded. -/
theorem mem_typeEntries_iff {cx : Context} {before : List Site} {x : Site} {e : Entry} :
    e ∈ typeEntries cx before x ↔
      ∃ name, typeName? cx.source x.node = some name ∧ isExported name = true ∧
        cx.summarize (typeDoc cx before x) ≠ "" ∧
        e = (cx.typeKey name, cx.summarize (typeDoc cx before x)) := by
  unfold typeEntries
  cases hname : (typeName? cx.source x.node).filter isExported with
  | none =>
    constructor
    · intro h
      cases h
    · rintro ⟨name, hspec, hexported, -⟩
      rw [hspec, Option.filter_some, if_pos hexported] at hname
      cases hname
  | some name =>
    obtain ⟨hspec, hexported⟩ := Option.filter_eq_some_iff.mp hname
    dsimp only
    split
    next hempty =>
      constructor
      · intro h
        cases h
      · rintro ⟨_, -, -, hne, -⟩
        exact absurd (String.isEmpty_iff.mp hempty) hne
    next hempty =>
      rw [List.mem_singleton]
      constructor
      · exact fun h => ⟨name, hspec, hexported, fun h => hempty (String.isEmpty_iff.mpr h), h⟩
      · rintro ⟨name', hspec', -, -, rfl⟩
        rw [hspec, Option.some.injEq] at hspec'
        rw [hspec']

/-- What is written at a field: an entry for each exported name, if there is a type before it. -/
theorem mem_fieldEntries_iff {cx : Context} {before : List Site} {x : Site} {e : Entry} :
    e ∈ fieldEntries cx before x ↔
      ∃ type name, owner? cx.source before = some type ∧ isField x.node = true ∧
        name ∈ x.node.names cx.source ∧ isExported name = true ∧ fieldText cx x.node ≠ "" ∧
        e = (cx.fieldKey type name, fieldText cx x.node) := by
  unfold fieldEntries
  cases owner? cx.source before with
  | none => simp
  | some type =>
    dsimp only
    split
    next hdoc =>
      rw [Bool.and_eq_true, Bool.not_eq_true', ← Bool.not_eq_true, String.isEmpty_iff] at hdoc
      constructor
      · intro h
        obtain ⟨name, hname, rfl⟩ := List.mem_map.mp h
        obtain ⟨hname, hexported⟩ := List.mem_filter.mp hname
        exact ⟨type, name, rfl, hdoc.1, hname, hexported, hdoc.2, rfl⟩
      · rintro ⟨type', name, htype, -, hname, hexported, -, rfl⟩
        rw [Option.some.injEq] at htype
        rw [htype]
        exact List.mem_map.mpr ⟨name, List.mem_filter.mpr ⟨hname, hexported⟩, rfl⟩
    next hdoc =>
      constructor
      · intro h
        cases h
      · rintro ⟨_, _, -, hfield, -, -, hne, -⟩
        refine absurd ?_ hdoc
        rw [hfield, Bool.true_and, Bool.not_eq_true', ← Bool.not_eq_true, String.isEmpty_iff]
        exact hne

/-! ## One more site -/

theorem owner?_concat (source : List Char) (before : List Site) (x : Site) :
    owner? source (before ++ [x]) =
      match typeName? source x.node with
      | none => owner? source before
      | some name => if isExported name then some name else none := by
  unfold owner?
  rw [List.reverse_append, List.reverse_singleton, List.singleton_append, List.findSome?_cons]
  cases typeName? source x.node with
  | none => rfl
  | some name => rfl

theorem leftDoc_concat (cx : Context) (before : List Site) (x : Site) :
    leftDoc cx (before ++ [x]) =
      if isGeneral x.node then cx.leadText x.node
      else if takesDoc cx x then "" else leftDoc cx before := by
  unfold leftDoc
  rw [List.reverse_append, List.reverse_singleton, List.singleton_append, List.find?_cons,
    List.takeWhile_cons]
  cases isGeneral x.node with
  | true => rfl
  | false =>
    simp only [Bool.not_false, if_true, Bool.false_eq_true, if_false, List.any_cons]
    cases takesDoc cx x with
    | true =>
      cases before.reverse.find? (isGeneral ·.node) with
      | none => rfl
      | some general => rfl
    | false => rfl

/-! ## The invariant of the walk -/

/-- What the walk carries after some sites. -/
def stateAfter (cx : Context) (before : List Site) : State :=
  ⟨owner? cx.source before, leftDoc cx before⟩

theorem stateAfter_nil (cx : Context) : stateAfter cx [] = State.initial := rfl

theorem visitTypeSpec_after (cx : Context) (before : List Site) {x : Site}
    (h : isTypeSpec x.node = true) :
    visitTypeSpec cx x.grouped (stateAfter cx before) x.node
      = (stateAfter cx (before ++ [x]), typeEntries cx before x) := by
  have hgeneral : isGeneral x.node = false := by
    cases hg : isGeneral x.node with
    | false => rfl
    | true => rw [isTypeSpec_of_isGeneral hg] at h; cases h
  unfold visitTypeSpec stateAfter
  rw [owner?_concat, leftDoc_concat, typeEntries, takesDoc, typeName?_of_isTypeSpec cx.source h,
    hgeneral]
  cases (x.node.names cx.source).head? with
  | none => rfl
  | some name =>
    simp only [Option.filter_some, Option.any_some, Bool.false_eq_true, if_false]
    by_cases he : isExported name = true
    · simp only [he, if_true, Bool.true_and, typeDoc]
      rfl
    · simp only [he, if_false, Bool.false_eq_true, Bool.false_and]

/-- **The state after some sites is told by them alone**, and so is what is written at the next. -/
theorem visit_after (cx : Context) (before : List Site) (x : Site) :
    visit cx x.grouped (stateAfter cx before) x.node
      = (stateAfter cx (before ++ [x]), siteEntries cx before x) := by
  unfold visit siteEntries
  by_cases hg : isGeneral x.node = true
  · have hname := typeName?_of_not_isTypeSpec cx.source (isTypeSpec_of_isGeneral hg)
    rw [if_pos hg]
    simp only [stateAfter, owner?_concat, leftDoc_concat, typeEntries, fieldEntries, hname, hg,
      isField_of_isGeneral hg, if_true, Option.filter_none, Bool.false_and, Bool.false_eq_true,
      if_false, List.nil_append]
    cases owner? cx.source before with
    | none => rfl
    | some type => rfl
  rw [if_neg hg]
  by_cases ht : isTypeSpec x.node = true
  · rw [if_pos ht, visitTypeSpec_after cx before ht, fieldEntries, isField_of_isTypeSpec ht]
    cases owner? cx.source before with
    | none => simp
    | some type => simp
  rw [if_neg ht]
  have hname := typeName?_of_not_isTypeSpec cx.source (Bool.eq_false_iff.mpr ht)
  have hstate : stateAfter cx (before ++ [x]) = stateAfter cx before := by
    simp only [stateAfter, owner?_concat, leftDoc_concat, takesDoc, hname, Option.any_none,
      Bool.false_and, Bool.false_eq_true, if_false, if_neg hg]
  -- neither cell changes at a field, and nowhere but at these three kinds of sites
  rw [hstate, typeEntries, hname, fieldEntries]
  simp only [Option.filter_none, List.nil_append]
  by_cases hf : isField x.node = true
  · rw [if_pos hf, visitField]
    simp only [stateAfter, hf, Bool.true_and]
    cases owner? cx.source before with
    | none => rfl
    | some type => cases (fieldText cx x.node).isEmpty <;> simp
  · rw [if_neg hf]
    cases owner? cx.source before with
    | none => rfl
    | some type => simp [hf]

/-- The run lemma: from the state after some sites, visiting more of them ends in the state after
all of them and writes what is declared at each. -/
theorem visitAll_after (cx : Context) (before xs : List Site) :
    visitAll cx (stateAfter cx before) xs
      = (stateAfter cx (before ++ xs),
        (xs.mapIdx fun i x => siteEntries cx (before ++ xs.take i) x).flatten) := by
  induction xs generalizing before with
  | nil => simp [visitAll]
  | cons x xs ih =>
    rw [visitAll, visit_after]
    simp only [ih, List.append_assoc, List.singleton_append, List.mapIdx_cons, List.flatten_cons,
      List.take_zero, List.append_nil, List.take_succ_cons]

/-- A file is walked to the entries that it declares. -/
theorem fileEntries_eq_declaredEntries (importPath : String) (summarize : String → String)
    (f : SourceFile) :
    fileEntries importPath summarize f = declaredEntries importPath summarize f := by
  unfold fileEntries declaredEntries
  cases f.tree with
  | none => rfl
  | some root =>
    let cx : Context := ⟨importPath, summarize, f.source.toList, .ofSource f.source.toList root⟩
    have hwalk := walk_eq_visitAll cx [] State.initial root
    have hvisit := visitAll_after cx [] (root.sites [])
    rw [stateAfter_nil] at hvisit
    simp only [List.head?_nil, Option.any_none, List.nil_append] at hwalk hvisit
    show (walk cx false State.initial root).2 = _
    rw [hwalk, hvisit]
    rfl

/-! ## The map after a harvest -/

/-- How the comment of a type is recorded in a package with a given view. -/
def Mode.recorded (view : Doc.View) : Mode → String → String
  | .synopsis => view.synopsis
  | .full => Text.trimmed

/-- **The walk refines the stateless reading.** Walking files in order, in either mode and from any
map, gives the map with the declared entries of the files laid over it: at each key the last
declared text, and elsewhere what was there before. The trees of the files may be any trees. -/
theorem walked_eq_overlay_declared (importPath : String) (mode : Mode) (view : Doc.View)
    (m : CommentMap) (files : List SourceFile) :
    let walked := m.insertAll (files.flatMap (fileEntries importPath (mode.recorded view)))
    let declared := files.flatMap (declaredEntries importPath (mode.recorded view))
    walked = m.insertAll declared ∧
      ∀ key, walked.get? key = (CommentMap.lastText declared key).or (m.get? key) := by
  have hfiles : fileEntries importPath (mode.recorded view)
      = declaredEntries importPath (mode.recorded view) :=
    funext (fileEntries_eq_declaredEntries importPath (mode.recorded view))
  rw [hfiles]
  exact ⟨rfl, CommentMap.get?_insertAll m _⟩

end DocHarvest.Harvest
