import DocHarvest.Proofs.Exclusive
import DocHarvest.Proofs.Places

/-!
# Where fields are filed

A field is filed under the last named type spec before it, whether or not that spec still encloses
it. The walk has no step that forgets a type at the end of its spec, so documented fields of
variables, functions and nested structs that follow a type are filed under it as well, and may take
the place of its own. This module says exactly when.

* `written_outside_iff`: an entry is written for a field outside of every type spec of its type
  exactly where all type specs of that name have ended before the field.
* `member_text_iff`: the map holds the comment of a direct member of a type exactly when the last
  field that is filed under its key is a member of the type too, or has the same comment.

Behind both is `Place.mem_written_iff`; the second also needs that what is filed last shows
(`get?_harvest`) and that types and members with unique names are told by them (`text_eq`).
-/

namespace DocHarvest

open DocHarvest.Syntax DocHarvest.Harvest

/-! ## Fields outside of their types -/

/-- Whether every type spec of a given name before a place has ended there. -/
def Place.ended (type : String) (q : Place) : Bool :=
  q.before.zipIdx.all fun e =>
    typeName? q.source e.1.node ≠ some type || e.2 + e.1.node.size ≤ q.before.length

/-- A place lies outside of all type specs of a name exactly when they have ended before it. -/
theorem Place.Reached.ended_iff {q : Place} (h : q.Reached) (type : String) :
    q.ended type = true ↔ ¬∃ a ∈ q.site.above, typeName? q.source a = some type := by
  obtain ⟨after, hsites⟩ := h.run
  -- the position of the site is the number of sites before it
  have hsite : (q.root.sites [])[q.before.length]? = some q.site := by
    simp [← hsites]
  have hbefore : ∀ j < q.before.length, (q.root.sites [])[j]? = q.before[j]? := by
    intro j hj
    rw [← hsites, List.append_assoc, List.getElem?_append_left hj]
  rw [Node.exists_above_iff (typeName? q.source · = some type) [] q.root hsite, ended,
    List.all_eq_true]
  simp only [List.not_mem_nil, false_and, exists_false, false_or]
  constructor
  · rintro hall ⟨j, y, hj, hy, hname, hopen⟩
    rw [hbefore j hj] at hy
    have := hall (y, j) (List.mem_zipIdx_iff_getElem?.mpr hy)
    simp only [hname, ne_eq, not_true, decide_false, Bool.false_or, decide_eq_true_eq] at this
    omega
  · rintro hnone ⟨y, j⟩ he
    have hy := List.mem_zipIdx_iff_getElem?.mp he
    have hj : j < q.before.length := (List.getElem?_eq_some_iff.mp hy).1
    rw [Bool.or_eq_true, decide_eq_true_eq, decide_eq_true_eq]
    by_cases hname : typeName? q.source y.node = some type
    · refine Or.inr (Nat.le_of_not_lt fun hopen => hnone ⟨j, y, hj, ?_, hname, hopen⟩)
      rw [hbefore j hj]
      exact hy
    · exact Or.inl hname

/-- **Which fields are filed outside of their types.** In a loaded package an entry for a field is
written outside of every type spec of its type exactly where the field is filed under that type and
all type specs of the name have ended. -/
theorem written_outside_iff {load : Load.Loader} (hload : Load.Parses load) {path : String}
    {p : Package} (hp : load path = .ok p) {q : Place} (hq : q ∈ p.places)
    (summarize : String → String) (type field text : String) :
    ((p.importPath ++ "." ++ type ++ "." ++ field, text) ∈ q.written p.importPath summarize ∧
        ¬∃ a ∈ q.site.above, typeName? q.source a = some type) ↔
      (q.files type field = true ∧ text = q.text) ∧ q.ended type = true := by
  have hreached := ((hload hp).reached hq).1
  rw [Place.mem_written_iff hreached, hreached.ended_iff]

/-- The field of a variable is filed under the type before it. -/
theorem written_outside_of_variable :
    let p := (Package.empty "example.com/p").addFile (.ofSource "p.go"
      "package p\n\ntype T struct\x7b\x7d\n\nvar V struct \x7b\n\tF int // F of V.\n\x7d\n")
    ∃ q ∈ p.places,
      (p.importPath ++ "." ++ "T" ++ "." ++ "F", "F of V.") ∈ q.written p.importPath id ∧
        ¬∃ a ∈ q.site.above, typeName? q.source a = some "T" := by
  intro p
  have hplace : p.places.any (fun q => q.files "T" "F" && q.text = "F of V." && q.ended "T")
      = true := by decide +kernel
  obtain ⟨q, hq, hcond⟩ := List.any_eq_true.mp hplace
  simp only [Bool.and_eq_true, decide_eq_true_eq] at hcond
  obtain ⟨⟨hfiles, htext⟩, hended⟩ := hcond
  have hload : Load.memory [⟨"example.com/p", "p.go", _⟩] "example.com/p" = .ok p := rfl
  exact ⟨q, hq, (written_outside_iff (Load.parses_memory _) hload hq id "T" "F" "F of V.").mpr
    ⟨⟨hfiles, htext.symm⟩, hended⟩⟩

/-! ## What the map holds at a field key -/

/-- The last place of a package at which a given field is filed under a given type. -/
def Package.lastFiled? (p : Package) (type field : String) : Option Place :=
  (p.places.filter (Place.files type field)).getLast?

/-- Entries that agree about a key show what they agree on. -/
theorem lastText_eq_ite {es : List Entry} {key text : String} {c : Prop} [Decidable c]
    (h : ∀ t, (key, t) ∈ es ↔ c ∧ t = text) :
    CommentMap.lastText es key = if c then some text else none := by
  cases hlast : CommentMap.lastText es key with
  | none =>
    rw [if_neg]
    intro hc
    have hmem := List.mem_reverse.mpr ((h text).mpr ⟨hc, rfl⟩)
    have := List.lookup_eq_none_iff.mp hlast _ hmem
    simp at this
  | some t =>
    obtain ⟨before, after, hsplit, -⟩ := List.lookup_eq_some_iff.mp hlast
    have hmem : (key, t) ∈ es := by
      rw [← List.mem_reverse, hsplit]
      exact List.mem_append_right _ List.mem_cons_self
    obtain ⟨hc, rfl⟩ := (h t).mp hmem
    rw [if_pos hc]

/-- The last text that is written at a field key in a list of places. -/
theorem lastText_flatMap_written (importPath : String) (summarize : String → String)
    (type field : String) {qs : List Place} (hqs : ∀ q ∈ qs, q.Reached) :
    CommentMap.lastText (qs.flatMap (Place.written importPath summarize))
        (importPath ++ "." ++ type ++ "." ++ field)
      = (qs.filter (Place.files type field)).getLast?.map Place.text := by
  induction qs with
  | nil => rfl
  | cons q qs ih =>
    obtain ⟨hq, hqs⟩ := List.forall_mem_cons.mp hqs
    have hlast := lastText_eq_ite (Place.mem_written_iff hq importPath summarize type field)
    rw [List.flatMap_cons, CommentMap.lastText_append, ih hqs, hlast, List.filter_cons]
    split
    next =>
      rw [List.getLast?_cons]
      cases (qs.filter (Place.files type field)).getLast? <;> rfl
    next => exact Option.or_none

/-- **What is filed last shows.** After a harvest the map holds at a field key the comment of the
last field that was filed there, and what it held before where none was. -/
theorem get?_harvest {load : Load.Loader} (hload : Load.Parses load) {mode : Mode}
    {m m' : CommentMap} {path : String} {p : Package} (hp : load path = .ok p)
    (h : harvest load mode m path = .ok m') (type field : String) :
    m'.get? (p.importPath ++ "." ++ type ++ "." ++ field)
      = ((p.lastFiled? type field).map Place.text).or
        (m.get? (p.importPath ++ "." ++ type ++ "." ++ field)) := by
  obtain ⟨es, hes, hm⟩ := bind_eq_ok.mp h
  cases hm
  obtain ⟨-, -, hes⟩ := bind_eq_ok.mp hes
  rw [hp] at hes
  obtain ⟨summarize, rfl⟩ := packageEntries_eq_written hes
  have hreached : ∀ q ∈ p.places, q.Reached := fun q hq => ((hload hp).reached hq).1
  rw [CommentMap.get?_insertAll, lastText_flatMap_written _ summarize type field hreached]
  rfl

/-! ## Members of types -/

/-- The type specs of a file at package level. -/
def SourceFile.typeSpecs (f : SourceFile) : List Node :=
  f.topLevel.flatMap fun d => d.children.filter isTypeSpec

/-- The type specs of a package at package level, each with its file. -/
def Package.typeSpecs (p : Package) : List (SourceFile × Node) :=
  p.files.flatMap fun f => f.typeSpecs.map fun spec => (f, spec)

/-- Whether a node is the body of a struct or interface. -/
def isBody (n : Node) : Bool :=
  n.kind = .structType || n.kind = .interfaceType

/-- The names that the members of a body bind. -/
def memberNames (source : List Char) (body : Node) : List String :=
  (body.children.filter isField).flatMap (·.names source)

/-- No two types at package level have the same name, and no two names in a body are the same. -/
structure Package.Unambiguous (p : Package) : Prop where
  types : (p.typeSpecs.flatMap fun t => (typeName? t.1.source.toList t.2).toList).Nodup
  members : ∀ f ∈ p.files, ∀ root ∈ f.tree, ∀ body ∈ root.preorder, isBody body = true →
    (memberNames f.source.toList body).Nodup

/-- Whether a place binds a field directly in the body with which a type at package level ends. -/
def Place.isMember (type field : String) (q : Place) : Bool :=
  isField q.site.node && (q.site.node.names q.source).contains field &&
    match q.site.above with
    | [body, spec, _, _] =>
      isBody body && spec.children.getLast?.any (·.span = body.span) &&
        typeName? q.source spec = some type
    | _ => false

/-- A member lies in the body of a type spec of its package. -/
theorem Package.Parsed.exists_spec {p : Package} (hp : p.Parsed) {q : Place} (hq : q ∈ p.places)
    {type field : String} (h : q.isMember type field = true) :
    field ∈ q.site.node.names q.source ∧
      ∃ spec body, (q.file, spec) ∈ p.typeSpecs ∧ typeName? q.source spec = some type ∧
        spec.children.getLast? = some body ∧ isBody body = true ∧ body ∈ q.root.preorder ∧
        q.site.node ∈ body.children.filter isField := by
  obtain ⟨hreached, hf, htree⟩ := hp.reached hq
  unfold Place.isMember at h
  simp only [Bool.and_eq_true, List.contains_iff_mem] at h
  obtain ⟨⟨hfield, hbound⟩, h⟩ := h
  split at h
  next body spec decl top habove =>
    simp only [Bool.and_eq_true, decide_eq_true_eq] at h
    obtain ⟨⟨hbody, hlast⟩, hname⟩ := h
    -- up from the member: body, spec, declaration, file
    obtain ⟨hnode, hbodySite⟩ := Node.site_of_above_eq_cons hreached.site_mem habove
    obtain ⟨hbodyMem, hspecSite⟩ := Node.site_of_above_eq_cons hbodySite rfl
    obtain ⟨hspecMem, hdeclSite⟩ := Node.site_of_above_eq_cons hspecSite rfl
    obtain ⟨hdeclMem, htopSite⟩ := Node.site_of_above_eq_cons hdeclSite rfl
    have htop : top = q.root := Node.site_of_above_eq_nil htopSite rfl
    have hisSpec : isTypeSpec spec = true := (isTypeSpec_of_typeName? hname).1
    -- siblings have different spans, so the child of the spec with the span of the body is the body
    obtain ⟨last, hlast, hspan⟩ := (Option.any_eq_true _ _).mp hlast
    have heq : last = body := Node.eq_of_span_eq_of_parse? hreached.parsed
      (Node.mem_preorder_of_mem_sites hspecSite) (List.mem_of_getLast? hlast) hbodyMem
      (of_decide_eq_true hspan)
    refine ⟨hbound, spec, body, ?_, hname, heq ▸ hlast, hbody,
      Node.mem_preorder_of_mem_sites hbodySite, List.mem_filter.mpr ⟨hnode, hfield⟩⟩
    refine List.mem_flatMap.mpr ⟨q.file, hf, List.mem_map.mpr ⟨spec, ?_, rfl⟩⟩
    refine List.mem_flatMap.mpr ⟨decl, ?_, List.mem_filter.mpr ⟨hspecMem, hisSpec⟩⟩
    rw [SourceFile.topLevel, htree]
    exact htop ▸ hdeclMem
  next => cases h

/-- In an unambiguous package all places at which a field is a member of a type have the same
comment, because they are the same node of the same file. -/
theorem Package.Unambiguous.text_eq {p : Package} (h : p.Unambiguous) (hp : p.Parsed) {q r : Place}
    (hq : q ∈ p.places) (hr : r ∈ p.places) {type field : String}
    (hqm : q.isMember type field = true) (hrm : r.isMember type field = true) :
    q.text = r.text := by
  obtain ⟨-, hf, htree⟩ := hp.reached hq
  obtain ⟨-, -, htree'⟩ := hp.reached hr
  obtain ⟨hbound, spec, body, hspec, hname, hlast, hbody, hbelow, hmem⟩ := hp.exists_spec hq hqm
  obtain ⟨hbound', spec', body', hspec', hname', hlast', -, -, hmem'⟩ := hp.exists_spec hr hrm
  -- the name of the type tells the spec, and with it the file
  have hsame : (q.file, spec) = (r.file, spec') :=
    eq_of_nodup_flatMap h.types hspec hspec' (c := type) (Option.mem_toList.mpr hname)
      (Option.mem_toList.mpr hname')
  obtain ⟨hfile, rfl⟩ := Prod.mk.inj hsame
  have hsource : q.source = r.source := by rw [Place.source, Place.source, hfile]
  have hroot : q.root = r.root := by
    rw [hfile, htree'] at htree
    exact (Option.some.inj htree).symm
  -- the spec has one body, and there the name of the field tells the node
  obtain rfl : body = body' := Option.some.inj (hlast.symm.trans hlast')
  rw [← hsource] at hbound'
  have hnode : q.site.node = r.site.node :=
    eq_of_nodup_flatMap (h.members q.file hf q.root htree body hbelow hbody) hmem hmem'
      (c := field) hbound hbound'
  rw [Place.text, Place.text, Place.context, Place.context, hsource, hroot, hnode]

/-- **When a member keeps its comment.** After a successful harvest of an unambiguous package the
map holds the comment of a member of a type exactly when the last field that was filed under its key
is a member of the type too, or has the same comment by chance; if no field was filed there, the map
has to have held it before. -/
theorem member_text_iff {load : Load.Loader} (hload : Load.Parses load) {mode : Mode}
    {m m' : CommentMap} {path : String} {p : Package} (hp : load path = .ok p)
    (h : harvest load mode m path = .ok m') (hunique : p.Unambiguous) {q : Place}
    (hq : q ∈ p.places) {type field : String} (hmember : q.isMember type field = true) :
    m'.get? (p.importPath ++ "." ++ type ++ "." ++ field) = some q.text ↔
      match p.lastFiled? type field with
      | some r => r.isMember type field = true ∨ r.text = q.text
      | none => m.get? (p.importPath ++ "." ++ type ++ "." ++ field) = some q.text := by
  rw [get?_harvest hload hp h]
  cases hlast : p.lastFiled? type field with
  | none => exact Iff.rfl
  | some r =>
    have hr : r ∈ p.places := List.mem_of_mem_filter (List.mem_of_getLast? hlast)
    simp only [Option.map_some, Option.some_or, Option.some.injEq]
    constructor
    · exact Or.inr
    · rintro (hrm | htext)
      · exact hunique.text_eq (hload hp) hr hq hrm hmember
      · exact htext

/-- The comment of a member gives way to the comment of a later variable's field. -/
theorem member_text_lost_to_variable :
    let source := "package p\n\ntype T struct \x7b\n\tA int // A of T.\n\x7d\n\n" ++
      "var V struct \x7b\n\tA int // A of V.\n\x7d\n"
    let p := (Package.empty "example.com/p").addFile (.ofSource "p.go" source)
    ∃ m', harvest (Load.memory [⟨"example.com/p", "p.go", source⟩]) .full .empty "example.com/p"
        = .ok m' ∧
      ∃ q ∈ p.places, q.isMember "T" "A" = true ∧ q.text = "A of T." ∧
        ¬m'.get? (p.importPath ++ "." ++ "T" ++ "." ++ "A") = some q.text := by
  intro source p
  have hfacts : (p.typeSpecs.flatMap fun t => (typeName? t.1.source.toList t.2).toList).Nodup ∧
      (∀ f ∈ p.files, ∀ root ∈ f.tree, ∀ body ∈ root.preorder, isBody body = true →
        (memberNames f.source.toList body).Nodup) ∧
      (harvest (Load.memory [⟨"example.com/p", "p.go", source⟩]) .full .empty
        "example.com/p").toBool = true ∧
      p.places.any (fun q => q.isMember "T" "A" && q.text = "A of T.") = true ∧
      (p.lastFiled? "T" "A").any (fun r => !r.isMember "T" "A" && r.text = "A of V.") = true := by
    decide +kernel
  obtain ⟨htypes, hmembers, hok, hplace, hlast⟩ := hfacts
  obtain ⟨q, hq, hcond⟩ := List.any_eq_true.mp hplace
  simp only [Bool.and_eq_true, decide_eq_true_eq] at hcond
  cases h : harvest (Load.memory [⟨"example.com/p", "p.go", source⟩]) .full .empty
      "example.com/p" with
  | error e => rw [h] at hok; cases hok
  | ok m' =>
    refine ⟨m', rfl, q, hq, hcond.1, hcond.2, ?_⟩
    rw [member_text_iff (Load.parses_memory _) rfl h ⟨htypes, hmembers⟩ hq hcond.1, hcond.2]
    obtain ⟨r, hr, hcond'⟩ := (Option.any_eq_true _ _).mp hlast
    simp only [Bool.and_eq_true, Bool.not_eq_true', decide_eq_true_eq] at hcond'
    simp [hr, hcond'.1, hcond'.2]

end DocHarvest
