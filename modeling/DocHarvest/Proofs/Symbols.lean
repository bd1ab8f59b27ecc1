import DocHarvest.Proofs.Pieces
import DocHarvest.Proofs.Places

/-!
# Symbols and their keys

An entry is about a `Symbol`: an exported type, or a field or interface method that is filed under
one. The key of a symbol is the import path of its package, the type, and the field if there is one,
with dots between them. Import paths have dots too, so a key by itself does not tell the package. In
a given package it tells the symbol (`Symbol.ofKey?_key`), because the names that a parsed file
declares have no dots.

`Place.Records` says once what the walk can record at a place; whatever is said about entries is
shown for its two cases.
-/

namespace DocHarvest

open DocHarvest.Syntax DocHarvest.Harvest DocHarvest.Text

/-- A type, or a field or interface method that is filed under a type. -/
structure Symbol where
  type : String
  field : Option String
deriving DecidableEq, Repr

namespace Symbol

/-- The key of a symbol of a package. -/
def key (importPath : String) (s : Symbol) : String :=
  match s.field with
  | none => importPath ++ "." ++ s.type
  | some field => importPath ++ "." ++ s.type ++ "." ++ field

/-- The names of a symbol have no dots. -/
structure DotFree (s : Symbol) : Prop where
  type : '.' ∉ s.type.toList
  field : ∀ field ∈ s.field, '.' ∉ field.toList

/-- The symbol that a key names in a package, if it names one. -/
def ofKey? (importPath key : String) : Option Symbol :=
  (dropStart? (importPath.toList ++ ['.']) key.toList).bind fun rest =>
    match split '.' rest with
    | [type] => some ⟨String.ofList type, none⟩
    | [type, field] => some ⟨String.ofList type, some (String.ofList field)⟩
    | _ => none

theorem toList_key (importPath : String) (s : Symbol) :
    (s.key importPath).toList = (importPath.toList ++ ['.']) ++
      (s.type.toList ++ (s.field.elim [] fun field => '.' :: field.toList)) := by
  unfold key
  cases s.field with
  | none => simp
  | some field => simp

/-- A key starts with the import path and a dot. -/
theorem prefix_key (importPath : String) (s : Symbol) :
    importPath.toList ++ ['.'] <+: (s.key importPath).toList := by
  rw [toList_key]
  exact List.prefix_append _ _

/-- **A key tells the symbol.** In a given package the names of a symbol are read back from its
key. -/
theorem ofKey?_key (importPath : String) {s : Symbol} (h : s.DotFree) :
    ofKey? importPath (s.key importPath) = some s := by
  obtain ⟨type, field⟩ := s
  unfold ofKey?
  rw [toList_key, dropStart?_eq_some_iff.mpr rfl, Option.bind_some]
  cases field with
  | none =>
    show (match split '.' (type.toList ++ []) with
      | [type] => some ⟨String.ofList type, none⟩
      | [type, field] => some ⟨String.ofList type, some (String.ofList field)⟩
      | _ => none) = some (⟨type, none⟩ : Symbol)
    rw [List.append_nil, split_eq_singleton h.type]
    simp
  | some field =>
    show (match split '.' (type.toList ++ '.' :: field.toList) with
      | [type] => some ⟨String.ofList type, none⟩
      | [type, field] => some ⟨String.ofList type, some (String.ofList field)⟩
      | _ => none) = some (⟨type, some field⟩ : Symbol)
    rw [split_append_cons, split_eq_singleton h.type, split_eq_singleton (h.field field rfl)]
    simp

end Symbol

/-! ## Symbols at places -/

/-- What the walk can record at a place, and for which symbol. -/
inductive Place.Records (q : Place) (summarize : String → String) : Symbol → String → Prop
  /-- An exported type, with what is kept of a comment. -/
  | type {name doc : String} : typeName? q.source q.site.node = some name →
      isExported name = true → summarize doc ≠ "" →
      Records q summarize ⟨name, none⟩ (summarize doc)
  /-- An exported field or interface method, filed under the last type before it. -/
  | field {type name : String} : owner? q.source q.before = some type →
      isField q.site.node = true → name ∈ q.site.node.names q.source → isExported name = true →
      q.text ≠ "" → Records q summarize ⟨type, some name⟩ q.text

/-- Every entry is recorded for a symbol, under its key. -/
theorem Place.records_of_mem_written {q : Place} {importPath : String}
    {summarize : String → String} {e : Entry} (h : e ∈ q.written importPath summarize) :
    ∃ s, q.Records summarize s e.2 ∧ e.1 = s.key importPath := by
  rw [written_eq_siteEntries, siteEntries, List.mem_append] at h
  rcases h with htype | hfield
  · obtain ⟨name, hname, hexported, hne, rfl⟩ := mem_typeEntries_iff.mp htype
    exact ⟨⟨name, none⟩, .type hname hexported hne, rfl⟩
  · obtain ⟨type, name, howner, hisField, hname, hexported, hne, rfl⟩ :=
      Harvest.mem_fieldEntries_iff.mp hfield
    exact ⟨⟨type, some name⟩, .field howner hisField hname hexported hne, rfl⟩

/-- The names of a symbol that is recorded in a parsed file have no dots. -/
theorem Place.Records.dotFree {q : Place} (hq : q.Reached) {summarize : String → String}
    {s : Symbol} {text : String} (h : q.Records summarize s text) : s.DotFree := by
  cases h with
  | type hname _ _ => exact ⟨hq.dot_notMem_type hq.site_mem hname, by simp⟩
  | field howner hisField hname _ _ =>
    refine ⟨hq.dot_notMem_owner howner, ?_⟩
    intro field hfield
    cases hfield
    exact hq.dot_notMem_field hisField hname

/-! ## Symbols of files -/

/-- A file has a type spec with the name of the type, and binds the name of the field, both of them
exported. -/
structure SourceFile.Declares (f : SourceFile) (s : Symbol) : Prop where
  type : ∃ root spec, f.tree = some root ∧ spec ∈ root.preorder ∧
    typeName? f.source.toList spec = some s.type
  type_exported : isExported s.type = true
  field : ∀ field ∈ s.field, ∃ root n, f.tree = some root ∧ n ∈ root.preorder ∧
    isField n = true ∧ field ∈ n.names f.source.toList
  field_exported : ∀ field ∈ s.field, isExported field = true

/-- A symbol that is recorded at a place is declared by the file of the place. -/
theorem Place.Records.declares {q : Place} (hq : q.Reached) (htree : q.file.tree = some q.root)
    {summarize : String → String} {s : Symbol} {text : String} (h : q.Records summarize s text) :
    q.file.Declares s := by
  have hsite : q.site.node ∈ q.root.preorder := Node.mem_preorder_of_mem_sites hq.site_mem
  cases h with
  | type hname hexported _ =>
    exact ⟨⟨q.root, q.site.node, htree, hsite, hname⟩, hexported, by simp, by simp⟩
  | field howner hisField hname hexported _ =>
    -- the type is the one of a spec before the place
    obtain ⟨hfound, htype⟩ := Option.filter_eq_some_iff.mp howner
    obtain ⟨x, hx, hspec⟩ := List.exists_of_findSome?_eq_some hfound
    have hx := Node.mem_preorder_of_mem_sites (hq.before_subset x (List.mem_reverse.mp hx))
    refine ⟨⟨q.root, x.node, htree, hx, hspec⟩, htype, ?_, ?_⟩
    · intro field hfield
      cases hfield
      exact ⟨q.root, q.site.node, htree, hsite, hisField, hname⟩
    · intro field hfield
      cases hfield
      exact hexported

end DocHarvest
