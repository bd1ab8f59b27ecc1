import DocHarvest.Proofs.FileOrder

/-!
# What resolving links keeps

`Unwraps` follows a line character by character. Read as a whole, it says that the line is
`s₀[x₁]s₁…[xₖ]sₖ` and that `s₀x₁s₁…xₖsₖ` is written for it, where each `xᵢ` is a link and each
closing bracket has a boundary behind it (`Unwraps.exists_bracketed`). So nothing is lost but
brackets, and a line with no link between brackets is written as it is.

A link that names another package ends with an exported name, because that is asked of it. A link
to a symbol of the package itself does so because every symbol does (`View.Exports`): the view of a
parsed package lists exported names, which have no dots, and methods with exported names.
-/

namespace DocHarvest.Doc

open DocHarvest.Syntax DocHarvest.Text DocHarvest.Unicode

/-! ## The last part of a name -/

/-- What follows the last dot of a text, or all of it if there is none. -/
def lastPart (cs : List Char) : List Char :=
  (split '.' cs).getLastD []

theorem lastPart_eq_self {name : List Char} (hdot : '.' ∉ name) : lastPart name = name := by
  rw [lastPart, split_eq_singleton hdot]
  rfl

theorem lastPart_append {name : List Char} (hdot : '.' ∉ name) (front : List Char) :
    lastPart (front ++ '.' :: name) = name := by
  rw [lastPart, split_append_cons, split_eq_singleton hdot, List.getLastD_concat]

theorem dot_notMem_of_isIdentifier {cs : List Char} (h : isIdentifier cs = true) : '.' ∉ cs := by
  intro hdot
  exact absurd ((chars_of_isIdentifier h).2 '.' hdot) (by decide)

/-- A text is, or is behind dots, an identifier that is exported. -/
def EndsExported (cs : List Char) : Prop :=
  isIdentifier (lastPart cs) = true ∧ isExported (String.ofList (lastPart cs)) = true

theorem EndsExported.of_append {name : List Char} (hname : isIdentifier name = true)
    (hexported : isExported (String.ofList name) = true) (front : List Char) :
    EndsExported (front ++ '.' :: name) := by
  rw [EndsExported, lastPart_append (dot_notMem_of_isIdentifier hname)]
  exact ⟨hname, hexported⟩

/-! ## The symbols of a package -/

theorem mem_names_of_childAs? {source : List Char} {n name : Node}
    (h : n.childAs? .name = some name) : name.text source ∈ n.names source := by
  have hrole := List.find?_some h
  exact List.mem_map_of_mem (List.mem_filter.mpr ⟨List.mem_of_find?_eq_some h, hrole⟩)

/-- A node binds an exported name, and a symbol is this name, or this name behind that of a
type. -/
def BindsSymbol (source : List Char) (m : Node) (s : String) : Prop :=
  m.kind ≠ .importSpec ∧ ∃ name ∈ m.names source, isExported name = true ∧
    (s = name ∨ ∃ base : String, s = base ++ "." ++ name)

/-- The symbols that a node declares are bound by it or by its children. -/
theorem exists_bindsSymbol {source : List Char} {n : Node} {s : String}
    (h : s ∈ symbolsOf source n) : ∃ m, (m = n ∨ m ∈ n.children) ∧ BindsSymbol source m s := by
  have hspecs : s ∈ ((n.children.filter isSpec).flatMap (·.names source)).filter isExported →
      ∃ m, (m = n ∨ m ∈ n.children) ∧ BindsSymbol source m s := by
    intro hs
    obtain ⟨hmem, hexported⟩ := List.mem_filter.mp hs
    obtain ⟨m, hm, hname⟩ := List.mem_flatMap.mp hmem
    obtain ⟨hchild, hspec⟩ := List.mem_filter.mp hm
    refine ⟨m, Or.inr hchild, ?_, s, hname, hexported, Or.inl rfl⟩
    intro hkind
    simp [isSpec, hkind] at hspec
  unfold symbolsOf at h
  split at h
  next hkind =>
    obtain ⟨hname, hexported⟩ := List.mem_filter.mp h
    exact ⟨n, Or.inl rfl, by rw [hkind]; decide, s, List.mem_of_mem_take hname, hexported,
      Or.inl rfl⟩
  next hkind =>
    rw [Option.mem_toList] at h
    obtain ⟨name, hname, h⟩ := Option.bind_eq_some_iff.mp h
    obtain ⟨receiver, -, h⟩ := Option.bind_eq_some_iff.mp h
    dsimp only at h
    split at h
    next hexported =>
      rw [Bool.and_eq_true] at hexported
      exact ⟨n, Or.inl rfl, by rw [hkind]; decide, name.text source, mem_names_of_childAs? hname,
        hexported.2, Or.inr ⟨_, (Option.some.inj h).symm⟩⟩
    next => cases h
  next => exact hspecs h
  next => exact hspecs h
  next => exact hspecs h
  next => cases h

namespace View

variable {v : View}

/-- The last part of every symbol is exported. -/
def Exports (v : View) : Prop :=
  ∀ s ∈ v.symbols, isExported (String.ofList (lastPart s.toList)) = true

theorem exports_empty (name importPath : String) : (empty name importPath).Exports :=
  nofun

theorem isExported_of_mem_symbolsOf {f : SourceFile} (hf : f.tree = Node.parse? f.source.toList)
    {n : Node} (hn : n ∈ f.topLevel) {s : String} (hs : s ∈ symbolsOf f.source.toList n) :
    isExported (String.ofList (lastPart s.toList)) = true := by
  obtain ⟨m, hm, hkind, name, hname, hexported, hshape⟩ := exists_bindsSymbol hs
  cases htree : f.tree with
  | none =>
    rw [SourceFile.topLevel, htree] at hn
    cases hn
  | some root =>
    rw [SourceFile.topLevel, htree] at hn
    have hnode : n ∈ root.preorder :=
      Node.mem_preorder_of_mem_children root.mem_preorder_self hn
    have hmem : m ∈ root.preorder := by
      rcases hm with rfl | hchild
      · exact hnode
      · exact Node.mem_preorder_of_mem_children hnode hchild
    rw [htree] at hf
    have hdot := Node.dot_notMem_of_parse? hf.symm hmem hkind hname
    have hlast : lastPart s.toList = name.toList := by
      rcases hshape with rfl | ⟨base, rfl⟩
      · exact lastPart_eq_self hdot
      · rw [String.toList_append, String.toList_append, List.append_assoc]
        exact lastPart_append hdot base.toList
    rwa [hlast, String.ofList_toList]

/-- **The view of a package lists exported names.** -/
theorem exports_ofPackage {p : Package} (hp : p.Parsed) (h : ofPackage p = .ok v) : v.Exports := by
  intro s hs
  obtain ⟨-, hv⟩ := (ofPackage_eq_ok_iff hp).mp h
  rw [hv, foldl_addFile] at hs
  rcases List.mem_append.mp hs with hs | hs
  · cases hs
  · obtain ⟨f, hf, hs⟩ := List.mem_flatMap.mp hs
    obtain ⟨n, hn, hs⟩ := List.mem_flatMap.mp hs
    exact isExported_of_mem_symbolsOf (hp f (List.mem_of_mem_filter hf)) hn hs

/-- A link ends with an exported name. -/
theorem endsExported_of_isDocLink (hv : v.Exports) {target : List Char}
    (h : v.isDocLink target = true) :
    ∃ text, (target = text ∨ target = '*' :: text) ∧ EndsExported text := by
  obtain ⟨text, htarget, hlink⟩ := linkText_of_isDocLink h
  refine ⟨text, htarget, ?_⟩
  have hsymbol : ∀ {cs : List Char}, v.hasSymbol (String.ofList cs) = true →
      isExported (String.ofList (lastPart cs)) = true := by
    intro cs hcs
    have hlast := hv _ (List.contains_iff_mem.mp hcs)
    rwa [String.toList_ofList] at hlast
  cases hlink with
  | symbol hname hs =>
    rw [EndsExported]
    have hexported := hsymbol hs
    rw [lastPart_eq_self (dot_notMem_of_isIdentifier hname)] at hexported ⊢
    exact ⟨hname, hexported⟩
  | method _ hname hs =>
    refine .of_append hname ?_ _
    rw [← lastPart_append (dot_notMem_of_isIdentifier hname)]
    exact hsymbol hs
  | member _ hname hexported => exact .of_append hname hexported _
  | memberMethod _ _ hname hexported => exact .of_append hname hexported _

/-! ## Lines as a whole -/

/-- A line with links in brackets, each together with what follows it. -/
def bracketed (start : List Char) (links : List (List Char × List Char)) : List Char :=
  start ++ links.flatMap fun l => '[' :: (l.1 ++ ']' :: l.2)

/-- The same line without the brackets. -/
def unbracketed (start : List Char) (links : List (List Char × List Char)) : List Char :=
  start ++ links.flatMap fun l => l.1 ++ l.2

/-- What comes off a line are the brackets of links, all at once. -/
theorem Unwraps.exists_bracketed {cs out : List Char} (h : v.Unwraps cs out) :
    ∃ start links, cs = bracketed start links ∧ out = unbracketed start links ∧
      ∀ front target after back, links = front ++ (target, after) :: back →
        v.isDocLink target = true ∧ ']' ∉ target ∧
          ∀ c ∈ (bracketed after back).head?, isLinkBoundary c = true := by
  induction h with
  | nil => exact ⟨[], [], rfl, rfl, by simp⟩
  | keep c _ ih =>
    obtain ⟨start, links, rfl, rfl, hlinks⟩ := ih
    exact ⟨c :: start, links, rfl, rfl, hlinks⟩
  | @link target cs out hlink hclosed hbehind _ ih =>
    obtain ⟨start, links, rfl, rfl, hlinks⟩ := ih
    refine ⟨[], (target, start) :: links, ?_, ?_, ?_⟩
    · simp [bracketed]
    · simp [unbracketed]
    · intro front target' after back heq
      cases front with
      | nil =>
        cases heq
        exact ⟨hlink, hclosed, hbehind⟩
      | cons l front =>
        obtain ⟨-, hrest⟩ := List.cons.inj heq
        exact hlinks front target' after back hrest

/-- Whether a character is one of the two brackets. -/
def isBracket (c : Char) : Bool :=
  c == '[' || c == ']'

theorem filter_unbracketed (start : List Char) (links : List (List Char × List Char)) :
    (unbracketed start links).filter (!isBracket ·)
      = (bracketed start links).filter (!isBracket ·) := by
  have hopen : (!isBracket '[') = false := by decide
  have hclose : (!isBracket ']') = false := by decide
  simp [bracketed, unbracketed, List.filter_flatMap, hopen, hclose]

/-- The views that there are: of parsed packages, and of no package at all. -/
inductive Built : View → Prop
  | none : Built (.empty "" "")
  | package {p : Package} {v : View} : p.Parsed → ofPackage p = .ok v → Built v

theorem Built.exports (h : v.Built) : v.Exports := by
  cases h with
  | none => exact exports_empty "" ""
  | package hp hv => exact exports_ofPackage hp hv

/-- **Resolving links loses brackets and nothing else.** A line is made of links in brackets and of
what stands between these, and it is written without the brackets. Each of the links ends with an
exported name and has a boundary behind it. All other characters are kept in order, and if no link
stands between brackets then the line is kept. -/
theorem resolveLinks_bracketed (hv : v.Built) (line : List Char) :
    (∃ start links, line = bracketed start links ∧
      v.resolveLinks line = unbracketed start links ∧
      ∀ front target after back, links = front ++ (target, after) :: back →
        v.isDocLink target = true ∧ ']' ∉ target ∧
          (∃ text, (target = text ∨ target = '*' :: text) ∧ EndsExported text) ∧
          ∀ c ∈ (bracketed after back).head?, isLinkBoundary c = true) ∧
      (v.resolveLinks line).filter (!isBracket ·) = line.filter (!isBracket ·) ∧
      ((∀ front target back, line = front ++ '[' :: (target ++ ']' :: back) → ']' ∉ target →
        v.isDocLink target = false) → v.resolveLinks line = line) := by
  obtain ⟨start, links, hline, hwritten, hlinks⟩ := (v.unwraps_resolveLinks line).exists_bracketed
  refine ⟨⟨start, links, hline, hwritten, ?_⟩, ?_, ?_⟩
  · intro front target after back heq
    obtain ⟨hlink, hclosed, hbehind⟩ := hlinks front target after back heq
    exact ⟨hlink, hclosed, endsExported_of_isDocLink hv.exports hlink, hbehind⟩
  · rw [hwritten, filter_unbracketed, ← hline]
  · intro hnone
    cases links with
    | nil => exact hwritten.trans hline.symm
    | cons l rest =>
      -- the first of the links stands between brackets
      obtain ⟨hlink, hclosed, -⟩ := hlinks [] l.1 l.2 rest rfl
      have hbrackets : line = start ++ '[' :: (l.1 ++ ']' :: bracketed l.2 rest) := by
        rw [hline]
        simp [bracketed]
      rw [hnone _ _ _ hbrackets hclosed] at hlink
      cases hlink

/-- A type, one of its methods and a type of an import are links here, and a name that is not
exported is not. -/
theorem resolveLinks_bracketed_of_package :
    let f : SourceFile := .ofSource "p.go"
      "package p\n\nimport \"encoding/json\"\n\ntype Reader int\n\nfunc (r *Reader) Next() {}\n"
    let line := "See [Reader], [Reader.Next] and [*json.Decoder], not [next].".toList
    ∃ v, ofPackage ⟨"p", "example.com/p", none, [f], [], none⟩ = .ok v ∧
      v.resolveLinks line = "See Reader, Reader.Next and *json.Decoder, not [next].".toList ∧
      (∃ start links, line = bracketed start links ∧
        v.resolveLinks line = unbracketed start links) ∧
      v.resolveLinks "No links.".toList = "No links.".toList := by
  intro f line
  have hp : Package.Parsed ⟨"p", "example.com/p", none, [f], [], none⟩ :=
    List.forall_mem_singleton.mpr (SourceFile.tree_ofSource _ _)
  have hwritten : (ofPackage ⟨"p", "example.com/p", none, [f], [], none⟩).toOption.map
      (View.resolveLinks · line)
        = some "See Reader, Reader.Next and *json.Decoder, not [next].".toList := by
    decide +kernel
  cases hv : ofPackage ⟨"p", "example.com/p", none, [f], [], none⟩ with
  | error mismatch =>
    rw [hv] at hwritten
    cases hwritten
  | ok v =>
    rw [hv] at hwritten
    have hbuilt : v.Built := .package hp hv
    obtain ⟨⟨start, links, hline, hout, -⟩, -, -⟩ := resolveLinks_bracketed hbuilt line
    refine ⟨v, rfl, Option.some.inj hwritten, ⟨start, links, hline, hout⟩, ?_⟩
    apply (resolveLinks_bracketed hbuilt _).2.2
    intro front target back heq
    have hmem : '[' ∈ "No links.".toList := by
      rw [heq]
      simp
    exact absurd hmem (by decide)

end View

end DocHarvest.Doc
