import DocHarvest.Proofs.FileOrder
import DocHarvest.Proofs.Scanning

/-!
# The symbol table of a package

Which names are symbols of a package can be said without the order in which they are collected.
`Declares` says it for one declaration at the top of a file: a function declares its name, the specs
of a declaration the names that they bind, and a method the name of its receiver's type and its own.
A package has a symbol exactly if a file that counts declares it (`View.hasSymbol_iff_declared`).
What is declared further down, in the body of a function or as a field of a struct, is not at the
top of a file and bound by no spec of a declaration there.

The type of a receiver is found by its text. That works for every receiver that is laid out as
`(r *T[K])`, with or without the name, the star and the brackets, and with any white space
(`ReceiverLayout`, `receiverBase_of_layout`).
-/

namespace DocHarvest

open DocHarvest.Syntax DocHarvest.Text DocHarvest.Unicode

/-! ## Words of a source -/

namespace Syntax

theorem isBlank_of_isIdentifierPart {c : Char} (h : isIdentifierPart c = true) :
    isBlank c = false := by
  have htables : ∀ c, isIdentifierPart c = if c.toNat < 0x80 then c.isAlphanum || c == '_'
      else Ranges.contains (identifierStartRanges ++ identifierPartRanges) c := by
    intro c
    rw [Ranges.contains, List.any_append]
    rfl
  exact isBlank_of_class isIdentifierPart htables (by decide +kernel) (by decide +kernel) h

theorem isIdentifierPart_of_isWord {w : List Char} (h : isWord w = true) :
    ∀ c ∈ w, isIdentifierPart c = true := by
  cases w with
  | nil => cases h
  | cons c w =>
    obtain ⟨hc, hparts⟩ := Bool.and_eq_true_iff.mp h
    exact List.forall_mem_cons.mpr
      ⟨isIdentifierPart_of_isIdentifierStart hc, List.all_eq_true.mp hparts⟩

theorem ne_nil_of_isWord {w : List Char} (h : isWord w = true) : w ≠ [] := by
  rintro rfl
  cases h

theorem solid_of_isWord {w : List Char} (h : isWord w = true) : Solid w :=
  fun c hc => isBlank_of_isIdentifierPart (isIdentifierPart_of_isWord h c hc)

end Syntax

/-! ## Receivers -/

namespace Doc

/-- What stands in front of the type of a receiver: white space, or a name with white space behind
it. -/
inductive ReceiverName : List Char → Prop
  | unnamed {bs : List Char} : Blank bs → ReceiverName bs
  | named {bs name more : List Char} : Blank bs → isWord name = true → Blank more → more ≠ [] →
      ReceiverName (bs ++ name ++ more)

/-- The star of a pointer, or nothing. -/
inductive ReceiverStar : List Char → Prop
  | value : ReceiverStar []
  | pointer {bs : List Char} : Blank bs → ReceiverStar ('*' :: bs)

/-- A list of type parameters in brackets, or nothing. -/
inductive ReceiverParameters : List Char → Prop
  | none : ReceiverParameters []
  | some {bs : List Char} (params : List Char) : Blank bs →
      ReceiverParameters (bs ++ '[' :: params ++ [']'])

/-- The text of a receiver is `(T)`, `(*T)`, `(r T)` or `(r *T)` for a type name `T`, with a list of
type parameters behind it or not. There is white space behind `r`, and there can be more anywhere
between two tokens. -/
inductive ReceiverLayout : (text base : List Char) → Prop
  | mk {name star base params bs : List Char} : ReceiverName name → ReceiverStar star →
      isWord base = true → ReceiverParameters params → Blank bs →
      ReceiverLayout ('(' :: (name ++ star ++ base ++ params ++ bs ++ [')'])) base

/-- A character is neither white space nor part of a name. -/
structure IsMark (c : Char) : Prop where
  blank : isBlank c = false
  part : isIdentifierPart c = false

namespace IsMark

variable {c : Char} (hc : IsMark c)
include hc

theorem notMem_of_blank {bs : List Char} (h : Blank bs) : c ∉ bs := by
  intro hmem
  have hblank := h c hmem
  rw [hc.blank] at hblank
  cases hblank

theorem notMem_of_isWord {w : List Char} (h : isWord w = true) : c ∉ w := by
  intro hmem
  have hpart := isIdentifierPart_of_isWord h c hmem
  rw [hc.part] at hpart
  cases hpart

theorem notMem_receiverName {name : List Char} (h : ReceiverName name) : c ∉ name := by
  cases h with
  | unnamed hbs => exact hc.notMem_of_blank hbs
  | named hbs hname hmore _ =>
    simp [hc.notMem_of_blank hbs, hc.notMem_of_isWord hname, hc.notMem_of_blank hmore]

theorem notMem_receiverStar {star : List Char} (h : ReceiverStar star) (hne : c ≠ '*') :
    c ∉ star := by
  cases h with
  | value => exact List.not_mem_nil
  | pointer hbs => simp [hne, hc.notMem_of_blank hbs]

/-- Up to the name of its type a receiver has no other mark than the star. -/
theorem notMem_front {name star base : List Char} (hname : ReceiverName name)
    (hstar : ReceiverStar star) (hbase : isWord base = true) (hne : c ≠ '*') :
    c ∉ name ++ star ++ base := by
  simp [hc.notMem_receiverName hname, hc.notMem_receiverStar hstar hne, hc.notMem_of_isWord hbase]

end IsMark

variable {name star base params bs : List Char}

namespace ReceiverLayout

/-- The name of the type is told apart by the white space before it, or by the star. -/
theorem getLastD_words (hname : ReceiverName name) (hstar : ReceiverStar star)
    (hbase : isWord base = true) (hbs : Blank bs) :
    (words (name ++ star ++ base ++ bs)).getLastD [] = base ∨
      (words (name ++ star ++ base ++ bs)).getLastD [] = '*' :: base := by
  have hsolid := solid_of_isWord hbase
  have hfront : ∀ c ∈ name.getLast?, isBlank c = true := by
    cases hname with
    | unnamed hblank => exact fun c hc => hblank c (List.mem_of_getLast? hc)
    | named _ _ hmore hne =>
      intro c hc
      rw [List.getLast?_append_of_ne_nil _ hne] at hc
      exact hmore c (List.mem_of_getLast? hc)
  cases hstar with
  | value =>
    left
    rw [List.append_nil]
    exact Text.getLastD_words hfront (ne_nil_of_isWord hbase) hsolid hbs
  | @pointer more hmore =>
    cases more with
    | nil =>
      right
      rw [List.append_assoc name, List.singleton_append]
      exact Text.getLastD_words hfront (by simp) (.cons (by decide) hsolid) hbs
    | cons b more =>
      -- white space behind the star
      left
      refine Text.getLastD_words (fun c hc => ?_) (ne_nil_of_isWord hbase) hsolid hbs
      rw [← List.singleton_append (x := '*'), ← List.append_assoc,
        List.getLast?_append_of_ne_nil _ (by simp)] at hc
      exact hmore c (List.mem_of_getLast? hc)

end ReceiverLayout

section

variable {front : List Char} (hparams : ReceiverParameters params) (hbs : Blank bs)
include hparams hbs

/-- Nothing comes behind the name of the type and before a bracket but white space. -/
theorem ReceiverParameters.before_bracket (hfront : '[' ∉ front) :
    ∃ more, Blank more ∧ before ['['] (front ++ params ++ bs) = front ++ more := by
  have hblank : ∀ {more : List Char}, Blank more → '[' ∉ more := fun hmore =>
    IsMark.notMem_of_blank ⟨by decide, by decide⟩ hmore
  rw [List.append_assoc, before_append hfront]
  cases hparams with
  | none =>
    have hall := before_append (hblank hbs) []
    rw [List.append_nil, before, List.append_nil] at hall
    exact ⟨bs, hbs, by rw [List.nil_append, hall]⟩
  | @some more params hmore =>
    refine ⟨more, hmore, ?_⟩
    rw [List.append_assoc, List.append_assoc, before_append (hblank hmore), List.cons_append,
      before_cons_self, List.append_nil]

theorem ReceiverParameters.getLast?_cases {c : Char} (hc : c ∈ (front ++ params ++ bs).getLast?) :
    c ∈ front ∨ c = ']' ∨ isBlank c = true := by
  rcases eq_or_ne bs [] with rfl | hne
  · rw [List.append_nil] at hc
    cases hparams with
    | none =>
      rw [List.append_nil] at hc
      exact Or.inl (List.mem_of_getLast? hc)
    | some params _ =>
      rw [← List.append_assoc, List.getLast?_concat] at hc
      exact Or.inr (Or.inl (Option.some.inj hc).symm)
  · rw [List.getLast?_append_of_ne_nil _ hne] at hc
    exact Or.inr (Or.inr (hbs c (List.mem_of_getLast? hc)))

end

/-- Whether a character is a parenthesis. -/
def isParen (c : Char) : Bool :=
  c == '(' || c == ')'

theorem IsMark.of_isParen {c : Char} (h : isParen c = true) : IsMark c := by
  have hcases : c = '(' ∨ c = ')' := by simpa [isParen] using h
  rcases hcases with rfl | rfl
  · exact ⟨by decide, by decide⟩
  · exact ⟨by decide, by decide⟩

/-- The parentheses around a receiver come off, and nothing else. -/
theorem ReceiverLayout.trimWhere_isParen (hname : ReceiverName name) (hstar : ReceiverStar star)
    (hbase : isWord base = true) (hparams : ReceiverParameters params) (hbs : Blank bs) :
    trimWhere isParen ('(' :: (name ++ star ++ base ++ params ++ bs ++ [')']))
      = name ++ star ++ base ++ params ++ bs := by
  have hfront : ∀ c ∈ name ++ star ++ base, isParen c = false := by
    intro c hc
    rw [Bool.eq_false_iff]
    intro hparen
    have hne : c ≠ '*' := by
      rintro rfl
      cases hparen
    exact (IsMark.of_isParen hparen).notMem_front hname hstar hbase hne hc
  refine trimWhere_cons_concat rfl rfl ?_ ?_
  · intro c hc
    rw [List.append_assoc, List.head?_append_of_ne_nil _ (by simp [ne_nil_of_isWord hbase])] at hc
    exact hfront c (List.mem_of_head? hc)
  · intro c hc
    rcases hparams.getLast?_cases hbs hc with hmem | rfl | hblank
    · exact hfront c hmem
    · rfl
    · rw [Bool.eq_false_iff]
      intro hparen
      rw [(IsMark.of_isParen hparen).blank] at hblank
      cases hblank

/-- **The type of a receiver is found**, if it is laid out as receivers are. -/
theorem receiverBase_of_layout {text base : List Char} (h : ReceiverLayout text base) :
    receiverBase text = base := by
  obtain ⟨hname, hstar, hbase, hparams, hbs⟩ := h
  have hbracket : IsMark '[' := ⟨by decide, by decide⟩
  obtain ⟨more, hmore, hbefore⟩ :=
    hparams.before_bracket hbs (hbracket.notMem_front hname hstar hbase (by decide))
  have hstars : base.dropWhile (· == '*') = base := by
    cases base with
    | nil => rfl
    | cons c base =>
      rw [List.dropWhile_cons_of_neg]
      rw [beq_iff_eq]
      rintro rfl
      cases hbase
  show ((words (before ['['] (trimWhere isParen _))).getLastD []).dropWhile (· == '*') = base
  rw [ReceiverLayout.trimWhere_isParen hname hstar hbase hparams hbs, hbefore]
  rcases ReceiverLayout.getLastD_words hname hstar hbase hmore with hlast | hlast
  · rw [hlast, hstars]
  · rw [hlast, List.dropWhile_cons_of_pos rfl, hstars]

/-! ## What a declaration declares -/

/-- A node is a declaration with specs that bind names for the package. -/
def HasSpecs (n : Node) : Prop :=
  n.kind = .typeDeclaration ∨ n.kind = .constDeclaration ∨ n.kind = .varDeclaration

/-- The symbols that a declaration at the top of a file declares. A declaration in parentheses has
many specs, and a spec of constants or variables can bind many names. -/
inductive Declares (source : List Char) (decl : Node) : String → Prop
  | function {id : Node} : decl.kind = .functionDeclaration → decl.childAs? .name = some id →
      isExported (id.text source) = true → Declares source decl (id.text source)
  | spec {spec : Node} {name : String} : HasSpecs decl → spec ∈ decl.children →
      isSpec spec = true → name ∈ spec.names source → isExported name = true →
      Declares source decl name
  | method {id receiver : Node} {base : List Char} : decl.kind = .methodDeclaration →
      decl.childAs? .name = some id → decl.childAs? .receiver = some receiver →
      ReceiverLayout (receiver.span.text source) base →
      isExported (String.ofList base) = true → isExported (id.text source) = true →
      Declares source decl (String.ofList base ++ "." ++ id.text source)

section

variable {source : List Char} {decl : Node} {s : String}

theorem mem_take_names_iff {n : Node} :
    s ∈ (n.names source).take 1 ↔ ∃ id, n.childAs? .name = some id ∧ s = id.text source := by
  rw [Node.names, Node.childrenAs, Node.childAs?, ← List.head?_filter]
  cases n.children.filter fun c => c.role = some .name with
  | nil => simp
  | cons id ids => simp

theorem methodSymbol?_eq_some_iff {base : List Char} {receiver : Node}
    (hreceiver : decl.childAs? .receiver = some receiver)
    (hlayout : ReceiverLayout (receiver.span.text source) base) :
    methodSymbol? source decl = some s ↔
      ∃ id, decl.childAs? .name = some id ∧ isExported (String.ofList base) = true ∧
        isExported (id.text source) = true ∧ s = String.ofList base ++ "." ++ id.text source := by
  unfold methodSymbol?
  rw [hreceiver, Option.bind_eq_bind, Option.bind_eq_some_iff]
  refine exists_congr fun id => and_congr_right fun _ => ?_
  rw [Option.bind_some, receiverBase_of_layout hlayout]
  dsimp only
  rw [Option.ite_none_right_eq_some, Bool.and_eq_true, and_assoc, Option.some.injEq,
    eq_comm (a := s)]

theorem mem_specs_iff :
    s ∈ ((decl.children.filter isSpec).flatMap (·.names source)).filter isExported ↔
      ∃ spec ∈ decl.children, isSpec spec = true ∧ s ∈ spec.names source ∧
        isExported s = true := by
  simp only [List.mem_filter, List.mem_flatMap]
  constructor
  · intro h
    obtain ⟨⟨spec, ⟨hspec, hkind⟩, hname⟩, hexported⟩ := h
    exact ⟨spec, hspec, hkind, hname, hexported⟩
  · intro h
    obtain ⟨spec, hspec, hkind, hname, hexported⟩ := h
    exact ⟨⟨spec, ⟨hspec, hkind⟩, hname⟩, hexported⟩

/-- What a declaration declares is among its symbols. -/
theorem Declares.mem_symbolsOf (h : Declares source decl s) : s ∈ symbolsOf source decl := by
  cases h with
  | function hkind hid hexported =>
    rw [symbolsOf, hkind]
    exact List.mem_filter.mpr ⟨mem_take_names_iff.mpr ⟨_, hid, rfl⟩, hexported⟩
  | spec hkind hspec hisSpec hname hexported =>
    have hs := mem_specs_iff.mpr ⟨_, hspec, hisSpec, hname, hexported⟩
    rw [symbolsOf]
    rcases hkind with hkind | hkind | hkind
    · rwa [hkind]
    · rwa [hkind]
    · rwa [hkind]
  | method hkind hid hreceiver hbase htype hname =>
    rw [symbolsOf, hkind]
    exact Option.mem_toList.mpr
      ((methodSymbol?_eq_some_iff hreceiver hbase).mpr ⟨_, hid, htype, hname, rfl⟩)

/-- A declaration has no other symbols, if the receiver of a method is laid out as receivers are. -/
theorem declares_of_mem_symbolsOf (hlayout : decl.kind = .methodDeclaration →
      ∀ receiver, decl.childAs? .receiver = some receiver →
        ∃ base, ReceiverLayout (receiver.span.text source) base)
    (h : s ∈ symbolsOf source decl) : Declares source decl s := by
  have hspecs : HasSpecs decl →
      s ∈ ((decl.children.filter isSpec).flatMap (·.names source)).filter isExported →
        Declares source decl s := by
    intro hkind hs
    obtain ⟨spec, hspec, hisSpec, hname, hexported⟩ := mem_specs_iff.mp hs
    exact .spec hkind hspec hisSpec hname hexported
  unfold symbolsOf at h
  split at h
  next hkind =>
    obtain ⟨htake, hexported⟩ := List.mem_filter.mp h
    obtain ⟨id, hid, rfl⟩ := mem_take_names_iff.mp htake
    exact .function hkind hid hexported
  next hkind =>
    rw [Option.mem_toList] at h
    cases hreceiver : decl.childAs? .receiver with
    | none => simp [methodSymbol?, hreceiver] at h
    | some receiver =>
      obtain ⟨base, hbase⟩ := hlayout hkind receiver hreceiver
      obtain ⟨id, hid, htype, hname, rfl⟩ := (methodSymbol?_eq_some_iff hreceiver hbase).mp h
      exact .method hkind hid hreceiver hbase htype hname
  next hkind => exact hspecs (Or.inl hkind) h
  next hkind => exact hspecs (Or.inr (Or.inl hkind)) h
  next hkind => exact hspecs (Or.inr (Or.inr hkind)) h
  next => cases h

end

end Doc

/-! ## What a package declares -/

namespace SourceFile

/-- The texts of the receivers of a file. -/
def receivers (f : SourceFile) : List (List Char) :=
  (f.topLevel.filter (·.kind = .methodDeclaration)).filterMap fun method =>
    (method.childAs? .receiver).map (·.span.text f.source.toList)

/-- A file has a package clause, and not that of a test. -/
def IsMember (f : SourceFile) : Prop :=
  ∃ clause, f.packageName? = some clause ∧ ¬"_test".toList <:+ clause.toList

end SourceFile

namespace Doc.View

open SourceFile

variable {v w : View}

theorem counts_iff {f : SourceFile} : counts f = true ↔ f.IsMember := by
  unfold counts IsMember
  cases f.packageName? with
  | none => simp
  | some clause => simp [← endsWith_iff_suffix]

/-- A file that counts is taken in, whichever name the view has then. -/
theorem exists_addFile_of_counts {f : SourceFile} {fs : List SourceFile} (hcounts : counts f = true)
    (h : v.addFiles (f :: fs) = .ok w) :
    ∃ name, ({ v with name := name }.addFile f).addFiles fs = .ok w := by
  obtain ⟨clause, hclause, htest⟩ := counts_iff.mp hcounts
  rw [← endsWith_iff_suffix] at htest
  rw [addFiles, hclause] at h
  dsimp only at h
  rw [if_neg htest] at h
  split at h
  next => exact ⟨clause, h⟩
  next =>
    split at h
    next => cases h
    next => exact ⟨v.name, h⟩

/-- What a view lists more than before is declared by the files that count. -/
theorem symbols_addFiles {fs : List SourceFile} (h : v.addFiles fs = .ok w) :
    w.symbols = v.symbols ++
      (fs.filter counts).flatMap fun f => f.topLevel.flatMap (symbolsOf f.source.toList) := by
  induction fs generalizing v with
  | nil =>
    cases h
    simp
  | cons f fs ih =>
    by_cases hcounts : counts f = true
    · obtain ⟨name, hrest⟩ := exists_addFile_of_counts hcounts h
      rw [ih hrest, List.filter_cons_of_pos hcounts]
      simp [addFile]
    · rw [addFiles_cons_of_not_counts (Bool.eq_false_iff.mpr hcounts)] at h
      rw [ih h, List.filter_cons_of_neg hcounts]

/-- **The symbols of a package are what its files declare.** -/
theorem hasSymbol_iff_declared {p : Package} (h : ofPackage p = .ok v)
    (hreceivers : ∀ f ∈ p.files, ∀ text ∈ f.receivers, ∃ base, ReceiverLayout text base)
    (n : String) :
    v.hasSymbol n = true ↔
      ∃ f ∈ p.files, f.IsMember ∧ ∃ decl ∈ f.topLevel, Declares f.source.toList decl n := by
  rw [hasSymbol, List.contains_iff_mem, symbols_addFiles h, List.mem_append]
  simp only [empty, List.not_mem_nil, false_or, List.mem_flatMap, List.mem_filter]
  constructor
  · intro hn
    obtain ⟨f, ⟨hf, hcounts⟩, decl, hdecl, hsymbol⟩ := hn
    have hlayout : decl.kind = .methodDeclaration →
        ∀ receiver, decl.childAs? .receiver = some receiver →
          ∃ base, ReceiverLayout (receiver.span.text f.source.toList) base := by
      intro hkind receiver hreceiver
      refine hreceivers f hf _ (List.mem_filterMap.mpr ⟨decl, ?_, ?_⟩)
      · exact List.mem_filter.mpr ⟨hdecl, decide_eq_true hkind⟩
      · rw [hreceiver, Option.map_some]
    exact ⟨f, hf, counts_iff.mp hcounts, decl, hdecl, declares_of_mem_symbolsOf hlayout hsymbol⟩
  · intro hn
    obtain ⟨f, hf, hmember, decl, hdecl, hdeclares⟩ := hn
    exact ⟨f, ⟨hf, counts_iff.mpr hmember⟩, decl, hdecl, hdeclares.mem_symbolsOf⟩

/-- Declarations of every kind in two files, a type that is local to a method, a field, names that
are not exported, and a test. -/
theorem hasSymbol_iff_declared_of_mixed_files :
    let a : SourceFile := .ofSource "a.go" ("package p\n\ntype Tree[K any] struct{ Root K }\n\n"
      ++ "func (t *Tree[K]) Walk() \x7b\n\ttype Local int\n\x7d\n")
    let test : SourceFile := .ofSource "a_test.go" "package p_test\n\ntype Hidden int\n"
    let b : SourceFile := .ofSource "b.go" ("package p\n\nvar (\n\tMin, max int\n\tMax int\n)\n\n"
      ++ "func New() {}\n\nfunc ( Int ) Len() {}\n")
    let p : Package := ⟨"", "example.com/p", none, [a, test, b], [], none⟩
    ∃ v, ofPackage p = .ok v ∧
      v.symbols = ["Tree", "Tree.Walk", "Min", "Max", "New", "Int.Len"] ∧
      (∀ f ∈ p.files, ∀ text ∈ f.receivers, ∃ base, ReceiverLayout text base) ∧
      ∀ n, v.hasSymbol n = true ↔
        ∃ f ∈ p.files, f.IsMember ∧ ∃ decl ∈ f.topLevel, Declares f.source.toList decl n := by
  intro a test b p
  obtain ⟨hsymbols, hreceivers⟩ : (ofPackage p).toOption.map View.symbols
        = some ["Tree", "Tree.Walk", "Min", "Max", "New", "Int.Len"] ∧
      p.files.flatMap SourceFile.receivers = ["(t *Tree[K])".toList, "( Int )".toList] := by
    decide +kernel
  have hnone : Blank [] := nofun
  have hspace : Blank [' '] := by decide
  have htree : ReceiverLayout "(t *Tree[K])".toList "Tree".toList :=
    have hname : ReceiverName ([] ++ ['t'] ++ [' ']) := .named hnone rfl hspace (by simp)
    have hbase : isWord "Tree".toList = true := rfl
    .mk hname (.pointer hnone) hbase (.some ['K'] hnone) hnone
  have hvalue : ReceiverLayout "( Int )".toList "Int".toList :=
    have hbase : isWord "Int".toList = true := rfl
    .mk (.unnamed hspace) .value hbase .none hspace
  have hlayout : ∀ f ∈ p.files, ∀ text ∈ f.receivers, ∃ base, ReceiverLayout text base := by
    intro f hf text htext
    have hmem := List.mem_flatMap.mpr ⟨f, hf, htext⟩
    rw [hreceivers] at hmem
    rcases List.mem_cons.mp hmem with rfl | hmem
    · exact ⟨_, htree⟩
    · rw [List.mem_singleton.mp hmem]
      exact ⟨_, hvalue⟩
  cases hv : ofPackage p with
  | error mismatch =>
    rw [hv] at hsymbols
    cases hsymbols
  | ok v =>
    rw [hv] at hsymbols
    exact ⟨v, rfl, Option.some.inj hsymbols, hlayout, hasSymbol_iff_declared hv hlayout⟩

end Doc.View

end DocHarvest
