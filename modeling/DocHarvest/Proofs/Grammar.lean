import DocHarvest.Proofs.Reading
import DocHarvest.Syntax.Tree

/-!
# What the grammar reads

Every rule of the grammar returns exactly what it reads, in trees of the right shape, provided the
goals inside it do. There is one lemma for each rule, and its proof follows the rule: a step that
reads, a look ahead, a choice.

`Goal.admits` says which trees a goal can return: members of a struct, of an interface or of a
group, or items of a file where the goal is made of these, and else only trees that can stand
anywhere. `sound_read` ties the rules together by induction on the fuel.
-/

namespace DocHarvest.Syntax

/-- The trees that a goal can return. -/
def Goal.admits : Goal → Node → Prop
  | .topLevel _ => Node.Fits .sourceFile
  | .fields => Node.Fits .structType
  | .interfaceElems => Node.Fits .interfaceType
  | .importSpecs => Node.Fits .importDeclaration
  | .constSpecs => Node.Fits .constDeclaration
  | .varSpecs => Node.Fits .varDeclaration
  | .typeSpecs => Node.Fits .typeDeclaration
  | _ => Node.Loose

/-- Every goal is read to the trees that it can return, and to nothing but what it reads. -/
def SoundReader (self : Reader) : Prop :=
  ∀ goal : Goal, Sound goal.admits (self goal)

namespace Grammar

open DocHarvest.Syntax.Parser

variable {self : Reader}

/-- Nodes of a kind that has no host can stand anywhere. -/
theorem loose_mk {k : Kind} (hk : k.host? = none) (s : Span) (cs : List Node) :
    (Node.mk k none s cs).Loose :=
  ⟨hk, by simp [Node.role], fun _ => rfl⟩

/-- Nodes of a kind that has a host fit into it. -/
theorem fits_mk {k host : Kind} (hk : k.host? = some host) (s : Span) (cs : List Node) :
    (Node.mk k none s cs).Fits host := by
  refine ⟨?_, by simp [Node.role], fun _ => rfl⟩
  intro k' hk'
  rw [show (Node.mk k none s cs).kind = k from rfl, hk] at hk'
  exact (Option.some.inj hk').symm

/-- A node that can stand anywhere is read if its contents fit. -/
theorem sound_looseNode {k : Kind} {step : Parser Forest} (hk : k.isInner = true)
    (hhost : k.host? = none) (hstep : Sound (Node.Fits k) step) :
    Sound Node.Loose (node k step) :=
  sound_node (fun _ hn => hn) hk (loose_mk hhost) hstep

/-- A node that stands in its host is read if its contents fit. -/
theorem sound_hostedNode {k host : Kind} {step : Parser Forest} (hk : k.isInner = true)
    (hhost : k.host? = some host) (hstep : Sound (Node.Fits k) step) :
    Sound (Node.Fits host) (node k step) :=
  sound_node (fun _ hn => hn.fits host) hk (fits_mk hhost) hstep

/-- The tag that may close a field. -/
theorem yields_tag {acc contents : Forest} (hacc : contents = acc) :
    Yields Node.Loose acc
      (do return contents ++ (← onlyIf (← sees true (·.kind = .string)) (string none))) Eq := by
  subst hacc
  refine .look (looks_sees _ _) fun _ => ?_
  exact .read (sound_onlyIf (sound_string (by simp))) fun tag => .ret rfl

/-! ## Types -/

section

variable (h : SoundReader self)
include h

theorem sound_typeArguments : Sound Node.Loose (typeArguments self) := by
  refine .read (sound_symbol _) fun left => .read (h .typeElems) fun args => ?_
  exact .read (sound_symbol _) fun right => .ret rfl

theorem sound_typeElems : Sound Node.Loose (typeElems self) := by
  refine .read (h (.typeElem _)) fun first => .look (looks_seesSymbol _ _) fun more => ?_
  refine .ite (fun _ => ?_) (fun _ => .ret rfl)
  refine .read (sound_symbol _) fun comma => .look (looks_seesSymbol _ _) fun closes => ?_
  exact .ite (fun _ => .ret rfl) (fun _ => .read (h .typeElems) fun rest => .ret rfl)

theorem sound_typeElem (breaks : Bool) : Sound Node.Loose (typeElem self breaks) := by
  refine .read (h (.type _)) fun first => .look (looks_seesSymbol _ _) fun more => ?_
  refine .ite (fun _ => ?_) (fun _ => .ret rfl)
  exact .read (sound_symbol _) fun bar => .read (h (.typeElem _)) fun rest => .ret rfl

theorem sound_types : Sound Node.Loose (types self) := by
  refine .read (h (.type _)) fun first => .look (looks_seesSymbol _ _) fun more => ?_
  refine .ite (fun _ => ?_) (fun _ => .ret rfl)
  exact .read (sound_symbol _) fun comma => .read (h .types) fun rest => .ret rfl

theorem sound_namedType (breaks : Bool) : Sound Node.Loose (namedType self breaks) := by
  refine .read (sound_identifier _) fun name => .look (looks_seesSymbol _ _) fun dotted => ?_
  refine .ite (fun _ => ?_) (fun _ => ?_)
  · refine .read (sound_symbol _) fun dot => .read (sound_identifier _) fun member => .let_ ?_
    refine .look (looks_seesSymbol _ _) fun _ => .read (sound_onlyIf (sound_typeArguments h)) ?_
    exact fun args => .ret (by simp)
  · refine .let_ (.look (looks_seesSymbol _ _) fun _ => ?_)
    exact .read (sound_onlyIf (sound_typeArguments h)) fun args => .ret (by simp)

theorem sound_bracketType (mayOpen breaks : Bool) :
    Sound Node.Loose (bracketType self mayOpen breaks) := by
  refine .read (sound_symbol _) fun left => .look (looks_seesSymbol _ _) fun closes => ?_
  refine .look (looks_seesSymbol _ _) fun dots => ?_
  refine .ite (fun _ => .let_ ?_) (fun _ => .ite (fun _ => ?_) (fun _ => ?_))
  · exact .read (sound_symbol _) fun right => .read (h (.type _)) fun type => .ret (by simp)
  · refine .read (sound_symbol _) fun length => .read (sound_symbol _) fun right => ?_
    exact .read (h (.type _)) fun type => .ret rfl
  · refine .read (h (.expression _ _)) fun length => .read (sound_symbol _) fun right => ?_
    exact .read (h (.type _)) fun type => .ret rfl

theorem sound_parameterList {role : Option Role} (hrole : role ≠ some .name) :
    Sound Node.Loose (parameterList self role) := by
  refine sound_group (fun _ hn => hn) (K := (· = .parameterList)) (B := Node.Loose) ?_ ?_
  · rintro _ rfl
    refine ⟨rfl, fun _ hn => hn.fits _, fun s cs => ⟨rfl, fun hname => absurd hname hrole, ?_⟩⟩
    intro hcomment
    cases hcomment
  refine .read (sound_symbol _) fun left => .look (looks_seesSymbol _ _) fun closes => ?_
  refine .look (looks_seesSymbol _ _) fun comma => ?_
  refine .ite (fun _ => .let_ ?_) (fun _ => .ite (fun _ => ?_) (fun _ => ?_))
  · exact .read (sound_symbol _) fun right => .ret ⟨rfl, by simp⟩
  · exact .read (sound_symbol _) fun params => .read (sound_symbol _) fun right => .ret ⟨rfl, rfl⟩
  · exact .read (h .parameters) fun params => .read (sound_symbol _) fun right => .ret ⟨rfl, rfl⟩

theorem sound_parameter : Sound Node.Loose (parameter self) := by
  refine .look (looks_seesSymbol _ _) fun dots => .ite (fun _ => ?_) (fun _ => ?_)
  · exact .read (sound_symbol _) fun dots => .read (h (.type _)) fun type => .ret rfl
  refine .look (looks_sees _ _) fun named => .ite (fun _ => ?_) (fun _ => h (.type _))
  refine .orElse ?_ (h (.type _))
  refine .read (sound_identifier _) fun name => .look (looks_seesSymbol _ _) fun _ => ?_
  exact .read (sound_onlyIf (sound_symbol _)) fun dots => .read (h (.type _)) fun type => .ret rfl

theorem sound_parameters : Sound Node.Loose (parameters self) := by
  refine .read (sound_parameter h) fun first => .look (looks_seesSymbol _ _) fun more => ?_
  refine .ite (fun _ => ?_) (fun _ => .ret rfl)
  refine .read (sound_symbol _) fun comma => .look (looks_seesSymbol _ _) fun closes => ?_
  exact .ite (fun _ => .ret rfl) (fun _ => .read (h .parameters) fun rest => .ret rfl)

theorem sound_signature (breaks : Bool) : Sound Node.Loose (signature self breaks) := by
  refine .read (sound_parameterList h (by simp)) fun params => ?_
  refine .look (looks_seesSymbol _ _) fun _ => .ite (fun _ => ?_) (fun _ => ?_)
  · exact .read (sound_parameterList h (by simp)) fun result => .ret rfl
  · refine .look (looks_sees _ _) fun _ => ?_
    exact .read (sound_onlyIf (h (.type _))) fun result => .ret rfl

theorem sound_typeParameterList : Sound Node.Loose (typeParameterList self) := by
  refine .read (sound_symbol _) fun left => .read (h .typeParameters) fun params => ?_
  exact .read (sound_symbol _) fun right => .ret rfl

theorem sound_typeParameters : Sound Node.Loose (typeParameters self) := by
  refine .read (sound_identifier _) fun name => .look (looks_seesSymbol _ _) fun _ => ?_
  refine .ite (fun _ => ?_) (fun _ => .read (h (.typeElem _)) fun limits => ?_)
  · exact .read (sound_symbol _) fun comma => .read (h .typeParameters) fun rest => .ret rfl
  refine .look (looks_seesSymbol _ _) fun more => .ite (fun _ => ?_) (fun _ => .ret rfl)
  refine .read (sound_symbol _) fun comma => .look (looks_seesSymbol _ _) fun closes => ?_
  exact .ite (fun _ => .ret rfl) (fun _ => .read (h .typeParameters) fun rest => .ret rfl)

/-! ## Structs and interfaces -/

theorem sound_fieldNames : Sound Node.Loose (fieldNames self) := by
  refine .read (sound_identifier _) fun name => .look (looks_seesSymbol _ _) fun more => ?_
  refine .ite (fun _ => ?_) (fun _ => .ret rfl)
  exact .read (sound_symbol _) fun comma => .read (h .fieldNames) fun rest => .ret rfl

theorem sound_embeddedField : Sound Node.Loose (embeddedField self) := by
  refine .look (looks_seesSymbol _ _) fun _ => .read (sound_onlyIf (sound_symbol _)) fun star => ?_
  exact .read (sound_namedType h _) fun type => .ret rfl

theorem sound_field : Sound (Node.Fits .structType) (field self) := by
  refine sound_hostedNode rfl rfl (Yields.fits ?_)
  have named : Sound Node.Loose (do return (← self .fieldNames) ++ (← self (.type true))) :=
    .read (h .fieldNames) fun names => .read (h (.type _)) fun type => .ret rfl
  have instantiated : Sound Node.Loose (do
      let contents ← embeddedField self
      if (← next? true).all endsField then return contents else failure) :=
    .read (sound_embeddedField h) fun contents => .look (looks_next? _) fun _ =>
      .ite (fun _ => .ret rfl) (fun _ => .fail)
  refine .look looks_nextPair fun (first, second) => .ite (fun _ => ?_) (fun _ => ?_)
  · exact .read (sound_embeddedField h) fun contents => yields_tag rfl
  refine .ite (fun _ => ?_) (fun _ => ?_)
  · exact .read (.orElse instantiated named) fun contents => yields_tag rfl
  · exact .read named fun contents => yields_tag rfl

theorem sound_fields : Sound (Node.Fits .structType) (fields self) := by
  refine .look (looks_seesSymbol _ _) fun _ => .ite (fun _ => .ret rfl) (fun _ => ?_)
  refine .read (sound_field h) fun first => .look (looks_seesSymbol _ _) fun _ => ?_
  refine .ite (fun _ => .ret rfl) (fun _ => ?_)
  exact .read sound_terminator.fits fun stop => .read (h .fields) fun rest => .ret rfl

theorem sound_structType : Sound Node.Loose (structType self) := by
  refine sound_looseNode rfl rfl (.read (sound_symbol _).fits fun head => ?_)
  refine .read (sound_symbol _).fits fun left => .read (h .fields) fun members => ?_
  exact .read (sound_symbol _).fits fun right => .ret rfl

theorem sound_interfaceElem : Sound (Node.Fits .interfaceType) (interfaceElem self) := by
  refine .look looks_nextPair fun (first, second) => .ite (fun _ => ?_) (fun _ => ?_)
  · refine sound_hostedNode rfl rfl (Yields.fits (.read (sound_identifier _) fun name => ?_))
    exact .read (sound_signature h _) fun sig => .ret rfl
  · exact Yields.fits (h (.typeElem _))

theorem sound_interfaceElems : Sound (Node.Fits .interfaceType) (interfaceElems self) := by
  refine .look (looks_seesSymbol _ _) fun _ => .ite (fun _ => .ret rfl) (fun _ => ?_)
  refine .read (sound_interfaceElem h) fun first => .look (looks_seesSymbol _ _) fun _ => ?_
  refine .ite (fun _ => .ret rfl) (fun _ => ?_)
  exact .read sound_terminator.fits fun stop => .read (h .interfaceElems) fun rest => .ret rfl

theorem sound_interfaceType : Sound Node.Loose (interfaceType self) := by
  refine sound_looseNode rfl rfl (.read (sound_symbol _).fits fun head => ?_)
  refine .read (sound_symbol _).fits fun left => .read (h .interfaceElems) fun members => ?_
  exact .read (sound_symbol _).fits fun right => .ret rfl

/-! ## All types -/

theorem sound_mapType (breaks : Bool) : Sound Node.Loose (mapType self breaks) := by
  refine .read (sound_symbol _) fun head => .read (sound_symbol _) fun left => ?_
  refine .read (h (.type _)) fun key => .read (sound_symbol _) fun right => ?_
  exact .read (h (.type _)) fun value => .ret rfl

theorem sound_channelType (breaks : Bool) : Sound Node.Loose (channelType self breaks) := by
  refine .look (looks_seesSymbol _ _) fun _ =>
    .read (sound_onlyIf (sound_symbol _)) fun receive => ?_
  refine .read (sound_symbol _) fun head => .look (looks_seesSymbol _ _) fun _ => ?_
  exact .read (sound_onlyIf (sound_symbol _)) fun send => .read (h (.type _)) fun type => .ret rfl

theorem sound_type (breaks : Bool) : Sound Node.Loose (type self breaks) := by
  refine .look (looks_next? _) fun next => ?_
  cases next with
  | none => exact .fail
  | some l =>
    refine .ite (fun _ => sound_namedType h _) (fun _ => .ite (fun _ => ?_) (fun _ => ?_))
    · exact .read (sound_anyOf _) fun mark => .read (h (.type _)) fun type => .ret rfl
    refine .ite (fun _ => ?_) (fun _ => .ite (fun _ => sound_bracketType h _ _) (fun _ => ?_))
    · refine .read (sound_symbol _) fun left => .read (h (.type _)) fun inner => ?_
      exact .read (sound_symbol _) fun right => .ret rfl
    refine .ite (fun _ => sound_structType h) (fun _ => ?_)
    refine .ite (fun _ => sound_interfaceType h) (fun _ => ?_)
    refine .ite (fun _ => sound_mapType h _) (fun _ => ?_)
    refine .ite (fun _ => sound_channelType h _) (fun _ => .ite (fun _ => ?_) (fun _ => .fail))
    exact .read (sound_symbol _) fun head => .read (sound_signature h _) fun sig => .ret rfl

/-! ## Expressions -/

theorem sound_expressions (breaks braces : Bool) :
    Sound Node.Loose (expressions self breaks braces) := by
  refine .read (h (.expression _ _)) fun first => .look (looks_seesSymbol _ _) fun more => ?_
  refine .ite (fun _ => ?_) (fun _ => .ret rfl)
  exact .read (sound_symbol _) fun comma => .read (h (.expressions _ _)) fun rest => .ret rfl

theorem sound_literalValue : Sound Node.Loose (literalValue self) := by
  refine .read (sound_symbol _) fun left => .look (looks_seesSymbol _ _) fun _ => ?_
  refine .look (looks_seesSymbol _ _) fun _ => ?_
  refine .ite (fun _ => .let_ ?_) (fun _ => .ite (fun _ => ?_) (fun _ => ?_))
  · exact .read (sound_symbol _) fun right => .ret (by simp)
  · exact .read (sound_symbol _) fun members => .read (sound_symbol _) fun right => .ret rfl
  · exact .read (h .elements) fun members => .read (sound_symbol _) fun right => .ret rfl

theorem sound_element : Sound Node.Loose (element self) :=
  .look (looks_seesSymbol _ _) fun _ =>
    .ite (fun _ => sound_literalValue h) (fun _ => h (.expression _ _))

/-- What follows one element: a comma and perhaps more of them, or nothing. -/
theorem yields_moreElements {acc read : Forest} (hacc : read = acc) :
    Yields Node.Loose acc (do
      if ← seesSymbol false "," then
        let comma ← symbol ","
        if ← seesSymbol false "\x7d" then return read ++ comma
        else return read ++ comma ++ (← self .elements)
      else return read) Eq := by
  subst hacc
  refine .look (looks_seesSymbol _ _) fun more => .ite (fun _ => ?_) (fun _ => .ret rfl)
  refine .read (sound_symbol _) fun comma => .look (looks_seesSymbol _ _) fun closes => ?_
  exact .ite (fun _ => .ret rfl) (fun _ => .read (h .elements) fun rest => .ret rfl)

theorem sound_elements : Sound Node.Loose (elements self) := by
  refine .read (h .element) fun key => .look (looks_seesSymbol _ _) fun _ => ?_
  refine .ite (fun _ => ?_) (fun _ => .let_ (yields_moreElements h (by simp)))
  refine .read (sound_symbol _) fun colon => .read (h .element) fun value => .let_ ?_
  exact yields_moreElements h (by simp)

/-! ## Suffixes -/

theorem sound_arguments : Sound Node.Loose (arguments self) := by
  refine .read (h (.expression _ _)) fun first => .look (looks_seesSymbol _ _) fun _ => ?_
  refine .read (sound_onlyIf (sound_symbol _)) fun dots => .look (looks_seesSymbol _ _) fun _ => ?_
  refine .ite (fun _ => ?_) (fun _ => .ret rfl)
  refine .read (sound_symbol _) fun comma => .look (looks_seesSymbol _ _) fun closes => ?_
  exact .ite (fun _ => .ret rfl) (fun _ => .read (h .arguments) fun rest => .ret rfl)

theorem sound_argumentList : Sound Node.Loose (argumentList self) := by
  refine .read (sound_symbol _) fun left => .look (looks_seesSymbol _ _) fun _ => ?_
  refine .read (sound_onlyIf (h .arguments)) fun args => ?_
  exact .read (sound_symbol _) fun right => .ret rfl

theorem sound_typeFirstArgumentList : Sound Node.Loose (typeFirstArgumentList self) := by
  refine .read (sound_symbol _) fun left => .read (h (.type _)) fun first => ?_
  refine .look (looks_seesSymbol _ _) fun _ => .ite (fun _ => ?_) (fun _ => .let_ ?_)
  · refine .read (sound_symbol _) fun comma => .look (looks_seesSymbol _ _) fun _ => ?_
    refine .read (sound_onlyIf (h .arguments)) fun args => .let_ ?_
    exact .read (sound_symbol _) fun right => .ret (by simp)
  · exact .read (sound_symbol _) fun right => .ret (by simp)

theorem sound_conversionOperand : Sound Node.Loose (conversionOperand self) := by
  refine .read (sound_symbol _) fun left => .read (h (.expression _ _)) fun inner => ?_
  refine .look (looks_seesSymbol _ _) fun _ => .read (sound_onlyIf (sound_symbol _)) fun comma => ?_
  exact .read (sound_symbol _) fun right => .ret rfl

theorem sound_sliceBounds : Sound Node.Loose (sliceBounds self) := by
  refine .read (sound_symbol _) fun colon => .look (looks_seesSymbol _ _) fun _ => ?_
  refine .read (sound_onlyIf (h (.expression _ _))) fun high => ?_
  refine .look (looks_seesSymbol _ _) fun _ => .ite (fun _ => ?_) (fun _ => .let_ (.ret (by simp)))
  refine .read (sound_symbol _) fun second => .read (h (.expression _ _)) fun capacity => ?_
  exact .let_ (.ret (by simp))

theorem sound_indexOrSlice : Sound Node.Loose (indexOrSlice self) := by
  refine .read (sound_symbol _) fun left => .look (looks_seesSymbol _ _) fun _ => ?_
  refine .read (sound_onlyIf (h (.expression _ _))) fun low => .look (looks_seesSymbol _ _) ?_
  refine fun _ => .read (sound_onlyIf (sound_sliceBounds h)) fun bounds => ?_
  exact .read (sound_symbol _) fun right => .ret rfl

theorem yields_member : Yields Node.Loose [] (member self) fun a ns => a.1 = ns := by
  refine .read (sound_symbol _) fun dot => .look (looks_seesSymbol _ _) fun _ => ?_
  refine .ite (fun _ => ?_) (fun _ => .read (sound_identifier _) fun name => .ret rfl)
  refine .read (sound_symbol _) fun left => .read (h (.type _)) fun asserted => ?_
  exact .read (sound_symbol _) fun right => .ret rfl

theorem sound_suffixes (operand : Operand) (breaks braces : Bool) :
    Sound Node.Loose (suffixes self operand breaks braces) := by
  refine .look (looks_next? _) fun next => ?_
  cases next with
  | none => exact .ret rfl
  | some l =>
    refine .ite (fun _ => ?_) (fun _ => .ite (fun _ => ?_) (fun _ => ?_))
    · refine .look (looks_seesSequence _) fun _ => .ite (fun _ => .ret rfl) (fun _ => ?_)
      refine .seq (yields_member h) fun (first, named) ns hfirst => ?_
      exact .read (h (.suffixes _ _ _)) fun rest => .ret (by rw [← hfirst]; rfl)
    · refine .ite (fun _ => ?_) (fun _ => ?_)
      · refine .read (.orElse (sound_argumentList h) (sound_typeFirstArgumentList h))
          fun first => ?_
        exact .read (h (.suffixes _ _ _)) fun rest => .ret rfl
      · refine .read (sound_argumentList h) fun first => ?_
        exact .read (h (.suffixes _ _ _)) fun rest => .ret rfl
    refine .ite (fun _ => ?_) (fun _ => .ite (fun _ => ?_) (fun _ => .ret rfl))
    · refine .read (.orElse (sound_indexOrSlice h) (sound_typeArguments h)) fun first => ?_
      exact .read (h (.suffixes _ _ _)) fun rest => .ret rfl
    · refine .read (sound_literalValue h) fun first => ?_
      exact .read (h (.suffixes _ _ _)) fun rest => .ret rfl

/-! ## Operands -/

theorem sound_typeOperand (composes : Bool) {type : Parser Forest} (htype : Sound Node.Loose type) :
    Sound Node.Loose (typeOperand self composes type) := by
  refine .read htype fun head => .look (looks_seesSymbol _ _) fun _ => ?_
  refine .ite (fun _ => ?_) (fun _ => ?_)
  · exact .read (sound_literalValue h) fun value => .ret rfl
  · exact .read (sound_conversionOperand h) fun value => .ret rfl

theorem sound_functionOperand : Sound Node.Loose (functionOperand self) := by
  refine .read (sound_symbol _) fun head => .read (sound_signature h _) fun sig => ?_
  refine .look (looks_seesSymbol _ _) fun _ => .ite (fun _ => ?_) (fun _ => ?_)
  · exact .read (h .block) fun block => .ret rfl
  · exact .read (sound_conversionOperand h) fun value => .ret rfl

theorem sound_parenthesized : Sound Node.Loose (parenthesized self) := by
  have inside {inner : Parser Forest} (hinner : Sound Node.Loose inner) : Sound Node.Loose (do
      let left ← symbol "("
      let body ← inner
      return left ++ body ++ (← symbol ")")) :=
    .read (sound_symbol _) fun left => .read hinner fun body =>
      .read (sound_symbol _) fun right => .ret rfl
  exact .orElse (inside (h (.expression _ _))) (sound_typeOperand h _ (inside (h (.type _))))

theorem sound_bracketOperand : Sound Node.Loose (bracketOperand self) := by
  refine .look (looks_seesSequence _) fun _ => .ite (fun _ => ?_) (fun _ => ?_)
  · refine .read (sound_bracketType h _ _) fun type => ?_
    exact .read (sound_literalValue h) fun value => .ret rfl
  · exact sound_typeOperand h _ (sound_bracketType h _ _)

theorem sound_operand (l : Lexeme) : Sound Node.Loose (operand self l) := by
  refine .ite (fun _ => ?_) (fun _ => .ite (fun _ => sound_parenthesized h) (fun _ => ?_))
  · refine sound_token (fun _ hn => hn) (picks_of_kind ?_ (by simp))
    intro t ht
    unfold Lexeme.isLiteral at ht
    cases hk : t.kind <;> simp_all
  refine .ite (fun _ => sound_functionOperand h) (fun _ => ?_)
  refine .ite (fun _ => sound_bracketOperand h) (fun _ => ?_)
  refine .ite (fun _ => sound_typeOperand h _ (sound_mapType h _)) (fun _ => ?_)
  refine .ite (fun _ => sound_typeOperand h _ (sound_structType h)) (fun _ => ?_)
  refine .ite (fun _ => sound_typeOperand h _ (sound_interfaceType h)) (fun _ => ?_)
  exact .ite (fun _ => sound_typeOperand h _ (sound_channelType h _)) (fun _ => .fail)

theorem sound_expression (breaks braces : Bool) :
    Sound Node.Loose (expression self breaks braces) := by
  refine .look (looks_next? _) fun next => ?_
  cases next with
  | none => exact .fail
  | some l =>
    refine .ite (fun _ => ?_) (fun _ => .read (sound_operand h l) fun head => ?_)
    · exact .read (sound_anyOf _) fun mark => .read (h (.expression _ _)) fun rest => .ret rfl
    refine .read (h (.suffixes _ _ _)) fun tail => .look (looks_seesAnyOf _ _) fun _ => ?_
    refine .ite (fun _ => ?_) (fun _ => .ret rfl)
    exact .read (sound_anyOf _) fun mark => .read (h (.expression _ _)) fun rest => .ret rfl

end

/-! ## Declarations -/

theorem sound_declaration {A : Node → Prop} (hA : ∀ n, n.Loose → A n) {k : Kind}
    (hk : k.isInner = true) (hnode : ∀ s cs, A (.mk k none s cs)) {keyword : String}
    {spec specs : Parser Forest} (hspec : Sound (Node.Fits k) spec)
    (hspecs : Sound (Node.Fits k) specs) : Sound A (declaration k keyword spec specs) := by
  refine sound_node hA hk hnode (.read (sound_symbol _).fits fun head => ?_)
  refine .look (looks_seesSymbol _ _) fun _ => .ite (fun _ => ?_) (fun _ => ?_)
  · refine .read (sound_symbol _).fits fun left => .read hspecs fun members => ?_
    exact .read (sound_symbol _).fits fun right => .ret rfl
  · exact .read hspec fun member => .ret rfl

theorem sound_specs {k : Kind} {spec rest : Parser Forest} (hspec : Sound (Node.Fits k) spec)
    (hrest : Sound (Node.Fits k) rest) : Sound (Node.Fits k) (specs spec rest) := by
  refine .look (looks_seesSymbol _ _) fun _ => .ite (fun _ => .ret rfl) (fun _ => ?_)
  refine .read hspec fun first => .look (looks_seesSymbol _ _) fun _ => ?_
  refine .ite (fun _ => .ret rfl) (fun _ => .read sound_terminator.fits fun stop => ?_)
  exact .read hrest fun more => .ret rfl

theorem sound_importSpec : Sound (Node.Fits .importDeclaration) importSpec := by
  have hpath : Sound (Node.Fits .importSpec) (string (some .path)) := (sound_string (by simp)).fits
  refine sound_hostedNode rfl rfl (.look (looks_seesSymbol _ _) fun _ => ?_)
  refine .ite (fun _ => ?_) (fun _ => .look (looks_sees _ _) fun _ => ?_)
  · refine .read (sound_token (fun _ hn => hn.fits _) ?_) fun dot => ?_
    · -- the dot stands where a name does and is no identifier
      intro l hl
      refine ⟨?_, ?_, ?_, fun _ => Or.inr rfl, fun hk => absurd hk (leafKind_ne_comment ?_)⟩
      · rcases kind_of_isSymbol hl with hk | hk <;> simp [hk]
      · rcases kind_of_isSymbol hl with hk | hk <;> simp [hk]
      · intro k hk
        rw [show (l.leaf (some .name)).kind = l.leafKind from rfl, l.host?_leafKind] at hk
        cases hk
      · rcases kind_of_isSymbol hl with hk | hk <;> simp [hk]
    · exact .read hpath fun path => .ret rfl
  · refine .read (sound_onlyIf (sound_identifier _)).fits fun name => ?_
    exact .read hpath fun path => .ret rfl

section

variable (h : SoundReader self)
include h

theorem sound_importDeclaration : Sound (Node.Fits .sourceFile) (importDeclaration self) :=
  sound_declaration (fun _ hn => hn.fits _) rfl (fits_mk rfl) sound_importSpec (h .importSpecs)

theorem sound_names : Sound Node.Loose (names self) := by
  refine .read (sound_identifier _) fun name => .look (looks_seesSymbol _ _) fun more => ?_
  refine .ite (fun _ => ?_) (fun _ => .ret rfl)
  exact .read (sound_symbol _) fun comma => .read (h .names) fun rest => .ret rfl

theorem sound_values : Sound Node.Loose (values self) := by
  exact .read (sound_symbol _) fun equals => .read (h (.expressions _ _)) fun values => .ret rfl

theorem sound_constSpec : Sound (Node.Fits .constDeclaration) (constSpec self) := by
  refine sound_hostedNode rfl rfl (Yields.fits (.read (h .names) fun bound => ?_))
  refine .look (looks_seesSymbol _ _) fun _ => .ite (fun _ => ?_) (fun _ => ?_)
  · exact .read (sound_values h) fun values => .ret rfl
  refine .look (looks_sees _ _) fun _ => .ite (fun _ => ?_) (fun _ => .ret rfl)
  exact .read (h (.type _)) fun type => .read (sound_values h) fun values => .ret rfl

theorem sound_constDeclaration : Sound Node.Loose (constDeclaration self) :=
  sound_declaration (fun _ hn => hn) rfl (loose_mk rfl) (sound_constSpec h) (h .constSpecs)

theorem sound_varSpec : Sound (Node.Fits .varDeclaration) (varSpec self) := by
  refine sound_hostedNode rfl rfl (Yields.fits (.read (h .names) fun bound => ?_))
  refine .look (looks_seesSymbol _ _) fun _ => .ite (fun _ => ?_) (fun _ => ?_)
  · exact .read (sound_values h) fun values => .ret rfl
  refine .read (h (.type _)) fun type => .look (looks_seesSymbol _ _) fun _ => ?_
  exact .read (sound_onlyIf (sound_values h)) fun values => .ret rfl

theorem sound_varDeclaration : Sound Node.Loose (varDeclaration self) :=
  sound_declaration (fun _ hn => hn) rfl (loose_mk rfl) (sound_varSpec h) (h .varSpecs)

/-- What a type spec binds its name to is read as one of the two kinds of specs. -/
theorem yields_typeSpecBody : Yields Node.Loose [] (typeSpecBody self)
    fun a ns => (a.1 = .typeSpec ∨ a.1 = .typeAlias) ∧ a.2 = ns := by
  refine .look (looks_seesSymbol _ _) fun _ => .ite (fun _ => ?_) (fun _ => ?_)
  · refine .read (sound_symbol _) fun equals => ?_
    exact .read (h (.type _)) fun type => .ret ⟨Or.inr rfl, rfl⟩
  · exact .read (h (.type _)) fun type => .ret ⟨Or.inl rfl, rfl⟩

theorem sound_typeSpec : Sound (Node.Fits .typeDeclaration) (typeSpec self) := by
  refine sound_group (fun _ hn => hn.fits _) (K := fun k => k = .typeSpec ∨ k = .typeAlias) ?_ ?_
    (B := Node.Loose)
  · rintro k (rfl | rfl)
    · exact ⟨rfl, fun _ hn => hn.fits _, fits_mk rfl⟩
    · exact ⟨rfl, fun _ hn => hn.fits _, fits_mk rfl⟩
  refine .read (sound_identifier _) fun name => .look (looks_seesSymbol _ _) fun _ => ?_
  refine .ite (fun _ => ?_) (fun _ => ?_)
  · refine .seq (.orElse ?generic (yields_typeSpecBody h)) ?_
    case generic =>
      refine .read (sound_typeParameterList h) fun params => .seq (yields_typeSpecBody h) ?_
      rintro ⟨kind, body⟩ ns ⟨hkind, rfl⟩
      exact .ret ⟨hkind, rfl⟩
    rintro ⟨kind, body⟩ ns ⟨hkind, rfl⟩
    exact .ret ⟨hkind, rfl⟩
  · refine .seq (yields_typeSpecBody h) ?_
    rintro ⟨kind, body⟩ ns ⟨hkind, rfl⟩
    exact .ret ⟨hkind, rfl⟩

theorem sound_typeDeclaration : Sound Node.Loose (typeDeclaration self) :=
  sound_declaration (fun _ hn => hn) rfl (loose_mk rfl) (sound_typeSpec h) (h .typeSpecs)

theorem sound_body : Sound Node.Loose (body self) :=
  .look (looks_seesSymbol _ _) fun _ => sound_onlyIf (h .block)

theorem sound_functionDeclaration : Sound (Node.Fits .sourceFile) (functionDeclaration self) := by
  refine sound_hostedNode rfl rfl (Yields.fits (.read (sound_symbol _) fun head => ?_))
  refine .read (sound_identifier _) fun name => .look (looks_seesSymbol _ _) fun _ => ?_
  refine .read (sound_onlyIf (sound_typeParameterList h)) fun params => ?_
  refine .read (sound_signature h _) fun sig => ?_
  exact .read (sound_body h) fun body => .ret rfl

theorem sound_methodDeclaration : Sound (Node.Fits .sourceFile) (methodDeclaration self) := by
  refine sound_hostedNode rfl rfl (Yields.fits (.read (sound_symbol _) fun head => ?_))
  refine .read (sound_parameterList h (by simp)) fun receiver => ?_
  refine .read (sound_identifier _) fun name => .read (sound_signature h _) fun sig => ?_
  exact .read (sound_body h) fun body => .ret rfl

/-! ## Statements -/

theorem sound_statements : Sound Node.Loose (statements self) := by
  refine .look (looks_sees _ _) fun _ => .ite (fun _ => .ret rfl) (fun _ => ?_)
  refine .read (h .statement) fun first => .look (looks_sees _ _) fun _ => ?_
  refine .ite (fun _ => .ret rfl) (fun _ => .read sound_terminator fun stop => ?_)
  exact .read (h .statements) fun rest => .ret rfl

theorem sound_block : Sound Node.Loose (block self) := by
  refine sound_looseNode rfl rfl (Yields.fits (.read (sound_symbol _) fun left => ?_))
  exact .read (h .statements) fun inner => .read (sound_symbol _) fun right => .ret rfl

/-- What follows all that stands on the left of a simple statement. -/
theorem yields_simpleRest {acc read : Forest} {several : Bool} (breaks braces : Bool)
    (hacc : read = acc) (hone : several = false → acc = []) :
    Yields Node.Loose acc (do
      if ← seesAnyOf breaks assignmentOperators then
        let operator ← anyOf assignmentOperators
        return read ++ operator ++ (← self (.expressions breaks braces))
      else if several then failure
      else if ← seesAnyOf breaks ["++", "--"] then anyOf ["++", "--"]
      else if ← seesSymbol breaks "<-" then
        let arrow ← symbol "<-"
        return arrow ++ (← self (.expression breaks braces))
      else return []) Eq := by
  subst hacc
  refine .look (looks_seesAnyOf _ _) fun _ => .ite (fun _ => ?_) (fun _ => ?_)
  · exact .read (sound_anyOf _) fun mark => .read (h (.expressions _ _)) fun rest => .ret rfl
  refine .ite (fun _ => .fail) (fun hseveral => ?_)
  rw [hone (Bool.eq_false_iff.mpr hseveral)]
  refine .look (looks_seesAnyOf _ _) fun _ => .ite (fun _ => sound_anyOf _) (fun _ => ?_)
  refine .look (looks_seesSymbol _ _) fun _ => .ite (fun _ => ?_) (fun _ => .ret rfl)
  exact .read (sound_symbol _) fun arrow => .read (h (.expression _ _)) fun value => .ret rfl

theorem sound_simpleTail (breaks braces : Bool) :
    Sound Node.Loose (simpleTail self breaks braces) := by
  refine .look (looks_seesSymbol _ _) fun several => .ite (fun hseveral => ?_) (fun hseveral => ?_)
  · refine .read (sound_symbol _) fun comma => .read (h (.expressions _ _)) fun more => .let_ ?_
    exact yields_simpleRest h _ _ rfl (fun hone => absurd (hone.symm.trans hseveral) (by simp))
  · exact .let_ (yields_simpleRest h _ _ rfl (fun _ => rfl))

theorem sound_simple (breaks braces : Bool) : Sound Node.Loose (simple self breaks braces) := by
  exact .read (h (.expression _ _)) fun first => .read (h (.simpleTail _ _)) fun tail => .ret rfl

/-! ## Control flow -/

/-- What follows the header of an if statement. -/
theorem yields_branches {acc read : Forest} (hacc : read = acc) :
    Yields Node.Loose acc (do
      let positive ← self .block
      if ← seesSymbol true "else" then
        let word ← symbol "else"
        let negative ← if ← seesSymbol false "if" then self .ifStatement else self .block
        return read ++ positive ++ word ++ negative
      else return read ++ positive) Eq := by
  subst hacc
  refine .read (h .block) fun positive => .look (looks_seesSymbol _ _) fun _ => ?_
  refine .ite (fun _ => .read (sound_symbol _) fun word => ?_) (fun _ => .ret rfl)
  refine .look (looks_seesSymbol _ _) fun _ => .ite (fun _ => ?_) (fun _ => ?_)
  · exact .read (h .ifStatement) fun negative => .ret rfl
  · exact .read (h .block) fun negative => .ret rfl

theorem sound_ifStatement : Sound Node.Loose (ifStatement self) := by
  refine .read (sound_symbol _) fun head => .read (h (.expression _ _)) fun first => ?_
  refine .look (looks_seesSymbol _ _) fun _ => .ite (fun _ => .let_ ?_) (fun _ => ?_)
  · exact yields_branches h rfl
  · refine .read (h (.simpleTail _ _)) fun tail => .read (sound_symbol _) fun stop => ?_
    refine .read (h (.expression _ _)) fun condition => .let_ (yields_branches h ?_)
    simp

theorem sound_loopClause : Sound Node.Loose (loopClause self) := by
  refine .read (sound_symbol _) fun first => .look (looks_seesSymbol _ _) fun _ => ?_
  refine .read (sound_onlyIf (h (.expression _ _))) fun condition => ?_
  refine .read (sound_symbol _) fun second => .look (looks_seesSymbol _ _) fun _ => ?_
  exact .read (sound_onlyIf (sound_simple h _ _)) fun update => .ret rfl

theorem sound_rangeClause : Sound Node.Loose (rangeClause self) := by
  exact .read (sound_symbol _) fun word => .read (h (.expression _ _)) fun subject => .ret rfl

theorem sound_loopHeader : Sound Node.Loose (loopHeader self) := by
  refine .read (h (.expression _ _)) fun first => .look (looks_seesSymbol _ _) fun _ => ?_
  refine .ite (fun _ => .ret rfl) (fun _ => .look (looks_seesSymbol _ _) fun _ => ?_)
  refine .ite (fun _ => .read (sound_loopClause h) fun rest => .ret rfl) (fun _ => ?_)
  refine .read (.orElse ?ranging ?counting) fun rest => .ret rfl
  case ranging =>
    refine .look (looks_seesSymbol _ _) fun _ => .ite (fun _ => ?_) (fun _ => .let_ ?_)
    · refine .read (sound_symbol _) fun comma => .read (h (.expressions _ _)) fun more => .let_ ?_
      refine .read (sound_anyOf _) fun assign => ?_
      exact .read (sound_rangeClause h) fun clause => .ret (by simp)
    · refine .read (sound_anyOf _) fun assign => ?_
      exact .read (sound_rangeClause h) fun clause => .ret (by simp)
  case counting =>
    exact .read (h (.simpleTail _ _)) fun tail => .read (sound_loopClause h) fun rest => .ret rfl

theorem sound_forStatement : Sound Node.Loose (forStatement self) := by
  refine .read (sound_symbol _) fun head => .look (looks_seesSymbol _ _) fun _ => ?_
  refine .look (looks_seesSymbol _ _) fun _ => .look (looks_seesSymbol _ _) fun _ => ?_
  refine .ite (fun _ => .let_ ?_) (fun _ => .ite (fun _ => ?_) (fun _ => .ite (fun _ => ?_) ?_))
  · exact .read (h .block) fun body => .ret (by simp)
  · exact .read (sound_rangeClause h) fun header => .read (h .block) fun body => .ret rfl
  · exact .read (sound_loopClause h) fun header => .read (h .block) fun body => .ret rfl
  · exact fun _ => .read (sound_loopHeader h) fun header => .read (h .block) fun body => .ret rfl

omit h in
theorem sound_typeGuard : Sound Node.Loose typeGuard := by
  refine .look (looks_seesSequence _) fun _ => .ite (fun _ => ?_) (fun _ => .ret rfl)
  refine .read (sound_symbol _) fun dot => .read (sound_symbol _) fun left => ?_
  exact .read (sound_symbol _) fun word => .read (sound_symbol _) fun right => .ret rfl

theorem yields_switchSubject :
    Yields Node.Loose [] (switchSubject self) fun a ns => a.1 = ns := by
  refine .look (looks_seesSymbol _ _) fun _ => .ite (fun _ => .ret rfl) (fun _ => ?_)
  refine .read (h (.expression _ _)) fun first => .look (looks_seesSymbol _ _) fun _ => ?_
  refine .ite (fun _ => ?_) (fun _ => .let_ (.read sound_typeGuard fun guard => ?_))
  · refine .read (sound_symbol _) fun assign => .read (h (.expression _ _)) fun value => .let_ ?_
    exact .read sound_typeGuard fun guard => .ite (fun _ => .fail) (fun _ => .ret (by simp))
  · exact .ite (fun _ => .fail) (fun _ => .ret (by simp))

theorem yields_switchHeader : Yields Node.Loose [] (switchHeader self) fun a ns => a.1 = ns := by
  refine .orElse ?subject ?withInitial
  case subject =>
    refine .seq (yields_switchSubject h) fun found ns hfound => ?_
    exact .look (looks_seesSymbol _ _) fun _ => .ite (fun _ => .ret hfound) (fun _ => .fail)
  case withInitial =>
    refine .read (sound_simple h _ _) fun initial => .read (sound_symbol _) fun stop => ?_
    refine .seq (yields_switchSubject h) fun (rest, of) ns hrest => .ret ?_
    rw [← hrest]
    rfl

theorem sound_clauseSubject (of : Clause) : Sound Node.Loose (clauseSubject self of) := by
  cases of with
  | expressions => exact h (.expressions _ _)
  | types => exact h .types
  | communication => exact sound_simple h _ _

theorem sound_clauses (of : Clause) : Sound Node.Loose (clauses self of) := by
  refine .look (looks_seesSymbol _ _) fun _ => .ite (fun _ => .ret rfl) (fun _ => ?_)
  refine .look (looks_seesSymbol _ _) fun _ => .ite (fun _ => ?_) (fun _ => ?_)
  · refine .read (sound_symbol _) fun head => .read (sound_symbol _) fun colon => ?_
    exact .read (h .statements) fun inner => .read (h (.clauses _)) fun rest => .ret rfl
  · refine .read (sound_symbol _) fun word => .read (sound_clauseSubject h _) fun subject => ?_
    refine .let_ (.read (sound_symbol _) fun colon => .read (h .statements) fun inner => ?_)
    exact .read (h (.clauses _)) fun rest => .ret (by simp)

theorem sound_switchStatement : Sound Node.Loose (switchStatement self) := by
  refine .read (sound_symbol _) fun head => ?_
  refine .seq (yields_switchHeader h) fun (header, of) ns hheader => ?_
  refine .read (sound_symbol _) fun left => .read (h (.clauses _)) fun inner => ?_
  exact .read (sound_symbol _) fun right => .ret (by rw [← hheader]; rfl)

theorem sound_selectStatement : Sound Node.Loose (selectStatement self) := by
  refine .read (sound_symbol _) fun head => .read (sound_symbol _) fun left => ?_
  exact .read (h (.clauses _)) fun inner => .read (sound_symbol _) fun right => .ret rfl

theorem sound_labelled : Sound Node.Loose (labelled self) := by
  refine .read (sound_identifier _) fun name => .read (sound_symbol _) fun colon => ?_
  refine .look (looks_sees _ _) fun _ => .ite (fun _ => .ret rfl) (fun _ => ?_)
  exact .read (h .statement) fun inner => .ret rfl

theorem sound_plainStatement (l : Lexeme) : Sound Node.Loose (plainStatement self l) := by
  refine .ite (fun _ => h .block) (fun _ => .ite (fun _ => sound_symbol _) (fun _ => ?_))
  refine .ite (fun _ => ?_) (fun _ => .ite (fun _ => ?_) (fun _ => ?_))
  · refine .read (sound_symbol _) fun word => .look (looks_next? _) fun _ => ?_
    exact .read (sound_onlyIf (h (.expressions _ _))) fun values => .ret rfl
  · exact .read (sound_anyOf _) fun word => .read (h (.expression _ _)) fun call => .ret rfl
  refine .ite (fun _ => h .ifStatement)
    (fun _ => .ite (fun _ => sound_forStatement h) (fun _ => ?_))
  refine .ite (fun _ => sound_switchStatement h) (fun _ => ?_)
  refine .ite (fun _ => sound_selectStatement h) (fun _ => ?_)
  refine .ite (fun _ => sound_symbol _) (fun _ => .ite (fun _ => ?_) (fun _ => ?_))
  · refine .read (sound_anyOf _) fun word => .look (looks_sees _ _) fun _ => ?_
    exact .read (sound_onlyIf (sound_identifier _)) fun label => .ret rfl
  refine .ite (fun _ => ?_) (fun _ => .look (looks_seesSequence _) fun _ => ?_)
  · exact .read (sound_symbol _) fun word => .read (sound_identifier _) fun label => .ret rfl
  · exact .ite (fun _ => sound_labelled h) (fun _ => sound_simple h _ _)

theorem sound_statement : Sound Node.Loose (statement self) := by
  refine .look (looks_next? _) fun next => ?_
  cases next with
  | none => exact .fail
  | some l =>
    refine .ite (fun _ => sound_constDeclaration h) (fun _ => ?_)
    refine .ite (fun _ => sound_varDeclaration h) (fun _ => ?_)
    refine .ite (fun _ => sound_typeDeclaration h) (fun _ => ?_)
    exact sound_looseNode rfl rfl (sound_plainStatement h l).fits

/-! ## Files -/

omit h in
theorem sound_packageClause : Sound (Node.Fits .sourceFile) packageClause := by
  refine sound_hostedNode rfl rfl (Yields.fits (.read (sound_symbol _) fun word => ?_))
  exact .read (sound_identifier _) fun name => .ret rfl

theorem sound_topLevelItem : Sound (Node.Fits .sourceFile) (topLevelItem self) := by
  refine .look (looks_next? _) fun next => ?_
  cases next with
  | none => exact .fail
  | some l =>
    refine .ite (fun _ => sound_packageClause) (fun _ => ?_)
    refine .ite (fun _ => sound_importDeclaration h) (fun _ => ?_)
    refine .ite (fun _ => ?_) (fun _ => Yields.fits (h .statement))
    refine .orElse (sound_functionDeclaration h) (.orElse (sound_methodDeclaration h) ?_)
    exact Yields.fits (h .statement)

theorem sound_topLevel (first : Bool) : Sound (Node.Fits .sourceFile) (topLevel self first) := by
  refine .look (looks_next? _) fun next => .ite (fun _ => ?_) (fun _ => ?_)
  · exact sound_comments fun _ hn => hn.fits _
  refine .look (looks_seesSymbol _ _) fun bare => .read (sound_topLevelItem h) fun item => ?_
  refine .look (looks_seesSymbol _ _) fun _ => .ite (fun _ => .let_ ?_) (fun _ => ?_)
  · exact .read (h (.topLevel _)) fun rest => .ret (by simp)
  · exact .read sound_terminator.fits fun stop => .read (h (.topLevel _)) fun rest => .ret rfl

end

end Grammar

/-! ## All goals -/

/-- The rule of a goal is sound if the goals inside it are. -/
theorem sound_rule {self : Reader} (h : SoundReader self) : SoundReader (rule self) := by
  intro goal
  cases goal with
  | topLevel first => exact Grammar.sound_topLevel h first
  | statements => exact Grammar.sound_statements h
  | statement => exact Grammar.sound_statement h
  | block => exact Grammar.sound_block h
  | clauses of => exact Grammar.sound_clauses h of
  | simpleTail breaks braces => exact Grammar.sound_simpleTail h breaks braces
  | ifStatement => exact Grammar.sound_ifStatement h
  | expression breaks braces => exact Grammar.sound_expression h breaks braces
  | suffixes of breaks braces => exact Grammar.sound_suffixes h of breaks braces
  | expressions breaks braces => exact Grammar.sound_expressions h breaks braces
  | arguments => exact Grammar.sound_arguments h
  | elements => exact Grammar.sound_elements h
  | element => exact Grammar.sound_element h
  | type breaks => exact Grammar.sound_type h breaks
  | typeElem breaks => exact Grammar.sound_typeElem h breaks
  | typeElems => exact Grammar.sound_typeElems h
  | types => exact Grammar.sound_types h
  | typeParameters => exact Grammar.sound_typeParameters h
  | parameters => exact Grammar.sound_parameters h
  | fieldNames => exact Grammar.sound_fieldNames h
  | fields => exact Grammar.sound_fields h
  | interfaceElems => exact Grammar.sound_interfaceElems h
  | names => exact Grammar.sound_names h
  | importSpecs => exact Grammar.sound_specs Grammar.sound_importSpec (h .importSpecs)
  | constSpecs => exact Grammar.sound_specs (Grammar.sound_constSpec h) (h .constSpecs)
  | varSpecs => exact Grammar.sound_specs (Grammar.sound_varSpec h) (h .varSpecs)
  | typeSpecs => exact Grammar.sound_specs (Grammar.sound_typeSpec h) (h .typeSpecs)

/-- However deep goals lie inside each other, each is read soundly. -/
theorem sound_read (fuel : Nat) : SoundReader (read fuel) := by
  induction fuel with
  | zero => exact fun goal => Yields.fail
  | succ fuel ih => exact sound_rule ih

/-- **A parse loses nothing.** The tree of a source text is a file around trees whose leaves are all
lexemes of the text, line breaks apart, and every node in it has the shape that the grammar gives
it. -/
theorem Node.parse?_covers {source : List Char} {root : Node} (h : Node.parse? source = some root) :
    ∃ children, root = .mk .sourceFile none (Span.whole source) children ∧
      Covers (Node.Fits .sourceFile) (lexemes source) children := by
  unfold Node.parse? at h
  dsimp only at h
  split at h
  next children hrun =>
    obtain ⟨used, more, hls, hmore, rfl⟩ := sound_read _ (.topLevel true) hrun
    rw [List.append_nil] at hls
    exact ⟨_, (Option.some.inj h).symm, hls ▸ hmore⟩
  next => cases h

end DocHarvest.Syntax
