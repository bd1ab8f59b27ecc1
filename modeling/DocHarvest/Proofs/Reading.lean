import DocHarvest.Syntax.Parser

/-!
# What a parser reads

A logic for the parsers of the grammar. A parser consumes lexemes and returns a forest, and the one
thing to know about it is that the forest is made of what was consumed: its leaves are the consumed
lexemes in order, line breaks apart, and its inner nodes have the shape that the grammar gives them
(`Covers`).

`Yields A acc p post` is the judgement: if `p` runs where the forest `acc` has been read and returns
`a`, then it has read more trees, all admitted by `A`, and `post a` holds of everything read so far.
There is one lemma for each way to put parsers together, so that the proof about a rule of the
grammar follows its text, and there is no lemma about backtracking or fuel: a run that fails says
nothing.

`Node.Shaped` is the schema of trees. Specs, fields, methods and top-level items stand only in the
kind of node that is made of them (`Kind.host?`), a name is an identifier except in an import, and
comments play no part.
-/

namespace DocHarvest.Syntax

/-! ## The schema of trees -/

/-- The kind of node in which alone nodes of a kind stand, if there is one. -/
def Kind.host? : Kind → Option Kind
  | .packageClause | .importDeclaration | .functionDeclaration | .methodDeclaration =>
    some .sourceFile
  | .importSpec => some .importDeclaration
  | .constSpec => some .constDeclaration
  | .varSpec => some .varDeclaration
  | .typeSpec | .typeAlias => some .typeDeclaration
  | .fieldDeclaration => some .structType
  | .methodElem => some .interfaceType
  | _ => none

/-- Whether nodes of a kind have children. -/
def Kind.isInner (k : Kind) : Bool :=
  !k.isToken && k ≠ .comment

namespace Node

/-- A node that can stand in a node of any kind. -/
def Loose (n : Node) : Prop :=
  n.kind.host? = none ∧ (n.role = some .name → n.kind = .identifier) ∧
    (n.kind = .comment → n.role = none)

/-- A node that can stand in a node of a given kind. -/
def Fits (parent : Kind) (n : Node) : Prop :=
  (∀ k, n.kind.host? = some k → k = parent) ∧
    (n.role = some .name → n.kind = .identifier ∨ parent = .importSpec) ∧
    (n.kind = .comment → n.role = none)

theorem Loose.fits {n : Node} (h : n.Loose) (parent : Kind) : n.Fits parent := by
  refine ⟨?_, fun hname => Or.inl (h.2.1 hname), h.2.2⟩
  intro k hk
  rw [h.1] at hk
  cases hk

/-- A tree that the grammar can build: its leaves are lexemes, and its inner nodes span from their
first child to their last and have children that fit. -/
inductive Shaped : Node → Prop
  | leaf (l : Lexeme) (role : Option Role) : l.kind ≠ .lineBreak → l.kind ≠ .stray →
      Shaped (l.leaf role)
  | inner (k : Kind) (role : Option Role) {cs : List Node} {first last : Node} :
      k.isInner = true → cs.head? = some first → cs.getLast? = some last →
      (∀ c ∈ cs, Shaped c) → (∀ c ∈ cs, c.Fits k) →
      Shaped (mk k role (first.span.through last.span) cs)

/-- What a leaf keeps of its lexeme, apart from its role. -/
def mark (n : Node) : Kind × Span :=
  (n.kind, n.span)

theorem leavesAll_eq_flatMap (ns : List Node) : leavesAll ns = ns.flatMap leaves := by
  induction ns with
  | nil => rfl
  | cons n ns ih => rw [leavesAll, ih, List.flatMap_cons]

/-- A lexeme becomes a tree of one leaf. -/
theorem leaves_leaf (l : Lexeme) (role : Option Role) : (l.leaf role).leaves = [l.leaf role] := by
  unfold Lexeme.leaf
  cases l.leafKind <;> rfl

/-- An inner node has the leaves of its children. -/
theorem leaves_inner {k : Kind} (hk : k.isInner = true) (role : Option Role) (s : Span)
    {cs : List Node} (hcs : cs ≠ []) : (mk k role s cs).leaves = leavesAll cs := by
  cases cs with
  | nil => exact absurd rfl hcs
  | cons c cs =>
    rw [leaves]
    intro hcomment
    subst hcomment
    cases hk

end Node

/-- What a lexeme passes on to its leaf. -/
def Lexeme.mark (l : Lexeme) : Kind × Span :=
  (l.leafKind, l.span)

/-- The kinds of leaves, and what they tell about the lexeme. -/
theorem Lexeme.leafKind_cases (l : Lexeme) :
    l.kind = .comment ∧ l.leafKind = .comment ∨ l.kind = .identifier ∧ l.leafKind = .identifier ∨
      l.leafKind = .literal ∨ l.leafKind = .openParen ∨
      l.leafKind = .semicolon ∧ l.text = [';'] ∨ l.leafKind = .symbol := by
  unfold leafKind
  split
  next hk => simp [hk]
  next hk => simp [hk]
  next => simp
  next => simp
  next => simp
  next =>
    split
    next => simp
    next =>
      split
      next htext => simp [htext]
      next => simp

theorem Lexeme.host?_leafKind (l : Lexeme) : l.leafKind.host? = none := by
  rcases l.leafKind_cases with ⟨-, h⟩ | ⟨-, h⟩ | h | h | ⟨h, -⟩ | h <;> rw [h] <;> rfl

/-! ## What is covered -/

/-- A forest of admitted trees whose leaves are the given lexemes, line breaks apart. -/
structure Covers (A : Node → Prop) (used : List Lexeme) (ns : Forest) : Prop where
  leaves : (Node.leavesAll ns).map Node.mark
    = (used.filter (·.kind ≠ .lineBreak)).map Lexeme.mark
  plain : ∀ l ∈ used, l.kind ≠ .stray
  shaped : ∀ n ∈ ns, n.Shaped
  admitted : ∀ n ∈ ns, A n

namespace Covers

variable {A B : Node → Prop} {used more : List Lexeme} {ms ns : Forest}

theorem nil : Covers A [] [] where
  leaves := rfl
  plain := by simp
  shaped := by simp
  admitted := by simp

theorem append (h : Covers A used ms) (h' : Covers A more ns) :
    Covers A (used ++ more) (ms ++ ns) where
  leaves := by
    have hms := h.leaves
    have hns := h'.leaves
    rw [Node.leavesAll_eq_flatMap] at hms hns ⊢
    rw [List.flatMap_append, List.map_append, hms, hns, List.filter_append, List.map_append]
  plain := List.forall_mem_append.mpr ⟨h.plain, h'.plain⟩
  shaped := List.forall_mem_append.mpr ⟨h.shaped, h'.shaped⟩
  admitted := List.forall_mem_append.mpr ⟨h.admitted, h'.admitted⟩

theorem mono (hAB : ∀ n, A n → B n) (h : Covers A used ns) : Covers B used ns where
  leaves := h.leaves
  plain := h.plain
  shaped := h.shaped
  admitted n hn := hAB n (h.admitted n hn)

theorem lineBreak {l : Lexeme} (hl : l.kind = .lineBreak) : Covers A [l] [] where
  leaves := by simp [hl, Node.leavesAll]
  plain := by simp [hl]
  shaped := by simp
  admitted := by simp

theorem leaf {l : Lexeme} {role : Option Role} (hbreak : l.kind ≠ .lineBreak)
    (hstray : l.kind ≠ .stray) (hA : A (l.leaf role)) : Covers A [l] [l.leaf role] where
  leaves := by
    rw [Node.leavesAll, Node.leaves_leaf, Node.leavesAll, List.append_nil,
      List.filter_cons_of_pos (by simpa using hbreak)]
    rfl
  plain := by simpa using hstray
  shaped := by simpa using Node.Shaped.leaf l role hbreak hstray
  admitted := by simpa using hA

/-- Trees are put under one node. -/
theorem inner {k : Kind} {role : Option Role} {first last : Node} (h : Covers (Node.Fits k) used ns)
    (hk : k.isInner = true) (hfirst : ns.head? = some first) (hlast : ns.getLast? = some last)
    (hA : A (.mk k role (first.span.through last.span) ns)) :
    Covers A used [.mk k role (first.span.through last.span) ns] where
  leaves := by
    have hne : ns ≠ [] := List.ne_nil_of_mem (List.mem_of_head? hfirst)
    rw [Node.leavesAll, Node.leavesAll, List.append_nil, Node.leaves_inner hk _ _ hne, h.leaves]
  plain := h.plain
  shaped := by simpa using Node.Shaped.inner k role hk hfirst hlast h.shaped h.admitted
  admitted := by simpa using hA

end Covers

/-! ## The judgement -/

/-- If the parser runs where `acc` has been read, it reads more admitted trees, and its result and
all that has been read satisfy `post`. -/
def Yields {α : Type} (A : Node → Prop) (acc : Forest) (p : Parser α) (post : α → Forest → Prop) :
    Prop :=
  ∀ ⦃ls a rest⦄, p ls = some (a, rest) →
    ∃ used more, ls = used ++ rest ∧ Covers A used more ∧ post a (acc ++ more)

/-- The parser returns exactly what it reads. -/
abbrev Sound (A : Node → Prop) (p : Parser Forest) : Prop :=
  Yields A [] p Eq

/-- The parser looks ahead and reads nothing. -/
def Looks {α : Type} (p : Parser α) : Prop :=
  ∀ ⦃ls a rest⦄, p ls = some (a, rest) → rest = ls

namespace Parser

theorem bind_eq_some {α β : Type} {p : Parser α} {f : α → Parser β} {ls rest : List Lexeme}
    {b : β} :
    (p >>= f) ls = some (b, rest) ↔ ∃ a mid, p ls = some (a, mid) ∧ f a mid = some (b, rest) := by
  show (p ls).bind (fun x => f x.1 x.2) = some (b, rest) ↔ _
  rw [Option.bind_eq_some_iff, Prod.exists]

theorem orElse_eq_some {α : Type} {p q : Parser α} {ls : List Lexeme} {x : α × List Lexeme}
    (h : (p <|> q) ls = some x) : p ls = some x ∨ q ls = some x := by
  have h' : (p ls <|> q ls) = some x := h
  cases hp : p ls with
  | none => rw [hp] at h'; exact Or.inr h'
  | some y => rw [hp] at h'; exact Or.inl h'

end Parser

namespace Yields

variable {α β : Type} {A B : Node → Prop} {acc : Forest} {p q : Parser α} {f : α → Parser β}
  {post : α → Forest → Prop} {after : β → Forest → Prop}

theorem mono (hAB : ∀ n, A n → B n) (h : Yields A acc p post) : Yields B acc p post := by
  intro ls a rest hrun
  obtain ⟨used, more, hls, hmore, hpost⟩ := h hrun
  exact ⟨used, more, hls, hmore.mono hAB, hpost⟩

/-- What fits everywhere fits in a given node. -/
theorem fits {k : Kind} (h : Yields Node.Loose acc p post) : Yields (Node.Fits k) acc p post :=
  h.mono fun _ hn => hn.fits k

theorem ret {a : α} (h : post a acc) : Yields A acc (pure a) post := by
  intro ls b rest hrun
  cases hrun
  exact ⟨[], [], rfl, Covers.nil, by rwa [List.append_nil]⟩

theorem fail : Yields A acc (failure : Parser α) post := by
  intro ls a rest hrun
  cases hrun

/-- A step that reads, then another. -/
theorem seq (hp : Yields A [] p post) (hf : ∀ a ns, post a ns → Yields A (acc ++ ns) (f a) after) :
    Yields A acc (p >>= f) after := by
  intro ls b rest hrun
  obtain ⟨a, mid, hfirst, hsecond⟩ := Parser.bind_eq_some.mp hrun
  obtain ⟨used, ms, rfl, hms, hpost⟩ := hp hfirst
  obtain ⟨used', ns, rfl, hns, hafter⟩ := hf a ms hpost hsecond
  refine ⟨used ++ used', ms ++ ns, by rw [List.append_assoc], hms.append hns, ?_⟩
  rwa [List.append_assoc] at hafter

/-- A step that returns what it reads, then another. -/
theorem read {p : Parser Forest} {f : Forest → Parser β} (hp : Sound A p)
    (hf : ∀ ns, Yields A (acc ++ ns) (f ns) after) : Yields A acc (p >>= f) after :=
  seq hp fun a _ heq => heq ▸ hf a

/-- A step that looks ahead, then another. -/
theorem look (hp : Looks p) (hf : ∀ a, Yields A acc (f a) after) :
    Yields A acc (p >>= f) after := by
  intro ls b rest hrun
  obtain ⟨a, mid, hfirst, hsecond⟩ := Parser.bind_eq_some.mp hrun
  cases hp hfirst
  exact hf a hsecond

/-- A value that is handed on. -/
theorem let_ {a : α} (hf : Yields A acc (f a) after) : Yields A acc (pure a >>= f) after := by
  intro ls b rest hrun
  obtain ⟨a', mid, hfirst, hsecond⟩ := Parser.bind_eq_some.mp hrun
  cases hfirst
  exact hf hsecond

theorem ite {c : Prop} [Decidable c] (hp : c → Yields A acc p post)
    (hq : ¬c → Yields A acc q post) : Yields A acc (if c then p else q) post := by
  split
  next hc => exact hp hc
  next hc => exact hq hc

theorem orElse (hp : Yields A acc p post) (hq : Yields A acc q post) :
    Yields A acc (p <|> q) post := by
  intro ls a rest hrun
  rcases Parser.orElse_eq_some hrun with h | h
  · exact hp h
  · exact hq h

end Yields

/-! ## Looking ahead -/

namespace Parser

theorem looks_next? (breaks : Bool) : Looks (next? breaks) := by
  intro ls a rest hrun
  cases hrun
  rfl

theorem looks_sees (breaks : Bool) (p : Lexeme → Bool) : Looks (sees breaks p) := by
  intro ls a rest hrun
  cases hrun
  rfl

theorem looks_seesSymbol (breaks : Bool) (s : String) : Looks (seesSymbol breaks s) :=
  looks_sees breaks _

theorem looks_seesAnyOf (breaks : Bool) (ss : List String) : Looks (seesAnyOf breaks ss) :=
  looks_sees breaks _

theorem looks_nextPair : Looks nextPair := by
  intro ls a rest hrun
  cases hrun
  rfl

theorem looks_seesSequence (ss : List String) : Looks (seesSequence ss) := by
  intro ls a rest hrun
  cases hrun
  rfl

/-! ## Reading tokens -/

/-- Whether a condition holds only of lexemes that become a token which is admitted. -/
def Picks (A : Node → Prop) (p : Lexeme → Bool) (role : Option Role) : Prop :=
  ∀ l, p l = true → l.kind ≠ .lineBreak ∧ l.kind ≠ .stray ∧ A (l.leaf role)

/-- What is passed over before a token leaves its comments. -/
theorem covers_skipped {A : Node → Prop} (hA : ∀ n, n.Loose → A n) (ls : List Lexeme)
    (h : ∀ l ∈ ls, l.isSignificant false = false) :
    Covers A ls ((ls.filter (·.kind = .comment)).map (·.leaf none)) := by
  induction ls with
  | nil => exact Covers.nil
  | cons l ls ih =>
    obtain ⟨hl, hls⟩ := List.forall_mem_cons.mp h
    have hrest := ih hls
    rw [← List.singleton_append]
    by_cases hc : l.kind = .comment
    · rw [List.filter_append, List.filter_cons_of_pos (by simpa using hc), List.filter_nil,
        List.map_append]
      refine Covers.append (Covers.leaf (by simp [hc]) (by simp [hc]) (hA _ ?_)) hrest
      exact ⟨by simp [Lexeme.leaf, Node.kind, Lexeme.leafKind, hc, Kind.host?],
        by simp [Lexeme.leaf, Node.role], fun _ => rfl⟩
    · rw [List.filter_append, List.filter_cons_of_neg (by simpa using hc), List.filter_nil,
        List.nil_append]
      have hbreak : l.kind = .lineBreak := by
        simpa [Lexeme.isSignificant, hc] using hl
      exact Covers.append (Covers.lineBreak hbreak) hrest

theorem sound_comments {A : Node → Prop} (hA : ∀ n, n.Loose → A n) : Sound A comments := by
  intro ls ns rest hrun
  cases hrun
  refine ⟨ls.takeWhile fun l => !l.isSignificant false, _, ?_, covers_skipped hA _ ?_, rfl⟩
  · exact (List.prefix_iff_eq_append.mp (List.takeWhile_prefix _)).symm
  · intro l hl
    simpa using List.all_eq_true.mp List.all_takeWhile l hl

theorem sound_token {A : Node → Prop} (hA : ∀ n, n.Loose → A n) {p : Lexeme → Bool}
    {role : Option Role} (hp : Picks A p role) : Sound A (token p role) := by
  refine .read (sound_comments hA) fun before => ?_
  -- the token itself is read from the state by hand, so here the run is opened
  intro ls ns rest hrun
  obtain ⟨ls', mid, hget, hrun⟩ := bind_eq_some.mp hrun
  cases hget
  cases ls with
  | nil => cases hrun
  | cons l ls =>
    by_cases hl : p l = true
    · simp only [hl, if_true] at hrun
      cases hrun
      obtain ⟨hbreak, hstray, hadmitted⟩ := hp l hl
      exact ⟨[l], [l.leaf role], rfl, Covers.leaf hbreak hstray hadmitted, rfl⟩
    · simp only [hl, Bool.false_eq_true, if_false] at hrun
      cases hrun

/-- Only a comment becomes one. -/
theorem leafKind_ne_comment {l : Lexeme} (h : l.kind ≠ .comment) : l.leafKind ≠ .comment := by
  rcases l.leafKind_cases with ⟨hk, -⟩ | ⟨-, hk⟩ | hk | hk | ⟨hk, -⟩ | hk
  · exact absurd hk h
  all_goals simp [hk]

/-- A token of which only its kind is asked can stand anywhere, and so can a name that is an
identifier. -/
theorem picks_of_kind {p : Lexeme → Bool} {role : Option Role}
    (hp : ∀ l, p l = true → l.kind ≠ .lineBreak ∧ l.kind ≠ .stray ∧ l.kind ≠ .comment)
    (hrole : role = some .name → ∀ l, p l = true → l.kind = .identifier) :
    Picks Node.Loose p role := by
  intro l hl
  obtain ⟨hbreak, hstray, hcomment⟩ := hp l hl
  refine ⟨hbreak, hstray, l.host?_leafKind, ?_, fun hk => absurd hk (leafKind_ne_comment hcomment)⟩
  intro hname
  show l.leafKind = .identifier
  rw [Lexeme.leafKind, hrole hname l hl]

theorem kind_of_isSymbol {l : Lexeme} {s : String} (h : l.isSymbol s = true) :
    l.kind = .symbol ∨ l.kind = .keyword := by
  unfold Lexeme.isSymbol at h
  simp only [Bool.and_eq_true, Bool.or_eq_true, decide_eq_true_eq] at h
  exact h.1

theorem kind_of_isAnyOf {l : Lexeme} {ss : List String} (h : l.isAnyOf ss = true) :
    l.kind = .symbol ∨ l.kind = .keyword := by
  obtain ⟨s, -, hs⟩ := List.any_eq_true.mp h
  exact kind_of_isSymbol hs

theorem sound_anyOf (ss : List String) : Sound Node.Loose (anyOf ss) := by
  refine sound_token (fun _ h => h) (picks_of_kind ?_ (by simp))
  intro l hl
  rcases kind_of_isAnyOf hl with hk | hk <;> simp [hk]

theorem sound_symbol (s : String) : Sound Node.Loose (symbol s) := by
  refine sound_token (fun _ h => h) (picks_of_kind ?_ (by simp))
  intro l hl
  rcases kind_of_isSymbol hl with hk | hk <;> simp [hk]

theorem sound_identifier (role : Option Role) : Sound Node.Loose (identifier role) := by
  refine sound_token (fun _ h => h) (picks_of_kind ?_ ?_)
  · intro l hl
    simp [of_decide_eq_true hl]
  · intro _ l hl
    exact of_decide_eq_true hl

theorem sound_string {role : Option Role} (hrole : role ≠ some .name) :
    Sound Node.Loose (string role) := by
  refine sound_token (fun _ h => h) (picks_of_kind ?_ (fun h => absurd h hrole))
  intro l hl
  simp [of_decide_eq_true hl]

theorem sound_terminator : Sound Node.Loose terminator := by
  refine .look (looks_next? true) fun l => ?_
  cases l with
  | none => exact .ret rfl
  | some l => exact .ite (fun _ => .ret rfl) (fun _ => sound_anyOf _)

/-! ## Putting trees together -/

theorem sound_onlyIf {A : Node → Prop} {c : Bool} {p : Parser Forest} (hp : Sound A p) :
    Sound A (onlyIf c p) :=
  .ite (fun _ => hp) (fun _ => .ret rfl)

/-- A node is put around trees that fit into it. -/
theorem sound_group {A B : Node → Prop} (hA : ∀ n, n.Loose → A n) {K : Kind → Prop}
    {role : Option Role} {step : Parser (Kind × Forest)}
    (hK : ∀ k, K k → k.isInner = true ∧ (∀ n, B n → n.Fits k) ∧ ∀ s cs, A (.mk k role s cs))
    (hstep : Yields B [] step fun a ns => K a.1 ∧ a.2 = ns) : Sound A (group role step) := by
  refine .read (sound_comments hA) fun before => ?_
  intro ls ns rest hrun
  obtain ⟨⟨k, cs⟩, mid, hfirst, hsecond⟩ := bind_eq_some.mp hrun
  obtain ⟨used, more, rfl, hmore, hk, hcs⟩ := hstep hfirst
  obtain ⟨hinner, hfits, hadmitted⟩ := hK k hk
  simp only [List.nil_append] at hcs
  subst hcs
  refine ⟨used, ?_⟩
  cases cs with
  | nil =>
    -- nothing but line breaks was read, and no node is made
    cases hsecond
    exact ⟨[], rfl, ⟨hmore.leaves, hmore.plain, by simp, by simp⟩, by simp⟩
  | cons c cs =>
    have hlast := List.getLast?_eq_some_getLast (List.cons_ne_nil c cs)
    simp only [List.head?_cons, hlast] at hsecond
    cases hsecond
    exact ⟨_, rfl, (hmore.mono hfits).inner hinner rfl hlast (hadmitted _ _), rfl⟩

/-- A node of a given kind is put around trees that fit into it. -/
theorem sound_node {A : Node → Prop} (hA : ∀ n, n.Loose → A n) {k : Kind} {step : Parser Forest}
    (hinner : k.isInner = true) (hk : ∀ s cs, A (.mk k none s cs))
    (hstep : Sound (Node.Fits k) step) : Sound A (node k step) := by
  refine sound_group hA (K := (· = k)) ?_ (.read hstep fun ns => .ret ⟨rfl, rfl⟩)
  rintro _ rfl
  exact ⟨hinner, fun _ h => h, hk⟩

end Parser

end DocHarvest.Syntax
