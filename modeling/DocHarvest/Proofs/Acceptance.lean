import DocHarvest.Proofs.Reading
import DocHarvest.Proofs.Scanning
import DocHarvest.Syntax.Tree

/-!
# What the parser accepts

The counterpart of soundness: a judgement that a parser does succeed. `Accepts source p before after
Q` says that `p` reads any lexemes of the forms `before`, wherever they stand in the source, down to
lexemes of the forms `after`, and that `Q` holds of what it makes of them. The parser looks at kinds
and texts only, so every question it asks is decided by `before`, and each rule carries the answer.
-/

namespace DocHarvest.Syntax

/-! ## The judgement -/

/-- Lexemes of the given forms in their places in a source. -/
structure Spells (source : List Char) (ls forms : List Lexeme) : Prop where
  placed : ∀ l ∈ ls, l.Placed source
  forms : ls.map Lexeme.form = forms

/-- The parser reads lexemes of the forms `before` and leaves lexemes of the forms `after`, and its
result satisfies `Q`. -/
def Accepts {α : Type} (source : List Char) (p : Parser α) (before after : List Lexeme)
    (Q : α → Prop) : Prop :=
  ∀ ⦃ls⦄, Spells source ls before →
    ∃ a rest, p ls = some (a, rest) ∧ Spells source rest after ∧ Q a

namespace Accepts

variable {α β : Type} {source : List Char} {p q : Parser α} {f : α → Parser β}
  {before mid after : List Lexeme} {Q : α → Prop} {R : β → Prop}

theorem ret {a : α} (ha : Q a) : Accepts source (pure a) before before Q :=
  fun ls hls => ⟨a, ls, rfl, hls, ha⟩

theorem seq (hp : Accepts source p before mid Q)
    (hf : ∀ a, Q a → Accepts source (f a) mid after R) :
    Accepts source (p >>= f) before after R := by
  intro ls hls
  obtain ⟨a, rest, hfirst, hrest, ha⟩ := hp hls
  obtain ⟨b, last, hsecond, hlast, hb⟩ := hf a ha hrest
  exact ⟨b, last, Parser.bind_eq_some.mpr ⟨a, rest, hfirst, hsecond⟩, hlast, hb⟩

theorem let_ {a : α} (hf : Accepts source (f a) before after R) :
    Accepts source (pure a >>= f) before after R :=
  seq (Q := (· = a)) (.ret rfl) fun _ h => h ▸ hf

theorem yes {c : Prop} [Decidable c] (hc : c) (hp : Accepts source p before after Q) :
    Accepts source (if c then p else q) before after Q := by
  rwa [if_pos hc]

theorem no {c : Bool} (hc : c = false) (hq : Accepts source q before after Q) :
    Accepts source (if c = true then p else q) before after Q := by
  subst hc
  exact hq

theorem imp {S : α → Prop} (h : Accepts source p before after Q) (hQ : ∀ a, Q a → S a) :
    Accepts source p before after S := by
  intro ls hls
  obtain ⟨a, rest, hrun, hrest, ha⟩ := h hls
  exact ⟨a, rest, hrun, hrest, hQ a ha⟩

end Accepts

/-! ## Looking ahead -/

/-- A look ahead finds the same lexeme among the forms. -/
theorem Spells.find?_form {source : List Char} {ls before : List Lexeme}
    (h : Spells source ls before) (breaks : Bool) :
    (ls.find? (·.isSignificant breaks)).map Lexeme.form
      = before.find? (·.isSignificant breaks) := by
  rw [← h.forms, List.find?_map]
  rfl

namespace Accepts

variable {α β : Type} {source : List Char} {breaks : Bool} {before after : List Lexeme}
  {R : β → Prop}

/-- The next token is of a known form. -/
theorem next {f : Option Lexeme → Parser β} {t : Lexeme}
    (h : before.find? (·.isSignificant breaks) = some t)
    (hf : ∀ span, Accepts source (f (some { t with span })) before after R) :
    Accepts source (Parser.next? breaks >>= f) before after R := by
  intro ls hls
  have hfind := hls.find?_form breaks
  rw [h] at hfind
  obtain ⟨l, hl, rfl⟩ := Option.map_eq_some_iff.mp hfind
  obtain ⟨b, last, hrun, hlast⟩ := hf l.span hls
  refine ⟨b, last, Parser.bind_eq_some.mpr ⟨some l, ls, ?_, hrun⟩, hlast⟩
  rw [Parser.next?, hl]

/-- No token is left. -/
theorem next_none {f : Option Lexeme → Parser β}
    (h : before.find? (·.isSignificant breaks) = none)
    (hf : Accepts source (f none) before after R) :
    Accepts source (Parser.next? breaks >>= f) before after R := by
  intro ls hls
  have hfind := hls.find?_form breaks
  rw [h, Option.map_eq_none_iff] at hfind
  obtain ⟨b, last, hrun, hlast⟩ := hf hls
  refine ⟨b, last, Parser.bind_eq_some.mpr ⟨none, ls, ?_, hrun⟩, hlast⟩
  rw [Parser.next?, hfind]

theorem sees {p : Lexeme → Bool} {f : Bool → Parser β} {answer : Bool}
    (hp : ∀ l, p l = p l.form)
    (h : (before.find? (·.isSignificant breaks)).any p = answer)
    (hf : Accepts source (f answer) before after R) :
    Accepts source (Parser.sees breaks p >>= f) before after R := by
  intro ls hls
  have hanswer : (ls.find? (·.isSignificant breaks)).any p = answer := by
    rw [← h, ← hls.find?_form, Option.any_map]
    exact congrArg (Option.any · _) (funext hp)
  obtain ⟨b, last, hrun, hlast⟩ := hf hls
  refine ⟨b, last, Parser.bind_eq_some.mpr ⟨answer, ls, ?_, hrun⟩, hlast⟩
  rw [← hanswer]
  rfl

theorem seesSymbol {s : String} {f : Bool → Parser β} (answer : Bool)
    (h : (before.find? (·.isSignificant breaks)).any (·.isSymbol s) = answer)
    (hf : Accepts source (f answer) before after R) :
    Accepts source (Parser.seesSymbol breaks s >>= f) before after R :=
  sees (fun _ => rfl) h hf

theorem seesAnyOf {ss : List String} {f : Bool → Parser β} (answer : Bool)
    (h : (before.find? (·.isSignificant breaks)).any (·.isAnyOf ss) = answer)
    (hf : Accepts source (f answer) before after R) :
    Accepts source (Parser.seesAnyOf breaks ss >>= f) before after R :=
  sees (fun _ => rfl) h hf

end Accepts

/-! ## Reading tokens -/

/-- The lexemes from the first token on. -/
def fromToken (ls : List Lexeme) : List Lexeme :=
  ls.dropWhile fun l => !l.isSignificant false

theorem find?_of_fromToken {ls rest : List Lexeme} {t : Lexeme} (h : fromToken ls = t :: rest) :
    ls.find? (·.isSignificant false) = some t := by
  unfold fromToken at h
  induction ls with
  | nil => cases h
  | cons l ls ih =>
    by_cases hl : l.isSignificant false = true
    · rw [List.dropWhile_cons_of_neg (by simp [hl])] at h
      cases h
      exact List.find?_cons_of_pos hl
    · rw [List.dropWhile_cons_of_pos (by simpa using hl)] at h
      rw [List.find?_cons_of_neg hl]
      exact ih h

/-! ## What is made of lexemes -/

namespace Forest

/-- Comments alone. -/
def Comments (ns : Forest) : Prop :=
  ∀ n ∈ ns, ∃ l : Lexeme, l.kind = .comment ∧ n = l.leaf none

/-- Leaves that play no part in their parent. -/
def Bare (ns : Forest) : Prop :=
  ∀ n ∈ ns, ∃ l : Lexeme, n = l.leaf none

/-- One token of a given form in its place, after comments. -/
def OneToken (source : List Char) (role : Option Role) (t : Lexeme) (ns : Forest) : Prop :=
  ∃ (skipped : Forest) (l : Lexeme), ns = skipped ++ [l.leaf role] ∧ Comments skipped ∧
    l.Placed source ∧ l.form = t

/-- One node of a given kind, after comments, with children that satisfy `Q`. -/
def OneNode (kind : Kind) (Q : Forest → Prop) (ns : Forest) : Prop :=
  ∃ skipped span children, ns = skipped ++ [.mk kind none span children] ∧ Comments skipped ∧
    Q children

theorem Comments.bare {ns : Forest} (h : Comments ns) : Bare ns := by
  intro n hn
  obtain ⟨l, -, rfl⟩ := h n hn
  exact ⟨l, rfl⟩

theorem bare_nil : Bare [] :=
  fun _ hn => absurd hn List.not_mem_nil

theorem Bare.append {ms ns : Forest} (hms : Bare ms) (hns : Bare ns) : Bare (ms ++ ns) := by
  intro n hn
  rcases List.mem_append.mp hn with hn | hn
  · exact hms n hn
  · exact hns n hn

theorem OneToken.bare {source : List Char} {t : Lexeme} {ns : Forest}
    (h : OneToken source none t ns) : Bare ns := by
  obtain ⟨skipped, l, rfl, hskipped, -⟩ := h
  refine hskipped.bare.append fun n hn => ⟨l, ?_⟩
  exact List.mem_singleton.mp hn

theorem OneToken.ne_nil {source : List Char} {role : Option Role} {t : Lexeme} {ns : Forest}
    (h : OneToken source role t ns) : ns ≠ [] := by
  obtain ⟨skipped, l, rfl, -⟩ := h
  simp

end Forest

namespace Accepts

variable {source : List Char} {before after : List Lexeme} {role : Option Role}

theorem comments :
    Accepts source Parser.comments before (fromToken before) Forest.Comments := by
  intro ls hls
  let skips (l : Lexeme) : Bool := !l.isSignificant false
  have hrest : ls.drop (ls.takeWhile skips).length = ls.dropWhile skips := calc
    _ = (ls.takeWhile skips ++ ls.dropWhile skips).drop (ls.takeWhile skips).length := by
      rw [List.takeWhile_append_dropWhile]
    _ = ls.dropWhile skips := List.drop_left
  refine ⟨_, _, rfl, ⟨fun l hl => hls.placed l (List.mem_of_mem_drop hl), ?_⟩, ?_⟩
  · rw [hrest, ← hls.forms, fromToken, List.dropWhile_map]
    rfl
  · intro n hn
    obtain ⟨l, hl, rfl⟩ := List.mem_map.mp hn
    exact ⟨l, of_decide_eq_true (List.mem_filter.mp hl).2, rfl⟩

theorem token {p : Lexeme → Bool} {t : Lexeme} (hp : ∀ l, p l = p l.form)
    (h : fromToken before = t :: after) (ht : p t = true) :
    Accepts source (Parser.token p role) before after (Forest.OneToken source role t) := by
  refine .seq comments fun skipped hskipped => ?_
  rw [h]
  intro ls hls
  obtain ⟨l, rest, rfl, hl, hrest⟩ := List.map_eq_cons_iff.mp hls.forms
  have hpl : p l = true := by rw [hp, hl, ht]
  obtain ⟨hplaced, hplaces⟩ := List.forall_mem_cons.mp hls.placed
  refine ⟨skipped ++ [l.leaf role], rest, ?_, ⟨hplaces, hrest⟩,
    ⟨skipped, l, rfl, hskipped, hplaced, hl⟩⟩
  refine Parser.bind_eq_some.mpr ⟨l :: rest, l :: rest, rfl, ?_⟩
  dsimp only
  rw [if_pos hpl]
  rfl

theorem symbol {s : String} {t : Lexeme} (h : fromToken before = t :: after)
    (ht : t.isSymbol s = true) : Accepts source (Parser.symbol s) before after Forest.Bare :=
  (token (fun _ => rfl) h ht).imp fun _ h => h.bare

theorem identifier {text : String} (h : fromToken before = .name text :: after) :
    Accepts source (Parser.identifier role) before after
      (Forest.OneToken source role (.name text)) :=
  token (fun _ => rfl) h rfl

/-- A line break ends a statement and is left. -/
theorem terminator_lineBreak (h : before.find? (·.isSignificant true) = some .lineBreak) :
    Accepts source Parser.terminator before before (· = []) :=
  next h fun _ => .ret rfl

theorem node {kind : Kind} {step : Parser Forest} {Q : Forest → Prop}
    (h : Accepts source step (fromToken before) after Q) (hne : ¬Q []) :
    Accepts source (Parser.node kind step) before after (Forest.OneNode kind Q) := by
  refine .seq comments fun skipped hskipped => ?_
  have hread : Accepts source (do return (kind, ← step)) (fromToken before) after
      fun r => r.1 = kind ∧ Q r.2 := .seq h fun children hchildren => .ret ⟨rfl, hchildren⟩
  refine .seq hread fun (kind', children) ⟨hkind, hchildren⟩ => ?_
  obtain rfl : kind' = kind := hkind
  dsimp only
  split
  next => exact .ret ⟨skipped, _, children, rfl, hskipped, hchildren⟩
  next hends =>
    -- a node is made unless there is nothing to make it of
    have hnil : children = [] := by
      cases children with
      | nil => rfl
      | cons c cs => exact (hends c ((c :: cs).getLast (by simp)) rfl
          (List.getLast?_eq_some_getLast (by simp))).elim
    exact absurd (hnil ▸ hchildren) hne

/-! ## Reading goals -/

/-- A goal is read by its rule. -/
theorem goal {fuel : Nat} {g : Goal} {Q : Forest → Prop}
    (h : Accepts source (rule (read fuel) g) before after Q) :
    Accepts source (read (fuel + 1) g) before after Q :=
  h

end Accepts

/-! ## Names and strings -/

/-- Whether none of the given keywords, operators and brackets comes next. -/
def clearOf (breaks : Bool) (ss : List String) (ls : List Lexeme) : Bool :=
  !(ls.find? (·.isSignificant breaks)).any (·.isAnyOf ss)

theorem clearOf_append (breaks : Bool) (ss ts : List String) (ls : List Lexeme) :
    clearOf breaks (ss ++ ts) ls = (clearOf breaks ss ls && clearOf breaks ts ls) := by
  unfold clearOf Lexeme.isAnyOf
  cases ls.find? (·.isSignificant breaks) with
  | none => rfl
  | some t => simp

/-- What does not come next is not seen. -/
theorem any_isSymbol_of_clearOf {breaks : Bool} {ss : List String} {ls : List Lexeme} {s : String}
    (h : clearOf breaks ss ls = true) (hs : s ∈ ss) :
    (ls.find? (·.isSignificant breaks)).any (·.isSymbol s) = false := by
  unfold clearOf Lexeme.isAnyOf at h
  cases hnext : ls.find? (·.isSignificant breaks) with
  | none => rfl
  | some t =>
    rw [hnext, Option.any_some, Bool.not_eq_true', List.any_eq_false] at h
    exact Bool.eq_false_iff.mpr (h s hs)

namespace Grammar

variable {source : List Char} {before rest : List Lexeme} {text : String} {breaks braces : Bool}

/-- The lexemes with which a value goes on. -/
def valueSuffixes : List String :=
  [".", "(", "["]

/-- A value takes no suffix where there is none. -/
theorem accepts_suffixes {self : Reader} (h : clearOf breaks valueSuffixes rest = true) :
    Accepts source (suffixes self .value breaks braces) rest rest Forest.Bare := by
  cases hnext : rest.find? (·.isSignificant breaks) with
  | none => exact .next_none hnext (.ret Forest.bare_nil)
  | some t =>
    have hsymbol : ∀ s ∈ valueSuffixes, t.isSymbol s = false := by
      intro s hs
      have := any_isSymbol_of_clearOf h hs
      rw [hnext] at this
      exact this
    refine .next hnext fun span => .no (hsymbol "." (by decide)) (.no (hsymbol "(" (by decide)) ?_)
    refine .no (hsymbol "[" (by decide)) (.no ?_ (.ret Forest.bare_nil))
    simp

/-- A string is an expression. -/
theorem accepts_expression_string (fuel : Nat) (h : fromToken before = .string text :: rest)
    (hrest : clearOf breaks (valueSuffixes ++ binaryOperators) rest = true) :
    Accepts source (read (fuel + 2) (.expression breaks braces)) before rest Forest.Bare := by
  rw [clearOf_append, Bool.and_eq_true] at hrest
  obtain ⟨hsuffix, hoperator⟩ := hrest
  refine .goal (.next (find?_of_fromToken h) fun span => .no rfl ?_)
  refine .seq (.token (fun _ => rfl) h rfl) fun head hhead => ?_
  refine .seq (.goal (accepts_suffixes hsuffix)) fun tail htail => .seesAnyOf false ?_ (.no rfl ?_)
  · simpa [clearOf] using hoperator
  · exact .ret (hhead.bare.append htail)

/-- A string is an element of a composite literal. -/
theorem accepts_element_string (fuel : Nat) (h : fromToken before = .string text :: rest)
    (hrest : clearOf false (valueSuffixes ++ binaryOperators) rest = true) :
    Accepts source (read (fuel + 3) .element) before rest Forest.Bare := by
  refine .goal (.seesSymbol false ?_ (.no rfl (accepts_expression_string fuel h hrest)))
  rw [find?_of_fromToken h]
  rfl

/-- A name is a type. -/
theorem accepts_type_name (fuel : Nat) (h : fromToken before = .name text :: rest)
    (hrest : clearOf breaks [".", "["] rest = true) :
    Accepts source (read (fuel + 1) (.type breaks)) before rest Forest.Bare := by
  refine .goal (.next (find?_of_fromToken h) fun span => .yes rfl ?_)
  refine .seq (.identifier h) fun name hname => ?_
  refine .seesSymbol false (any_isSymbol_of_clearOf hrest (by simp)) (.no rfl (.let_ ?_))
  refine .seesSymbol false (any_isSymbol_of_clearOf hrest (by simp)) ?_
  refine .seq (.no rfl (.ret Forest.bare_nil)) fun args hargs => .ret ?_
  exact (hname.bare.append Forest.bare_nil).append hargs

/-- One name is bound. -/
theorem accepts_names (fuel : Nat) (h : fromToken before = .name text :: rest)
    (hrest : clearOf false [","] rest = true) :
    Accepts source (read (fuel + 1) .names) before rest
      (Forest.OneToken source (some .name) (.name text)) := by
  refine .goal (.seq (.identifier h) fun name hname => ?_)
  exact .seesSymbol false (any_isSymbol_of_clearOf hrest (by simp)) (.no rfl (.ret hname))

/-- A map between types that are names. -/
theorem accepts_mapType (fuel : Nat) {key value : String}
    (hrest : clearOf breaks [".", "["] rest = true) :
    Accepts source (mapType (read (fuel + 1)) breaks)
      (.keyword "map" :: .symbol "[" :: .name key :: .symbol "]" :: .name value :: rest) rest
      Forest.Bare := by
  refine .seq (.symbol rfl rfl) fun head hhead => .seq (.symbol rfl rfl) fun left hleft => ?_
  refine .seq (accepts_type_name fuel rfl rfl) fun key hkey => ?_
  refine .seq (.symbol rfl rfl) fun right hright => ?_
  refine .seq (accepts_type_name fuel rfl hrest) fun value hvalue => .ret ?_
  exact (((hhead.append hleft).append hkey).append hright).append hvalue

/-! ## Files -/

/-- An item at the top of a file that a line break ends, then the rest of the file. -/
theorem accepts_topLevel {mid after : List Lexeme} {self : Reader} {first : Bool} {t : Lexeme}
    {Q R : Forest → Prop}
    (hnext : before.find? (·.isSignificant false) = some t) (hbare : t.isSymbol ";" = false)
    (hitem : Accepts source (topLevelItem self) before mid Q)
    (hbreak : mid.find? (·.isSignificant true) = some .lineBreak)
    (hrest : Accepts source (self (.topLevel false)) mid after R) :
    Accepts source (topLevel self first) before after
      fun ns => ∃ item rest, ns = item ++ rest ∧ Q item ∧ R rest := by
  refine .next hnext fun span => .no rfl (.seesSymbol false (by rw [hnext]; exact hbare) ?_)
  refine .seq hitem fun item hitem => .seesSymbol false (by rw [hbreak]; rfl) (.no rfl ?_)
  refine .seq (.terminator_lineBreak hbreak) fun stop hstop => .seq hrest fun rest hrest => .ret ?_
  exact ⟨item, rest, by rw [hstop, List.append_nil], hitem, hrest⟩

/-- A package clause: the keyword and the name. -/
def IsClause (source : List Char) (package : String) (ns : Forest) : Prop :=
  ∃ word name, ns = word ++ name ∧ Forest.OneToken source none (.keyword "package") word ∧
    Forest.OneToken source none (.name package) name

theorem accepts_package {self : Reader}
    (h : fromToken before = .keyword "package" :: .name text :: rest) :
    Accepts source (topLevelItem self) before rest
      (Forest.OneNode .packageClause (IsClause source text)) := by
  refine .next (find?_of_fromToken h) fun span => .yes rfl (.node ?_ ?_)
  · rw [h]
    refine .seq (.token (fun _ => rfl) rfl rfl) fun word hword => ?_
    exact .seq (.identifier rfl) fun name hname => .ret ⟨word, name, rfl, hword, hname⟩
  · rintro ⟨word, name, hnil, hword, -⟩
    exact hword.ne_nil (List.append_eq_nil_iff.mp hnil.symm).1

end Grammar

/-! ## Source texts -/

/-- A source text that is scanned into lexemes has a tree if these are read to their end. -/
theorem exists_parse? {source : List Char} {forms : List Lexeme} {Q : Forest → Prop}
    (hscan : Scans source forms) (hmark : source.head? ≠ some byteOrderMark)
    (h : Accepts source (read (8 * forms.length + 16) (.topLevel true)) forms [] Q) :
    ∃ children, Node.parse? source = some (.mk .sourceFile none (Span.whole source) children) ∧
      Q children := by
  have hforms := hscan.map_form_lexemes hmark
  have hlength : (lexemes source).length = forms.length := by
    rw [← hforms, List.length_map]
  obtain ⟨children, rest, hrun, hrest, hQ⟩ := h ⟨(inPlace_lexemes source).placed, hforms⟩
  have hnil : rest = [] := List.map_eq_nil_iff.mp hrest.forms
  subst hnil
  rw [← hlength, ← fuelFor] at hrun
  refine ⟨children, ?_, hQ⟩
  unfold Node.parse?
  dsimp only
  rw [StateT.run, hrun]

end DocHarvest.Syntax
