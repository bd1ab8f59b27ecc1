import DocHarvest.Comment.Text
import DocHarvest.Proofs.Attribution
import DocHarvest.Proofs.Pieces

/-!
# Comments as they are written

A comment is a mark and what stands behind it up to the end of the line, or what stands between two
marks (`Remark`). What it says is what is left when its marks and its carriage returns are taken
away, and a directive says nothing. Whether something is a directive is told by a small grammar
(`Directive`).

The comments of a parsed file are all written in this way (`exists_remark_of_mem_comments`), so
whatever is said about groups of remarks is said about every group that is found in a file
(`exists_remarks_of_group`).
-/

namespace DocHarvest.Comment

open DocHarvest.Text DocHarvest.Syntax

/-! ## Directives -/

/-- What stands behind `//` speaks to a tool: it starts with one of three words, or with a name, a
colon and one more character of a name. -/
def Directive (cs : List Char) : Prop :=
  "line ".toList <+: cs ∨ "extern ".toList <+: cs ∨ "export ".toList <+: cs ∨
    ∃ name c rest, cs = name ++ ':' :: c :: rest ∧ name ≠ [] ∧
      (∀ d ∈ name, isDirectiveChar d = true) ∧ isDirectiveChar c = true

theorem isDirective_iff {cs : List Char} : isDirective cs = true ↔ Directive cs := by
  unfold isDirective Directive
  simp only [Bool.or_eq_true, startsWith_iff_prefix, or_assoc]
  refine or_congr_right (or_congr_right (or_congr_right ?_))
  simp only [Bool.and_eq_true, Bool.not_eq_true', List.isEmpty_eq_false_iff, List.all_eq_true]
  constructor
  · rintro ⟨⟨hne, hname⟩, hnext⟩
    rcases takeWhile_ne_cases ':' cs with hall | ⟨rest, hrest⟩
    · rw [hall, List.drop_eq_nil_of_le (Nat.le_succ _)] at hnext
      cases hnext
    · generalize cs.takeWhile (· != ':') = name at hne hname hnext hrest
      subst hrest
      cases rest with
      | nil => simp at hnext
      | cons c rest => exact ⟨name, c, rest, rfl, hne, hname, by simpa using hnext⟩
  · rintro ⟨name, c, rest, rfl, hne, hname, hc⟩
    have hcolon : ∀ d ∈ name, (d != ':') = true := by
      intro d hd
      rw [bne_iff_ne]
      rintro rfl
      exact absurd (hname ':' hd) (by decide)
    rw [List.takeWhile_append_of_pos hcolon, List.takeWhile_cons_of_neg (by simp), List.append_nil]
    exact ⟨⟨hne, hname⟩, by simp [hc]⟩

instance : DecidablePred Directive := fun _ => decidable_of_iff _ isDirective_iff

/-! ## Remarks -/

/-- A comment: what stands behind `//`, or what stands between `/*` and `*/`. -/
inductive Remark where
  | line (rest : List Char)
  | block (inner : List Char)

namespace Remark

/-- The comment with its marks. -/
def raw : Remark → List Char
  | line rest => '/' :: '/' :: rest
  | block inner => '/' :: '*' :: (inner ++ ['*', '/'])

/-- What a comment says. One space behind `//` is part of the mark, and without it a directive says
nothing. -/
def said? : Remark → Option (List Char)
  | line rest =>
    match rest.filter (· != '\r') with
    | ' ' :: text => some text
    | text => if Directive text then none else some text
  | block inner => some (inner.filter (· != '\r'))

/-- The lines of what a comment says, without white space at their ends. -/
def lines (r : Remark) : List (List Char) :=
  (r.said?.elim [] (split '\n')).map trimEnd

/-- The marks come off, and nothing else does but carriage returns. -/
theorem body_raw (r : Remark) : body r.raw = r.said? := by
  unfold body
  cases r with
  | line rest =>
    have hmark : dropStart? "//".toList ((line rest).raw.filter (· != '\r'))
        = some (rest.filter (· != '\r')) := dropStart?_eq_some_iff.mpr rfl
    simp only [hmark, said?]
    generalize rest.filter (· != '\r') = text
    split
    next heq =>
      cases heq
      rfl
    next hspace heq =>
      cases heq
      simp only [isDirective_iff]
    next heq => cases heq
  | block inner =>
    have hraw : (block inner).raw.filter (· != '\r')
        = '/' :: '*' :: (inner.filter (· != '\r') ++ ['*', '/']) := by
      simp [raw]
    have hline : dropStart? "//".toList ((block inner).raw.filter (· != '\r')) = none := by
      rw [hraw]
      rfl
    have hmark : dropStart? "/*".toList ((block inner).raw.filter (· != '\r'))
        = some (inner.filter (· != '\r') ++ ['*', '/']) := by
      rw [hraw]
      exact dropStart?_eq_some_iff.mpr rfl
    simp only [hline, hmark, said?]
    have hends : endsWith "*/".toList (inner.filter (· != '\r') ++ ['*', '/']) = true := by
      rw [endsWith, startsWith_iff_prefix, List.reverse_append]
      exact List.prefix_append _ _
    rw [if_pos hends, List.length_append]
    exact congrArg some (List.take_left' (by simp))

theorem bodyLines_raw (r : Remark) : bodyLines r.raw = r.lines := by
  unfold bodyLines lines
  rw [body_raw]
  cases r.said? with
  | none => rfl
  | some text => rfl

end Remark

/-! ## Comments of a parsed file -/

theorem exists_of_blockCommentLength {cs : List Char} {n : Nat}
    (h : blockCommentLength cs = some n) : ∃ inner, cs.take n = inner ++ ['*', '/'] := by
  fun_induction blockCommentLength cs generalizing n with
  | case1 => cases h
  | case2 c cs hclose =>
    cases h
    obtain ⟨rfl, hslash⟩ := hclose
    cases cs with
    | nil => cases hslash
    | cons d ds =>
      cases hslash
      exact ⟨[], rfl⟩
  | case3 c cs _ ih =>
    obtain ⟨m, hm, rfl⟩ := Option.map_eq_some_iff.mp h
    obtain ⟨inner, hinner⟩ := ih hm
    exact ⟨c :: inner, by rw [List.take_succ_cons, hinner, List.cons_append]⟩

theorem fst_munchSymbol_ne (cs : List Char) : (munchSymbol cs).1 ≠ .comment := by
  unfold munchSymbol
  split
  next => simp
  next => simp

theorem fst_munchClosed_ne {kind : LexemeKind} (hkind : kind ≠ .comment) (rest : Option Nat) :
    (munchClosed kind rest).1 ≠ .comment := by
  unfold munchClosed
  split
  next => exact hkind
  next => simp

/-- A comment at the front of a text is a remark. -/
theorem exists_remark_of_munch {c : Char} {cs : List Char} {n : Nat}
    (h : munch (c :: cs) = (.comment, n)) : ∃ r : Remark, (c :: cs).take n = r.raw := by
  rw [munch] at h
  split at h
  next =>
    -- a word is a keyword or an identifier
    have hkind := congrArg Prod.fst h
    dsimp only at hkind
    split at hkind
    next => cases hkind
    next => cases hkind
  split at h
  next => cases h
  split at h
  next => exact absurd (congrArg Prod.fst h) (fst_munchClosed_ne (by simp) _)
  split at h
  next => exact absurd (congrArg Prod.fst h) (fst_munchClosed_ne (by simp) _)
  split at h
  next => exact absurd (congrArg Prod.fst h) (fst_munchClosed_ne (by simp) _)
  split at h
  next hline =>
    cases h
    obtain ⟨rfl, hslash⟩ := hline
    obtain ⟨rest, rfl⟩ := List.head?_eq_some_iff.mp hslash
    refine ⟨.line (rest.takeWhile (· != '\n')), ?_⟩
    have hpre : ('/' :: rest).takeWhile (· != '\n') <+: '/' :: rest := List.takeWhile_prefix _
    rw [List.take_succ_cons, ← List.prefix_iff_eq_take.mp hpre]
    rfl
  split at h
  next hblock =>
    obtain ⟨rfl, hstar⟩ := hblock
    obtain ⟨rest, rfl⟩ := List.head?_eq_some_iff.mp hstar
    split at h
    next m hm =>
      cases h
      obtain ⟨inner, hinner⟩ := exists_of_blockCommentLength hm
      refine ⟨.block inner, ?_⟩
      rw [List.take_succ_cons, List.take_succ_cons]
      exact congrArg ('/' :: '*' :: ·) hinner
    next => exact absurd (congrArg Prod.fst h) (fst_munchSymbol_ne _)
  next => exact absurd (congrArg Prod.fst h) (fst_munchSymbol_ne _)

theorem exists_remark_of_mem_lexemesFrom {skip offset row : Nat} {cs : List Char} {l : Lexeme}
    (hl : l ∈ lexemesFrom skip offset row cs) (hk : l.kind = .comment) :
    ∃ r : Remark, l.text = r.raw := by
  fun_induction lexemesFrom skip offset row cs with
  | case1 => cases hl
  | case2 skip offset row c cs ih => exact ih hl
  | case3 offset row cs ih =>
    rcases List.mem_cons.mp hl with rfl | hl
    · cases hk
    · exact ih hl
  | case4 offset row c cs _ _ ih => exact ih hl
  | case5 offset row c cs _ _ kind n hmunch text ih =>
    rcases List.mem_cons.mp hl with rfl | hl
    · cases hk
      exact exists_remark_of_munch hmunch
    · exact ih hl

variable {source : List Char} {root : Node}

/-- **A comment of a parsed file is a remark.** -/
theorem exists_remark_of_mem_comments (h : Node.parse? source = some root) {s : Span}
    (hs : s ∈ (Index.ofSource source root).comments.toList) :
    ∃ r : Remark, s.text source = r.raw := by
  obtain ⟨children, rfl, hcovers⟩ := Node.parse?_covers h
  rw [Index.ofSource, List.toList_toArray] at hs
  obtain ⟨n, hn, rfl⟩ := List.mem_map.mp hs
  obtain ⟨hleaf, hkind⟩ := List.mem_filter.mp hn
  rw [decide_eq_true_eq] at hkind
  rw [Node.leaves_mk] at hleaf
  split at hleaf
  next =>
    -- the tree of a blank file has no comment
    rw [List.mem_singleton.mp hleaf] at hkind
    cases hkind
  next =>
    obtain ⟨l, hl, -, hleafKind, hspan⟩ := Node.exists_mem_lexemes_of_covers hcovers hleaf
    have hcomment : l.kind = .comment := by
      by_contra hnot
      exact Parser.leafKind_ne_comment hnot (hleafKind ▸ hkind)
    rw [hspan, ((inPlace_lexemes source).placed l hl).text]
    exact exists_remark_of_mem_lexemesFrom hl hcomment

theorem exists_remarks_of_subset (h : Node.parse? source = some root) {group : List Span}
    (hgroup : group ⊆ (Index.ofSource source root).comments.toList) :
    ∃ remarks : List Remark, group.map (·.text source) = remarks.map Remark.raw := by
  induction group with
  | nil => exact ⟨[], rfl⟩
  | cons s group ih =>
    obtain ⟨r, hr⟩ := exists_remark_of_mem_comments h (hgroup List.mem_cons_self)
    obtain ⟨remarks, hremarks⟩ := ih fun c hc => hgroup (List.mem_cons_of_mem s hc)
    exact ⟨r :: remarks, by rw [List.map_cons, List.map_cons, hr, hremarks]⟩

namespace Index

variable {index : Index} {node : Span} {group : List Span}

theorem commentsWithin_subset (start stop : Nat) :
    index.commentsWithin start stop ⊆ index.comments.toList := by
  unfold commentsWithin
  intro c hc
  rw [Array.toList_extract, List.extract_eq_take_drop] at hc
  exact List.mem_of_mem_drop (List.mem_of_mem_take hc)

theorem commentsAbove_subset : index.commentsAbove node ⊆ index.comments.toList := by
  unfold commentsAbove
  split
  next => exact commentsWithin_subset _ _
  next =>
    dsimp only
    split
    next => exact fun c hc => commentsWithin_subset _ _ (List.mem_of_mem_drop hc)
    next => exact commentsWithin_subset _ _

/-- The group above a node is made of comments of the file. -/
theorem lead_subset (h : index.lead node = some group) : group ⊆ index.comments.toList := by
  unfold lead at h
  split at h
  next => cases h
  next run hrun =>
    split at h
    next =>
      cases h
      have hmem := List.mem_of_getLast? hrun
      rw [blockRuns_eq_splitBy] at hmem
      intro c hc
      apply commentsAbove_subset
      rw [← List.flatten_splitBy adjoining (index.commentsAbove node)]
      exact List.mem_flatten_of_mem hmem hc
    next => cases h

theorem lineRunFrom_sublist (row : Nat) (cs : List Span) : (lineRunFrom row cs).Sublist cs := by
  induction cs generalizing row with
  | nil => exact List.Sublist.refl _
  | cons c cs ih =>
    rw [lineRunFrom]
    split
    next => exact (ih _).cons_cons c
    next => exact List.nil_sublist _

/-- The group that closes the line of a node is made of comments of the file. -/
theorem trail_subset (h : index.trail node = some group) : group ⊆ index.comments.toList := by
  unfold trail at h
  dsimp only at h
  split at h
  next =>
    split at h
    next => cases h
    next =>
      cases h
      have hrun : (lineRun (index.commentsBelow node)).Sublist (index.commentsBelow node) := by
        cases index.commentsBelow node with
        | nil => exact List.Sublist.refl _
        | cons c cs => exact lineRunFrom_sublist _ _
      intro c hc
      have hbelow := hrun.subset hc
      unfold commentsBelow at hbelow
      exact List.mem_of_mem_drop (List.takeWhile_subset _ hbelow)
  next => cases h

end Index

/-- **A group of a parsed file is made of remarks**, whether it stands above a node or closes its
line. -/
theorem exists_remarks_of_group (h : Node.parse? source = some root) {node : Span}
    {group : List Span} (hgroup : (Index.ofSource source root).lead node = some group ∨
      (Index.ofSource source root).trail node = some group) :
    ∃ remarks : List Remark, group.map (·.text source) = remarks.map Remark.raw :=
  exists_remarks_of_subset h (hgroup.elim Index.lead_subset Index.trail_subset)

end DocHarvest.Comment
