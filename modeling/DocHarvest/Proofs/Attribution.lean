import DocHarvest.Proofs.Parsed
import Mathlib.Data.List.SplitBy
import Mathlib.Data.List.TakeWhile

/-!
# Attribution by lookup and by reading

`Index.lead` and `Index.trail` find the comments of a node by searching places. The rule that they
are to follow is told by reading: one pass over the stream from left to right splits it at its
tokens (`gaps`), and each gap says by itself which comments close the line of the token before it
(`Gap.lineGroup`), which of them trail that token (`Gap.trail`) and which lead the token after it
(`Gap.lead`). Runs of comments are the maximal ones of `List.splitBy`.

A place between two items is a `Cut` of the stream. At a cut both tests of the searches, "ends at or
before" and "starts before", divide comments and tokens in the same way, namely as the cut does; so
the four searches are one lemma (`Cut.partitionPoint_tokens`, `Cut.partitionPoint_comments`). Every
gap lies between two cuts, and `Index.lead_eq_of_gap` and `Index.trail_eq_of_gap` put the lookups
together from there.
-/

namespace DocHarvest.Comment

open DocHarvest.Syntax

/-! ## The rule: gaps between tokens -/

/-- The comments between two neighbouring tokens of a stream. In front of the first token and behind
the last one there is only one of them, and without tokens none. -/
structure Gap where
  before : Option Token
  comments : List Span
  after : Option Token

/-- The gaps of a stream from some place on, where `seen` are the comments since the last token. -/
def gapsFrom (before : Option Token) (seen : List Span) : List Item → List Gap
  | [] => [⟨before, seen, none⟩]
  | .comment c :: items => gapsFrom before (seen ++ [c]) items
  | .token t :: items => ⟨before, seen, some t⟩ :: gapsFrom (some t) [] items

/-- The gaps of a stream, read in one pass. -/
def gaps (items : List Item) : List Gap :=
  gapsFrom none [] items

/-- Whether a comment starts no later than the row where the one before it ended. -/
def sameLine (a b : Span) : Bool :=
  b.startRow ≤ a.endRow

/-- Whether no row is left free between a comment and the one before it. -/
def adjoining (a b : Span) : Bool :=
  b.startRow ≤ a.endRow + 1

namespace Gap

/-- The comments that close the line of the token before the gap. -/
def lineGroup (g : Gap) : List Span :=
  if g.before.any fun t => g.comments.head?.any (·.startRow = t.span.endRow) then
    (g.comments.splitBy sameLine).head?.getD []
  else []

/-- The other comments, in runs without a free row. -/
def docGroups (g : Gap) : List (List Span) :=
  (g.comments.drop g.lineGroup.length).splitBy adjoining

/-- The comments that lead the token after the gap: the last run, if it ends on the row above. -/
def lead (g : Gap) : Option (List Span) :=
  match g.after, g.docGroups.getLast? with
  | some t, some run => if run.getLast?.any (·.endRow + 1 = t.span.startRow) then some run else none
  | _, _ => none

/-- The comments that trail the token before the gap: those that close its line, unless more than a
semicolon follows on the row where they end. -/
def trail (g : Gap) : Option (List Span) :=
  let followed := g.after.any fun t =>
    g.lineGroup.getLast?.any (·.endRow = t.span.startRow) && !t.semicolon
  if g.lineGroup.isEmpty || followed then none else some g.lineGroup

/-- The stretch of the stream that a gap takes up, with the tokens at its ends. -/
def items (g : Gap) : List Item :=
  g.before.toList.map .token ++ g.comments.map .comment ++ g.after.toList.map .token

end Gap

/-! ## Gaps and the stream -/

theorem filterMap_token?_tokens (ts : List Token) :
    (ts.map Item.token).filterMap Item.token? = ts := by
  induction ts with
  | nil => rfl
  | cons t ts ih => simp [Item.token?, ih]

theorem filterMap_token?_comments (cs : List Span) :
    (cs.map Item.comment).filterMap Item.token? = [] := by
  induction cs with
  | nil => rfl
  | cons c cs ih => simp [Item.token?]

theorem filterMap_comment?_tokens (ts : List Token) :
    (ts.map Item.token).filterMap Item.comment? = [] := by
  induction ts with
  | nil => rfl
  | cons t ts ih => simp [Item.comment?]

theorem filterMap_comment?_comments (cs : List Span) :
    (cs.map Item.comment).filterMap Item.comment? = cs := by
  induction cs with
  | nil => rfl
  | cons c cs ih => simp [Item.comment?, ih]

theorem mem_filterMap_token? {items : List Item} {t : Token} :
    t ∈ items.filterMap Item.token? ↔ Item.token t ∈ items := by
  rw [List.mem_filterMap]
  constructor
  · rintro ⟨a, ha, hat⟩
    cases a with
    | token u => cases hat; exact ha
    | comment c => cases hat
  · exact fun h => ⟨_, h, rfl⟩

theorem mem_filterMap_comment? {items : List Item} {c : Span} :
    c ∈ items.filterMap Item.comment? ↔ Item.comment c ∈ items := by
  rw [List.mem_filterMap]
  constructor
  · rintro ⟨a, ha, hac⟩
    cases a with
    | token u => cases hac
    | comment d => cases hac; exact ha
  · exact fun h => ⟨_, h, rfl⟩

/-- A gap is a stretch of the stream: what the pass has seen and what is left to read is the gap,
with something before it unless it is the first, and something behind it unless it is the last. -/
theorem exists_of_mem_gapsFrom {g : Gap} :
    ∀ {items : List Item} {before : Option Token} {seen : List Span},
      g ∈ gapsFrom before seen items →
      ∃ pre post,
        before.toList.map Item.token ++ seen.map Item.comment ++ items = pre ++ g.items ++ post ∧
        (g.before = none → before = none ∧ pre = []) ∧ (g.after = none → post = [])
  | [], before, seen, h => by
    rw [gapsFrom, List.mem_singleton] at h
    subst h
    exact ⟨[], [], by simp [Gap.items], fun h => ⟨h, rfl⟩, fun _ => rfl⟩
  | .comment c :: items, before, seen, h => by
    rw [gapsFrom] at h
    obtain ⟨pre, post, hsplit, hfirst, hlast⟩ := exists_of_mem_gapsFrom h
    refine ⟨pre, post, ?_, hfirst, hlast⟩
    rw [← hsplit]
    simp
  | .token t :: items, before, seen, h => by
    rw [gapsFrom, List.mem_cons] at h
    rcases h with rfl | h
    · exact ⟨[], items, by simp [Gap.items], fun h => ⟨h, rfl⟩, fun h => by cases h⟩
    · -- a later gap: what this token closes goes in front of it
      obtain ⟨pre, post, hsplit, hfirst, hlast⟩ := exists_of_mem_gapsFrom h
      refine ⟨before.toList.map Item.token ++ seen.map Item.comment ++ pre, post, ?_, ?_, hlast⟩
      · simp only [Option.toList_some, List.map_cons, List.map_nil, List.append_nil,
          List.singleton_append] at hsplit
        rw [hsplit]
        simp
      · intro hnone
        cases (hfirst hnone).1

/-- The tokens at the ends of the gaps are those of the stream, each once and in order. -/
theorem filterMap_after_gapsFrom :
    ∀ (items : List Item) (before : Option Token) (seen : List Span),
      (gapsFrom before seen items).filterMap Gap.after = items.filterMap Item.token?
  | [], _, _ => rfl
  | .comment c :: items, before, seen => by
    rw [gapsFrom, filterMap_after_gapsFrom items]
    rfl
  | .token t :: items, before, seen => by
    rw [gapsFrom, List.filterMap_cons, filterMap_after_gapsFrom items]
    rfl

theorem filterMap_before_gapsFrom :
    ∀ (items : List Item) (before : Option Token) (seen : List Span),
      (gapsFrom before seen items).filterMap Gap.before
        = before.toList ++ items.filterMap Item.token?
  | [], before, seen => by cases before <;> rfl
  | .comment c :: items, before, seen => by
    rw [gapsFrom, filterMap_before_gapsFrom items]
    rfl
  | .token t :: items, before, seen => by
    rw [gapsFrom, List.filterMap_cons, filterMap_before_gapsFrom items]
    cases before <;> rfl

/-! ## Runs -/

section Runs

variable {α : Type} {r : α → α → Bool}

theorem splitBy_cons_shape (r : α → α → Bool) (a : α) (l : List α) :
    ∃ run runs, (a :: l).splitBy r = (a :: run) :: runs := by
  have hflat := List.flatten_splitBy r (a :: l)
  have hnil := List.nil_notMem_splitBy r (a :: l)
  match h : (a :: l).splitBy r with
  | [] => rw [h] at hflat; cases hflat
  | [] :: _ => rw [h] at hnil; exact absurd List.mem_cons_self hnil
  | (b :: run) :: runs =>
    rw [h, List.flatten_cons, List.cons_append, List.cons.injEq] at hflat
    exact ⟨run, runs, by rw [hflat.1]⟩

theorem splitBy_cons_of_not {a b : α} (h : r a b = false) (l : List α) :
    (a :: b :: l).splitBy r = [a] :: (b :: l).splitBy r := by
  have happ := List.splitBy_append_cons (r := r) (l := [a]) (a := b) l (by simpa using h)
  rw [List.singleton_append, List.splitBy_of_isChain (List.cons_ne_nil a []) (by simp)] at happ
  exact happ

/-- An element that goes with the first one of some runs extends the first run. -/
theorem splitBy_cons_of_rel {a b : α} (h : r a b = true) {l run : List α} {runs : List (List α)}
    (hruns : (b :: l).splitBy r = (b :: run) :: runs) :
    (a :: b :: l).splitBy r = (a :: b :: run) :: runs := by
  obtain ⟨hflat, hnil, hchain, hborder⟩ := List.splitBy_eq_iff.mp hruns
  refine List.splitBy_eq_iff.mpr ⟨?_, ?_, ?_, ?_⟩
  · rw [hflat]
    rfl
  · intro hmem
    rcases List.mem_cons.mp hmem with hE | hT
    · cases hE
    · exact hnil (List.mem_cons_of_mem _ hT)
  · intro m hm
    rcases List.mem_cons.mp hm with rfl | hT
    · exact List.isChain_cons_cons.mpr ⟨h, hchain _ List.mem_cons_self⟩
    · exact hchain m (List.mem_cons_of_mem _ hT)
  · -- the border to the second run is the same, for the first one still ends with its old last
    cases runs with
    | nil => exact List.isChain_singleton _
    | cons next runs =>
      obtain ⟨⟨_, hne, hlast⟩, hrest⟩ := List.isChain_cons_cons.mp hborder
      refine List.isChain_cons_cons.mpr ⟨⟨List.cons_ne_nil _ _, hne, ?_⟩, hrest⟩
      rw [List.getLast_cons (List.cons_ne_nil b run)]
      exact hlast

end Runs

/-- The runs of comments without a free row are the maximal ones. -/
theorem blockRuns_eq_splitBy : ∀ cs : List Span, blockRuns cs = cs.splitBy adjoining
  | [] => rfl
  | [c] => rfl
  | c :: d :: cs => by
    obtain ⟨run, runs, hruns⟩ := splitBy_cons_shape adjoining d cs
    rw [blockRuns, blockRuns_eq_splitBy (d :: cs), hruns]
    dsimp only
    split
    next hle => rw [splitBy_cons_of_rel (decide_eq_true hle) hruns]
    next hle => rw [splitBy_cons_of_not (decide_eq_false hle), hruns]

theorem head?_splitBy_sameLine :
    ∀ (c : Span) (cs : List Span),
      ((c :: cs).splitBy sameLine).head? = some (c :: lineRunFrom c.endRow cs)
  | c, [] => rfl
  | c, d :: cs => by
    obtain ⟨run, runs, hruns⟩ := splitBy_cons_shape sameLine d cs
    rw [lineRunFrom]
    split
    next hle =>
      have ih := head?_splitBy_sameLine d cs
      rw [hruns, List.head?_cons, Option.some.injEq] at ih
      rw [splitBy_cons_of_rel (decide_eq_true hle) hruns, List.head?_cons, ih]
    next hle => rw [splitBy_cons_of_not (decide_eq_false hle), List.head?_cons]

/-- The comments that stay on the line of the first are a maximal run. -/
theorem lineRun_eq_splitBy (cs : List Span) :
    lineRun cs = (cs.splitBy sameLine).head?.getD [] := by
  cases cs with
  | nil => rfl
  | cons c cs =>
    rw [head?_splitBy_sameLine, lineRun, lineRunFrom, if_pos (Nat.le_refl _)]
    rfl

/-! ## Searching at a cut -/

/-- An offset that divides a stream: what is before it ends by then, what is behind it starts from
then on. -/
structure Cut (items : List Item) (offset : Nat) (xs ys : List Item) : Prop where
  split : items = xs ++ ys
  left : ∀ a ∈ xs, a.span.stop ≤ offset
  right : ∀ b ∈ ys, offset ≤ b.span.start

/-- Both tests of the searches, "ends at or before" and "starts before", divide places in the same
way at an offset that no place reaches across. -/
theorem partitionPoint_places {α : Type} (place : α → Span) {a : Array α} (front back : List α)
    {offset : Nat} (ha : a.toList = front ++ back)
    (hfilled : ∀ x ∈ front ++ back, (place x).start < (place x).stop)
    (hfront : ∀ x ∈ front, (place x).stop ≤ offset)
    (hback : ∀ x ∈ back, offset ≤ (place x).start) :
    partitionPoint (fun x => (place x).stop ≤ offset) a = front.length ∧
    partitionPoint (fun x => (place x).start < offset) a = front.length := by
  constructor
  · refine partitionPoint_eq ha (fun x hx => decide_eq_true (hfront x hx)) (fun x hx => ?_)
    have hlt := hfilled x (List.mem_append_right front hx)
    have hle := hback x hx
    exact decide_eq_false (by omega)
  · refine partitionPoint_eq ha (fun x hx => ?_)
      (fun x hx => decide_eq_false (Nat.not_lt.mpr (hback x hx)))
    have hlt := hfilled x (List.mem_append_left back hx)
    have hle := hfront x hx
    exact decide_eq_true (by omega)

namespace Cut

variable {index : Index} {items xs ys : List Item} {offset : Nat}

theorem partitionPoint_tokens (hkeep : index.Keeps items) (horder : InOrder items)
    (h : Cut items offset xs ys) :
    partitionPoint (·.span.stop ≤ offset) index.tokens = (xs.filterMap Item.token?).length ∧
    partitionPoint (·.span.start < offset) index.tokens = (xs.filterMap Item.token?).length := by
  refine partitionPoint_places Token.span _ (ys.filterMap Item.token?) ?_ ?_
    (fun t ht => h.left _ (mem_filterMap_token?.mp ht))
    (fun t ht => h.right _ (mem_filterMap_token?.mp ht))
  · rw [hkeep.tokens, h.split, List.filterMap_append]
  · intro t ht
    rw [← List.filterMap_append, ← h.split] at ht
    exact horder.filled _ (mem_filterMap_token?.mp ht)

theorem partitionPoint_comments (hkeep : index.Keeps items) (horder : InOrder items)
    (h : Cut items offset xs ys) :
    partitionPoint (·.stop ≤ offset) index.comments = (xs.filterMap Item.comment?).length ∧
    partitionPoint (·.start < offset) index.comments = (xs.filterMap Item.comment?).length := by
  refine partitionPoint_places id _ (ys.filterMap Item.comment?) ?_ ?_
    (fun c hc => h.left _ (mem_filterMap_comment?.mp hc))
    (fun c hc => h.right _ (mem_filterMap_comment?.mp hc))
  · rw [hkeep.comments, h.split, List.filterMap_append]
  · intro c hc
    rw [← List.filterMap_append, ← h.split] at hc
    exact horder.filled _ (mem_filterMap_comment?.mp hc)

theorem tokenBefore?_eq (hkeep : index.Keeps items) (horder : InOrder items)
    (h : Cut items offset xs ys) :
    index.tokenBefore? offset = (xs.filterMap Item.token?).getLast? := by
  rw [Index.tokenBefore?, (h.partitionPoint_tokens hkeep horder).1, List.getLast?_eq_getElem?]
  split
  next hlen => rw [List.length_eq_zero_iff.mp hlen]; rfl
  next n hlen =>
    rw [← Array.getElem?_toList, hkeep.tokens, h.split, List.filterMap_append,
      List.getElem?_append_left (by omega), hlen, Nat.succ_sub_one]

theorem tokenAfter?_eq (hkeep : index.Keeps items) (horder : InOrder items)
    (h : Cut items offset xs ys) :
    index.tokenAfter? offset = (ys.filterMap Item.token?).head? := by
  rw [Index.tokenAfter?, (h.partitionPoint_tokens hkeep horder).2, ← Array.getElem?_toList,
    hkeep.tokens, h.split, List.filterMap_append, List.getElem?_append_right (Nat.le_refl _),
    Nat.sub_self, List.head?_eq_getElem?]

/-- The comments within two cuts are those between them. -/
theorem commentsWithin_eq {zs : List Item} {start stop : Nat} (hkeep : index.Keeps items)
    (horder : InOrder items) (hstart : Cut items start xs (ys ++ zs))
    (hstop : Cut items stop (xs ++ ys) zs) :
    index.commentsWithin start stop = ys.filterMap Item.comment? := by
  unfold Index.commentsWithin
  rw [(hstart.partitionPoint_comments hkeep horder).2,
    (hstop.partitionPoint_comments hkeep horder).1]
  simp only [Array.toList_extract, List.extract_eq_take_drop]
  rw [hkeep.comments, hstart.split, List.filterMap_append, List.filterMap_append,
    List.filterMap_append, List.length_append, List.drop_left, Nat.add_sub_cancel_left,
    List.take_left]

theorem commentsBelow_eq (hkeep : index.Keeps items) (horder : InOrder items) {node : Span}
    (h : Cut items node.stop xs ys) :
    index.commentsBelow node
      = (ys.filterMap Item.comment?).takeWhile fun c =>
        (ys.filterMap Item.token?).head?.all (c.stop ≤ ·.span.start) := by
  unfold Index.commentsBelow
  dsimp only
  rw [(h.partitionPoint_comments hkeep horder).2, h.tokenAfter?_eq hkeep horder, hkeep.comments,
    h.split, List.filterMap_append, List.drop_left]

end Cut

/-! ## Lookup agrees with reading -/

section Gaps

variable {index : Index} {items pre post : List Item} {g : Gap}

/-- The place where a token starts is a cut in front of it. -/
theorem cut_start (horder : InOrder items) {t : Token} (h : items = pre ++ .token t :: post) :
    Cut items t.span.start pre (.token t :: post) := by
  have hapart := horder.apart
  rw [h, List.pairwise_append, List.pairwise_cons] at hapart
  obtain ⟨-, ⟨hbehind, -⟩, hacross⟩ := hapart
  refine ⟨h, fun a ha => hacross a ha _ List.mem_cons_self, fun b hb => ?_⟩
  have hfilled := horder.filled (.token t) (by simp [h])
  rcases List.mem_cons.mp hb with rfl | hb
  · exact Nat.le_refl _
  · exact Nat.le_trans (Nat.le_of_lt hfilled) (hbehind b hb)

/-- The place where a token stops is a cut behind it. -/
theorem cut_stop (horder : InOrder items) {t : Token} (h : items = pre ++ .token t :: post) :
    Cut items t.span.stop (pre ++ [.token t]) post := by
  have hapart := horder.apart
  rw [h, List.pairwise_append, List.pairwise_cons] at hapart
  obtain ⟨-, ⟨hbehind, -⟩, hacross⟩ := hapart
  refine ⟨by rw [h]; simp, fun a ha => ?_, hbehind⟩
  have hfilled := horder.filled (.token t) (by simp [h])
  rcases List.mem_append.mp ha with ha | ha
  · exact Nat.le_trans (hacross a ha _ List.mem_cons_self) (Nat.le_of_lt hfilled)
  · rw [List.mem_singleton] at ha
    exact ha ▸ Nat.le_refl _

/-- Above a node that starts where a gap ends are the comments of the gap that close no line. -/
theorem commentsAbove_eq_of_gap (hkeep : index.Keeps items) (horder : InOrder items)
    (h : items = pre ++ g.items ++ post) (hfirst : g.before = none → pre = []) {t : Token}
    (ht : g.after = some t) {node : Span} (hstart : node.start = t.span.start) :
    index.commentsAbove node = g.comments.drop g.lineGroup.length := by
  -- the cut at the start of the node, and what is searched from there back to the token before it
  have hstop : Cut items node.start
      ((pre ++ g.before.toList.map .token) ++ g.comments.map .comment) (.token t :: post) := by
    rw [hstart]
    refine cut_start horder ?_
    rw [h, Gap.items, ht]
    simp
  have hprev : index.tokenBefore? node.start = g.before := by
    rw [hstop.tokenBefore?_eq hkeep horder]
    simp only [List.filterMap_append, filterMap_token?_tokens, filterMap_token?_comments,
      List.append_nil]
    cases hb : g.before with
    | none =>
      rw [hfirst hb]
      rfl
    | some b => rw [Option.toList_some, List.getLast?_concat]
  unfold Index.commentsAbove Gap.lineGroup
  rw [hprev]
  cases hb : g.before with
  | none =>
    -- in front of the first token the search starts at the start of the file, which is a cut too
    have hzero : Cut items 0 (pre ++ g.before.toList.map .token)
        (g.comments.map .comment ++ .token t :: post) := by
      rw [hfirst hb, hb]
      refine ⟨?_, by simp, fun b _ => Nat.zero_le _⟩
      rw [h, hfirst hb, Gap.items, hb, ht]
      simp
    simp only [Option.any_none, Bool.false_eq_true, if_false, List.length_nil, List.drop_zero]
    rw [Cut.commentsWithin_eq hkeep horder hzero hstop, filterMap_comment?_comments]
  | some b =>
    have hlow : Cut items b.span.stop (pre ++ g.before.toList.map .token)
        (g.comments.map .comment ++ .token t :: post) := by
      rw [hb]
      refine cut_stop horder ?_
      rw [h, Gap.items, hb, ht]
      simp
    simp only [Option.any_some]
    rw [Cut.commentsWithin_eq hkeep horder hlow hstop, filterMap_comment?_comments,
      lineRun_eq_splitBy]
    split
    next => rfl
    next => rfl

/-- **The lead comment by lookup is the one by reading.** -/
theorem lead_eq_of_gap (hkeep : index.Keeps items) (horder : InOrder items)
    (h : items = pre ++ g.items ++ post) (hfirst : g.before = none → pre = []) {t : Token}
    (ht : g.after = some t) {node : Span} (hstart : node.start = t.span.start)
    (hrow : node.startRow = t.span.startRow) : index.lead node = g.lead := by
  unfold Index.lead Gap.lead Gap.docGroups
  rw [commentsAbove_eq_of_gap hkeep horder h hfirst ht hstart, blockRuns_eq_splitBy, ht, hrow]
  cases ((g.comments.drop g.lineGroup.length).splitBy adjoining).getLast? with
  | none => rfl
  | some run => rfl

/-- Behind a node that stops where a gap starts are the gap's comments and the gap's next token. -/
theorem commentsBelow_eq_of_gap (hkeep : index.Keeps items) (horder : InOrder items)
    (h : items = pre ++ g.items ++ post) (hlast : g.after = none → post = []) {t : Token}
    (ht : g.before = some t) {node : Span} (hstop : node.stop = t.span.stop) :
    index.commentsBelow node = g.comments ∧ index.tokenAfter? node.stop = g.after := by
  have hcut : Cut items node.stop (pre ++ [.token t])
      (g.comments.map .comment ++ g.after.toList.map .token ++ post) := by
    rw [hstop]
    refine cut_stop horder ?_
    rw [h, Gap.items, ht]
    simp
  -- the first token behind the cut is the one at the end of the gap
  have hnext : (List.filterMap Item.token?
      (g.comments.map .comment ++ g.after.toList.map .token ++ post)).head? = g.after := by
    simp only [List.filterMap_append, filterMap_token?_tokens, filterMap_token?_comments,
      List.nil_append]
    cases ha : g.after with
    | none =>
      rw [hlast ha]
      rfl
    | some u => rfl
  refine ⟨?_, by rw [hcut.tokenAfter?_eq hkeep horder, hnext]⟩
  rw [hcut.commentsBelow_eq hkeep horder, hnext]
  simp only [List.filterMap_append, filterMap_comment?_comments, filterMap_comment?_tokens,
    List.append_nil]
  cases ha : g.after with
  | none =>
    rw [hlast ha, List.filterMap_nil, List.append_nil]
    exact List.takeWhile_eq_self_iff.mpr fun _ _ => rfl
  | some u =>
    -- the gap's comments end before the next token starts, and what is behind it does not
    have hend : Cut items u.span.start (pre ++ .token t :: g.comments.map .comment)
        (.token u :: post) := by
      refine cut_start horder ?_
      rw [h, Gap.items, ht, ha]
      simp
    rw [List.takeWhile_append_of_pos]
    · rw [List.takeWhile_eq_nil_iff.mpr, List.append_nil]
      intro hpos
      have hmem := mem_filterMap_comment?.mp (List.get_mem _ ⟨0, hpos⟩)
      have hmem' := List.mem_cons_of_mem (Item.token u) hmem
      have hfilled := horder.filled _ (hend.split ▸ List.mem_append_right _ hmem')
      have hright := hend.right _ hmem'
      simp only [Item.span] at hfilled hright
      simp only [Option.all_some, decide_eq_true_eq]
      omega
    · intro c hc
      have hmem : Item.comment c ∈ pre ++ .token t :: g.comments.map .comment :=
        List.mem_append_right _ (List.mem_cons_of_mem _ (List.mem_map_of_mem hc))
      exact decide_eq_true (hend.left _ hmem)

/-- **The trailing comment by lookup is the one by reading.** -/
theorem trail_eq_of_gap (hkeep : index.Keeps items) (horder : InOrder items)
    (h : items = pre ++ g.items ++ post) (hlast : g.after = none → post = []) {t : Token}
    (ht : g.before = some t) {node : Span} (hstop : node.stop = t.span.stop)
    (hrow : node.endRow = t.span.endRow) : index.trail node = g.trail := by
  obtain ⟨hbelow, hnext⟩ := commentsBelow_eq_of_gap hkeep horder h hlast ht hstop
  unfold Index.trail Gap.trail Gap.lineGroup
  rw [hbelow, hnext, ht, hrow]
  simp only [Option.any_some]
  cases hc : g.comments with
  | nil => simp
  | cons c cs =>
    rw [lineRun_eq_splitBy, head?_splitBy_sameLine]
    simp only [List.head?_cons, Option.any_some, Option.getD_some]
    by_cases hline : c.startRow = t.span.endRow
    · simp [hline]
    · simp [hline]

end Gaps

/-! ## Attribution in a tree -/

section Trees

variable {source : List Char} {root : Node}

/-- Where an item of the stream stands in the tree. -/
theorem exists_node_of_mem_stream (h : root.WellFormed) {a : Item}
    (ha : a ∈ stream source root) : ∃ n ∈ root.preorder, n.span = a.span := by
  obtain ⟨n, hn, hna⟩ := List.mem_filterMap.mp ha
  exact ⟨n, (h.mem_preorder_of_mem_leaves hn).1, (Item.span_of_ofLeaf? hna).symm⟩

theorem mem_stream_of_mem_tokens {t : Token} (ht : t ∈ (Index.ofSource source root).tokens.toList) :
    Item.token t ∈ stream source root := by
  rw [(keeps_ofSource source root).tokens] at ht
  exact mem_filterMap_token?.mp ht

theorem startRow_eq (h : root.WellFormed) {n : Node} (hn : n ∈ root.preorder) {t : Token}
    (ht : t ∈ (Index.ofSource source root).tokens.toList) (hstart : n.span.start = t.span.start) :
    n.span.startRow = t.span.startRow := by
  obtain ⟨m, hm, hspan⟩ := exists_node_of_mem_stream h (mem_stream_of_mem_tokens ht)
  have hends : (t.span.start, t.span.startRow) ∈ m.span.ends := by
    rw [hspan]
    exact List.mem_cons_self
  exact h.row_eq hn hm List.mem_cons_self hends hstart

theorem endRow_eq (h : root.WellFormed) {n : Node} (hn : n ∈ root.preorder) {t : Token}
    (ht : t ∈ (Index.ofSource source root).tokens.toList) (hstop : n.span.stop = t.span.stop) :
    n.span.endRow = t.span.endRow := by
  obtain ⟨m, hm, hspan⟩ := exists_node_of_mem_stream h (mem_stream_of_mem_tokens ht)
  have hends : (t.span.stop, t.span.endRow) ∈ m.span.ends := by
    rw [hspan]
    exact List.mem_cons_of_mem _ List.mem_cons_self
  exact h.row_eq hn hm (List.mem_cons_of_mem _ List.mem_cons_self) hends hstop

/-- The places of the tokens, or of the comments, of a stream in order strictly increase. -/
theorem InOrder.pairwise_filterMap {α : Type} {items : List Item} (h : InOrder items)
    {f : Item → Option α} (place : α → Span)
    (hplace : ∀ a x, f a = some x → place x = a.span) :
    (items.filterMap f).Pairwise fun x y =>
      (place x).start < (place y).start ∧ (place x).stop ≤ (place y).start := by
  refine List.Pairwise.filterMap f ?_ (List.Pairwise.and_mem.mp h.apart)
  rintro a b ⟨ha, -, hle⟩ x hx y hy
  rw [hplace a x hx, hplace b y hy]
  exact ⟨Nat.lt_of_lt_of_le (h.filled a ha) hle, hle⟩

/-- **Lookup agrees with reading.** The index of a well-formed tree keeps every comment, and every
leaf that is neither missing nor blank, once and in strictly increasing order. One pass over the
merged stream splits it into gaps, with each token at the end of one gap and at the start of one.
And for every node, what is found above it is what leads its first token, and what is found behind
it on its last line is what trails its last token. -/
theorem lookup_eq_reading (h : root.WellFormed) :
    let index := Index.ofSource source root
    index.comments.toList = (root.preorder.filter (·.kind = .comment)).map (·.span) ∧
    index.tokens.toList = (root.preorder.filter (·.isWritten source)).map
      (fun n => ⟨n.span, n.span.text source = [';']⟩) ∧
    index.comments.toList.Pairwise (fun c d => c.start < d.start ∧ c.stop ≤ d.start) ∧
    index.tokens.toList.Pairwise
      (fun t u => t.span.start < u.span.start ∧ t.span.stop ≤ u.span.start) ∧
    index.Keeps (stream source root) ∧ InOrder (stream source root) ∧
    (gaps (stream source root)).filterMap Gap.after = index.tokens.toList ∧
    (gaps (stream source root)).filterMap Gap.before = index.tokens.toList ∧
    ∀ n ∈ root.preorder,
      (∀ t ∈ index.tokens.toList, n.span.start = t.span.start →
        ∃ g ∈ gaps (stream source root), g.after = some t ∧ index.lead n.span = g.lead) ∧
      (∀ t ∈ index.tokens.toList, n.span.stop = t.span.stop →
        ∃ g ∈ gaps (stream source root), g.before = some t ∧ index.trail n.span = g.trail) := by
  have hkeep := keeps_ofSource source root
  have horder := inOrder_stream source h
  have hafter : (gaps (stream source root)).filterMap Gap.after
      = (Index.ofSource source root).tokens.toList := by
    rw [gaps, filterMap_after_gapsFrom, hkeep.tokens]
  have hbefore : (gaps (stream source root)).filterMap Gap.before
      = (Index.ofSource source root).tokens.toList := by
    rw [gaps, filterMap_before_gapsFrom, hkeep.tokens]
    rfl
  refine ⟨comments_ofSource_eq source h, tokens_ofSource_eq source h, ?_, ?_, hkeep, horder,
    hafter, hbefore, ?_⟩
  · rw [hkeep.comments]
    refine horder.pairwise_filterMap id fun a c hac => ?_
    cases a with
    | token t => cases hac
    | comment d => cases hac; rfl
  · rw [hkeep.tokens]
    refine horder.pairwise_filterMap Token.span fun a t hat => ?_
    cases a with
    | token u => cases hat; rfl
    | comment c => cases hat
  intro n hn
  constructor
  · intro t ht hstart
    obtain ⟨g, hg, hgt⟩ := List.mem_filterMap.mp (hafter ▸ ht)
    obtain ⟨pre, post, hsplit, hfirst, -⟩ := exists_of_mem_gapsFrom hg
    refine ⟨g, hg, hgt, ?_⟩
    exact lead_eq_of_gap hkeep horder hsplit (fun hb => (hfirst hb).2) hgt hstart
      (startRow_eq h hn ht hstart)
  · intro t ht hstop
    obtain ⟨g, hg, hgt⟩ := List.mem_filterMap.mp (hbefore ▸ ht)
    obtain ⟨pre, post, hsplit, -, hlast⟩ := exists_of_mem_gapsFrom hg
    exact ⟨g, hg, hgt, trail_eq_of_gap hkeep horder hsplit hlast hgt hstop
      (endRow_eq h hn ht hstop)⟩

end Trees

/-- A parse tree is well formed, so lookup agrees with reading in a parsed file. -/
theorem lookup_eq_reading_in_file :
    let source := "package p\n\n/* T\nis */ // it.\ntype T int; // not T\n\nvar V T\n".toList
    ∃ root, Node.parse? source = some root ∧ root.WellFormed ∧
      let index := Index.ofSource source root
      ∀ n ∈ root.preorder,
        (∀ t ∈ index.tokens.toList, n.span.start = t.span.start →
          ∃ g ∈ gaps (stream source root), g.after = some t ∧ index.lead n.span = g.lead) ∧
        (∀ t ∈ index.tokens.toList, n.span.stop = t.span.stop →
          ∃ g ∈ gaps (stream source root), g.before = some t ∧ index.trail n.span = g.trail) := by
  intro source
  have hparse : (Node.parse? source).isSome = true := by decide +kernel
  obtain ⟨root, hroot⟩ := Option.isSome_iff_exists.mp hparse
  have hwell := Node.wellFormed_of_parse? hroot
  obtain ⟨-, -, -, -, -, -, -, -, hnodes⟩ := lookup_eq_reading hwell
  exact ⟨root, hroot, hwell, hnodes⟩

end DocHarvest.Comment
