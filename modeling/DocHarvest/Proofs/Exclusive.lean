import DocHarvest.Proofs.Attribution
import Mathlib.Data.List.Nodup
import Mathlib.Data.List.Pairwise

/-!
# A comment belongs to one place

The lookups above and behind a node are separate searches, from different ends and with different
conditions. That no comment is found twice is a fact about the gaps between tokens: every comment of
the stream lies in one gap (`gap_unique`), a gap has one token before it and one behind it, and what
leads the one is cut off from what trails the other (`Gap.not_mem_trail_of_mem_lead`). So a comment
leads nodes at one place only, trails nodes at one place only, and never does both
(`attributed_once`).
-/

namespace DocHarvest

/-- What has a result in common in a list without repeated results is the same. -/
theorem eq_of_nodup_flatMap {α β : Type} {g : α → List β} {l : List α} (h : (l.flatMap g).Nodup)
    {a b : α} (ha : a ∈ l) (hb : b ∈ l) {c : β} (hca : c ∈ g a) (hcb : c ∈ g b) : a = b := by
  by_contra hne
  have hsymm : Std.Symm (Function.onFun List.Disjoint g) :=
    ⟨fun _ _ hd c hc hc' => hd hc' hc⟩
  exact (List.nodup_flatMap.mp h).2.forall ha hb hne hca hcb

namespace Comment

open DocHarvest.Syntax

/-! ## Comments of gaps -/

/-- The pass puts the comments of a stream into gaps, each once and in order. -/
theorem flatMap_comments_gapsFrom :
    ∀ (items : List Item) (before : Option Token) (seen : List Span),
      (gapsFrom before seen items).flatMap Gap.comments
        = seen ++ items.filterMap Item.comment?
  | [], _, _ => by simp [gapsFrom]
  | .comment c :: items, before, seen => by
    rw [gapsFrom, flatMap_comments_gapsFrom items, List.append_assoc]
    rfl
  | .token t :: items, before, seen => by
    rw [gapsFrom, List.flatMap_cons, flatMap_comments_gapsFrom items]
    rfl

section InOrder

variable {items : List Item} {c : Span}

theorem InOrder.nodup_comments (h : InOrder items) : (items.filterMap Item.comment?).Nodup := by
  have hpairs := h.pairwise_filterMap (f := Item.comment?) id fun a d had => by
    cases a with
    | token t => cases had
    | comment e => cases had; rfl
  refine hpairs.imp ?_
  rintro d e ⟨hlt, -⟩ rfl
  exact Nat.lt_irrefl _ hlt

/-- A comment of a stream in order lies in one gap only. -/
theorem gap_unique (h : InOrder items) {g g' : Gap} (hg : g ∈ gaps items) (hg' : g' ∈ gaps items)
    (hc : c ∈ g.comments) (hc' : c ∈ g'.comments) : g = g' := by
  refine eq_of_nodup_flatMap ?_ hg hg' hc hc'
  rw [gaps, flatMap_comments_gapsFrom, List.nil_append]
  exact h.nodup_comments

/-- The comments of a gap are all different. -/
theorem nodup_comments_of_mem_gaps (h : InOrder items) {g : Gap} (hg : g ∈ gaps items) :
    g.comments.Nodup := by
  have hall := h.nodup_comments
  rw [← List.nil_append (items.filterMap _), ← flatMap_comments_gapsFrom items none []] at hall
  exact (List.nodup_flatMap.mp hall).1 g hg

end InOrder

namespace Gap

variable {g : Gap} {c : Span}

/-- The comments that close the line of the token before a gap come first in it. -/
theorem lineGroup_append_drop (g : Gap) :
    g.lineGroup ++ g.comments.drop g.lineGroup.length = g.comments := by
  have hfront : g.lineGroup <+: g.comments := by
    unfold lineGroup
    split
    next =>
      have hflat := List.flatten_splitBy sameLine g.comments
      cases hruns : g.comments.splitBy sameLine with
      | nil => exact List.nil_prefix
      | cons run runs =>
        rw [hruns, List.flatten_cons] at hflat
        exact ⟨_, hflat⟩
    next => exact List.nil_prefix
  exact List.prefix_iff_eq_append.mp hfront

/-- What leads the token after a gap is left when the line of the token before it is closed. -/
theorem mem_drop_of_mem_lead (h : c ∈ g.lead.getD []) :
    c ∈ g.comments.drop g.lineGroup.length := by
  unfold lead at h
  split at h
  next t run _ hrun =>
    split at h
    next =>
      rw [← List.flatten_splitBy adjoining (g.comments.drop _)]
      exact List.mem_flatten.mpr ⟨run, List.mem_of_getLast? hrun, h⟩
    next => cases h
  next => cases h

/-- What trails the token before a gap closes its line. -/
theorem mem_lineGroup_of_mem_trail (h : c ∈ g.trail.getD []) : c ∈ g.lineGroup := by
  unfold trail at h
  dsimp only at h
  split at h
  next => cases h
  next => exact h

theorem mem_comments_of_mem_lead (h : c ∈ g.lead.getD []) : c ∈ g.comments :=
  List.mem_of_mem_drop (mem_drop_of_mem_lead h)

theorem mem_comments_of_mem_trail (h : c ∈ g.trail.getD []) : c ∈ g.comments := by
  rw [← g.lineGroup_append_drop]
  exact List.mem_append_left _ (mem_lineGroup_of_mem_trail h)

/-- What trails the token before a gap does not lead the token after it. -/
theorem not_mem_trail_of_mem_lead (h : g.comments.Nodup) (hc : c ∈ g.lead.getD []) :
    c ∉ g.trail.getD [] := by
  intro hc'
  rw [← g.lineGroup_append_drop] at h
  exact List.disjoint_of_nodup_append h (mem_lineGroup_of_mem_trail hc') (mem_drop_of_mem_lead hc)

end Gap

/-! ## Comments of nodes -/

/-- Whether a place starts where a token starts and stops where a token stops. -/
def Index.Delimits (index : Index) (place : Span) : Prop :=
  (∃ t ∈ index.tokens.toList, place.start = t.span.start) ∧
    ∃ t ∈ index.tokens.toList, place.stop = t.span.stop

instance (index : Index) (place : Span) : Decidable (index.Delimits place) :=
  inferInstanceAs (Decidable (_ ∧ _))

section Trees

variable {source : List Char} {root : Node} {n : Node}

/-- What leads a node leads the token after a gap, where the node starts. -/
theorem exists_gap_of_lead (h : root.WellFormed) (hn : n ∈ root.preorder)
    (hplace : (Index.ofSource source root).Delimits n.span) :
    ∃ g ∈ gaps (stream source root), g.after.map (·.span.start) = some n.span.start ∧
      (Index.ofSource source root).lead n.span = g.lead := by
  have hkeep := keeps_ofSource source root
  obtain ⟨⟨t, ht, hstart⟩, -⟩ := hplace
  have hafter : t ∈ (gaps (stream source root)).filterMap Gap.after := by
    rw [gaps, filterMap_after_gapsFrom, ← hkeep.tokens]
    exact ht
  obtain ⟨g, hg, hgt⟩ := List.mem_filterMap.mp hafter
  obtain ⟨pre, post, hsplit, hfirst, -⟩ := exists_of_mem_gapsFrom hg
  refine ⟨g, hg, by rw [hgt, hstart]; rfl, ?_⟩
  exact lead_eq_of_gap hkeep (inOrder_stream source h) hsplit (fun hb => (hfirst hb).2) hgt hstart
    (startRow_eq h hn ht hstart)

/-- What trails a node trails the token before a gap, where the node stops. -/
theorem exists_gap_of_trail (h : root.WellFormed) (hn : n ∈ root.preorder)
    (hplace : (Index.ofSource source root).Delimits n.span) :
    ∃ g ∈ gaps (stream source root), g.before.map (·.span.stop) = some n.span.stop ∧
      (Index.ofSource source root).trail n.span = g.trail := by
  have hkeep := keeps_ofSource source root
  obtain ⟨-, t, ht, hstop⟩ := hplace
  have hbefore : t ∈ (gaps (stream source root)).filterMap Gap.before := by
    rw [gaps, filterMap_before_gapsFrom, ← hkeep.tokens]
    exact ht
  obtain ⟨g, hg, hgt⟩ := List.mem_filterMap.mp hbefore
  obtain ⟨pre, post, hsplit, -, hlast⟩ := exists_of_mem_gapsFrom hg
  refine ⟨g, hg, by rw [hgt, hstop]; rfl, ?_⟩
  exact trail_eq_of_gap hkeep (inOrder_stream source h) hsplit hlast hgt hstop
    (endRow_eq h hn ht hstop)

/-- **A comment is attributed at most once.** Of two nodes that start and end with tokens, those
that are led by the same comment start at the same place, those that are trailed by the same comment
stop at the same place, and a comment that trails the one never leads the other. -/
theorem attributed_once (h : root.WellFormed) {a b : Node} (ha : a ∈ root.preorder)
    (hb : b ∈ root.preorder) (hplace : (Index.ofSource source root).Delimits a.span)
    (hplace' : (Index.ofSource source root).Delimits b.span) :
    let index := Index.ofSource source root
    (∀ c ∈ (index.lead a.span).getD [], c ∈ (index.lead b.span).getD [] →
      a.span.start = b.span.start) ∧
    (∀ c ∈ (index.trail a.span).getD [], c ∈ (index.trail b.span).getD [] →
      a.span.stop = b.span.stop) ∧
    ∀ c ∈ (index.lead b.span).getD [], c ∉ (index.trail a.span).getD [] := by
  have horder := inOrder_stream source h
  obtain ⟨la, hla, hlaStart, hlaEq⟩ := exists_gap_of_lead h ha hplace
  obtain ⟨lb, hlb, hlbStart, hlbEq⟩ := exists_gap_of_lead h hb hplace'
  obtain ⟨ta, hta, htaStop, htaEq⟩ := exists_gap_of_trail h ha hplace
  obtain ⟨tb, htb, htbStop, htbEq⟩ := exists_gap_of_trail h hb hplace'
  dsimp only
  rw [hlaEq, hlbEq, htaEq, htbEq]
  refine ⟨fun c hc hc' => ?_, fun c hc hc' => ?_, fun c hc hc' => ?_⟩
  · have hsame : la = lb := gap_unique horder hla hlb (Gap.mem_comments_of_mem_lead hc)
      (Gap.mem_comments_of_mem_lead hc')
    rw [hsame, hlbStart] at hlaStart
    exact (Option.some.inj hlaStart).symm
  · have hsame : ta = tb := gap_unique horder hta htb (Gap.mem_comments_of_mem_trail hc)
      (Gap.mem_comments_of_mem_trail hc')
    rw [hsame, htbStop] at htaStop
    exact (Option.some.inj htaStop).symm
  · -- the comment is in one gap, and there it closes the line or it does not
    have hsame : lb = ta := gap_unique horder hlb hta (Gap.mem_comments_of_mem_lead hc)
      (Gap.mem_comments_of_mem_trail hc')
    rw [← hsame] at hc'
    exact Gap.not_mem_trail_of_mem_lead (nodup_comments_of_mem_gaps horder hlb) hc hc'

end Trees

/-- An embedded field and the identifier in it share the comment above them and the comment behind
them, which are not the same. -/
theorem attributed_once_in_struct :
    let source := "package p\n\ntype T struct \x7b\n\t// A leads.\n\tA // A trails.\n\x7d\n".toList
    ∃ root, Node.parse? source = some root ∧ root.WellFormed ∧
      let index := Index.ofSource source root
      ∃ a ∈ root.preorder, ∃ b ∈ root.preorder,
        a.kind = .fieldDeclaration ∧ b.kind = .identifier ∧
        ∃ c d, index.lead a.span = some [c] ∧ index.lead b.span = some [c] ∧
          index.trail a.span = some [d] ∧ index.trail b.span = some [d] ∧
          a.span.start = b.span.start ∧ a.span.stop = b.span.stop ∧ c ≠ d := by
  intro source
  have hfacts : (Node.parse? source).any (fun root =>
      let index := Index.ofSource source root
      root.preorder.any fun a => root.preorder.any fun b =>
        a.kind = .fieldDeclaration ∧ b.kind = .identifier ∧
        index.Delimits a.span ∧ index.Delimits b.span ∧
        index.lead a.span = some [⟨28, 39, 3, 3⟩] ∧ index.lead b.span = some [⟨28, 39, 3, 3⟩] ∧
        index.trail a.span = some [⟨43, 55, 4, 4⟩] ∧
        index.trail b.span = some [⟨43, 55, 4, 4⟩]) = true := by
    decide +kernel
  obtain ⟨root, hroot, hcond⟩ := (Option.any_eq_true _ _).mp hfacts
  obtain ⟨a, ha, hcond'⟩ := List.any_eq_true.mp hcond
  obtain ⟨b, hb, hab⟩ := List.any_eq_true.mp hcond'
  obtain ⟨hka, hkb, hda, hdb, hla, hlb, hta, htb⟩ := of_decide_eq_true hab
  have hwell := Node.wellFormed_of_parse? hroot
  obtain ⟨hlead, htrail, hapart⟩ := attributed_once hwell ha hb hda hdb
  rw [hla, hlb] at hlead
  rw [hta, htb] at htrail
  rw [hlb, hta] at hapart
  have hne := hapart _ List.mem_cons_self
  exact ⟨root, hroot, hwell, a, ha, b, hb, hka, hkb, _, _, hla, hlb, hta, htb,
    hlead _ List.mem_cons_self List.mem_cons_self, htrail _ List.mem_cons_self List.mem_cons_self,
    fun heq => hne (List.mem_singleton.mpr heq)⟩

end Comment

end DocHarvest
