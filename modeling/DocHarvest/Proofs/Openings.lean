import DocHarvest.Proofs.Brackets

/-!
# What is written at the front of a line

Resolving links changes a line anywhere, but only a link with which the line starts changes how it
starts. Any other line is written as it stands up to the first boundary of a link, that is, up to
the first space or punctuation mark (`View.WrittenFront`): where an opening bracket comes next, the
brackets stay on, because a letter stands before them. And behind the first space a line is written
as if it started there.

So what is written starts with a word exactly if the line does, or a link at its front
(`View.opens_resolveLinks_iff`). Words are compared in lower case here, as far as it goes, and have
no boundaries in them.
-/

namespace DocHarvest.Doc

open DocHarvest.Text DocHarvest.Unicode

/-! ## How lists start -/

section Prefixes

variable {α : Type} {p : α → Bool} {word front rest : List α}

theorem prefix_append_iff :
    word <+: front ++ rest ↔ word <+: front ∨ ∃ more, word = front ++ more ∧ more <+: rest := by
  constructor
  · intro h
    rcases List.prefix_or_prefix_of_prefix h (List.prefix_append front rest) with hword | hfront
    · exact Or.inl hword
    · obtain ⟨more, rfl⟩ := hfront
      exact Or.inr ⟨more, rfl, (List.prefix_append_right_inj front).mp h⟩
  · intro h
    rcases h with hword | ⟨more, rfl, hmore⟩
    · exact hword.trans (List.prefix_append front rest)
    · exact (List.prefix_append_right_inj front).mpr hmore

/-- A word ends before anything that stops it. -/
theorem prefix_append_of_stop (hword : ∀ c ∈ word, p c = false)
    (hrest : ∀ c ∈ rest.head?, p c = true) : word <+: front ++ rest ↔ word <+: front := by
  rw [prefix_append_iff]
  refine or_iff_left_of_imp ?_
  intro h
  obtain ⟨more, rfl, hmore⟩ := h
  cases more with
  | nil => simp
  | cons c more =>
    obtain ⟨rest', rfl⟩ := hmore
    have hstop := hrest c rfl
    rw [hword c (by simp)] at hstop
    cases hstop

/-- Two words are followed by what stops them in the same place. -/
theorem append_stop_prefix_iff {stop : α} {more : List α} (hword : ∀ c ∈ word, p c = false)
    (hfront : ∀ c ∈ front, p c = false) (hstop : p stop = true)
    (hrest : ∀ c ∈ rest.head?, p c = true) :
    word ++ stop :: more <+: front ++ rest ↔ word = front ∧ stop :: more <+: rest := by
  constructor
  · intro h
    have hle : word <+: front :=
      (prefix_append_of_stop hword hrest).mp ((List.prefix_append word _).trans h)
    obtain ⟨tail, rfl⟩ := hle
    rw [List.append_assoc, List.prefix_append_right_inj] at h
    cases tail with
    | nil => exact ⟨(List.append_nil word).symm, h⟩
    | cons c tail =>
      obtain ⟨rfl, -⟩ := List.cons_prefix_cons.mp h
      rw [hfront stop (by simp)] at hstop
      cases hstop
  · intro h
    obtain ⟨rfl, hmore⟩ := h
    exact (List.prefix_append_right_inj word).mpr hmore

end Prefixes

/-! ## Words in lower case -/

theorem lowercase_append (cs ds : List Char) :
    lowercase (cs ++ ds) = lowercase cs ++ lowercase ds :=
  List.flatMap_append

theorem mem_lowercase {c : Char} {cs : List Char} (hc : c ∈ lower c) (h : c ∈ cs) :
    c ∈ lowercase cs :=
  List.mem_flatMap.mpr ⟨c, h, hc⟩

/-- What lower case keeps in ASCII, and of the two other characters that it takes there, it keeps of
every character. -/
theorem lower_keeps (p : Char → Bool)
    (hascii : ∀ n < 0x80, p (Char.ofNat n).toLower = p (Char.ofNat n))
    (hkelvin : p 'k' = p (Char.ofNat 0x212a)) (hdotted : p 'i' = p (Char.ofNat 0x130))
    (hdot : p (Char.ofNat 0x307) = p (Char.ofNat 0x130)) {c d : Char} (h : d ∈ lower c) :
    p d = p c := by
  unfold lower at h
  split at h
  next hlow =>
    rw [List.mem_singleton.mp h]
    exact Syntax.ascii_all (P := fun c => p c.toLower = p c) hascii c hlow
  next =>
    split at h
    next hc =>
      rw [List.mem_singleton.mp h, hkelvin, ← hc, Char.ofNat_toNat]
    next =>
      split at h
      next hc =>
        have hsource : p (Char.ofNat 0x130) = p c := by rw [← hc, Char.ofNat_toNat]
        rcases List.mem_cons.mp h with rfl | h
        · exact hdotted.trans hsource
        · rw [List.mem_singleton.mp h]
          exact hdot.trans hsource
      next => rw [List.mem_singleton.mp h]

theorem isLinkBoundary_of_mem_lower {c d : Char} (h : d ∈ lower c) :
    isLinkBoundary d = isLinkBoundary c :=
  lower_keeps isLinkBoundary (by decide +kernel) (by decide +kernel) (by decide +kernel)
    (by decide +kernel) h

theorem eq_space_of_mem_lower {c : Char} (h : ' ' ∈ lower c) : c = ' ' := by
  have hkeeps := lower_keeps (· == ' ') (by decide +kernel) (by decide) (by decide) (by decide) h
  exact beq_iff_eq.mp hkeeps.symm

theorem exists_lower_eq_cons (c : Char) : ∃ d ds, lower c = d :: ds := by
  unfold lower
  split
  next => exact ⟨_, _, rfl⟩
  next =>
    split
    next => exact ⟨_, _, rfl⟩
    next => split <;> exact ⟨_, _, rfl⟩

/-- No character is a boundary of links. -/
def Unbroken (cs : List Char) : Prop :=
  ∀ c ∈ cs, isLinkBoundary c = false

instance : DecidablePred Unbroken := fun cs =>
  decidable_of_iff (cs.all (!isLinkBoundary ·) = true) (by simp [Unbroken])

/-- A text is empty or starts with a boundary of links. -/
def StartsBroken (cs : List Char) : Prop :=
  ∀ c ∈ cs.head?, isLinkBoundary c = true

theorem Unbroken.lowercase {cs : List Char} (h : Unbroken cs) : Unbroken (lowercase cs) := by
  intro d hd
  obtain ⟨c, hc, hd⟩ := List.mem_flatMap.mp hd
  rw [isLinkBoundary_of_mem_lower hd]
  exact h c hc

theorem StartsBroken.lowercase {cs : List Char} (h : StartsBroken cs) :
    StartsBroken (lowercase cs) := by
  cases cs with
  | nil => exact nofun
  | cons c cs =>
    obtain ⟨d, ds, hlower⟩ := exists_lower_eq_cons c
    intro e he
    rw [Text.lowercase, List.flatMap_cons, hlower] at he
    obtain rfl : d = e := Option.some.inj he
    rw [isLinkBoundary_of_mem_lower (hlower ▸ List.mem_cons_self)]
    exact h c rfl

/-- A text up to its first boundary, and from there on. -/
theorem exists_unbroken_append (cs : List Char) :
    ∃ front rest, cs = front ++ rest ∧ Unbroken front ∧ StartsBroken rest := by
  refine ⟨cs.takeWhile (!isLinkBoundary ·), cs.dropWhile (!isLinkBoundary ·),
    List.takeWhile_append_dropWhile.symm, ?_, ?_⟩
  · intro c hc
    have := List.all_eq_true.mp List.all_takeWhile c hc
    rwa [Bool.not_eq_true'] at this
  · intro c hc
    have := head?_dropWhile hc
    rwa [Bool.not_eq_false'] at this

/-- A text starts with a word, in capitals or not. -/
def Opens (word cs : List Char) : Prop :=
  word <+: lowercase cs

section

variable {word more front rest : List Char}

theorem opens_append_iff (hword : Unbroken word) (hrest : StartsBroken rest) :
    Opens word (front ++ rest) ↔ Opens word front := by
  rw [Opens, Opens, lowercase_append]
  exact prefix_append_of_stop hword hrest.lowercase

theorem opens_append_space_iff (hword : Unbroken word) (hfront : Unbroken front)
    (hrest : StartsBroken rest) :
    Opens (word ++ ' ' :: more) (front ++ rest) ↔
      lowercase front = word ∧ Opens (' ' :: more) rest := by
  rw [Opens, lowercase_append, append_stop_prefix_iff hword hfront.lowercase (by decide)
    hrest.lowercase, eq_comm]
  rfl

theorem opens_space_iff :
    Opens (' ' :: more) rest ↔ ∃ rest', rest = ' ' :: rest' ∧ Opens more rest' := by
  constructor
  · intro h
    cases rest with
    | nil => cases List.prefix_nil.mp h
    | cons c rest =>
      obtain ⟨d, ds, hlower⟩ := exists_lower_eq_cons c
      rw [Opens, lowercase, List.flatMap_cons, hlower] at h
      obtain ⟨rfl, hmore⟩ := List.cons_prefix_cons.mp h
      obtain rfl := eq_space_of_mem_lower (hlower ▸ List.mem_cons_self)
      obtain ⟨-, rfl⟩ := List.cons.inj hlower
      exact ⟨rest, rfl, hmore⟩
  · intro h
    obtain ⟨rest', rfl, hmore⟩ := h
    exact List.cons_prefix_cons.mpr ⟨rfl, hmore⟩

end

/-! ## The front of a line -/

namespace View

variable {v : View}

/-- A line starts with a link that has a boundary behind it. -/
structure FrontLink (v : View) (line target back : List Char) : Prop where
  eq : line = '[' :: (target ++ ']' :: back)
  isLink : v.isDocLink target = true
  closed : ']' ∉ target
  behind : StartsBroken back

theorem FrontLink.unique {line target target' back back' : List Char}
    (h : v.FrontLink line target back) (h' : v.FrontLink line target' back') :
    target = target' ∧ back = back' :=
  eq_of_append_cons_eq h.closed h'.closed (List.cons.inj (h.eq.symm.trans h'.eq)).2

/-- Whether a boundary or nothing at all was written before does not matter. -/
theorem resolveFrom_of_boundary {last : Option Char} (hlast : last.all isLinkBoundary = true)
    (inner : Option (List Char)) (cs : List Char) :
    v.resolveFrom last inner cs = v.resolveFrom none inner cs := by
  induction cs generalizing inner with
  | nil =>
    cases inner with
    | none => rfl
    | some inner => rfl
  | cons c cs ih =>
    cases inner with
    | none =>
      rw [resolveFrom, resolveFrom]
      split
      next => exact ih _
      next => rfl
    | some inner =>
      rw [resolveFrom, resolveFrom, hlast, Option.all_none]
      split
      next =>
        split
        next hlink =>
          rw [Bool.and_eq_true] at hlink
          obtain ⟨d, hd, -⟩ := getLast?_of_isDocLink hlink.2
          rw [hd]
          rfl
        next => rfl
      next => exact ih _

/-- A text without opening brackets is written as it is. -/
theorem resolveFrom_append (last : Option Char) {front : List Char} (hfront : '[' ∉ front)
    (rest : List Char) :
    v.resolveFrom last none (front ++ rest)
      = front ++ v.resolveFrom (front.getLast?.or last) none rest := by
  induction front generalizing last with
  | nil => rfl
  | cons c front ih =>
    obtain ⟨hc, hrest⟩ := not_or.mp fun hor => hfront (List.mem_cons.mpr hor)
    rw [List.cons_append, resolveFrom, if_neg (Ne.symm hc), ih _ hrest, getLast?_cons_or,
      List.cons_append]

/-- Without a closing bracket, a bracket stays. -/
theorem resolveFrom_open (last : Option Char) {cs : List Char} (hcs : ']' ∉ cs) :
    v.resolveFrom last none ('[' :: cs) = '[' :: cs := by
  have hparts := partsFrom_open_append (v := v) last [] hcs []
  rw [List.append_nil, List.nil_append] at hparts
  rw [← written_partsFrom, partsFrom, if_pos rfl, hparts]
  exact Part.flatMap_written_char ('[' :: cs)

/-- A link at the front is written without its brackets. -/
theorem FrontLink.resolveLinks_eq {line target back : List Char}
    (h : v.FrontLink line target back) :
    v.resolveLinks line = target ++ v.resolveFrom target.getLast? none back := by
  have hstart : ∀ c ∈ (none : Option Char), isLinkBoundary c = true := nofun
  rw [h.eq, resolveLinks, resolveFrom_pair none h.closed,
    if_pos (comesOff_iff.mpr ⟨hstart, h.behind, h.isLink⟩), Option.or_none]

/-- What is written for the rest of a line starts as the rest does, and if there is a space then
it is as if the line started behind it. -/
structure Continues (v : View) (rest out : List Char) : Prop where
  head : out.head? = rest.head?
  space : ∀ rest', rest = ' ' :: rest' → out = ' ' :: v.resolveLinks rest'

theorem resolveFrom_space (last : Option Char) {rest rest' : List Char} (h : rest = ' ' :: rest') :
    v.resolveFrom last none rest = ' ' :: v.resolveLinks rest' := by
  rw [h, resolveFrom, if_neg (by decide), resolveFrom_of_boundary (by decide)]
  rfl

theorem head?_resolveFrom {last : Option Char} {c : Char} (hc : c ≠ '[') (cs : List Char) :
    (v.resolveFrom last none (c :: cs)).head? = some c := by
  rw [resolveFrom, if_neg hc]
  rfl

/-- Right behind a character that is no boundary there is no link. -/
theorem continues_inside {c : Char} (hc : isLinkBoundary c = false) (rest : List Char) :
    v.Continues rest (v.resolveFrom (some c) none rest) := by
  refine ⟨?_, fun rest' => resolveFrom_space (some c)⟩
  cases rest with
  | nil => rfl
  | cons d cs =>
    by_cases hd : d = '['
    · subst hd
      by_cases hclose : ']' ∈ cs
      · obtain ⟨target, back, rfl, htarget⟩ := List.eq_append_cons_of_mem hclose
        rw [resolveFrom_pair _ htarget, Option.all_some, hc, Bool.false_and, Bool.false_and,
          if_neg Bool.false_ne_true]
        rfl
      · rw [resolveFrom_open _ hclose]
    · exact head?_resolveFrom hd cs

/-- What is written for a line, from its front: either the text of a link, and then the rest; or
what the line says up to the first boundary, and then the rest. -/
inductive WrittenFront (v : View) (line : List Char) : List Char → Prop
  | link {target back out : List Char} : v.FrontLink line target back →
      (target.getLast? ≠ some '_' → v.Continues back out) → WrittenFront v line (target ++ out)
  | plain {front rest out : List Char} : (¬∃ target back, v.FrontLink line target back) →
      line = front ++ rest → Unbroken front → StartsBroken rest → v.Continues rest out →
      WrittenFront v line (front ++ out)

theorem FrontLink.writtenFront {line target back : List Char} (h : v.FrontLink line target back) :
    v.WrittenFront line (v.resolveLinks line) := by
  obtain ⟨c, hlast, hboundary⟩ := getLast?_of_isDocLink h.isLink
  rw [h.resolveLinks_eq, hlast]
  refine .link h fun hend => continues_inside ?_ back
  rw [← Bool.not_eq_true, hboundary]
  intro hc
  exact hend (by rw [hlast, hc])

/-- If a line does not start with a link, its first character stays. -/
theorem head?_resolveLinks {line : List Char}
    (hnone : ¬∃ target back, v.FrontLink line target back) :
    (v.resolveLinks line).head? = line.head? := by
  cases line with
  | nil => rfl
  | cons c cs =>
    by_cases hc : c = '['
    · subst hc
      by_cases hclose : ']' ∈ cs
      · obtain ⟨target, back, rfl, htarget⟩ := List.eq_append_cons_of_mem hclose
        rw [resolveLinks, resolveFrom_pair none htarget, if_neg]
        · rfl
        · intro hcond
          obtain ⟨-, hbehind, hlink⟩ := comesOff_iff.mp hcond
          exact hnone ⟨target, back, rfl, hlink, htarget, hbehind⟩
      · rw [resolveLinks, resolveFrom_open none hclose]
    · exact head?_resolveFrom hc cs

theorem writtenFront_resolveLinks (v : View) (line : List Char) :
    v.WrittenFront line (v.resolveLinks line) := by
  by_cases hlink : ∃ target back, v.FrontLink line target back
  · obtain ⟨target, back, hlink⟩ := hlink
    exact hlink.writtenFront
  obtain ⟨front, rest, hline, hfront, hrest⟩ := exists_unbroken_append line
  cases hlast : front.getLast? with
  | none =>
    -- the line starts with a boundary, and it stays
    obtain rfl : front = [] := List.getLast?_eq_none_iff.mp hlast
    obtain rfl : line = rest := hline
    exact .plain hlink rfl hfront hrest
      ⟨head?_resolveLinks hlink, fun rest' => resolveFrom_space none⟩
  | some c =>
    have hbracket : '[' ∉ front := fun hmem => absurd (hfront '[' hmem) (by decide)
    have hwritten : v.resolveLinks line = front ++ v.resolveFrom (some c) none rest := by
      rw [resolveLinks, hline, resolveFrom_append none hbracket, hlast]
      rfl
    rw [hwritten]
    exact .plain hlink hline hfront hrest
      (continues_inside (hfront c (List.mem_of_getLast? hlast)) rest)

/-! ## Words at the front -/

variable {word more line target back out : List Char}

theorem Continues.startsBroken {rest : List Char} (h : v.Continues rest out)
    (hrest : StartsBroken rest) : StartsBroken out := by
  intro c hc
  rw [h.head] at hc
  exact hrest c hc

theorem Continues.opens_space_iff {rest : List Char} (h : v.Continues rest out) :
    Opens (' ' :: more) out ↔ ∃ rest', rest = ' ' :: rest' ∧ Opens more (v.resolveLinks rest') := by
  rw [Doc.opens_space_iff]
  constructor
  · intro hopens
    obtain ⟨out', rfl, hmore⟩ := hopens
    cases rest with
    | nil => cases h.head
    | cons c rest =>
      obtain rfl : ' ' = c := Option.some.inj h.head
      obtain ⟨-, rfl⟩ := List.cons.inj (h.space rest rfl)
      exact ⟨rest, rfl, hmore⟩
  · intro hopens
    obtain ⟨rest', heq, hmore⟩ := hopens
    exact ⟨v.resolveLinks rest', h.space rest' heq, hmore⟩

/-- A word that goes on behind the text of a link goes on with the rest of the line. -/
theorem opens_link_append (hout : target.getLast? ≠ some '_' → v.Continues back out)
    (hword : '_' ∉ word) (hopens : Opens word (target ++ out)) :
    Opens word target ∨ ∃ more, word = lowercase target ++ more ∧ v.Continues back out ∧
      Opens more out := by
  rw [Opens, lowercase_append, prefix_append_iff] at hopens
  rcases hopens with hinside | ⟨more, rfl, hmore⟩
  · exact Or.inl hinside
  · refine Or.inr ⟨more, rfl, hout ?_, hmore⟩
    intro hlast
    have hmem : '_' ∈ lowercase target := mem_lowercase (by decide) (List.mem_of_getLast? hlast)
    exact hword (List.mem_append_left _ hmem)

theorem underscore_notMem (hword : Unbroken word) : '_' ∉ word :=
  fun hmem => absurd (hword '_' hmem) (by decide)

theorem not_opens_bracket (hword : Unbroken word) (hne : word ≠ []) (cs : List Char) :
    ¬Opens word ('[' :: cs) := by
  intro hopens
  obtain ⟨c, word, rfl⟩ := List.exists_cons_of_ne_nil hne
  obtain ⟨rfl, -⟩ := List.cons_prefix_cons.mp hopens
  exact absurd (hword '[' List.mem_cons_self) (by decide)

/-- A line is shown with a word at its front: it starts with the word, or with a link that does. -/
def Shows (v : View) (word line : List Char) : Prop :=
  Opens word line ∨ ∃ target back, v.FrontLink line target back ∧ Opens word target

/-- A word without boundaries is at the front of what is written if it is at the front of the line,
or of a link there. -/
theorem opens_resolveLinks_iff (hword : Unbroken word) (hne : word ≠ []) :
    Opens word (v.resolveLinks line) ↔ v.Shows word line := by
  have hwritten := v.writtenFront_resolveLinks line
  generalize v.resolveLinks line = written at hwritten ⊢
  cases hwritten with
  | @link target back out hlink hout =>
    constructor
    · intro hopens
      refine Or.inr ⟨target, back, hlink, ?_⟩
      rcases opens_link_append hout (underscore_notMem hword) hopens with
        hinside | ⟨more, rfl, hrest, hmore⟩
      · exact hinside
      · -- the word ends where the link does, because a boundary follows
        have hunbroken : Unbroken more := fun c hc => hword c (List.mem_append_right _ hc)
        have hnil : Opens more ([] ++ out) := hmore
        rw [opens_append_iff hunbroken (hrest.startsBroken hlink.behind)] at hnil
        rw [List.prefix_nil.mp hnil, List.append_nil]
        exact List.prefix_rfl
    · intro hshows
      rcases hshows with hline | ⟨target', back', hlink', hopens⟩
      · rw [hlink.eq] at hline
        exact absurd hline (not_opens_bracket hword hne _)
      · obtain ⟨rfl, rfl⟩ := hlink.unique hlink'
        rw [Opens, lowercase_append]
        exact hopens.trans (List.prefix_append _ _)
  | @plain front rest out hnone hline hfront hrest hout =>
    have hlink : ¬∃ target back, v.FrontLink line target back ∧ Opens word target :=
      fun ⟨target, back, hlink, _⟩ => hnone ⟨target, back, hlink⟩
    rw [Shows, or_iff_left hlink, hline, opens_append_iff hword hrest,
      opens_append_iff hword (hout.startsBroken hrest)]

end View

end DocHarvest.Doc
