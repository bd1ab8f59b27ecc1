import DocHarvest.Proofs.Links

/-!
# Which brackets come off

A link that stands between two boundaries should lose its brackets, whatever else is in the line.
`losesBrackets_iff` says when it does, and it is not always. Two things to the left of a link can
keep its brackets on. A bracket that was opened and not closed takes the closing bracket of the
link for its own. And the boundary is looked for in what has been written, not in the line: where
a link touches another one that has lost its closing bracket, what comes before it is the last
letter of a name.

What is written for a line does not show which brackets are missing: `[[Widget]]` could have lost
either pair. So the line is read in parts here, characters that stay and links whose brackets come
off (`View.parts`), by the scan that writes the line. The parts give back the line
(`source_parts`) and what is written for it (`written_parts`); `LinkAt` is all that is known of a
link among them. Nothing behind a link matters to what stands before it (`partsFrom_append`), so a
line can be taken apart at its links (`resolveLinks_append`).
-/

namespace DocHarvest.Doc

open DocHarvest.Text DocHarvest.Unicode

/-! ## Boundaries -/

/-- A letter or a number is no boundary of a link. -/
theorem isLinkBoundary_of_isAlphanumeric {c : Char} (h : isAlphanumeric c = true) :
    isLinkBoundary c = false := by
  have hbeyond : ∀ d : Char, ¬d.toNat < 0x80 → isLinkBoundary d = punctuationRanges.contains d := by
    intro d hd
    have hplain : ∀ e : Char, e.toNat < 0x80 → (d == e) = false := by
      intro e he
      refine beq_eq_false_iff_ne.mpr ?_
      intro heq
      exact hd (heq ▸ he)
    rw [isLinkBoundary, hplain ' ' (by decide), hplain '\t' (by decide), hplain '\n' (by decide),
      isPunctuation, if_neg hd]
    rfl
  rw [isAlphanumeric, Bool.or_eq_true] at h
  rcases h with hletter | hnumber
  · exact Syntax.apart_of_class isAlphabetic isLinkBoundary (fun _ => rfl) hbeyond
      (by decide +kernel) (by decide +kernel) hletter
  · exact Syntax.apart_of_class isNumeric isLinkBoundary (fun _ => rfl) hbeyond
      (by decide +kernel) (by decide +kernel) hnumber

/-- A link ends like a name, so what it ends with is a boundary only if it is an underscore. -/
theorem View.getLast?_of_isDocLink {v : View} {target : List Char}
    (h : v.isDocLink target = true) :
    ∃ c, target.getLast? = some c ∧ (isLinkBoundary c = true ↔ c = '_') := by
  obtain ⟨text, htarget, hlink⟩ := linkText_of_isDocLink h
  obtain ⟨front, name, htext, hname⟩ : ∃ front name, text = front ++ name ∧
      isIdentifier name = true := by
    cases hlink with
    | symbol hname _ => exact ⟨[], _, rfl, hname⟩
    | method _ hname _ => exact ⟨_, _, List.append_cons .., hname⟩
    | member _ hname _ => exact ⟨_, _, List.append_cons .., hname⟩
    | memberMethod _ _ hname _ => exact ⟨_, _, List.append_cons .., hname⟩
  obtain ⟨hne, hchars⟩ := chars_of_isIdentifier hname
  obtain ⟨c, hlast⟩ := Option.isSome_iff_exists.mp (List.getLast?_isSome.mpr hne)
  have hc := hchars c (List.mem_of_getLast? hlast)
  have hend : ∀ cs : List Char, (cs ++ name).getLast? = some c := by
    intro cs
    rw [List.getLast?_append, hlast, Option.some_or]
  refine ⟨c, ?_, ?_⟩
  · rcases htarget with rfl | rfl
    · rw [htext, hend]
    · rw [htext, ← List.cons_append, hend]
  · rcases hc with halnum | rfl
    · rw [isLinkBoundary_of_isAlphanumeric halnum]
      refine iff_of_false (by decide) ?_
      intro heq
      subst heq
      cases halnum
    · decide

/-! ## Open brackets -/

/-- A bracket is opened in a text and not closed in it. -/
def LeavesOpen (cs : List Char) : Prop :=
  ∃ inner, '[' :: inner <:+ cs ∧ ']' ∉ inner

theorem not_leavesOpen_nil : ¬LeavesOpen [] := by
  intro h
  obtain ⟨inner, hsuffix, -⟩ := h
  cases List.suffix_nil.mp hsuffix

theorem leavesOpen_cons (c : Char) (cs : List Char) :
    LeavesOpen (c :: cs) ↔ (c = '[' ∧ ']' ∉ cs) ∨ LeavesOpen cs := by
  unfold LeavesOpen
  simp only [List.suffix_cons_iff]
  constructor
  · intro h
    obtain ⟨inner, heq | hsuffix, hnot⟩ := h
    · cases heq
      exact Or.inl ⟨rfl, hnot⟩
    · exact Or.inr ⟨inner, hsuffix, hnot⟩
  · intro h
    rcases h with ⟨rfl, hnot⟩ | ⟨inner, hsuffix, hnot⟩
    · exact ⟨cs, Or.inl rfl, hnot⟩
    · exact ⟨inner, Or.inr hsuffix, hnot⟩

/-- A closing bracket closes all brackets before it. -/
theorem leavesOpen_append_close (front cs : List Char) :
    LeavesOpen (front ++ ']' :: cs) ↔ LeavesOpen cs := by
  induction front with
  | nil =>
    rw [List.nil_append, leavesOpen_cons]
    simp
  | cons c front ih =>
    rw [List.cons_append, leavesOpen_cons, ih]
    simp

/-! ## The parts of a line -/

/-- What is written last, with one more character in front. -/
theorem getLast?_cons_or (c : Char) (cs : List Char) (last : Option Char) :
    (c :: cs).getLast?.or last = cs.getLast?.or (some c) := by
  rw [List.getLast?_cons]
  cases cs.getLast? with
  | none => rfl
  | some d => rfl

/-- A part of a line: a character that stays, or a link whose brackets come off. -/
inductive Part where
  | char (c : Char)
  | link (target : List Char)
deriving DecidableEq, Repr

namespace Part

/-- A part as it stands in the line. -/
def source : Part → List Char
  | char c => [c]
  | link target => '[' :: (target ++ [']'])

/-- What is written for a part. -/
def written : Part → List Char
  | char c => [c]
  | link target => target

theorem source_ne_nil (p : Part) : p.source ≠ [] := by
  cases p with
  | char c => exact List.cons_ne_nil _ _
  | link target => exact List.cons_ne_nil _ _

@[simp] theorem flatMap_source_char (cs : List Char) : (cs.map char).flatMap source = cs := by
  rw [List.flatMap_map]
  exact List.flatMap_singleton' cs

@[simp] theorem flatMap_written_char (cs : List Char) : (cs.map char).flatMap written = cs := by
  rw [List.flatMap_map]
  exact List.flatMap_singleton' cs

/-- A link behind characters is behind all of them. -/
theorem exists_of_char_append {cs : List Char} {parts front back : List Part} {target : List Char}
    (h : cs.map char ++ parts = front ++ link target :: back) :
    ∃ front', front = cs.map char ++ front' ∧ parts = front' ++ link target :: back := by
  induction cs generalizing front with
  | nil => exact ⟨front, rfl, h⟩
  | cons c cs ih =>
    cases front with
    | nil => cases h
    | cons part front =>
      obtain ⟨rfl, hrest⟩ := List.cons.inj h
      obtain ⟨front', rfl, hparts⟩ := ih hrest
      exact ⟨front', rfl, hparts⟩

/-- A list of parts is cut in two by what the first part of it is in the line. -/
theorem eq_of_source_eq {front front' back back' : List Part} (h : front ++ back = front' ++ back')
    (hsource : front.flatMap source = front'.flatMap source) : front = front' ∧ back = back' := by
  induction front generalizing front' with
  | nil =>
    cases front' with
    | nil => exact ⟨rfl, h⟩
    | cons part front' =>
      rw [List.flatMap_cons] at hsource
      exact absurd (List.append_eq_nil_iff.mp hsource.symm).1 part.source_ne_nil
  | cons part front ih =>
    cases front' with
    | nil =>
      rw [List.flatMap_cons] at hsource
      exact absurd (List.append_eq_nil_iff.mp hsource).1 part.source_ne_nil
    | cons part' front' =>
      obtain ⟨rfl, hrest⟩ := List.cons.inj h
      rw [List.flatMap_cons, List.flatMap_cons] at hsource
      obtain ⟨rfl, hback⟩ := ih hrest (List.append_cancel_left hsource)
      exact ⟨rfl, hback⟩

end Part

namespace View

/-- `parts` from inside a line: `last` is the last character that was written, and `inner` is what
was read since a bracket was opened. -/
def partsFrom (v : View) : (last : Option Char) → (inner : Option (List Char)) → List Char →
    List Part
  | _, none, [] => []
  | _, some inner, [] => ('[' :: inner).map .char
  | last, none, c :: cs =>
    if c = '[' then v.partsFrom last (some []) cs else .char c :: v.partsFrom (some c) none cs
  | last, some inner, c :: cs =>
    if c = ']' then
      if last.all isLinkBoundary && cs.head?.all isLinkBoundary && v.isDocLink inner then
        .link inner :: v.partsFrom (inner.getLast?.or last) none cs
      else ('[' :: inner ++ [']']).map .char ++ v.partsFrom (some ']') none cs
    else v.partsFrom last (some (inner ++ [c])) cs

/-- The parts of a line: the links whose brackets come off, and every other character. -/
def parts (v : View) (line : List Char) : List Part :=
  v.partsFrom none none line

variable {v : View}

theorem written_partsFrom (v : View) (last : Option Char) (inner : Option (List Char))
    (cs : List Char) :
    (v.partsFrom last inner cs).flatMap Part.written = v.resolveFrom last inner cs := by
  fun_induction partsFrom v last inner cs with
  | case1 => rfl
  | case2 last inner => exact Part.flatMap_written_char ('[' :: inner)
  | case3 last cs ih => rw [ih, resolveFrom, if_pos rfl]
  | case4 last c cs hc ih =>
    rw [List.flatMap_cons, ih, resolveFrom, if_neg hc]
    rfl
  | case5 last inner cs hlink ih =>
    rw [List.flatMap_cons, ih, resolveFrom, if_pos rfl, if_pos hlink]
    rfl
  | case6 last inner cs hlink ih =>
    rw [List.flatMap_append, Part.flatMap_written_char, ih, resolveFrom, if_pos rfl, if_neg hlink]
    simp
  | case7 last inner c cs hc ih => rw [ih, resolveFrom, if_neg hc]

theorem source_partsFrom (v : View) (last : Option Char) (inner : Option (List Char))
    (cs : List Char) :
    (v.partsFrom last inner cs).flatMap Part.source = inner.elim cs ('[' :: · ++ cs) := by
  fun_induction partsFrom v last inner cs with
  | case1 => rfl
  | case2 last inner =>
    rw [Part.flatMap_source_char]
    exact (List.append_nil _).symm
  | case3 last cs ih => exact ih
  | case4 last c cs hc ih => exact congrArg (c :: ·) ih
  | case5 last inner cs hlink ih =>
    rw [List.flatMap_cons, ih]
    show '[' :: (inner ++ [']']) ++ cs = '[' :: inner ++ ']' :: cs
    simp
  | case6 last inner cs hlink ih =>
    rw [List.flatMap_append, Part.flatMap_source_char, ih]
    show '[' :: inner ++ [']'] ++ cs = '[' :: inner ++ ']' :: cs
    simp
  | case7 last inner c cs hc ih =>
    rw [ih]
    show '[' :: (inner ++ [c]) ++ cs = '[' :: inner ++ c :: cs
    simp

/-- The parts of a line give back what is written for it. -/
theorem written_parts (v : View) (line : List Char) :
    (v.parts line).flatMap Part.written = v.resolveLinks line :=
  written_partsFrom v none none line

/-- The parts of a line give back the line. -/
theorem source_parts (v : View) (line : List Char) : (v.parts line).flatMap Part.source = line :=
  source_partsFrom v none none line

/-! ## Links among the parts -/

/-- When the brackets around a text come off: `last` was written last, and `back` comes next. -/
theorem comesOff_iff {last : Option Char} {target back : List Char} :
    (last.all isLinkBoundary && back.head?.all isLinkBoundary && v.isDocLink target) = true ↔
      (∀ c ∈ last, isLinkBoundary c = true) ∧ (∀ c ∈ back.head?, isLinkBoundary c = true) ∧
        v.isDocLink target = true := by
  rw [Bool.and_eq_true, Bool.and_eq_true, Option.all_eq_true, Option.all_eq_true, and_assoc]
  exact Iff.rfl

/-- What is known of a link between other parts of a line. -/
structure LinkAt (v : View) (last : Option Char) (front : List Part) (target : List Char)
    (back : List Part) : Prop where
  isLink : v.isDocLink target = true
  closed : ']' ∉ target
  /-- What was written before it ends with a boundary, if anything was. -/
  before : ∀ c ∈ (front.flatMap Part.written).getLast?.or last, isLinkBoundary c = true
  /-- What follows it in the line starts with a boundary, if anything does. -/
  behind : ∀ c ∈ (back.flatMap Part.source).head?, isLinkBoundary c = true
  /-- Every bracket before it in the line has been closed. -/
  settled : ¬LeavesOpen (front.flatMap Part.source)

namespace LinkAt

variable {last : Option Char} {front back : List Part} {target : List Char}

theorem cons_char {c : Char} (h : LinkAt v (some c) front target back) (hc : c ≠ '[') :
    LinkAt v last (.char c :: front) target back := by
  refine ⟨h.isLink, h.closed, ?_, h.behind, ?_⟩
  · have hbefore := h.before
    rw [List.flatMap_cons, List.getLast?_append, Option.or_assoc]
    rwa [show (Part.char c).written.getLast?.or last = some c from rfl]
  · intro hopen
    rcases (leavesOpen_cons c _).mp hopen with ⟨heq, -⟩ | hopen
    · exact hc heq
    · exact h.settled hopen

theorem cons_link {inner : List Char} (h : LinkAt v (inner.getLast?.or last) front target back) :
    LinkAt v last (.link inner :: front) target back := by
  refine ⟨h.isLink, h.closed, ?_, h.behind, ?_⟩
  · have hbefore := h.before
    rw [List.flatMap_cons, List.getLast?_append, Option.or_assoc]
    exact hbefore
  · intro hopen
    refine h.settled ((leavesOpen_append_close ('[' :: inner) _).mp ?_)
    rw [List.flatMap_cons] at hopen
    simpa [Part.source] using hopen

theorem append_pair {inner : List Char} (h : LinkAt v (some ']') front target back) :
    LinkAt v last (('[' :: inner ++ [']']).map .char ++ front) target back := by
  refine ⟨h.isLink, h.closed, ?_, h.behind, ?_⟩
  · have hbefore := h.before
    rw [List.flatMap_append, Part.flatMap_written_char, List.getLast?_append, Option.or_assoc,
      List.getLast?_concat]
    exact hbefore
  · intro hopen
    refine h.settled ((leavesOpen_append_close ('[' :: inner) _).mp ?_)
    rw [List.flatMap_append, Part.flatMap_source_char] at hopen
    simpa using hopen

end LinkAt

theorem linkAt_of_partsFrom {last : Option Char} {inner : Option (List Char)} {cs : List Char}
    (hinner : ∀ i ∈ inner, ']' ∉ i) {front back : List Part} {target : List Char}
    (h : v.partsFrom last inner cs = front ++ .link target :: back) :
    LinkAt v last front target back := by
  fun_induction partsFrom v last inner cs generalizing front with
  | case1 => simp at h
  | case2 last inner =>
    -- a bracket that is not closed, and only characters behind it
    have hmem : Part.link target ∈ ('[' :: inner).map Part.char := by
      rw [h]
      simp
    simp at hmem
  | case3 last cs ih => exact ih (by simp) h
  | case4 last c cs hc ih =>
    cases front with
    | nil => cases h
    | cons part front =>
      obtain ⟨rfl, hrest⟩ := List.cons.inj h
      exact (ih nofun hrest).cons_char hc
  | case5 last inner cs hlink ih =>
    cases front with
    | nil =>
      cases h
      obtain ⟨hbefore, hbehind, htarget⟩ := comesOff_iff.mp hlink
      refine ⟨htarget, hinner target rfl, hbefore, ?_, not_leavesOpen_nil⟩
      rw [source_partsFrom]
      exact hbehind
    | cons part front =>
      obtain ⟨rfl, hrest⟩ := List.cons.inj h
      exact (ih nofun hrest).cons_link
  | case6 last inner cs hlink ih =>
    obtain ⟨front', rfl, hrest⟩ := Part.exists_of_char_append h
    exact (ih nofun hrest).append_pair
  | case7 last inner c cs hc ih =>
    have hnot : ']' ∉ inner ++ [c] := by
      rw [List.mem_append, List.mem_singleton]
      exact not_or.mpr ⟨hinner inner rfl, Ne.symm hc⟩
    exact ih (by rintro i ⟨⟩; exact hnot) h

theorem linkAt_of_parts {line : List Char} {front back : List Part} {target : List Char}
    (h : v.parts line = front ++ .link target :: back) : LinkAt v none front target back := by
  have hnone : ∀ i ∈ (none : Option (List Char)), ']' ∉ i := nofun
  exact linkAt_of_partsFrom hnone h

/-! ## What stands before a link -/

/-- What follows a text without open brackets does not change how the text is read, as long as it
starts with a boundary. -/
theorem partsFrom_append (last : Option Char) (inner : Option (List Char)) {cs rest : List Char}
    (hinner : ∀ i ∈ inner, ']' ∉ i) (hsettled : ¬LeavesOpen (inner.elim cs ('[' :: · ++ cs)))
    (hrest : ∀ c ∈ rest.head?, isLinkBoundary c = true) :
    v.partsFrom last inner (cs ++ rest) = v.partsFrom last inner cs ++
      v.partsFrom ((v.resolveFrom last inner cs).getLast?.or last) none rest := by
  -- whether the last link of the text is followed by a boundary is the same without the rest
  have hhead : ∀ ds : List Char,
      (ds ++ rest).head?.all isLinkBoundary = ds.head?.all isLinkBoundary := by
    intro ds
    cases ds with
    | nil => exact (Option.all_eq_true _ _).mpr hrest
    | cons d ds => rfl
  fun_induction partsFrom v last inner cs with
  | case1 => rfl
  | case2 last inner => exact absurd ⟨inner, ⟨[], by simp⟩, hinner inner rfl⟩ hsettled
  | case3 last cs ih =>
    rw [List.cons_append, partsFrom, if_pos rfl, ih (by simp) hsettled, resolveFrom, if_pos rfl]
  | case4 last c cs hc ih =>
    have hopen : ¬LeavesOpen cs := fun hopen => hsettled ((leavesOpen_cons c cs).mpr (Or.inr hopen))
    rw [List.cons_append, partsFrom, if_neg hc, ih nofun hopen, resolveFrom, if_neg hc,
      getLast?_cons_or, List.cons_append]
  | case5 last inner cs hlink ih =>
    have hopen : ¬LeavesOpen cs := fun hopen =>
      hsettled ((leavesOpen_append_close ('[' :: inner) cs).mpr hopen)
    rw [List.cons_append, partsFrom, if_pos rfl, hhead, if_pos hlink, ih nofun hopen, resolveFrom,
      if_pos rfl, if_pos hlink, List.getLast?_append, Option.or_assoc, List.cons_append]
  | case6 last inner cs hlink ih =>
    have hopen : ¬LeavesOpen cs := fun hopen =>
      hsettled ((leavesOpen_append_close ('[' :: inner) cs).mpr hopen)
    rw [List.cons_append, partsFrom, if_pos rfl, hhead, if_neg hlink, ih nofun hopen, resolveFrom,
      if_pos rfl, if_neg hlink, List.getLast?_append, getLast?_cons_or, Option.or_assoc,
      Option.some_or, List.append_assoc]
  | case7 last inner c cs hc ih =>
    have hnot : ']' ∉ inner ++ [c] := by
      rw [List.mem_append, List.mem_singleton]
      exact not_or.mpr ⟨hinner inner rfl, Ne.symm hc⟩
    have hopen : ¬LeavesOpen ('[' :: (inner ++ [c]) ++ cs) := by
      show ¬LeavesOpen ('[' :: ((inner ++ [c]) ++ cs))
      rw [← List.append_cons]
      exact hsettled
    rw [List.cons_append, partsFrom, if_neg hc, ih (by rintro i ⟨⟩; exact hnot) hopen, resolveFrom,
      if_neg hc]

theorem partsFrom_open_append (last : Option Char) (inner : List Char) {target : List Char}
    (htarget : ']' ∉ target) (cs : List Char) :
    v.partsFrom last (some inner) (target ++ cs)
      = v.partsFrom last (some (inner ++ target)) cs := by
  induction target generalizing inner with
  | nil => rw [List.append_nil, List.nil_append]
  | cons c target ih =>
    obtain ⟨hc, hrest⟩ := not_or.mp fun hor => htarget (List.mem_cons.mpr hor)
    rw [List.cons_append, partsFrom, if_neg (Ne.symm hc), ih _ hrest, List.append_assoc,
      List.singleton_append]

/-- A bracket goes with the next closing one. -/
theorem partsFrom_pair (last : Option Char) {target : List Char} (htarget : ']' ∉ target)
    (back : List Char) :
    v.partsFrom last none ('[' :: (target ++ ']' :: back)) =
      if last.all isLinkBoundary && back.head?.all isLinkBoundary && v.isDocLink target then
        .link target :: v.partsFrom (target.getLast?.or last) none back
      else ('[' :: target ++ [']']).map .char ++ v.partsFrom (some ']') none back := by
  rw [partsFrom, if_pos rfl, partsFrom_open_append last [] htarget, List.nil_append, partsFrom,
    if_pos rfl]

theorem resolveFrom_pair (last : Option Char) {target : List Char} (htarget : ']' ∉ target)
    (back : List Char) :
    v.resolveFrom last none ('[' :: (target ++ ']' :: back)) =
      if last.all isLinkBoundary && back.head?.all isLinkBoundary && v.isDocLink target then
        target ++ v.resolveFrom (target.getLast?.or last) none back
      else '[' :: target ++ ']' :: v.resolveFrom (some ']') none back := by
  rw [← written_partsFrom, partsFrom_pair last htarget]
  split
  next =>
    rw [List.flatMap_cons, written_partsFrom]
    rfl
  next =>
    rw [List.flatMap_append, Part.flatMap_written_char, written_partsFrom, List.append_assoc]
    rfl

theorem parts_append {front rest : List Char} (hsettled : ¬LeavesOpen front)
    (hrest : ∀ c ∈ rest.head?, isLinkBoundary c = true) :
    v.parts (front ++ rest)
      = v.parts front ++ v.partsFrom (v.resolveLinks front).getLast? none rest := by
  have happend := partsFrom_append (v := v) none none nofun hsettled hrest
  rwa [Option.or_none] at happend

/-- A text without open brackets is written in the same way whatever boundary follows it. -/
theorem resolveLinks_append {front rest : List Char} (hsettled : ¬LeavesOpen front)
    (hrest : ∀ c ∈ rest.head?, isLinkBoundary c = true) :
    v.resolveLinks (front ++ rest)
      = v.resolveLinks front ++ v.resolveFrom (v.resolveLinks front).getLast? none rest := by
  rw [← written_parts, parts_append hsettled hrest, List.flatMap_append, written_parts,
    written_partsFrom]

/-- The brackets around `target` come off in the line that has `front` before them and `back`
behind. -/
def LosesBrackets (v : View) (front target back : List Char) : Prop :=
  ∃ before behind, v.parts (front ++ '[' :: (target ++ ']' :: back))
      = before ++ .link target :: behind ∧
    before.flatMap Part.source = front

/-- What is written for a text ends with a boundary where the text does, unless there is a link at
its end. -/
theorem boundary_before_iff {front : List Char}
    (hfront : ∀ c ∈ front.getLast?, isLinkBoundary c = true) :
    (∀ c ∈ (v.resolveLinks front).getLast?, isLinkBoundary c = true) ↔
      ∀ t, (v.parts front).getLast? = some (.link t) → t.getLast? = some '_' := by
  rw [← written_parts]
  rcases List.eq_nil_or_concat (v.parts front) with hnil | ⟨parts, last, hparts⟩
  · rw [hnil]
    exact iff_of_true nofun nofun
  rw [List.concat_eq_append] at hparts
  rw [hparts, List.flatMap_append, List.flatMap_singleton, List.getLast?_append,
    List.getLast?_concat]
  cases last with
  | char c =>
    have hlast : front.getLast? = some c := by
      rw [← source_parts v front, hparts, List.flatMap_append, List.flatMap_singleton]
      exact List.getLast?_concat
    refine iff_of_true ?_ (by simp)
    intro d hd
    exact hfront d (hlast.trans hd)
  | link target =>
    have hlink := (linkAt_of_parts hparts).isLink
    obtain ⟨c, hc, hboundary⟩ := getLast?_of_isDocLink hlink
    show (∀ d ∈ target.getLast?.or _, isLinkBoundary d = true) ↔ _
    rw [hc]
    constructor
    · intro h t ht
      cases ht
      rw [hc, hboundary.mp (h c rfl)]
    · intro h d hd
      cases hd
      have hend := h target rfl
      rw [hc] at hend
      exact hboundary.mpr (Option.some.inj hend)

/-- The opening bracket of a link is itself a boundary. -/
theorem boundary_bracket (cs : List Char) : ∀ c ∈ ('[' :: cs).head?, isLinkBoundary c = true := by
  intro c hc
  obtain rfl : '[' = c := Option.some.inj hc
  decide

/-- A link that has a boundary behind it loses its brackets if no bracket is left open before it and
what has been written ends with a boundary. -/
theorem losesBrackets_iff_written {front target back : List Char} (htarget : ']' ∉ target)
    (hlink : v.isDocLink target = true) (hback : ∀ c ∈ back.head?, isLinkBoundary c = true) :
    v.LosesBrackets front target back ↔
      ¬LeavesOpen front ∧ ∀ c ∈ (v.resolveLinks front).getLast?, isLinkBoundary c = true := by
  constructor
  · intro h
    obtain ⟨before, behind, hparts, hsource⟩ := h
    have hlinkAt := linkAt_of_parts hparts
    have hsettled : ¬LeavesOpen front := by
      rw [← hsource]
      exact hlinkAt.settled
    obtain ⟨rfl, -⟩ := Part.eq_of_source_eq
      (hparts.symm.trans (parts_append hsettled (boundary_bracket _)))
      (hsource.trans (v.source_parts front).symm)
    refine ⟨hsettled, ?_⟩
    have hbefore := hlinkAt.before
    rwa [written_parts, Option.or_none] at hbefore
  · intro h
    obtain ⟨hsettled, hbefore⟩ := h
    refine ⟨v.parts front,
      v.partsFrom (target.getLast?.or (v.resolveLinks front).getLast?) none back, ?_,
      v.source_parts front⟩
    rw [parts_append hsettled (boundary_bracket _), partsFrom_pair _ htarget,
      if_pos (comesOff_iff.mpr ⟨hbefore, hback, hlink⟩)]

/-- **When a link loses its brackets.** A link between two boundaries does exactly if no bracket is
left open before it and it does not touch a link that loses its own; but a name that ends with an
underscore may be touched. It is written without its brackets then, and with them if it only
touches such a link. -/
theorem losesBrackets_iff {front target back : List Char} (htarget : ']' ∉ target)
    (hlink : v.isDocLink target = true) (hfront : ∀ c ∈ front.getLast?, isLinkBoundary c = true)
    (hback : ∀ c ∈ back.head?, isLinkBoundary c = true) :
    (v.LosesBrackets front target back ↔
        ¬LeavesOpen front ∧
          ∀ t, (v.parts front).getLast? = some (.link t) → t.getLast? = some '_') ∧
      (v.LosesBrackets front target back →
        ∃ rest, v.resolveLinks (front ++ '[' :: (target ++ ']' :: back))
          = v.resolveLinks front ++ (target ++ rest)) ∧
      (¬LeavesOpen front → ¬v.LosesBrackets front target back →
        ∃ rest, v.resolveLinks (front ++ '[' :: (target ++ ']' :: back))
          = v.resolveLinks front ++ ('[' :: target ++ ']' :: rest)) := by
  have hloses : v.LosesBrackets front target back ↔ _ :=
    losesBrackets_iff_written htarget hlink hback
  refine ⟨?_, ?_, ?_⟩
  · rw [hloses, boundary_before_iff hfront]
  · intro h
    obtain ⟨hsettled, hbefore⟩ := hloses.mp h
    rw [resolveLinks_append hsettled (boundary_bracket _), resolveFrom_pair _ htarget,
      if_pos (comesOff_iff.mpr ⟨hbefore, hback, hlink⟩)]
    exact ⟨_, rfl⟩
  · intro hsettled h
    rw [resolveLinks_append hsettled (boundary_bracket _), resolveFrom_pair _ htarget, if_neg]
    · exact ⟨_, rfl⟩
    · intro hcond
      exact h (hloses.mpr ⟨hsettled, (comesOff_iff.mp hcond).1⟩)

/-- Of two links side by side only the first one loses its brackets: without them, a letter stands
before the second. -/
theorem losesBrackets_iff_of_neighbours :
    let v : View := ⟨"p", "example.com/p", ["Widget"], []⟩
    let front := "See [Widget]".toList
    let target := "Widget".toList
    let back := " here.".toList
    ']' ∉ target ∧ v.isDocLink target = true ∧ (∀ c ∈ front.getLast?, isLinkBoundary c = true) ∧
      (∀ c ∈ back.head?, isLinkBoundary c = true) ∧ ¬v.LosesBrackets front target back ∧
      v.resolveLinks "See [Widget][Widget] here.".toList = "See Widget[Widget] here.".toList := by
  intro v front target back
  have htarget : ']' ∉ target := by decide
  have hlink : v.isDocLink target = true := by decide +kernel
  have hlast : front.getLast? = some ']' := by decide
  have hhead : back.head? = some ' ' := by decide
  have hfront : ∀ c ∈ front.getLast?, isLinkBoundary c = true := by
    rw [hlast]
    intro c hc
    cases hc
    decide
  have hback : ∀ c ∈ back.head?, isLinkBoundary c = true := by
    rw [hhead]
    intro c hc
    cases hc
    decide
  refine ⟨htarget, hlink, hfront, hback, ?_, by decide +kernel⟩
  intro hloses
  have htouch := ((losesBrackets_iff htarget hlink hfront hback).1.mp hloses).2 target
    (by decide +kernel)
  revert htouch
  decide

/-- A bracket that is not closed keeps the next link in its brackets. -/
example : View.resolveLinks ⟨"p", "example.com/p", ["Widget"], []⟩ "See [ [Widget] here.".toList
    = "See [ [Widget] here.".toList := by
  decide +kernel

end View

end DocHarvest.Doc
