import DocHarvest.Proofs.Openings
import DocHarvest.Proofs.Synopses
import Mathlib.Data.List.Basic

/-!
# Notices that become synopses

A copyright or author notice should have no synopsis. Whether a comment is one is judged by how its
first sentence starts, and what is recorded is made of the sentence afterwards: its white space is
normalized and its links lose their brackets. So a notice can get past the test in two ways. Its
first words can be laid out so that the sentence does not start with them, or not with one space
between them (`NoticeWords`); or its first word, or the one behind "all", stands in a link
(`View.LinkedNotice`). `View.isNotice_synopsis_iff` says that these are all the ways.
-/

namespace DocHarvest.Doc

open DocHarvest.Text DocHarvest.Unicode

/-! ## The words of notices -/

section

variable {word line : List Char}

theorem isNotice_iff_opens {cs : List Char} :
    isNotice cs = true ↔ Opens "copyright".toList cs ∨
      Opens ("all".toList ++ ' ' :: "rights".toList) cs ∨ Opens "author".toList cs := by
  rw [isNotice_iff]
  simp only [List.mem_cons, List.not_mem_nil, or_false, exists_eq_or_imp, exists_eq_left]
  rfl

theorem isNotice_of_copyright {cs : List Char} (h : Opens "copyright".toList cs) :
    isNotice cs = true :=
  isNotice_iff_opens.mpr (Or.inl h)

theorem isNotice_of_author {cs : List Char} (h : Opens "author".toList cs) : isNotice cs = true :=
  isNotice_iff_opens.mpr (Or.inr (Or.inr h))

theorem isNotice_of_all_rights {cs : List Char}
    (h : Opens ("all".toList ++ ' ' :: "rights".toList) cs) : isNotice cs = true :=
  isNotice_iff_opens.mpr (Or.inr (Or.inl h))

theorem unbroken_copyright : Unbroken "copyright".toList := by
  decide +kernel

theorem unbroken_author : Unbroken "author".toList := by
  decide +kernel

theorem unbroken_all : Unbroken "all".toList := by
  decide +kernel

theorem unbroken_rights : Unbroken "rights".toList := by
  decide +kernel

theorem isNotice_two_words {first rest : List Char} (hall : lowercase first = "all".toList)
    (hrights : Opens "rights".toList rest) : isNotice (first ++ ' ' :: rest) = true := by
  apply isNotice_of_all_rights
  rw [Opens, lowercase_append, hall, List.prefix_append_right_inj]
  exact List.cons_prefix_cons.mpr ⟨rfl, hrights⟩

/-- Two words with a space between them. -/
theorem exists_two_words {second : List Char} (hword : Unbroken word)
    (h : Opens (word ++ ' ' :: second) line) :
    ∃ first rest, line = first ++ ' ' :: rest ∧ lowercase first = word ∧ Opens second rest := by
  obtain ⟨front, rest, rfl, hfront, hrest⟩ := exists_unbroken_append line
  obtain ⟨hfirst, hmore⟩ := (opens_append_space_iff hword hfront hrest).mp h
  obtain ⟨rest', rfl, hsecond⟩ := opens_space_iff.mp hmore
  exact ⟨front, rest', rfl, hfirst, hsecond⟩

theorem isNotice_append {cs : List Char} (h : isNotice cs = true) (ds : List Char) :
    isNotice (cs ++ ds) = true := by
  rw [isNotice_iff] at h ⊢
  obtain ⟨start, hstart, hpre⟩ := h
  rw [lowercase_append]
  exact ⟨start, hstart, hpre.trans (List.prefix_append _ _)⟩

end

/-! ## The layout of a notice -/

/-- Quotes do not matter to a word that has none. -/
theorem opens_replacePair {q r : Char} (hq : lower q = [q]) (hr : lower r = [r])
    {word : List Char} (hword : q ∉ word ∧ r ∉ word) (cs : List Char) :
    Opens word (replacePair q r cs) ↔ Opens word cs := by
  fun_induction replacePair q r cs generalizing word with
  | case1 => exact Iff.rfl
  | case2 c => exact Iff.rfl
  | case3 c d cs hpair ih =>
    obtain ⟨rfl, rfl⟩ := hpair
    cases word with
    | nil => exact iff_of_true List.nil_prefix List.nil_prefix
    | cons w word =>
      obtain ⟨hq', hr'⟩ := hword
      refine iff_of_false ?_ ?_
      · intro hopens
        rw [Opens, lowercase, List.flatMap_cons, hr] at hopens
        exact hr' ((List.cons_prefix_cons.mp hopens).1 ▸ List.mem_cons_self)
      · intro hopens
        rw [Opens, lowercase, List.flatMap_cons, hq] at hopens
        exact hq' ((List.cons_prefix_cons.mp hopens).1 ▸ List.mem_cons_self)
  | case4 c d cs hpair ih =>
    rw [Opens, Opens, lowercase, lowercase, List.flatMap_cons, List.flatMap_cons, prefix_append_iff,
      prefix_append_iff]
    refine or_congr_right (exists_congr fun more => and_congr_right ?_)
    intro hmore
    rw [hmore, List.mem_append, List.mem_append, not_or, not_or] at hword
    exact ih ⟨hword.1.2, hword.2.2⟩

theorem isNotice_oneLine (paragraph : List (List Char)) :
    isNotice (oneLine paragraph) = true ↔
      isNotice (join [' '] (words (join ['\n'] paragraph))) = true := by
  rw [isNotice_iff, isNotice_iff]
  refine exists_congr fun start => and_congr_right fun hstart => ?_
  have hquotes : ∀ start ∈ ["copyright", "all rights", "author"],
      (Char.ofNat 0x60 ∉ start.toList ∧ Char.ofNat 0x201c ∉ start.toList) ∧
        ('\'' ∉ start.toList ∧ Char.ofNat 0x201d ∉ start.toList) := by
    decide +kernel
  obtain ⟨hopening, hclosing⟩ := hquotes start hstart
  exact (opens_replacePair (by decide) (by decide) hclosing _).trans
    (opens_replacePair (by decide) (by decide) hopening _)

/-- The first words of a text are those of a notice. -/
inductive NoticeWords : List (List Char) → Prop
  | copyright {w : List Char} (ws : List (List Char)) : Opens "copyright".toList w →
      NoticeWords (w :: ws)
  | author {w : List Char} (ws : List (List Char)) : Opens "author".toList w →
      NoticeWords (w :: ws)
  | rights {first second : List Char} (ws : List (List Char)) :
      lowercase first = "all".toList → Opens "rights".toList second →
      NoticeWords (first :: second :: ws)

theorem exists_join_cons (w : List Char) (ws : List (List Char)) :
    ∃ rest, join [' '] (w :: ws) = w ++ rest ∧ StartsBroken rest := by
  cases ws with
  | nil => exact ⟨[], by simp [join], nofun⟩
  | cons w' ws =>
    refine ⟨' ' :: join [' '] (w' :: ws), by simp [join], ?_⟩
    intro c hc
    obtain rfl : ' ' = c := Option.some.inj hc
    decide

/-- Words with single spaces between them are a notice if the first of them are. -/
theorem isNotice_join_iff {ws : List (List Char)} (hws : ∀ w ∈ ws, Solid w) :
    isNotice (join [' '] ws) = true ↔ NoticeWords ws := by
  have hspace : ∀ {w : List Char}, w ∈ ws → ' ' ∉ w := by
    intro w hw hmem
    exact absurd (hws w hw ' ' hmem) (by decide)
  cases ws with
  | nil => exact iff_of_false (by decide +kernel) nofun
  | cons w ws =>
    obtain ⟨rest, hjoin, hrest⟩ := exists_join_cons w ws
    constructor
    · intro h
      rcases isNotice_iff_opens.mp h with hopens | hopens | hopens
      · rw [hjoin, opens_append_iff unbroken_copyright hrest] at hopens
        exact .copyright ws hopens
      · obtain ⟨first, rest', heq, hall, hrights⟩ := exists_two_words unbroken_all hopens
        have hfirst : ' ' ∉ first :=
          fun hmem => absurd (hall ▸ mem_lowercase (by decide) hmem) (by decide)
        cases ws with
        | nil =>
          -- there is no second word
          have hw : w = first ++ ' ' :: rest' := by simpa [join] using heq
          exact absurd (hw ▸ by simp) (hspace List.mem_cons_self)
        | cons w' ws =>
          have hcut : w ++ ' ' :: join [' '] (w' :: ws) = first ++ ' ' :: rest' := by
            simpa [join] using heq
          obtain ⟨rfl, rfl⟩ := eq_of_append_cons_eq (hspace List.mem_cons_self) hfirst hcut
          obtain ⟨more, hjoin', hmore⟩ := exists_join_cons w' ws
          rw [hjoin', opens_append_iff unbroken_rights hmore] at hrights
          exact .rights ws hall hrights
      · rw [hjoin, opens_append_iff unbroken_author hrest] at hopens
        exact .author ws hopens
    · intro h
      cases h with
      | copyright _ hopens =>
        rw [hjoin]
        exact isNotice_of_copyright ((opens_append_iff unbroken_copyright hrest).mpr hopens)
      | author _ hopens =>
        rw [hjoin]
        exact isNotice_of_author ((opens_append_iff unbroken_author hrest).mpr hopens)
      | @rights _ second ws hall hrights =>
        obtain ⟨more, hjoin', hmore⟩ := exists_join_cons second ws
        have htail : join [' '] (w :: second :: ws) = w ++ ' ' :: join [' '] (second :: ws) := by
          simp [join]
        rw [htail, hjoin']
        exact isNotice_two_words hall ((opens_append_iff unbroken_rights hmore).mpr hrights)

/-! ## Links -/

namespace View

variable {v : View} {word line : List Char}

/-- A link makes a notice of a line. -/
inductive LinkedNotice (v : View) (line : List Char) : Prop
  /-- The first word of the notice, or all of it, is in a link. -/
  | word {target back : List Char} : v.FrontLink line target back → isNotice target = true →
      LinkedNotice v line
  /-- A link is the word "all". -/
  | all {target rest : List Char} : v.FrontLink line target (' ' :: rest) →
      lowercase target = "all".toList → v.Shows "rights".toList rest → LinkedNotice v line
  /-- The word "rights" is in a link. -/
  | rights {first rest target back : List Char} : line = first ++ ' ' :: rest →
      lowercase first = "all".toList → v.FrontLink rest target back →
      Opens "rights".toList target → LinkedNotice v line

/-- A word that makes a notice does so in a link as well. -/
theorem notice_of_shows (hword : ∀ cs, Opens word cs → isNotice cs = true)
    (h : v.Shows word line) : isNotice line = true ∨ v.LinkedNotice line := by
  rcases h with hline | ⟨target, back, hlink, hopens⟩
  · exact Or.inl (hword line hline)
  · exact Or.inr (.word hlink (hword target hopens))

theorem notice_of_opens_rights
    (h : Opens ("all".toList ++ ' ' :: "rights".toList) (v.resolveLinks line)) :
    isNotice line = true ∨ v.LinkedNotice line := by
  have hwritten := v.writtenFront_resolveLinks line
  generalize v.resolveLinks line = written at h hwritten
  cases hwritten with
  | @link target back out hlink hout =>
    rcases opens_link_append hout (by decide) h with hinside | ⟨more, heq, hrest, hmore⟩
    · exact Or.inr (.word hlink (isNotice_of_all_rights hinside))
    · cases more with
      | nil =>
        rw [List.append_nil] at heq
        exact Or.inr (.word hlink (isNotice_of_all_rights (heq ▸ List.prefix_rfl)))
      | cons d more =>
        -- the link is followed by a boundary, and there is one only in the two words
        have hd : isLinkBoundary d = true := by
          obtain ⟨out', hlower⟩ := hmore
          exact (hrest.startsBroken hlink.behind).lowercase d (by rw [← hlower]; rfl)
        have hnot : ∀ {cs : List Char}, Unbroken cs → d ∉ cs := by
          intro cs hcs hmem
          rw [hcs d hmem] at hd
          cases hd
        obtain ⟨hall, rfl, rfl⟩ := (List.append_cons_inj_of_notMem (hnot unbroken_all)
          (hnot unbroken_rights)).mp heq
        obtain ⟨rest', rfl, hrights⟩ := hrest.opens_space_iff.mp hmore
        exact Or.inr (.all hlink hall.symm
          ((opens_resolveLinks_iff unbroken_rights (by decide)).mp hrights))
  | @plain front rest out hnone hline hfront hrest hout =>
    rw [opens_append_space_iff unbroken_all hfront (hout.startsBroken hrest),
      hout.opens_space_iff] at h
    obtain ⟨hall, rest', rfl, hrights⟩ := h
    rcases (opens_resolveLinks_iff unbroken_rights (by decide)).mp hrights with
      hplain | ⟨target, back, hlink, hopens⟩
    · exact Or.inl (hline ▸ isNotice_two_words hall hplain)
    · exact Or.inr (.rights hline hall hlink hopens)

/-- "All" in front, and "rights" behind it or in a link there. -/
theorem isNotice_of_two_words {first rest : List Char} (hall : lowercase first = "all".toList)
    (hrights : v.Shows "rights".toList rest) :
    isNotice (v.resolveLinks (first ++ ' ' :: rest)) = true := by
  have hbracket : '[' ∉ first :=
    fun hmem => absurd (hall ▸ mem_lowercase (by decide) hmem) (by decide)
  rw [resolveLinks, resolveFrom_append none hbracket, resolveFrom_space _ rfl]
  exact isNotice_two_words hall
    ((opens_resolveLinks_iff unbroken_rights (by decide)).mpr hrights)

/-- A line is a notice without the brackets of its links if it is one with them, or if a link makes
one of it. -/
theorem isNotice_resolveLinks_iff :
    isNotice (v.resolveLinks line) = true ↔ isNotice line = true ∨ v.LinkedNotice line := by
  constructor
  · intro h
    rcases isNotice_iff_opens.mp h with hopens | hopens | hopens
    · exact notice_of_shows (fun cs => isNotice_of_copyright)
        ((opens_resolveLinks_iff unbroken_copyright (by decide)).mp hopens)
    · exact notice_of_opens_rights hopens
    · exact notice_of_shows (fun cs => isNotice_of_author)
        ((opens_resolveLinks_iff unbroken_author (by decide)).mp hopens)
  · intro h
    rcases h with hline | hlinked
    · rcases isNotice_iff_opens.mp hline with hopens | hopens | hopens
      · exact isNotice_of_copyright
          ((opens_resolveLinks_iff unbroken_copyright (by decide)).mpr (Or.inl hopens))
      · obtain ⟨first, rest, rfl, hall, hrights⟩ := exists_two_words unbroken_all hopens
        exact isNotice_of_two_words hall (Or.inl hrights)
      · exact isNotice_of_author
          ((opens_resolveLinks_iff unbroken_author (by decide)).mpr (Or.inl hopens))
    · cases hlinked with
      | word hlink hnotice =>
        rw [hlink.resolveLinks_eq]
        exact isNotice_append hnotice _
      | @all target rest hlink hall hrights =>
        rw [hlink.resolveLinks_eq, resolveFrom_space _ rfl]
        exact isNotice_two_words hall
          ((opens_resolveLinks_iff unbroken_rights (by decide)).mpr hrights)
      | @rights first rest target back heq hall hlink hopens =>
        rw [heq]
        exact isNotice_of_two_words hall (Or.inr ⟨target, back, hlink, hopens⟩)

end View

/-! ## Synopses -/

/-- **When a notice becomes a synopsis.** A synopsis starts like a notice exactly if the sentence
does not, and the words of its paragraph do or a link makes them. -/
theorem View.isNotice_synopsis_iff (v : View) (text : String) :
    isNotice (v.synopsis text).toList = true ↔
      isNotice (firstSentence text.toList) = false ∧
        ∃ paragraph, firstParagraph (firstSentence text.toList) = some paragraph ∧
          (NoticeWords (words (join ['\n'] paragraph)) ∨ v.LinkedNotice (oneLine paragraph)) := by
  have hempty : ¬isNotice "".toList = true := by decide +kernel
  unfold View.synopsis
  dsimp only
  split
  next hnotice =>
    refine iff_of_false hempty ?_
    intro h
    rw [hnotice] at h
    cases h.1
  next hnotice =>
    split
    next hnone =>
      refine iff_of_false hempty ?_
      intro h
      obtain ⟨-, paragraph, hsome, -⟩ := h
      rw [hnone] at hsome
      cases hsome
    next paragraph hsome =>
      have hwords : ∀ w ∈ words (join ['\n'] paragraph), Solid w :=
        fun w hw => (solid_of_mem_words hw).2
      rw [String.toList_ofList, isNotice_resolveLinks_iff, isNotice_oneLine,
        isNotice_join_iff hwords]
      constructor
      · exact fun h => ⟨Bool.eq_false_iff.mpr hnotice, paragraph, hsome, h⟩
      · intro h
        obtain ⟨-, paragraph', hsome', h⟩ := h
        obtain rfl := Option.some.inj (hsome.symm.trans hsome')
        exact h

/-- The first two words of a notice on two lines. -/
example : View.synopsis (.empty "p" "example.com/p") "All\nrights reserved.\n"
    = "All rights reserved." := by
  decide +kernel

/-- The first word of a notice as a link to a type with this name. -/
example : View.synopsis ⟨"p", "example.com/p", ["Copyright"], []⟩ "[Copyright] 2024 Someone.\n"
    = "Copyright 2024 Someone." := by
  decide +kernel

end DocHarvest.Doc
