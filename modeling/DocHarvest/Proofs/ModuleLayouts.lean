import DocHarvest.Proofs.Returns
import DocHarvest.Proofs.Visible

/-!
# Layouts of module files

A module file names its module in one line, which may be indented, may have the path between marks
and may end with a comment. Above it stand blank lines, comments and other directives, below it
stands whatever the file has to say, and the lines are closed in either way (`LaysOut`). Whatever
the layout, the path is found (`modulePath_of_laysOut`).

Two facts about single lines carry this. A line that gives a path has `module` for its first word
(`head?_words_of_modulePathOfLine`), so no line above the directive gives one. And the line of the
directive loses its comment, its indentation and its marks, and nothing of its path
(`ModuleLine.modulePathOfLine_text`): a path has nothing of what the others are told by
(`PlainPath`), and each of its slashes stands alone (`LoneSlashes`), even in front of a comment.
-/

namespace DocHarvest.Text

open DocHarvest.Unicode

/-! ## Slashes -/

/-- Each slash of a text is followed by something else. -/
def LoneSlashes (cs : List Char) : Prop :=
  ∀ front back, cs = front ++ '/' :: back → ∃ c ∈ back.head?, c ≠ '/'

namespace LoneSlashes

theorem of_notMem {cs : List Char} (h : '/' ∉ cs) : LoneSlashes cs := by
  intro front back heq
  rw [heq] at h
  exact absurd (List.mem_append_right _ List.mem_cons_self) h

theorem of_blank {cs : List Char} (h : Blank cs) : LoneSlashes cs :=
  .of_notMem fun hslash => absurd (h '/' hslash) (by decide)

theorem append {xs ys : List Char} (hxs : LoneSlashes xs) (hys : LoneSlashes ys) :
    LoneSlashes (xs ++ ys) := by
  intro front back heq
  rcases List.append_eq_append_iff.mp heq with ⟨mid, -, hmid⟩ | ⟨mid, hfront, hmid⟩
  · exact hys mid back hmid
  · cases mid with
    | nil => exact hys [] back hmid.symm
    | cons d mid =>
      obtain ⟨rfl, hback⟩ := List.cons.inj hmid
      obtain ⟨c, hc, hne⟩ := hxs front mid hfront
      obtain ⟨mid, rfl⟩ := List.head?_eq_some_iff.mp hc
      exact ⟨c, by rw [hback]; rfl, hne⟩

/-- Two slashes mark a comment only behind such a text. -/
theorem before_append {cs : List Char} (h : LoneSlashes cs) (rest : List Char) :
    before "//".toList (cs ++ rest) = cs ++ before "//".toList rest := by
  induction cs with
  | nil => rfl
  | cons c cs ih =>
    have hnot : startsWith "//".toList (c :: (cs ++ rest)) = false := by
      rw [← Bool.not_eq_true, startsWith_iff_prefix]
      intro hpre
      obtain ⟨rfl, hnext⟩ := List.cons_prefix_cons.mp hpre
      obtain ⟨d, hd, hne⟩ := h [] cs rfl
      obtain ⟨ds, rfl⟩ := List.head?_eq_some_iff.mp hd
      exact hne (List.cons_prefix_cons.mp hnext).1.symm
    have htail : LoneSlashes cs := fun front back heq => h (c :: front) back (by rw [heq]; rfl)
    rw [List.cons_append, before, hnot, if_neg Bool.false_ne_true, ih htail]
    rfl

end LoneSlashes

end DocHarvest.Text

namespace DocHarvest.Load

open DocHarvest.Text DocHarvest.Unicode

/-! ## Layouts -/

/-- What closes a line: a line feed, with a carriage return in front of it or without. -/
inductive LineEnd where
  | feed
  | returnFeed

/-- The characters of a line end. -/
def LineEnd.text : LineEnd → List Char
  | feed => ['\n']
  | returnFeed => ['\r', '\n']

/-- How a path is written: as it is, or between two marks. -/
inductive Quoting where
  | bare
  | double
  | back

namespace Quoting

/-- What stands on either side of the path. -/
def marks : Quoting → List Char
  | bare => []
  | double => ['"']
  | back => [Char.ofNat 0x60]

/-- The path as it is written. -/
def wrap (q : Quoting) (path : List Char) : List Char :=
  q.marks ++ path ++ q.marks

end Quoting

/-- A path that has nothing of what ends it or stands around it: white space, marks and comments. -/
structure PlainPath (path : List Char) : Prop where
  ne_nil : path ≠ []
  solid : Solid path
  double : '"' ∉ path
  back : Char.ofNat 0x60 ∉ path
  comment : ¬"//".toList <:+: path
  last : path.getLast? ≠ some '/'

/-- Nothing but spaces and tabs. -/
def Spaces (cs : List Char) : Prop :=
  ∀ c ∈ cs, c = ' ' ∨ c = '\t'

instance : DecidablePred Spaces := fun cs =>
  decidable_of_iff (cs.all (fun c => c = ' ' ∨ c = '\t') = true) (by simp [Spaces])

theorem isBlank_of_space {c : Char} (h : c = ' ' ∨ c = '\t') : isBlank c = true := by
  rcases h with rfl | rfl
  · decide
  · decide

theorem Spaces.blank {cs : List Char} (h : Spaces cs) : Blank cs := fun c hc =>
  isBlank_of_space (h c hc)

/-- A line that may stand above the directive: a blank one, a comment, or a directive that starts
with another word. -/
inductive Leading : List Char → Prop
  | blank {line : List Char} : Blank line → Leading line
  | comment {indent : List Char} (rest : List Char) :
      Blank indent → Leading (indent ++ "//".toList ++ rest)
  | directive {line word : List Char} :
      (words line).head? = some word → word ≠ "module".toList → Leading line

/-- A line with the directive: the word `module` and the path, with a comment behind it or
without. -/
structure ModuleLine (path : List Char) where
  indent : List Char
  gap : List Char
  quoting : Quoting
  after : List Char
  comment : List Char
  indent_spaces : Spaces indent
  gap_spaces : Spaces gap
  gap_ne_nil : gap ≠ []
  after_blank : Blank after
  comment_marked : comment = [] ∨ "//".toList <+: comment

def ModuleLine.text {path : List Char} (l : ModuleLine path) : List Char :=
  l.indent ++ "module".toList ++ l.gap ++ l.quoting.wrap path ++ l.after ++ l.comment

/-- The text of a module file that names a path: leading lines, the line of the directive, and
anything below it. -/
inductive LaysOut (path : List Char) : List Char → Prop
  | last (l : ModuleLine path) : '\n' ∉ l.text → LaysOut path l.text
  | closed (l : ModuleLine path) (e : LineEnd) (below : List Char) :
      '\n' ∉ l.text → LaysOut path (l.text ++ e.text ++ below)
  | above {line rest : List Char} (e : LineEnd) :
      Leading line → '\n' ∉ line → LaysOut path rest → LaysOut path (line ++ e.text ++ rest)

/-! ## Lines above the directive -/

/-- A line that gives a path starts with the word `module`. -/
theorem head?_words_of_modulePathOfLine {line : List Char} {path : String}
    (h : modulePathOfLine line = some path) : (words line).head? = some "module".toList := by
  unfold modulePathOfLine at h
  split at h
  next => cases h
  next rest hrest =>
    split at h
    next hgap =>
      cases rest with
      | nil => cases hgap
      | cons c rest =>
        have hc : isBlank c = true := isBlank_of_space (by simpa using hgap)
        obtain ⟨front, back, hcode, hfront, -⟩ :=
          exists_append_trimWhere isBlank (before "//".toList line)
        obtain ⟨comment, hcomment⟩ := before_prefix "//".toList line
        have htrim : trimWhere isBlank (before "//".toList line) = "module".toList ++ c :: rest :=
          dropStart?_eq_some_iff.mp hrest
        have hline : line = front ++ ("module".toList ++ c :: (rest ++ back ++ comment)) := by
          rw [← hcomment, hcode, htrim]
          simp
        rw [hline, words_blank_append hfront, words_append_cons hc,
          words_eq_singleton (by decide) (by decide)]
        rfl
    next => cases h

theorem modulePathOfLine_of_leading {line : List Char} (h : Leading line) :
    modulePathOfLine line = none := by
  cases hline : modulePathOfLine line with
  | none => rfl
  | some path =>
    have hmodule := head?_words_of_modulePathOfLine hline
    cases h with
    | blank hblank =>
      rw [words_eq_nil hblank] at hmodule
      cases hmodule
    | comment rest hindent =>
      obtain ⟨w, hw⟩ := exists_head?_words (c := '/') (by decide) ('/' :: rest)
      rw [List.append_assoc, words_blank_append hindent] at hmodule
      cases hw.symm.trans hmodule
    | directive hword hne =>
      rw [hword] at hmodule
      exact absurd (Option.some.inj hmodule) hne

/-! ## The line of the directive -/

namespace PlainPath

theorem loneSlashes {path : List Char} (h : PlainPath path) : LoneSlashes path := by
  intro front back heq
  cases back with
  | nil =>
    refine absurd ?_ h.last
    rw [heq, List.getLast?_concat]
  | cons c back =>
    refine ⟨c, rfl, ?_⟩
    intro hc
    subst hc
    refine absurd ?_ h.comment
    exact ⟨front, back, by rw [heq]; simp⟩

end PlainPath

namespace Quoting

theorem solid_wrap {path : List Char} (h : Solid path) (q : Quoting) : Solid (q.wrap path) := by
  have hmarks : Solid q.marks := by cases q <;> decide
  exact (hmarks.append h).append hmarks

theorem loneSlashes_wrap {path : List Char} (h : LoneSlashes path) (q : Quoting) :
    LoneSlashes (q.wrap path) := by
  have hmarks : LoneSlashes q.marks := .of_notMem (by cases q <;> decide)
  exact (hmarks.append h).append hmarks

theorem wrap_ne_nil {path : List Char} (h : path ≠ []) (q : Quoting) : q.wrap path ≠ [] := by
  intro hnil
  rw [wrap, List.append_eq_nil_iff, List.append_eq_nil_iff] at hnil
  exact h hnil.1.2

/-- The marks around a path come off, and none of it does. -/
theorem trimWhere_wrap {path : List Char} (h : PlainPath path) (q : Quoting) :
    trimWhere (fun c => c == '"' || c.toNat == 0x60) (q.wrap path) = path := by
  have hmarks : ∀ c ∈ q.marks, (c == '"' || c.toNat == 0x60) = true := by
    cases q with
    | bare => exact List.forall_mem_nil _
    | double => exact List.forall_mem_singleton.mpr rfl
    | back => exact List.forall_mem_singleton.mpr rfl
  have hpath : ∀ c ∈ path, (c == '"' || c.toNat == 0x60) = false := by
    intro c hc
    have hdouble : c ≠ '"' := fun heq => h.double (heq ▸ hc)
    have hback : c.toNat ≠ 0x60 := fun heq =>
      h.back (heq ▸ (Char.ofNat_toNat c).symm ▸ hc)
    simp [hdouble, hback]
  exact trimWhere_append hmarks hmarks (fun c hc => hpath c (List.mem_of_head? hc))
    fun c hc => hpath c (List.mem_of_getLast? hc)

end Quoting

namespace ModuleLine

variable {path : List Char} (l : ModuleLine path)

theorem loneSlashes_code (h : PlainPath path) :
    LoneSlashes (l.indent ++ "module".toList ++ l.gap ++ l.quoting.wrap path ++ l.after) := by
  have hindent : LoneSlashes l.indent := .of_blank l.indent_spaces.blank
  have hword : LoneSlashes "module".toList := .of_notMem (by decide)
  have hgap : LoneSlashes l.gap := .of_blank l.gap_spaces.blank
  have hpath : LoneSlashes (l.quoting.wrap path) := Quoting.loneSlashes_wrap h.loneSlashes _
  exact (((hindent.append hword).append hgap).append hpath).append (.of_blank l.after_blank)

theorem flush_code (h : PlainPath path) :
    Flush ("module".toList ++ (l.gap ++ l.quoting.wrap path)) := by
  refine ⟨?_, ?_⟩
  · intro c hc
    cases hc
    decide
  · intro c hc
    rw [← List.append_assoc,
      List.getLast?_append_of_ne_nil _ (Quoting.wrap_ne_nil h.ne_nil _)] at hc
    exact (Quoting.solid_wrap h.solid l.quoting).flush.last c hc

/-- The comment of the line comes off, and the white space around the rest. -/
theorem trim_before (h : PlainPath path) :
    trim (before "//".toList l.text) = "module".toList ++ (l.gap ++ l.quoting.wrap path) := by
  have hcomment : before "//".toList l.comment = [] := by
    rcases l.comment_marked with hnil | ⟨rest, hrest⟩
    · rw [hnil]
      rfl
    · rw [← hrest]
      rfl
  have hcode : l.indent ++ "module".toList ++ l.gap ++ l.quoting.wrap path ++ l.after
      = l.indent ++ ("module".toList ++ (l.gap ++ l.quoting.wrap path)) ++ l.after := by
    simp only [List.append_assoc]
  rw [text, (l.loneSlashes_code h).before_append, hcomment, List.append_nil, hcode]
  exact (l.flush_code h).trim_append l.indent_spaces.blank l.after_blank

/-- The path is what is left behind the word when its marks are taken off. -/
theorem modulePathOfLine_text (h : PlainPath path) :
    modulePathOfLine l.text = some (String.ofList path) := by
  have hdrop : dropStart? "module".toList (trim (before "//".toList l.text))
      = some (l.gap ++ l.quoting.wrap path) := dropStart?_eq_some_iff.mpr (l.trim_before h)
  have hgap : (l.gap ++ l.quoting.wrap path).head?.any (fun c => c == ' ' || c == '\t') = true := by
    obtain ⟨c, rest, hrest⟩ := List.exists_cons_of_ne_nil l.gap_ne_nil
    have hc := l.gap_spaces c (by rw [hrest]; exact List.mem_cons_self)
    rw [hrest]
    simpa using hc
  have htrim : trim (l.gap ++ l.quoting.wrap path) = l.quoting.wrap path := by
    rw [← List.append_nil (l.gap ++ _)]
    exact (Quoting.solid_wrap h.solid l.quoting).flush.trim_append l.gap_spaces.blank
      (List.forall_mem_nil _)
  have hempty : path.isEmpty = false := List.isEmpty_eq_false_iff.mpr h.ne_nil
  unfold modulePathOfLine
  rw [hdrop]
  dsimp only
  rw [if_pos hgap, htrim, Quoting.trimWhere_wrap h, hempty]
  rfl

end ModuleLine

/-! ## Files -/

/-- The first line of a text gives the path, or what is below it does. -/
theorem findSome?_split_line {line : List Char} (e : LineEnd) (h : '\n' ∉ line)
    (below : List Char) :
    (split '\n' (line ++ e.text ++ below)).findSome? modulePathOfLine
      = (modulePathOfLine line).or ((split '\n' below).findSome? modulePathOfLine) := by
  cases e with
  | feed =>
    show (split '\n' (line ++ ['\n'] ++ below)).findSome? modulePathOfLine = _
    rw [List.append_assoc, List.singleton_append, split_append_cons, split_eq_singleton h,
      List.findSome?_append, List.findSome?_singleton]
  | returnFeed =>
    have hreturn : '\n' ∉ line ++ ['\r'] := by simp [h]
    have hclose : line ++ LineEnd.returnFeed.text ++ below = line ++ ['\r'] ++ '\n' :: below := by
      simp [LineEnd.text]
    rw [hclose, split_append_cons, split_eq_singleton hreturn, List.findSome?_append,
      List.findSome?_singleton, modulePathOfLine_concat]

/-- **The path of a module is found in every layout of its file.** Leading lines are passed over,
and the first other line gives the path, with marks or without and whatever stands behind it. -/
theorem modulePath_of_laysOut {path contents : String} (hpath : PlainPath path.toList)
    (h : LaysOut path.toList contents.toList) : modulePath contents = some path := by
  rw [modulePath_eq_findSome?]
  generalize contents.toList = text at h
  induction h with
  | last l hfeed =>
    rw [split_eq_singleton hfeed, List.findSome?_singleton, l.modulePathOfLine_text hpath,
      String.ofList_toList]
  | closed l e below hfeed =>
    rw [findSome?_split_line e hfeed, l.modulePathOfLine_text hpath, String.ofList_toList]
    rfl
  | above e hline hfeed _ ih =>
    rw [findSome?_split_line e hfeed, modulePathOfLine_of_leading hline, ih]
    rfl

/-- Comments and words that look like the directive, above it, behind it and below it. -/
theorem modulePath_of_laysOut_of_comments :
    let contents := "\r\n // module no\nmodules no // module no\r\n" ++
      "\tmodule \t`example.com/m`// no\r\nmodule no"
    PlainPath "example.com/m".toList ∧ LaysOut "example.com/m".toList contents.toList ∧
      modulePath contents = some "example.com/m" := by
  intro contents
  have hpath : PlainPath "example.com/m".toList :=
    ⟨by decide, by decide, by decide, by decide,
      fun h => absurd (h.sublist.count_le '/') (by decide), by decide⟩
  let line : ModuleLine "example.com/m".toList :=
    { indent := ['\t'], gap := [' ', '\t'], quoting := .back, after := []
      comment := "// no".toList, indent_spaces := by decide, gap_spaces := by decide
      gap_ne_nil := by decide, after_blank := by decide, comment_marked := Or.inr (by decide) }
  have hline : LaysOut _ (line.text ++ LineEnd.returnFeed.text ++ "module no".toList) :=
    .closed line .returnFeed _ (by decide)
  have hmodules : Leading "modules no // module no".toList :=
    .directive (show (words _).head? = some "modules".toList by decide) (by decide)
  have hcomment : Leading ([' '] ++ "//".toList ++ " module no".toList) :=
    .comment _ (by decide)
  have hempty : Leading [] := .blank (by decide)
  have hlays := ((hline.above .returnFeed hmodules (by decide)).above .feed hcomment
    (by decide)).above .returnFeed hempty (by decide)
  have hcontents : contents.toList = [] ++ LineEnd.returnFeed.text
      ++ ([' '] ++ "//".toList ++ " module no".toList ++ LineEnd.feed.text
        ++ ("modules no // module no".toList ++ LineEnd.returnFeed.text
          ++ (line.text ++ LineEnd.returnFeed.text ++ "module no".toList))) := by decide
  rw [← hcontents] at hlays
  exact ⟨hpath, hlays, modulePath_of_laysOut hpath hlays⟩

end DocHarvest.Load
