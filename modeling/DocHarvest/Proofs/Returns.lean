import DocHarvest.Comment.Text
import DocHarvest.Doc.View
import DocHarvest.Load.ModuleFile
import DocHarvest.Proofs.Pieces
import Mathlib.Data.List.Forall2

/-!
# Carriage returns before line feeds

A text can be written with a carriage return before each line feed (`withReturns`), and these can be
deleted again (`dropReturns`). Both are told by one relation: `Recodes cs ds` says that `ds` is `cs`
with carriage returns before some of its line feeds. It is carried through the passes over a text by
induction on the relation, one lemma for each. What the harvest reads off a comment, a receiver or a
module file does not change at all, and of a name nothing changes because there are no line feeds in
it.
-/

namespace DocHarvest.Text

open DocHarvest.Unicode

/-- The text with a carriage return before each line feed. -/
def withReturns (cs : List Char) : List Char :=
  cs.flatMap fun c => if c = '\n' then ['\r', '\n'] else [c]

/-- The text without the carriage return before each line feed. -/
def dropReturns : List Char → List Char
  | [] => []
  | '\r' :: '\n' :: cs => '\n' :: dropReturns cs
  | c :: cs => c :: dropReturns cs

/-- A text, and the text with carriage returns before some of its line feeds. -/
inductive Recodes : List Char → List Char → Prop
  | nil : Recodes [] []
  | cons (c : Char) {cs ds : List Char} : Recodes cs ds → Recodes (c :: cs) (c :: ds)
  | lineFeed {cs ds : List Char} : Recodes cs ds → Recodes ('\n' :: cs) ('\r' :: '\n' :: ds)

theorem recodes_withReturns (cs : List Char) : Recodes cs (withReturns cs) := by
  induction cs with
  | nil => exact .nil
  | cons c cs ih =>
    rw [withReturns, List.flatMap_cons]
    split
    next h =>
      subst h
      exact .lineFeed ih
    next => exact .cons c ih

theorem recodes_dropReturns (cs : List Char) : Recodes (dropReturns cs) cs := by
  fun_induction dropReturns cs with
  | case1 => exact .nil
  | case2 cs ih => exact .lineFeed ih
  | case3 c cs hnot ih => exact .cons c ih

namespace Recodes

variable {cs ds : List Char}

theorem eq_nil_iff (h : Recodes cs ds) : cs = [] ↔ ds = [] := by
  cases h with
  | nil => exact Iff.rfl
  | cons c h => simp
  | lineFeed h => simp

/-- Nothing but carriage returns is added. -/
theorem filter_eq (h : Recodes cs ds) : cs.filter (· != '\r') = ds.filter (· != '\r') := by
  induction h with
  | nil => rfl
  | cons c h ih => rw [List.filter_cons, List.filter_cons, ih]
  | lineFeed h ih =>
    rw [List.filter_cons_of_pos (by decide), List.filter_cons_of_neg (by decide),
      List.filter_cons_of_pos (by decide), ih]

theorem lineFeed_mem_iff (h : Recodes cs ds) : '\n' ∈ cs ↔ '\n' ∈ ds := by
  induction h with
  | nil => exact Iff.rfl
  | cons c h ih => rw [List.mem_cons, List.mem_cons, ih]
  | lineFeed h ih => simp

/-- Nothing is added to a text without line feeds. -/
theorem eq_of_notMem (h : Recodes cs ds) (hnot : '\n' ∉ ds) : cs = ds := by
  induction h with
  | nil => rfl
  | cons c h ih => rw [ih fun hmem => hnot (List.mem_cons_of_mem c hmem)]
  | lineFeed h ih => exact absurd (by simp) hnot

/-- A text without line feeds is told apart from others as before. -/
theorem eq_iff (h : Recodes cs ds) {text : List Char} (htext : '\n' ∉ text) :
    cs = text ↔ ds = text := by
  constructor
  · intro heq
    subst heq
    exact (h.eq_of_notMem fun hmem => htext (h.lineFeed_mem_iff.mpr hmem)).symm
  · intro heq
    subst heq
    exact h.eq_of_notMem htext

/-! ## Cutting -/

theorem dropWhile {p : Char → Bool} (hfeed : p '\n' = false) (hreturn : p '\r' = false)
    (h : Recodes cs ds) : Recodes (cs.dropWhile p) (ds.dropWhile p) := by
  induction h with
  | nil => exact .nil
  | cons c h ih =>
    cases hc : p c with
    | true => rwa [List.dropWhile_cons_of_pos hc, List.dropWhile_cons_of_pos hc]
    | false =>
      rw [List.dropWhile_cons_of_neg (by simp [hc]), List.dropWhile_cons_of_neg (by simp [hc])]
      exact .cons c h
  | lineFeed h ih =>
    rw [List.dropWhile_cons_of_neg (by simp [hfeed]),
      List.dropWhile_cons_of_neg (by simp [hreturn])]
    exact .lineFeed h

/-- What is dropped from the end of a text, seen from its front. -/
theorem dropEndWhile_cons (p : Char → Bool) (c : Char) (cs : List Char) :
    Text.dropEndWhile p (c :: cs)
      = if p c = true ∧ Text.dropEndWhile p cs = [] then [] else c :: Text.dropEndWhile p cs := by
  unfold Text.dropEndWhile
  simp only [List.reverse_cons, List.dropWhile_append, List.isEmpty_iff, List.reverse_eq_nil_iff]
  by_cases hnil : cs.reverse.dropWhile p = []
  · rw [if_pos hnil, hnil]
    cases hc : p c with
    | true => simp [hc]
    | false => simp [hc]
  · rw [if_neg hnil, if_neg fun h => hnil h.2, List.reverse_append, List.reverse_singleton,
      List.singleton_append]

theorem dropEndWhile {p : Char → Bool} (hfeed : p '\n' = false) (hreturn : p '\r' = false)
    (h : Recodes cs ds) : Recodes (Text.dropEndWhile p cs) (Text.dropEndWhile p ds) := by
  -- the relation grows at the front, so the end has to be seen from there
  induction h with
  | nil => exact .nil
  | cons c h ih =>
    rw [dropEndWhile_cons, dropEndWhile_cons]
    simp only [ih.eq_nil_iff]
    split
    next => exact .nil
    next => exact .cons c ih
  | lineFeed h ih =>
    simp only [dropEndWhile_cons, hfeed, hreturn, Bool.false_eq_true, false_and, if_false]
    exact .lineFeed ih

theorem trimWhere {p : Char → Bool} (hfeed : p '\n' = false) (hreturn : p '\r' = false)
    (h : Recodes cs ds) : Recodes (Text.trimWhere p cs) (Text.trimWhere p ds) :=
  (h.dropWhile hfeed hreturn).dropEndWhile hfeed hreturn

theorem before {mark : Char} (hfeed : mark ≠ '\n') (hreturn : mark ≠ '\r') (h : Recodes cs ds) :
    Recodes (Text.before [mark] cs) (Text.before [mark] ds) := by
  have hstarts : ∀ (c : Char) (xs : List Char), startsWith [mark] (c :: xs) = true ↔ mark = c := by
    intro c xs
    unfold startsWith dropStart?
    split
    next heq => simp [heq, dropStart?]
    next hne => simp [hne]
  induction h with
  | nil => exact .nil
  | cons c h ih =>
    unfold Text.before
    simp only [hstarts]
    split
    next => exact .nil
    next => exact .cons c ih
  | lineFeed h ih =>
    simp only [Text.before, hstarts, hfeed, hreturn, if_false]
    exact .lineFeed ih

/-! ## Pieces -/

theorem splitWhere {p : Char → Bool} (hfeed : p '\n' = false) (hreturn : p '\r' = false)
    (h : Recodes cs ds) : List.Forall₂ Recodes (Text.splitWhere p cs) (Text.splitWhere p ds) := by
  induction h with
  | nil => exact .cons .nil .nil
  | @cons c cs ds h ih =>
    cases hc : p c with
    | true =>
      rw [splitWhere_cons_of_pos hc, splitWhere_cons_of_pos hc]
      exact .cons .nil ih
    | false =>
      obtain ⟨piece, pieces, hcs, hsplit⟩ := exists_splitWhere_cons hc cs
      obtain ⟨piece', pieces', hds, hsplit'⟩ := exists_splitWhere_cons hc ds
      rw [hcs, hds] at ih
      obtain ⟨hpiece, hpieces⟩ := List.forall₂_cons.mp ih
      rw [hsplit, hsplit']
      exact .cons (.cons c hpiece) hpieces
  | @lineFeed cs ds h ih =>
    obtain ⟨piece, pieces, hcs, hsplit⟩ := exists_splitWhere_cons hfeed cs
    obtain ⟨piece', pieces', hds, hsplit'⟩ := exists_splitWhere_cons hfeed ds
    obtain ⟨_, _, hfront, hwhole⟩ := exists_splitWhere_cons hreturn ('\n' :: ds)
    rw [hcs, hds] at ih
    obtain ⟨hpiece, hpieces⟩ := List.forall₂_cons.mp ih
    rw [hsplit'] at hfront
    cases hfront
    -- both characters join the first piece of what is behind them
    rw [hsplit, hwhole]
    exact .cons (.lineFeed hpiece) hpieces

/-- Words are the same, for a carriage return is white space like the line feed behind it. -/
theorem words_eq (h : Recodes cs ds) : words cs = words ds := by
  -- the first pieces are equal, for they can still grow; of the others only the words are
  have hpieces : ∃ piece rest rest', Text.splitWhere isBlank cs = piece :: rest ∧
      Text.splitWhere isBlank ds = piece :: rest' ∧
      rest.filter (fun w => !w.isEmpty) = rest'.filter (fun w => !w.isEmpty) := by
    induction h with
    | nil => exact ⟨[], [], [], rfl, rfl, rfl⟩
    | @cons c cs ds h ih =>
      obtain ⟨piece, rest, rest', hcs, hds, hrest⟩ := ih
      cases hc : isBlank c with
      | true =>
        refine ⟨[], _, _, splitWhere_cons_of_pos hc cs, splitWhere_cons_of_pos hc ds, ?_⟩
        rw [hcs, hds, List.filter_cons, List.filter_cons, hrest]
      | false =>
        obtain ⟨_, _, hcs', hsplit⟩ := exists_splitWhere_cons hc cs
        obtain ⟨_, _, hds', hsplit'⟩ := exists_splitWhere_cons hc ds
        cases hcs.symm.trans hcs'
        cases hds.symm.trans hds'
        exact ⟨_, _, _, hsplit, hsplit', hrest⟩
    | @lineFeed cs ds h ih =>
      obtain ⟨piece, rest, rest', hcs, hds, hrest⟩ := ih
      have hfeed : isBlank '\n' = true := by decide
      have hreturn : isBlank '\r' = true := by decide
      refine ⟨[], _, _, splitWhere_cons_of_pos hfeed cs, splitWhere_cons_of_pos hreturn _, ?_⟩
      rw [splitWhere_cons_of_pos hfeed, hcs, hds, List.filter_cons, List.filter_cons,
        List.filter_cons, hrest]
      rfl
  obtain ⟨piece, rest, rest', hcs, hds, hrest⟩ := hpieces
  rw [words, words, hcs, hds, List.filter_cons, List.filter_cons, hrest]

end Recodes

theorem recodes_getLastD {ps qs : List (List Char)} (h : List.Forall₂ Recodes ps qs) :
    Recodes (ps.getLastD []) (qs.getLastD []) := by
  induction h with
  | nil => exact .nil
  | @cons p q ps qs hp hps ih =>
    cases hps with
    | nil => exact hp
    | cons hp' hps' => exact ih

end DocHarvest.Text

/-! ## What is read off a text -/

namespace DocHarvest

open DocHarvest.Text

/-- The lines of a comment do not depend on its carriage returns. -/
theorem Comment.bodyLines_congr {raw raw' : List Char}
    (h : raw.filter (· != '\r') = raw'.filter (· != '\r')) : bodyLines raw = bodyLines raw' := by
  unfold bodyLines body
  rw [h]

namespace Doc

variable {cs ds : List Char}

theorem receiverBase_eq (h : Recodes cs ds) : receiverBase cs = receiverBase ds := by
  have hinner : Recodes (trimWhere (fun c => c == '(' || c == ')') cs)
      (trimWhere (fun c => c == '(' || c == ')') ds) := h.trimWhere rfl rfl
  have hbefore := hinner.before (show '[' ≠ '\n' by decide) (by decide)
  unfold receiverBase
  dsimp only
  rw [hbefore.words_eq]

/-- The last element of an import path keeps its line feeds, if it has any. -/
theorem recodes_lastElement (h : Recodes cs ds) :
    Recodes ((split '/' (unquotedPath cs)).getLastD [])
      ((split '/' (unquotedPath ds)).getLastD []) := by
  have hpath : Recodes (unquotedPath cs) (unquotedPath ds) := h.trimWhere rfl rfl
  exact recodes_getLastD (hpath.splitWhere rfl rfl)

end Doc

namespace Load

/-! ## Module files -/

/-- A character at the end of a text is cut off with what a mark cuts off, or it stays. -/
theorem before_concat {mark : List Char} {c : Char} (hc : c ∉ mark) (hmark : mark ≠ [])
    (cs : List Char) :
    before mark (cs ++ [c]) = before mark cs ∨ before mark (cs ++ [c]) = before mark cs ++ [c] := by
  -- a mark without `c` cannot end at `c`
  have hstarts : ∀ xs, startsWith mark (xs ++ [c]) = startsWith mark xs := by
    intro xs
    rw [Bool.eq_iff_iff, startsWith_iff_prefix, startsWith_iff_prefix, List.prefix_concat_iff]
    refine or_iff_right fun heq => hc ?_
    rw [heq]
    exact List.mem_append_right _ (List.mem_singleton_self c)
  induction cs with
  | nil =>
    right
    have hnot : startsWith mark [c] = false := by
      rw [show [c] = [] ++ [c] from rfl, hstarts, ← Bool.not_eq_true, startsWith_iff_prefix]
      exact fun h => hmark (List.prefix_nil.mp h)
    show before mark [c] = [c]
    unfold before
    rw [hnot]
    rfl
  | cons x xs ih =>
    have hx : startsWith mark (x :: (xs ++ [c])) = startsWith mark (x :: xs) := hstarts (x :: xs)
    rw [List.cons_append, before, before, hx]
    split
    next => exact Or.inl rfl
    next => exact ih.imp (congrArg (x :: ·)) (congrArg (x :: ·))

theorem trim_concat {c : Char} (hc : Unicode.isBlank c = true) (cs : List Char) :
    trim (cs ++ [c]) = trim cs := by
  have hend : ∀ xs, dropEndWhile Unicode.isBlank (xs ++ [c]) = dropEndWhile Unicode.isBlank xs := by
    intro xs
    rw [dropEndWhile, List.reverse_append, List.reverse_singleton, List.singleton_append,
      List.dropWhile_cons_of_pos hc]
    rfl
  unfold trim trimWhere
  rw [List.dropWhile_append]
  split
  next h =>
    rw [List.dropWhile_cons_of_pos hc, List.isEmpty_iff.mp h]
    rfl
  next => exact hend _

/-- A carriage return at the end of a line of a module file is white space. -/
theorem modulePathOfLine_concat (line : List Char) :
    modulePathOfLine (line ++ ['\r']) = modulePathOfLine line := by
  have htrim : trim (before "//".toList (line ++ ['\r'])) = trim (before "//".toList line) := by
    rcases before_concat (show '\r' ∉ "//".toList by decide) (by decide) line with h | h
    · rw [h]
    · rw [h, trim_concat (by decide)]
  unfold modulePathOfLine
  rw [htrim]

theorem modulePathOfLine_dropReturn (line : List Char) :
    modulePathOfLine (dropReturn line) = modulePathOfLine line := by
  unfold dropReturn
  split
  next h =>
    obtain ⟨front, rfl⟩ := List.getLast?_eq_some_iff.mp h
    rw [List.dropLast_concat, modulePathOfLine_concat]
  next => rfl

/-- The path of a module can be read off the pieces between line feeds. -/
theorem modulePath_eq_findSome? (contents : String) :
    modulePath contents = (split '\n' contents.toList).findSome? modulePathOfLine := by
  obtain ⟨front, last, hpieces⟩ :=
    (List.eq_nil_or_concat (split '\n' contents.toList)).resolve_left (split_ne_nil _ _)
  rw [List.concat_eq_append] at hpieces
  have hclosed : (front.map dropReturn).findSome? modulePathOfLine
      = front.findSome? modulePathOfLine := by
    rw [List.findSome?_map]
    exact congrArg (List.findSome? · front) (funext modulePathOfLine_dropReturn)
  unfold modulePath lines
  dsimp only
  rw [hpieces, List.getLast?_concat, List.dropLast_concat]
  -- the last piece is no line if it is empty, and keeps its carriage return if it is not
  cases last with
  | nil =>
    show (front.map dropReturn).findSome? modulePathOfLine = _
    rw [hclosed, List.findSome?_append, List.findSome?_singleton]
    show _ = Option.or _ none
    rw [Option.or_none]
  | cons c cs =>
    show (front.map dropReturn ++ [c :: cs]).findSome? modulePathOfLine = _
    rw [List.findSome?_append, hclosed, List.findSome?_append]

/-- The lines of a text that is recoded are the same, but for a carriage return at their end. -/
theorem forall₂_split_lineFeed {cs ds : List Char} (h : Recodes cs ds) :
    List.Forall₂ (fun p q => q = p ∨ q = p ++ ['\r']) (split '\n' cs) (split '\n' ds) := by
  unfold split
  induction h with
  | nil => exact .cons (Or.inl rfl) .nil
  | @cons c cs ds h ih =>
    by_cases hc : c = '\n'
    · subst hc
      exact .cons (Or.inl rfl) ih
    · have hfirst := fun xs =>
        exists_splitWhere_cons (p := (· == '\n')) (c := c) (by simpa using hc) xs
      obtain ⟨piece, pieces, hcs, hsplit⟩ := hfirst cs
      obtain ⟨piece', pieces', hds, hsplit'⟩ := hfirst ds
      rw [hcs, hds] at ih
      obtain ⟨hpiece, hpieces⟩ := List.forall₂_cons.mp ih
      rw [hsplit, hsplit']
      exact .cons (hpiece.imp (congrArg (c :: ·)) (congrArg (c :: ·))) hpieces
  | lineFeed h ih => exact .cons (Or.inr rfl) ih

/-- **The path of a module does not depend on the line ends of its file.** -/
theorem modulePath_eq {contents contents' : String}
    (h : Recodes contents.toList contents'.toList) :
    modulePath contents = modulePath contents' := by
  rw [modulePath_eq_findSome?, modulePath_eq_findSome?]
  have hpieces := forall₂_split_lineFeed h
  generalize split '\n' contents.toList = ps at hpieces ⊢
  generalize split '\n' contents'.toList = qs at hpieces ⊢
  induction hpieces with
  | nil => rfl
  | @cons p q ps qs hp hps ih =>
    have hline : modulePathOfLine q = modulePathOfLine p := by
      rcases hp with rfl | rfl
      · rfl
      · exact modulePathOfLine_concat p
    rw [List.findSome?_cons, List.findSome?_cons, hline, ih]

end Load

end DocHarvest
