import DocHarvest.Output.Render
import DocHarvest.Proofs.Literals
import DocHarvest.Proofs.Pieces
import DocHarvest.Text.Basic
import Mathlib.Data.List.Basic

/-!
# The generated file can be read back

The generated file is a list of lines (`fileLines`): the header, one line for each entry, a brace.
The line of an entry is a tab, two string literals with a colon and a space between them, and a
comma; `readEntry` reads such a line. No text of a key or a value can end its line or its literal
early, so every line is read back to its entry (`readEntry_entryLine`), lines can be told apart
(`unlines_inj`), and the text of a file determines the map (`render_reads_back`).
-/

namespace DocHarvest.Output

open DocHarvest.Text

/-! ## Lines -/

/-- The text of some lines, each closed by a line feed. -/
def unlines (lines : List String) : String :=
  String.join (lines.map (· ++ "\n"))

theorem unlines_append (ks ls : List String) : unlines (ks ++ ls) = unlines ks ++ unlines ls := by
  simp [unlines]

theorem toList_unlines_cons (l : String) (ls : List String) :
    (unlines (l :: ls)).toList = l.toList ++ '\n' :: (unlines ls).toList := by
  simp [unlines]

/-- The text of lines tells the lines, if no line holds a line feed. -/
theorem unlines_inj {ks ls : List String} (hks : ∀ k ∈ ks, '\n' ∉ k.toList)
    (hls : ∀ l ∈ ls, '\n' ∉ l.toList) (h : unlines ks = unlines ls) : ks = ls := by
  induction ks generalizing ls with
  | nil =>
    cases ls with
    | nil => rfl
    | cons l ls =>
      have htext := congrArg String.toList h
      simp [unlines] at htext
  | cons k ks ih =>
    cases ls with
    | nil =>
      have htext := congrArg String.toList h
      simp [unlines] at htext
    | cons l ls =>
      obtain ⟨hk, hks⟩ := List.forall_mem_cons.mp hks
      obtain ⟨hl, hls⟩ := List.forall_mem_cons.mp hls
      have htext := congrArg String.toList h
      rw [toList_unlines_cons, toList_unlines_cons] at htext
      obtain ⟨hfirst, hrest⟩ := eq_of_append_cons_eq hk hl htext
      rw [String.toList_inj.mp hfirst, ih hks hls (String.toList_inj.mp hrest)]

/-! ## The lines of the file -/

/-- The words of the licence notice. -/
def noticeText : List String :=
  ["This Source Code Form is subject to the terms of the Mozilla Public",
   "License, v. 2.0. If a copy of the MPL was not distributed with this",
   "file, You can obtain one at https://mozilla.org/MPL/2.0/."]

/-- The lines of the licence notice and a blank line. -/
def noticeLines : List String :=
  "/*" :: noticeText ++ ["*/", ""]

/-- The line that marks the file as generated. -/
def generatedMark : String :=
  "// Code generated by mapcomments. DO NOT EDIT."

/-- The lines of the file in which the entries stand on given lines. -/
def fileLines (package : String) (mpl2 : Bool) (entryLines : List String) : List String :=
  (if mpl2 then noticeLines else []) ++
  [generatedMark, "", "package " ++ package, "", "var CommentMap = map[string]string\x7b"] ++
  entryLines ++
  ["\x7d"]

/-- The line of an entry without its line feed. -/
def entryLine (e : Entry) : String :=
  "\t" ++ quote e.1 ++ ": " ++ quote e.2 ++ ","

theorem notice_eq_unlines : notice = unlines noticeLines := by
  simp [notice, unlines, noticeLines, noticeText]

/-- The file is the text of its lines. -/
theorem render_eq_unlines (package : String) (m : CommentMap) (mpl2 : Bool) :
    render package m mpl2 = unlines (fileLines package mpl2 (m.entries.map entryLine)) := by
  have hentries : String.join (m.entries.map renderEntry) = unlines (m.entries.map entryLine) := by
    rw [unlines, List.map_map]
    refine congrArg String.join (List.map_congr_left fun e _ => ?_)
    simp [renderEntry, entryLine, String.append_assoc]
  have hnotice : (if mpl2 then notice else "") = unlines (if mpl2 then noticeLines else []) := by
    cases mpl2 with
    | false => rfl
    | true => exact notice_eq_unlines
  rw [render, hentries, hnotice, fileLines, unlines_append, unlines_append, unlines_append]
  apply String.toList_injective
  simp [unlines, generatedMark]

/-! ## Reading entries -/

/-- The entry on a line: a tab, a literal, a colon and a space, a literal and a comma. -/
def readEntry (line : String) : Option Entry := do
  let (key, rest) ← readLiteral (← dropStart? ['\t'] line.toList)
  let (value, rest) ← readLiteral (← dropStart? [':', ' '] rest)
  if rest = [','] then
    return (← String.fromUTF8? key.toByteArray, ← String.fromUTF8? value.toByteArray)
  else none

theorem fromUTF8?_utf8Encode (s : String) :
    String.fromUTF8? (s.toList.flatMap String.utf8EncodeChar).toByteArray = some s := by
  have hbytes : (s.toList.flatMap String.utf8EncodeChar).toByteArray = s.toByteArray :=
    String.utf8Encode_toList
  rw [hbytes, String.fromUTF8?, dif_pos s.isValidUTF8]
  rfl

theorem toList_entryLine (e : Entry) :
    (entryLine e).toList
      = '\t' :: (literal e.1.toList ++ ':' :: ' ' :: (literal e.2.toList ++ [','])) := by
  simp [entryLine, quote]

/-- The line of an entry is read back to the entry. -/
theorem readEntry_entryLine (e : Entry) : readEntry (entryLine e) = some e := by
  unfold readEntry
  rw [toList_entryLine]
  simp [dropStart?, readLiteral_literal, fromUTF8?_utf8Encode]

theorem lineFeed_notMem_entryLine (e : Entry) : '\n' ∉ (entryLine e).toList := by
  have hkey := lineFeed_notMem_literal e.1.toList
  have hvalue := lineFeed_notMem_literal e.2.toList
  rw [toList_entryLine]
  simp [hkey, hvalue]

theorem lineFeed_notMem_of_mem_entryLines {es : List Entry} {line : String}
    (h : line ∈ es.map entryLine) : '\n' ∉ line.toList := by
  obtain ⟨e, -, rfl⟩ := List.mem_map.mp h
  exact lineFeed_notMem_entryLine e

theorem map_readEntry_entryLines (es : List Entry) :
    (es.map entryLine).map readEntry = es.map some := by
  rw [List.map_map]
  exact List.map_congr_left fun e _ => readEntry_entryLine e

/-- The text of a file determines the map. -/
theorem render_inj {package : String} {m m' : CommentMap} {mpl2 : Bool}
    (h : render package m mpl2 = render package m' mpl2) : m = m' := by
  -- header and brace are the same on both sides, so the texts of the entries are
  rw [render_eq_unlines, render_eq_unlines, fileLines, fileLines] at h
  simp only [unlines_append, String.append_left_inj, String.append_right_inj] at h
  have hlines : m.entries.map entryLine = m'.entries.map entryLine :=
    unlines_inj (fun _ => lineFeed_notMem_of_mem_entryLines)
      (fun _ => lineFeed_notMem_of_mem_entryLines) h
  have hread := congrArg (List.map readEntry) hlines
  rw [map_readEntry_entryLines, map_readEntry_entryLines] at hread
  have hentries : m.entries = m'.entries :=
    List.map_injective_iff.mpr (fun _ _ h => Option.some.inj h) hread
  cases m
  cases m'
  cases hentries
  rfl

/-- **The generated file can be read back.** It is the text of its lines: the licence notice and a
blank line if asked for, the header, the lines of the entries and a closing brace. The entries stand
one on a line, in strictly increasing order of their keys, and each line is read back to its entry.
So the text of a file determines the map. -/
theorem render_reads_back (package : String) (m : CommentMap) (mpl2 : Bool) :
    ∃ lines : List String,
      render package m mpl2 = unlines (fileLines package mpl2 lines) ∧
      (∀ line ∈ lines, '\n' ∉ line.toList) ∧
      lines.map readEntry = m.entries.map some ∧
      (lines.filterMap readEntry).Pairwise (fun a b => a.1 < b.1) ∧
      ∀ m', render package m' mpl2 = render package m mpl2 → m' = m := by
  refine ⟨m.entries.map entryLine, render_eq_unlines package m mpl2,
    fun _ => lineFeed_notMem_of_mem_entryLines, map_readEntry_entryLines m.entries, ?_,
    fun _ => render_inj⟩
  have hentries : (m.entries.map entryLine).filterMap readEntry = m.entries := by
    rw [List.filterMap_map]
    simp [readEntry_entryLine]
  rw [hentries]
  exact m.ordered

end DocHarvest.Output
