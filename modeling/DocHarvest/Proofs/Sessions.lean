import DocHarvest.Proofs.Layers
import DocHarvest.Proofs.Rereading
import DocHarvest.Proofs.Synopses
import Mathlib.Data.List.Induction

/-!
# Sessions

A session is a row of calls on one map that is empty at first. Calls may ask for one package or for
several, in either mode and of any loader, and they may fail. What holds of every entry of the map
at any time is told by `Origin`: which call wrote the entry, of which file of which package, for
which symbol, and what its text is like.

A call writes the entries of its packages up to the first that is refused, whatever the map is
(`Call.run_eq`). So one call keeps what was there or writes entries with an origin
(`Call.exists_origin`), and along a session the entry at a key has its origin in the last call that
wrote under that key (`session_entry_origin`).
-/

namespace DocHarvest.Harvest

open DocHarvest.Load DocHarvest.Text

/-! ## Calls -/

/-- What a call asks for: one package, or several in order. -/
inductive Request where
  | one (path : String)
  | all (paths : List String)

/-- A call in a session. Loaders return packages with the trees of their sources. -/
structure Call where
  load : Loader
  parses : Parses load
  mode : Mode
  request : Request

namespace Call

/-- The map after a call, which may fail. -/
def run (m : CommentMap) (c : Call) : CommentMap :=
  match c.request with
  | .one path =>
    match harvest c.load c.mode m path with
    | .ok m' => m'
    | .error _ => m
  | .all paths => (harvestAll c.load c.mode m paths).1

/-- The paths that a call asks for. -/
def paths (c : Call) : List String :=
  match c.request with
  | .one path => [path]
  | .all paths => paths

/-- The paths whose packages a call harvests: those before the first that is refused. -/
def harvested (c : Call) : List String :=
  c.paths.takeWhile fun path => (pathEntries c.load c.mode path).isOk

/-- The entries that a call writes, in order. -/
def written (c : Call) : List Entry :=
  c.harvested.flatMap fun path => (pathEntries c.load c.mode path).toOption.getD []

end Call

/-- The map after some calls. -/
def session (calls : List Call) : CommentMap :=
  calls.foldl Call.run .empty

/-- A batch writes the entries of its packages up to the first that is refused. -/
theorem harvestAll_fst (load : Loader) (mode : Mode) (m : CommentMap) (paths : List String) :
    (harvestAll load mode m paths).1
      = m.insertAll ((paths.takeWhile fun path => (pathEntries load mode path).isOk).flatMap
        fun path => (pathEntries load mode path).toOption.getD []) := by
  induction paths generalizing m with
  | nil => rfl
  | cons path paths ih =>
    rw [harvestAll, harvest_eq]
    cases hes : pathEntries load mode path with
    | error e =>
      rw [List.takeWhile_cons_of_neg (by simp [hes, Except.isOk, Except.toBool])]
      rfl
    | ok es =>
      rw [List.takeWhile_cons_of_pos (by rw [hes]; rfl), List.flatMap_cons, insertAll_append, hes]
      exact ih (m.insertAll es)

/-- A call adds its entries to the map at hand. -/
theorem Call.run_eq (c : Call) (m : CommentMap) : c.run m = m.insertAll c.written := by
  obtain ⟨load, parses, mode, request⟩ := c
  cases request with
  | all paths => exact harvestAll_fst load mode m paths
  | one path =>
    -- one package is a batch of one
    refine Eq.trans ?_ (harvestAll_fst load mode m [path])
    unfold run
    rw [harvestAll]
    dsimp only
    cases harvest load mode m path with
    | error e => rfl
    | ok m' => rfl

theorem session_concat (calls : List Call) (c : Call) :
    session (calls ++ [c]) = (session calls).insertAll c.written := by
  rw [session, List.foldl_append, List.foldl_cons, List.foldl_nil, Call.run_eq]
  rfl

/-! ## Where entries come from -/

/-- An entry comes from a call, a file of a package and a symbol. -/
structure Origin (c : Call) (e : Entry) (p : Package) (f : SourceFile) (s : Symbol) : Prop where
  written : e ∈ c.written
  /-- The package was loaded without errors. -/
  loaded : ∃ path ∈ c.harvested, c.load path = .ok p
  sound : p.hasErrors = false
  file : f ∈ p.files
  declares : f.Declares s
  key : e.1 = s.key p.importPath
  dotFree : s.DotFree
  /-- In the package the key tells the type and the field. -/
  readBack : Symbol.ofKey? p.importPath e.1 = some s
  visible : Visible e.2.toList
  /-- Only the synopsis of a type may have white space at its ends. -/
  flush : s.field.isSome = true ∨ c.mode = .full → Flush e.2.toList

/-- What is recorded of a text shows something. -/
theorem visible_of_summarizer {mode : Mode} {p : Package} {summarize : String → String}
    (h : summarizer mode p = .ok summarize) {text : String} (hne : summarize text ≠ "") :
    Visible (summarize text).toList := by
  cases mode with
  | full =>
    cases h
    exact (flush_trimmed text).visible (by simpa using hne)
  | synopsis =>
    obtain ⟨view, -, rfl⟩ := view_of_summarizer rfl h
    exact view.visible_synopsis hne

/-- The texts that are recorded at a place show something, and only the synopsis of a type is not
trimmed. -/
theorem Place.Records.texts {q : Place} {mode : Mode} {p : Package} {summarize : String → String}
    (hsum : summarizer mode p = .ok summarize) {s : Symbol} {text : String}
    (h : q.Records summarize s text) :
    Visible text.toList ∧ (s.field.isSome = true ∨ mode = .full → Flush text.toList) := by
  cases h with
  | type _ _ hne =>
    refine ⟨visible_of_summarizer hsum hne, ?_⟩
    intro hfull
    rcases hfull with hfield | rfl
    · cases hfield
    · cases hsum
      exact flush_trimmed _
  | field _ _ _ _ hne =>
    have hflush : Flush q.text.toList := flush_trimmed _
    exact ⟨hflush.visible (by simpa using hne), fun _ => hflush⟩

theorem hasErrors_eq_false_iff {p : Package} : p.hasErrors = false ↔ p.fault? = none := by
  rw [fault?_eq_none_iff, Package.hasErrors, Bool.or_eq_false_iff]
  simp

/-- **Every entry that a call writes has an origin.** -/
theorem Call.exists_origin {c : Call} {e : Entry} (h : e ∈ c.written) :
    ∃ p f s, Origin c e p f s := by
  obtain ⟨path, hpath, he⟩ := List.mem_flatMap.mp h
  cases hes : pathEntries c.load c.mode path with
  | error _ =>
    rw [hes] at he
    cases he
  | ok es =>
    rw [hes] at he
    obtain ⟨-, p, hp, hes⟩ := pathEntries_eq_ok_iff.mp hes
    obtain ⟨hfault, summarize, hsum, rfl⟩ := packageEntries_eq_ok_iff.mp hes
    obtain ⟨q, hq, hwritten⟩ := List.mem_flatMap.mp he
    obtain ⟨hreached, hfile, htree⟩ := (c.parses hp).reached hq
    obtain ⟨s, hrecords, hkey⟩ := Place.records_of_mem_written hwritten
    obtain ⟨hvisible, hflush⟩ := Place.Records.texts hsum hrecords
    have hdots := hrecords.dotFree hreached
    refine ⟨p, q.file, s, ⟨h, ⟨path, hpath, hp⟩, hasErrors_eq_false_iff.mpr hfault, hfile,
      hrecords.declares hreached htree, hkey, hdots, ?_, hvisible, hflush⟩⟩
    rw [hkey]
    exact Symbol.ofKey?_key p.importPath hdots

/-- **What a map holds after a session.** Every entry was written by the last call that wrote under
its key, and it has its origin there: its key is that of a symbol of a file of a package that was
loaded without errors, and tells the symbol; its text shows something, and has no white space at its
ends if it is the comment of a field or was recorded as a whole. -/
theorem session_entry_origin {calls : List Call} {key text : String}
    (h : (session calls).get? key = some text) :
    ∃ before c after p f s, calls = before ++ c :: after ∧ Origin c (key, text) p f s ∧
      ∀ later ∈ after, ∀ t, (key, t) ∉ later.written := by
  induction calls using List.reverseRecOn with
  | nil => cases h
  | append_singleton calls last ih =>
    rw [session_concat, CommentMap.get?_insertAll] at h
    cases hlast : CommentMap.lastText last.written key with
    | some t =>
      rw [hlast, Option.some_or] at h
      obtain ⟨front, back, hsplit, -⟩ := List.lookup_eq_some_iff.mp hlast
      have hmem : (key, text) ∈ last.written := by
        rw [← List.mem_reverse, hsplit, Option.some.inj h]
        exact List.mem_append_right _ List.mem_cons_self
      obtain ⟨p, f, s, horigin⟩ := Call.exists_origin hmem
      exact ⟨calls, last, [], p, f, s, rfl, horigin, by simp⟩
    | none =>
      -- the last call leaves the entry as it was
      rw [hlast, Option.none_or] at h
      obtain ⟨before, c, after, p, f, s, rfl, horigin, hafter⟩ := ih h
      refine ⟨before, c, after ++ [last], p, f, s, by simp, horigin, ?_⟩
      intro later hlater t hmem
      rcases List.mem_append.mp hlater with hlater | hlater
      · exact hafter later hlater t hmem
      · rw [List.mem_singleton.mp hlater] at hmem
        have hnot := List.lookup_eq_none_iff.mp hlast _ (List.mem_reverse.mpr hmem)
        simp at hnot

/-- The second call fails at a path that names no package, after it has overwritten the synopsis of
a type with the whole comment. -/
theorem session_entry_origin_of_failed_batch :
    let load := memory [⟨"example.com/p", "p.go",
      "package p\n\n// T is a type. It has a field.\ntype T struct \x7b\n\tF int // F.\n\x7d\n"⟩]
    let calls : List Call := [⟨load, parses_memory _, .synopsis, .one "example.com/p"⟩,
      ⟨load, parses_memory _, .full, .all ["example.com/p", "all"]⟩]
    (session calls).get? "example.com/p.T" = some "T is a type. It has a field." ∧
      ∃ before c after p f s, calls = before ++ c :: after ∧
        Origin c ("example.com/p.T", "T is a type. It has a field.") p f s ∧
        ∀ later ∈ after, ∀ t, ("example.com/p.T", t) ∉ later.written := by
  intro load calls
  have h : (session calls).get? "example.com/p.T" = some "T is a type. It has a field." := by
    decide +kernel
  exact ⟨h, session_entry_origin h⟩

end DocHarvest.Harvest
