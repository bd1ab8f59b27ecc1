import DocHarvest.Proofs.Filing
import DocHarvest.Proofs.Paragraphs
import DocHarvest.Proofs.Pieces
import DocHarvest.Proofs.Sentences

/-!
# What the two modes share

A harvest with whole comments and a harvest with synopses walk the same places and hand the same
texts on; only what becomes of the text of a type differs. So they write under the same keys, except
where a text has no synopsis, and there only the entry of a type can be missing
(`modes_agree`). That the first kind of entry is never the larger rests on one fact about texts: a
text that is trimmed to nothing has no synopsis (`synopsis_eq_empty`).
-/

namespace DocHarvest

open DocHarvest.Syntax DocHarvest.Harvest DocHarvest.Text DocHarvest.Unicode

/-! ## Blank texts have no synopsis -/

namespace Text

theorem mem_of_mem_dropReturn {line : List Char} {c : Char} (hc : c ∈ dropReturn line) :
    c ∈ line := by
  unfold dropReturn at hc
  split at hc
  next => exact List.dropLast_subset _ hc
  next => exact hc

/-- The characters of the lines of a text are characters of the text. -/
theorem mem_of_mem_lines {cs line : List Char} {c : Char} (hline : line ∈ lines cs)
    (hc : c ∈ line) : c ∈ cs := by
  have hclosed : ∀ {l : List Char}, l ∈ (split '\n' cs).dropLast.map dropReturn → c ∈ l →
      c ∈ cs := by
    intro l hl hcl
    obtain ⟨piece, hpiece, rfl⟩ := List.mem_map.mp hl
    exact mem_of_mem_splitWhere (List.dropLast_subset _ hpiece) (mem_of_mem_dropReturn hcl)
  unfold lines at hline
  dsimp only at hline
  split at hline
  next => exact hclosed hline hc
  next => exact hclosed hline hc
  next rest _ hlast =>
    rcases List.mem_append.mp hline with hline | hline
    · exact hclosed hline hc
    · obtain rfl := List.mem_singleton.mp hline
      exact mem_of_mem_splitWhere (List.mem_of_getLast? hlast) hc

theorem trimmed_eq_empty_iff {s : String} : trimmed s = "" ↔ ∀ c ∈ s.toList, isBlank c = true := by
  rw [trimmed, String.ofList_eq_empty_iff, trim, trimWhere, dropEndWhile, List.reverse_eq_nil_iff]
  constructor
  · intro h c hc
    by_contra hvisible
    -- the text up to its first visible character goes, and that character stays
    have hne : s.toList.dropWhile isBlank ≠ [] := fun hnil =>
      hvisible (List.dropWhile_eq_nil_iff.mp hnil c hc)
    have hhead := List.head_dropWhile_not isBlank hne
    have := List.dropWhile_eq_nil_iff.mp h _ (List.mem_reverse.mpr (List.head_mem hne))
    rw [hhead] at this
    cases this
  · intro h
    rw [List.dropWhile_eq_nil_iff.mpr h]
    rfl

end Text

namespace Doc

theorem firstParagraph_eq_none {cs : List Char} (h : ∀ c ∈ cs, isBlank c = true) :
    firstParagraph cs = none :=
  firstParagraph_eq_none_iff.mpr (.blank fun _ hline =>
    List.all_eq_true.mpr fun c hc => h c (mem_of_mem_lines hline hc))

/-- A text that is trimmed to nothing has no synopsis. -/
theorem View.synopsis_eq_empty (v : View) {text : String} (h : trimmed text = "") :
    v.synopsis text = "" := by
  have hblank : ∀ c ∈ firstSentence text.toList, isBlank c = true := fun c hc =>
    trimmed_eq_empty_iff.mp h c (firstSentence_subset _ hc)
  unfold View.synopsis
  dsimp only
  rw [firstParagraph_eq_none hblank]
  split
  next => rfl
  next => rfl

end Doc

/-! ## Keys that are written -/

/-- A map that was empty holds exactly the keys that are written. -/
theorem CommentMap.isSome_get?_insertAll {es : List Entry} {key : String} :
    ((CommentMap.empty.insertAll es).get? key).isSome = true ↔ ∃ text, (key, text) ∈ es := by
  rw [CommentMap.get?_insertAll, show CommentMap.empty.get? key = none from rfl, Option.or_none,
    CommentMap.lastText, ← Option.ne_none_iff_isSome, Ne, List.lookup_eq_none_iff]
  simp only [List.mem_reverse, Prod.forall, bne_iff_ne, ne_eq, not_forall, not_not]
  constructor
  · rintro ⟨_, text, hmem, rfl⟩
    exact ⟨text, hmem⟩
  · rintro ⟨text, hmem⟩
    exact ⟨key, text, hmem, rfl⟩

namespace Place

variable {q : Place} {importPath key : String} {f g : String → String}

/-- If a text that `f` records is recorded by `g`, then `g` writes under every key under which `f`
writes, for the two hand the same text on at each place. -/
theorem written_mono (hfg : ∀ text, f text ≠ "" → g text ≠ "") {text : String}
    (h : (key, text) ∈ q.written importPath f) : ∃ text, (key, text) ∈ q.written importPath g := by
  rw [written_eq_siteEntries, siteEntries, List.mem_append] at h
  rcases h with htype | hfield
  · obtain ⟨name, hname, hexported, hne, heq⟩ := mem_typeEntries_iff.mp htype
    obtain ⟨rfl, -⟩ := Prod.mk.inj heq
    refine ⟨g (typeDoc (q.context importPath g) q.before q.site), ?_⟩
    rw [written_eq_siteEntries, siteEntries, List.mem_append]
    exact Or.inl (mem_typeEntries_iff.mpr ⟨name, hname, hexported, hfg _ hne, rfl⟩)
  · refine ⟨text, ?_⟩
    rw [written_eq_siteEntries, siteEntries, List.mem_append]
    exact Or.inr hfield

/-- What `g` writes under a key under which `f` writes nothing is the entry of a type. -/
theorem type_of_written {text : String} (h : (key, text) ∈ q.written importPath g)
    (hnot : ¬∃ text, (key, text) ∈ q.written importPath f) :
    ∃ name, typeName? q.source q.site.node = some name ∧ isExported name = true ∧
      key = importPath ++ "." ++ name := by
  rw [written_eq_siteEntries, siteEntries, List.mem_append] at h
  rcases h with htype | hfield
  · obtain ⟨name, hname, hexported, -, heq⟩ := mem_typeEntries_iff.mp htype
    exact ⟨name, hname, hexported, (Prod.mk.inj heq).1⟩
  · -- fields are recorded without `f` and `g`
    refine absurd ⟨text, ?_⟩ hnot
    rw [written_eq_siteEntries, siteEntries, List.mem_append]
    exact Or.inr hfield

end Place

/-! ## The two harvests -/

/-- The package has a type spec with a given exported name. -/
def Package.DeclaresType (p : Package) (name : String) : Prop :=
  ∃ q ∈ p.places, typeName? q.source q.site.node = some name ∧ isExported name = true

/-- A package that is harvested is loaded and has no faults, and its entries are what is written at
its places. -/
theorem harvest_eq_ok_iff {load : Load.Loader} {mode : Mode} {m m' : CommentMap} {path : String} :
    harvest load mode m path = .ok m' ↔
      validatePath path = .ok () ∧ ∃ p, load path = .ok p ∧ p.fault? = none ∧
        ∃ summarize, summarizer mode p = .ok summarize ∧
          m' = m.insertAll (p.places.flatMap (Place.written p.importPath summarize)) := by
  unfold harvest
  simp only [bind_eq_ok, pathEntries_eq_ok_iff, packageEntries_eq_ok_iff]
  constructor
  · rintro ⟨es, ⟨hpath, p, hp, hfault, summarize, hsum, rfl⟩, hm⟩
    exact ⟨hpath, p, hp, hfault, summarize, hsum, (Except.ok.inj hm).symm⟩
  · rintro ⟨hpath, p, hp, hfault, summarize, hsum, rfl⟩
    exact ⟨_, ⟨hpath, p, hp, hfault, summarize, hsum, rfl⟩, rfl⟩

/-- **The modes agree on everything but the length of the comments of types.** Where a package is
harvested with synopses it is harvested with whole comments too. Both maps hold the same at every
key of a field, every key of the first is a key of the second, and a key that only the second has is
the key of a type. -/
theorem modes_agree {load : Load.Loader} (hload : Load.Parses load) {path : String} {m : CommentMap}
    (h : harvest load .synopsis .empty path = .ok m) :
    ∃ p m', load path = .ok p ∧ harvest load .full .empty path = .ok m' ∧
      (∀ key, (m.get? key).isSome = true → (m'.get? key).isSome = true) ∧
      (∀ type field, m.get? (p.importPath ++ "." ++ type ++ "." ++ field)
        = m'.get? (p.importPath ++ "." ++ type ++ "." ++ field)) ∧
      ∀ key, (m'.get? key).isSome = true → m.get? key = none →
        ∃ name, p.DeclaresType name ∧ key = p.importPath ++ "." ++ name := by
  obtain ⟨hpath, p, hp, hfault, summarize, hsum, hm⟩ := harvest_eq_ok_iff.mp h
  obtain ⟨view, -, rfl⟩ := view_of_summarizer rfl hsum
  have hfull : harvest load .full .empty path
      = .ok (CommentMap.empty.insertAll (p.places.flatMap (Place.written p.importPath trimmed))) :=
    harvest_eq_ok_iff.mpr ⟨hpath, p, hp, hfault, trimmed, rfl, rfl⟩
  have hmono : ∀ text, view.synopsis text ≠ "" → trimmed text ≠ "" := fun text hne hempty =>
    hne (view.synopsis_eq_empty hempty)
  refine ⟨p, _, hp, hfull, ?_, ?_, ?_⟩
  · intro key hkey
    rw [hm, CommentMap.isSome_get?_insertAll] at hkey
    obtain ⟨text, hmem⟩ := hkey
    obtain ⟨q, hq, hwritten⟩ := List.mem_flatMap.mp hmem
    obtain ⟨text', hwritten'⟩ := Place.written_mono hmono hwritten
    exact CommentMap.isSome_get?_insertAll.mpr ⟨text', List.mem_flatMap.mpr ⟨q, hq, hwritten'⟩⟩
  · intro type field
    rw [get?_harvest hload hp h, get?_harvest hload hp hfull]
  · intro key hkey hnone
    obtain ⟨text, hmem⟩ := CommentMap.isSome_get?_insertAll.mp hkey
    obtain ⟨q, hq, hwritten⟩ := List.mem_flatMap.mp hmem
    have hnot : ¬∃ text, (key, text) ∈ q.written p.importPath view.synopsis := by
      rintro ⟨text', hwritten'⟩
      have hsome : (m.get? key).isSome = true := by
        rw [hm]
        exact CommentMap.isSome_get?_insertAll.mpr ⟨text', List.mem_flatMap.mpr ⟨q, hq, hwritten'⟩⟩
      rw [hnone] at hsome
      cases hsome
    obtain ⟨name, hname, hexported, rfl⟩ := Place.type_of_written hwritten hnot
    exact ⟨name, ⟨q, hq, hname, hexported⟩, rfl⟩

/-- A notice above a type has no synopsis, and the field of the type is recorded in both modes. -/
theorem modes_agree_on_notice :
    let source := "package p\n\n// Copyright 2024.\ntype T struct \x7b\n\tF int // F of T.\n\x7d\n"
    let load := Load.memory [⟨"example.com/p", "p.go", source⟩]
    ∃ m m', harvest load .synopsis .empty "example.com/p" = .ok m ∧
      harvest load .full .empty "example.com/p" = .ok m' ∧
      m.entries = [("example.com/p.T.F", "F of T.")] ∧
      (m'.get? "example.com/p.T").isSome = true ∧ (m'.get? "example.com/p.T.F").isSome = true := by
  intro source load
  have hfacts : (harvest load .synopsis .empty "example.com/p").toOption.map (·.entries)
        = some [("example.com/p.T.F", "F of T.")] ∧
      ((harvest load .full .empty "example.com/p").toOption.bind (·.get? "example.com/p.T")).isSome
        = true := by decide +kernel
  obtain ⟨hsynopsis, hfull⟩ := hfacts
  cases hm : harvest load .synopsis .empty "example.com/p" with
  | error e =>
    rw [hm] at hsynopsis
    cases hsynopsis
  | ok m =>
    rw [hm] at hsynopsis
    have hentries : m.entries = [("example.com/p.T.F", "F of T.")] := Option.some.inj hsynopsis
    obtain ⟨p, m', -, hm', hkeys, -, -⟩ := modes_agree (Load.parses_memory _) hm
    rw [hm'] at hfull
    refine ⟨m, m', rfl, hm', hentries, hfull, hkeys _ ?_⟩
    rw [CommentMap.get?, hentries]
    rfl

end DocHarvest
