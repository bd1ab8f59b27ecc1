import DocHarvest.Proofs.ImportPaths

/-!
# Where a normalized path leads

A path leads from one directory to another, piece by piece (`resolveFrom`). A path from the root is
normalized to a path that leads to the same place. A relative path goes up some directories, as many
as it has two dots with no name left to take back, and then down through the names that are left
(`Ascent`). A normalized path keeps these names. Of the ways up it keeps one at most: with nothing
to take back two dots are put in front, and the next two dots take those away again
(`foldl_resolveComponent_pieces`). So it leads to the same place exactly if the path goes up no more
than once (`resolveFrom_normalize_iff`), and otherwise to one an even number of directories further
down.
-/

namespace DocHarvest.Host

open DocHarvest.Text

/-! ## Paths seen from a directory -/

/-- The location to which a path leads from another one. From everywhere a path from the root leads
to the same place. -/
def resolveFrom (base : Location) (path : String) : Location :=
  (split '/' path.toList).foldl resolvePiece (if Path.isAbsolute path then [] else base)

/-- No two dots among the pieces of a path are seen from the root. -/
def StaysBelow (loc : Location) (pieces : List (List Char)) : Prop :=
  ∀ front back, pieces = front ++ ['.', '.'] :: back → front.foldl resolvePiece loc ≠ []

/-- A path never goes up from the root. -/
def StaysBelowRoot (base : Location) (path : String) : Prop :=
  StaysBelow (if Path.isAbsolute path then [] else base) (split '/' path.toList)

theorem resolveFrom_of_isAbsolute {path : String} (habs : Path.isAbsolute path = true)
    (base : Location) : resolveFrom base path = resolve path := by
  rw [resolveFrom, if_pos habs, resolve]

theorem resolveFrom_of_relative {path : String} (hrel : Path.isAbsolute path = false)
    (base : Location) :
    resolveFrom base path = (split '/' path.toList).foldl resolvePiece base := by
  rw [resolveFrom, if_neg (Bool.eq_false_iff.mp hrel)]

/-! ## Ascents -/

/-- What a relative path does: it goes up some directories, and then down through names. -/
structure Ascent where
  up : Nat
  names : Location

namespace Ascent

/-- One more piece of a path. Two dots take back a name, or go up if there is none. -/
def step (a : Ascent) (piece : List Char) : Ascent :=
  match Component.ofPiece piece with
  | some (.name s) => { a with names := a.names ++ [s] }
  | some .parent =>
    if a.names = [] then { a with up := a.up + 1 } else { a with names := a.names.dropLast }
  | _ => a

/-- What a relative path does. -/
def ofPath (path : String) : Ascent :=
  (split '/' path.toList).foldl step ⟨0, []⟩

/-- Where an ascent leads from a location that is deep enough. -/
def goFrom (a : Ascent) (base : Location) : Location :=
  base.take (base.length - a.up) ++ a.names

theorem goFrom_start (base : Location) : (⟨0, []⟩ : Ascent).goFrom base = base := by
  rw [goFrom, List.append_nil, Nat.sub_zero, List.take_length]

/-- An ascent as the components of a path. -/
def components (a : Ascent) : List Component :=
  List.replicate a.up .parent ++ a.names.map .name

/-- What normalizing keeps of an ascent: of the ways up, two take each other away. -/
def kept (a : Ascent) : Ascent :=
  { a with up := a.up % 2 }

/-- A piece is no component, two dots or a name. -/
theorem ofPiece_cases (piece : List Char) :
    Component.ofPiece piece = none ∨
      (Component.ofPiece piece = some .parent ∧ piece = ['.', '.']) ∨
      ∃ s, Component.ofPiece piece = some (.name s) ∧ s.toList = piece := by
  unfold Component.ofPiece
  split
  next => exact Or.inl rfl
  next =>
    split
    next hdots => exact Or.inr (Or.inl ⟨rfl, hdots⟩)
    next => exact Or.inr (Or.inr ⟨_, rfl, String.toList_ofList⟩)

section

variable {a : Ascent} {base : Location} {piece : List Char}

/-- The step: an ascent and one more piece lead where the piece leads from there. It needs one more
directory to go up at most if the piece goes up from the root. -/
theorem goFrom_step (hdeep : a.up ≤ base.length)
    (hbelow : piece = ['.', '.'] → a.goFrom base ≠ []) :
    (a.step piece).up ≤ base.length ∧
      (a.step piece).goFrom base = resolvePiece (a.goFrom base) piece := by
  unfold step resolvePiece
  rcases ofPiece_cases piece with hpiece | ⟨hpiece, hdots⟩ | ⟨s, hpiece, -⟩
  · rw [hpiece]
    exact ⟨hdeep, rfl⟩
  · rw [hpiece]
    dsimp only
    by_cases hnames : a.names = []
    · -- there is a directory left to go up from
      have hne := hbelow hdots
      rw [goFrom, hnames, List.append_nil, Ne, List.take_eq_nil_iff] at hne
      have hdrop : (base.take (base.length - a.up)).dropLast
          = base.take (base.length - (a.up + 1)) := by
        rw [List.dropLast_eq_take, List.take_take, List.length_take]
        congr 1
        omega
      rw [if_pos hnames, goFrom, goFrom, hnames, List.append_nil, List.append_nil, hdrop]
      exact ⟨by dsimp only; omega, rfl⟩
    · rw [if_neg hnames, goFrom, goFrom, List.dropLast_append_of_ne_nil hnames]
      exact ⟨hdeep, rfl⟩
  · rw [hpiece]
    exact ⟨hdeep, (List.append_assoc _ _ _).symm⟩

/-- Two dots seen from the root need one more directory than there is. -/
theorem lt_up_step (hroot : a.goFrom base = []) :
    base.length < (a.step ['.', '.']).up := by
  obtain ⟨hfront, hnames⟩ := List.append_eq_nil_iff.mp hroot
  have hdots : Component.ofPiece ['.', '.'] = some .parent := rfl
  rw [List.take_eq_nil_iff] at hfront
  rw [step, hdots]
  dsimp only
  rw [if_pos hnames]
  dsimp only
  rcases hfront with hup | hbase
  · omega
  · rw [hbase, List.length_nil]
    exact Nat.succ_pos _

/-- An ascent goes up no less for one more piece. -/
theorem up_le_up_step (a : Ascent) (piece : List Char) : a.up ≤ (a.step piece).up := by
  unfold step
  split
  next => exact Nat.le_refl _
  next =>
    split
    next => exact Nat.le_succ _
    next => exact Nat.le_refl _
  next => exact Nat.le_refl _

theorem up_le_up_foldl (a : Ascent) (pieces : List (List Char)) :
    a.up ≤ (pieces.foldl step a).up := by
  induction pieces generalizing a with
  | nil => exact Nat.le_refl _
  | cons piece pieces ih => exact Nat.le_trans (a.up_le_up_step piece) (ih _)

/-- The run: pieces that stay below the root lead where their ascent leads. -/
theorem goFrom_foldl {pieces : List (List Char)} (hdeep : a.up ≤ base.length)
    (hbelow : StaysBelow (a.goFrom base) pieces) :
    (pieces.foldl step a).up ≤ base.length ∧
      (pieces.foldl step a).goFrom base = pieces.foldl resolvePiece (a.goFrom base) := by
  induction pieces generalizing a with
  | nil => exact ⟨hdeep, rfl⟩
  | cons piece pieces ih =>
    have hfirst : piece = ['.', '.'] → a.goFrom base ≠ [] := by
      rintro rfl
      exact hbelow [] pieces rfl
    obtain ⟨hstep, hgo⟩ := goFrom_step hdeep hfirst
    rw [List.foldl_cons, List.foldl_cons, ← hgo]
    refine ih hstep ?_
    intro front back heq
    rw [hgo]
    exact hbelow (piece :: front) back (congrArg (piece :: ·) heq)

/-- Pieces that go up from the root need more directories than there are. -/
theorem staysBelow_of_up_le {pieces : List (List Char)} (hdeep : a.up ≤ base.length)
    (hup : (pieces.foldl step a).up ≤ base.length) : StaysBelow (a.goFrom base) pieces := by
  induction pieces generalizing a with
  | nil =>
    intro front back heq
    cases front <;> cases heq
  | cons piece pieces ih =>
    rw [List.foldl_cons] at hup
    have hstep : (a.step piece).up ≤ base.length := Nat.le_trans (up_le_up_foldl _ pieces) hup
    have hfirst : piece = ['.', '.'] → a.goFrom base ≠ [] := by
      rintro rfl hroot
      exact absurd (lt_up_step hroot) (Nat.not_lt.mpr hstep)
    intro front back heq
    cases front with
    | nil => exact hfirst (List.cons.inj heq).1
    | cons first front =>
      obtain ⟨rfl, hrest⟩ := List.cons.inj heq
      rw [List.foldl_cons, ← (goFrom_step hdeep hfirst).2]
      exact ih hstep hup front back hrest

end

/-! ## Normalized paths -/

/-- The step: a component is resolved in what is kept of an ascent. -/
theorem resolveComponent_kept (a : Ascent) (piece : List Char) :
    (Component.ofPiece piece).toList.foldl Path.resolveComponent a.kept.components
      = (a.step piece).kept.components := by
  unfold step
  rcases ofPiece_cases piece with hpiece | ⟨hpiece, -⟩ | ⟨s, hpiece, -⟩
  · rw [hpiece]
    rfl
  · rw [hpiece]
    show Path.resolveComponent a.kept.components .parent = _
    dsimp only
    rcases List.eq_nil_or_concat a.names with hnames | ⟨front, last, hnames⟩
    · rw [if_pos hnames]
      unfold kept components
      dsimp only
      rw [hnames, List.map_nil, List.append_nil, List.append_nil]
      rcases Nat.mod_two_eq_zero_or_one a.up with heven | hodd
      · have hnext : (a.up + 1) % 2 = 1 := by omega
        rw [heven, hnext]
        rfl
      · have hnext : (a.up + 1) % 2 = 0 := by omega
        rw [hodd, hnext]
        rfl
    · rw [List.concat_eq_append] at hnames
      rw [if_neg (by rw [hnames]; simp)]
      unfold kept components
      dsimp only
      rw [hnames, List.dropLast_concat, List.map_append, ← List.append_assoc]
      exact resolveComponent_concat_parent _ last
  · rw [hpiece]
    show _ ++ [Component.name s] = List.replicate _ _ ++ (a.names ++ [s]).map .name
    rw [List.map_append, ← List.append_assoc]
    rfl

/-- The run: components are resolved to what is kept of their ascent. -/
theorem foldl_resolveComponent_pieces (a : Ascent) (pieces : List (List Char)) :
    (pieces.filterMap Component.ofPiece).foldl Path.resolveComponent a.kept.components
      = (pieces.foldl step a).kept.components := by
  induction pieces generalizing a with
  | nil => rfl
  | cons piece pieces ih =>
    rw [List.foldl_cons, ← ih, ← resolveComponent_kept, List.filterMap_cons]
    cases Component.ofPiece piece with
    | none => rfl
    | some c => rfl

theorem normalize_of_relative {path : String} (hrel : Path.isAbsolute path = false) :
    Path.normalize path = Path.ofComponents (ofPath path).kept.components := by
  have hfold := foldl_resolveComponent_pieces ⟨0, []⟩ (split '/' path.toList)
  rw [Path.normalize, Path.components, hrel, if_neg Bool.false_ne_true, List.foldl_append]
  -- a dot in front is passed over
  split
  next => exact congrArg Path.ofComponents hfold
  next => exact congrArg Path.ofComponents hfold

/-! ## Reading an ascent off its path -/

theorem named_step {a : Ascent} {piece : List Char} (ha : Named a.names) (hpiece : '/' ∉ piece) :
    Named (a.step piece).names := by
  unfold step Component.ofPiece
  split
  next s hs =>
    split at hs
    next => cases hs
    next hdot =>
      split at hs
      next => cases hs
      next hdots =>
        cases hs
        intro t ht
        rcases List.mem_append.mp ht with ht | ht
        · exact ha t ht
        · rw [List.mem_singleton.mp ht]
          exact isName_of_piece hpiece hdot hdots
  next =>
    split
    next => exact ha
    next => exact fun t ht => ha t (List.dropLast_subset _ ht)
  next => exact ha

theorem named_foldl_step {a : Ascent} {pieces : List (List Char)} (ha : Named a.names)
    (hpieces : ∀ piece ∈ pieces, '/' ∉ piece) : Named (pieces.foldl step a).names := by
  induction pieces generalizing a with
  | nil => exact ha
  | cons piece pieces ih =>
    obtain ⟨hpiece, hrest⟩ := List.forall_mem_cons.mp hpieces
    exact ih (named_step ha hpiece) hrest

theorem named_names_ofPath (path : String) : Named (ofPath path).names :=
  named_foldl_step named_nil fun _ => sep_notMem_of_mem_split

/-- The texts between the slashes of a path that makes an ascent. -/
def texts (a : Ascent) : List String :=
  List.replicate a.up ".." ++ a.names

theorem ofComponents_components (a : Ascent) :
    Path.ofComponents a.components = "/".intercalate a.texts := by
  have htexts : a.components.map (·.text) = a.texts := by
    rw [components, List.map_append, List.map_replicate, List.map_map,
      show (Component.text ∘ Component.name) = id from rfl, List.map_id]
    rfl
  unfold Path.ofComponents
  split
  next hroot =>
    have hmem : Component.root ∈ a.components := by
      rw [hroot]
      exact List.mem_singleton_self _
    rcases List.mem_append.mp hmem with hmem | hmem
    · cases List.eq_of_mem_replicate hmem
    · obtain ⟨s, -, hs⟩ := List.mem_map.mp hmem
      cases hs
  next => rw [htexts]

theorem foldl_step_dots (k : Nat) :
    ((List.replicate k "..").map String.toList).foldl step ⟨0, []⟩ = ⟨k, []⟩ := by
  induction k with
  | zero => rfl
  | succ k ih =>
    rw [List.replicate_succ', List.map_append, List.foldl_append, ih]
    rfl

theorem foldl_step_names {names : Location} (h : Named names) (a : Ascent) :
    (names.map String.toList).foldl step a = { a with names := a.names ++ names } := by
  induction names generalizing a with
  | nil =>
    rw [List.append_nil]
    rfl
  | cons s names ih =>
    obtain ⟨hs, hrest⟩ := List.forall_mem_cons.mp h
    have hstep : a.step s.toList = { a with names := a.names ++ [s] } := by
      rw [step, hs.component]
    rw [List.map_cons, List.foldl_cons, hstep, ih hrest, List.append_assoc, List.singleton_append]

theorem foldl_step_texts (a : Ascent) (h : Named a.names) :
    (a.texts.map String.toList).foldl step ⟨0, []⟩ = a := by
  rw [texts, List.map_append, List.foldl_append, foldl_step_dots, foldl_step_names h]
  rfl

section

variable {a : Ascent} (h : Named a.names)
include h

theorem slash_notMem_texts : ∀ s ∈ a.texts, '/' ∉ s.toList := by
  intro s hs
  rcases List.mem_append.mp hs with hs | hs
  · rw [List.eq_of_mem_replicate hs]
    decide
  · exact (h s hs).slash_notMem

/-- An ascent is read off the path that it makes. -/
theorem ofPath_ofComponents : ofPath (Path.ofComponents a.components) = a := by
  rw [ofComponents_components, ofPath]
  by_cases hnil : a.texts = []
  · have hread := foldl_step_texts a h
    rw [hnil] at hread ⊢
    exact hread
  · have hsplit : split '/' ("/".intercalate a.texts).toList = a.texts.map String.toList := by
      rw [String.toList_intercalate]
      refine split_intercalate (by simpa using hnil) fun piece hpiece => ?_
      obtain ⟨s, hs, rfl⟩ := List.mem_map.mp hpiece
      exact slash_notMem_texts h s hs
    rw [hsplit, foldl_step_texts a h]

theorem isAbsolute_ofComponents : Path.isAbsolute (Path.ofComponents a.components) = false := by
  rw [ofComponents_components]
  cases htexts : a.texts with
  | nil => rfl
  | cons s rest =>
    have hmem : s ∈ a.texts := by
      rw [htexts]
      exact List.mem_cons_self
    have hne : s.toList ≠ [] := by
      rcases List.mem_append.mp hmem with hs | hs
      · rw [List.eq_of_mem_replicate hs]
        decide
      · exact (h s hs).toList_ne_nil
    exact Load.isAbsolute_intercalate hne (slash_notMem_texts h s hmem) rest

end

end Ascent

/-! ## Where normalized paths lead -/

section

variable {base : Location} {path : String}

/-- A relative path stays below the root exactly if its ascent does. -/
theorem staysBelowRoot_iff (hrel : Path.isAbsolute path = false) :
    StaysBelowRoot base path ↔ (Ascent.ofPath path).up ≤ base.length := by
  rw [StaysBelowRoot, if_neg (Bool.eq_false_iff.mp hrel)]
  constructor
  · intro h
    rw [← Ascent.goFrom_start base] at h
    exact (Ascent.goFrom_foldl (Nat.zero_le _) h).1
  · intro h
    rw [← Ascent.goFrom_start base]
    exact Ascent.staysBelow_of_up_le (Nat.zero_le _) h

/-- A relative path leads where its ascent leads. -/
theorem resolveFrom_eq_goFrom (hrel : Path.isAbsolute path = false)
    (hdeep : (Ascent.ofPath path).up ≤ base.length) :
    resolveFrom base path = (Ascent.ofPath path).goFrom base := by
  have hbelow : StaysBelow ((⟨0, []⟩ : Ascent).goFrom base) (split '/' path.toList) :=
    Ascent.staysBelow_of_up_le (Nat.zero_le _) hdeep
  rw [resolveFrom_of_relative hrel, Ascent.ofPath, (Ascent.goFrom_foldl (Nat.zero_le _) hbelow).2,
    Ascent.goFrom_start]

/-- A path from the root is normalized to one that leads to the same place. -/
theorem resolveFrom_normalize_of_isAbsolute (habs : Path.isAbsolute path = true) :
    resolveFrom base (Path.normalize path) = resolveFrom base path := by
  obtain ⟨cs, hlead, hnormal⟩ := exists_leadTo_normalize habs
  have hresolve := hlead.resolve_ofComponents (named_resolve path)
  have habs' : Path.isAbsolute (Path.ofComponents cs) = true := by
    rcases hlead with rfl | rfl
    · rw [ofComponents_componentsTo]
      exact isAbsolute_pathTo _
    · rw [ofComponents_componentsAbove]
      exact isAbsolute_pathTo _
  rw [hnormal, resolveFrom_of_isAbsolute habs', resolveFrom_of_isAbsolute habs, hresolve]

/-- A relative path is normalized to one that leads where what is kept of its ascent leads. -/
theorem resolveFrom_normalize_of_relative (hrel : Path.isAbsolute path = false)
    (hdeep : (Ascent.ofPath path).up ≤ base.length) :
    resolveFrom base (Path.normalize path) = (Ascent.ofPath path).kept.goFrom base := by
  have hnamed : Named (Ascent.ofPath path).kept.names := Ascent.named_names_ofPath path
  have hkept : (Ascent.ofPath path).kept.up ≤ base.length :=
    Nat.le_trans (Nat.mod_le _ _) hdeep
  have hread := Ascent.ofPath_ofComponents hnamed
  rw [Ascent.normalize_of_relative hrel]
  rw [resolveFrom_eq_goFrom (Ascent.isAbsolute_ofComponents hnamed) (by rw [hread]; exact hkept),
    hread]

/-- **A normalized path leads where the path leads, unless a relative path goes up twice.** Seen
from a directory that is so deep that the path never goes up from the root, both lead to the same
place exactly if the path starts at the root, or goes up no more than one directory. -/
theorem resolveFrom_normalize_iff (hbelow : StaysBelowRoot base path) :
    resolveFrom base (Path.normalize path) = resolveFrom base path ↔
      Path.isAbsolute path = true ∨ (Ascent.ofPath path).up ≤ 1 := by
  cases hrel : Path.isAbsolute path with
  | true =>
    exact iff_of_true (resolveFrom_normalize_of_isAbsolute hrel) (Or.inl rfl)
  | false =>
    have hdeep := (staysBelowRoot_iff hrel).mp hbelow
    rw [resolveFrom_normalize_of_relative hrel hdeep, resolveFrom_eq_goFrom hrel hdeep,
      or_iff_right Bool.false_ne_true]
    -- the names are the same, so the two differ in how far they go up
    show base.take _ ++ (Ascent.ofPath path).names = base.take _ ++ (Ascent.ofPath path).names ↔ _
    rw [List.append_cancel_right_eq, List.take_eq_take_iff]
    show min (base.length - (Ascent.ofPath path).up % 2) base.length = _ ↔ _
    omega

end

/-- A path that goes up two directories is normalized to one that does not go up at all. -/
theorem resolveFrom_normalize_of_two_up :
    StaysBelowRoot ["a", "b"] "../../p" ∧ (Ascent.ofPath "../../p").up = 2 ∧
      resolveFrom ["a", "b"] "../../p" = ["p"] ∧
      resolveFrom ["a", "b"] (Path.normalize "../../p") = ["a", "b", "p"] ∧
      ¬resolveFrom ["a", "b"] (Path.normalize "../../p") = resolveFrom ["a", "b"] "../../p" := by
  have hbelow : StaysBelowRoot ["a", "b"] "../../p" :=
    (staysBelowRoot_iff (by decide)).mpr (by decide)
  refine ⟨hbelow, by decide, by decide, by decide, ?_⟩
  rw [resolveFrom_normalize_iff hbelow]
  decide

end DocHarvest.Host
