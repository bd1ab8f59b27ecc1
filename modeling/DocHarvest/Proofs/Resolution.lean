import DocHarvest.Proofs.Directories
import Mathlib.Data.List.Induction

/-!
# Resolving paths by their text

A path is resolved piece by piece: a name goes down, two dots go up, and one dot or nothing between
two slashes stays (`resolve?`). A path that goes up from the root leads nowhere. `Path.normalize`
works on components instead and gives back a path; where the path leads somewhere it gives the path
of that location, without dots and with one slash between names (`normalize_eq_pathTo`), and the
components of that path are the names on the way (`components_pathTo`). So what is found through a
normalized path depends on its location only.
-/

namespace DocHarvest.Host

open DocHarvest.Text

/-- The components of the path of a location. -/
def componentsTo (loc : Location) : List Component :=
  .root :: loc.map .name

/-- One piece of a path, seen from a location. Nothing is above the root. -/
def resolvePiece? (loc : Location) (piece : List Char) : Option Location :=
  if piece = [] ∨ piece = ['.'] then some loc
  else if piece = ['.', '.'] then if loc = [] then none else some loc.dropLast
  else some (loc ++ [String.ofList piece])

/-- The location to which a path leads from another one by its text alone. -/
def resolve? (start : Location) (path : String) : Option Location :=
  (split '/' path.toList).foldlM resolvePiece? (if Path.isAbsolute path then [] else start)

/-- The names on the way to a location can name files. -/
def Named (loc : Location) : Prop :=
  ∀ s ∈ loc, IsName s

theorem named_nil : Named [] := by
  intro s hs
  cases hs

/-! ## Pieces and components -/

theorem isName_of_piece {piece : List Char} (hslash : '/' ∉ piece)
    (hdot : ¬(piece = [] ∨ piece = ['.'])) (hdots : piece ≠ ['.', '.']) :
    IsName (String.ofList piece) := by
  refine ⟨by rwa [String.toList_ofList], ?_⟩
  rw [String.toList_ofList, Component.ofPiece, if_neg hdot, if_neg hdots]

theorem IsName.toList_ne_nil {s : String} (h : IsName s) : s.toList ≠ [] := by
  intro hnil
  have hcomponent := h.component
  rw [hnil] at hcomponent
  cases hcomponent

theorem componentsTo_concat (loc : Location) (s : String) :
    componentsTo (loc ++ [s]) = componentsTo loc ++ [.name s] := by
  rw [componentsTo, List.map_append, ← List.cons_append]
  rfl

theorem ofComponents_componentsTo (loc : Location) :
    Path.ofComponents (componentsTo loc) = pathTo loc := by
  cases loc with
  | nil => rfl
  | cons s loc =>
    show "/".intercalate ("" :: s :: (loc.map Component.name).map Component.text) = _
    rw [List.map_map, show (Component.text ∘ Component.name) = id from rfl, List.map_id]
    rw [String.intercalate_cons_cons, String.empty_append]
    rfl

theorem toList_pathTo (loc : Location) :
    (pathTo loc).toList = '/' :: List.intercalate ['/'] (loc.map String.toList) := by
  rw [pathTo, String.toList_append, String.toList_intercalate]
  rfl

theorem isAbsolute_pathTo (loc : Location) : Path.isAbsolute (pathTo loc) = true := by
  rw [Path.isAbsolute, toList_pathTo]
  rfl

/-- The pieces of the path of a location are its names, after nothing. -/
theorem split_pathTo {loc : Location} (h : ∀ s ∈ loc, '/' ∉ s.toList) (hne : loc ≠ []) :
    split '/' (pathTo loc).toList = [] :: loc.map String.toList := by
  have hpieces : split '/' (List.intercalate ['/'] (loc.map String.toList))
      = loc.map String.toList := by
    refine split_intercalate (by simpa using hne) fun piece hpiece => ?_
    obtain ⟨s, hs, rfl⟩ := List.mem_map.mp hpiece
    exact h s hs
  rw [toList_pathTo, show '/' :: List.intercalate ['/'] (loc.map String.toList)
    = [] ++ '/' :: List.intercalate ['/'] (loc.map String.toList) from rfl, split_append_cons,
    hpieces]
  rfl

theorem filterMap_ofPiece {loc : Location} (h : Named loc) :
    (loc.map String.toList).filterMap Component.ofPiece = loc.map Component.name := by
  rw [List.filterMap_map, ← List.filterMap_eq_map]
  exact List.filterMap_congr fun s hs => (h s hs).component

theorem components_pathTo {loc : Location} (h : Named loc) :
    Path.components (pathTo loc) = componentsTo loc := by
  by_cases hne : loc = []
  · rw [hne]
    rfl
  rw [Path.components]
  simp only [isAbsolute_pathTo, if_true, split_pathTo (fun s hs => (h s hs).slash_notMem) hne]
  show .root :: (loc.map String.toList).filterMap Component.ofPiece = _
  rw [filterMap_ofPiece h]
  rfl

theorem isEmpty_of_isAbsolute {path : String} (habs : Path.isAbsolute path = true) :
    path.isEmpty = false := by
  rw [← Bool.not_eq_true]
  intro hempty
  rw [String.isEmpty_iff.mp hempty] at habs
  cases habs

theorem isEmpty_pathTo (loc : Location) : (pathTo loc).isEmpty = false :=
  isEmpty_of_isAbsolute (isAbsolute_pathTo loc)

section

variable {path root q : String} {start loc : Location}

theorem isAbsolute_append (habs : Path.isAbsolute root = true) (rest : String) :
    Path.isAbsolute (root ++ rest) = true := by
  unfold Path.isAbsolute at habs ⊢
  rw [decide_eq_true_eq] at habs ⊢
  rw [String.toList_append, List.head?_append, habs, Option.some_or]

theorem isAbsolute_join (habs : Path.isAbsolute root = true) :
    Path.isAbsolute (Path.join root q) = true := by
  unfold Path.join
  split
  next h =>
    rcases Bool.or_eq_true_iff.mp h with hq | hempty
    · exact hq
    · rw [isEmpty_of_isAbsolute habs] at hempty
      cases hempty
  next =>
    split
    next => exact isAbsolute_append habs q
    next =>
      rw [String.append_assoc]
      exact isAbsolute_append habs _

end

/-! ## A slash at the end -/

end DocHarvest.Host
