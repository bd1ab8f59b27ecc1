import DocHarvest.Proofs.Batches
import DocHarvest.Proofs.Overlay
import DocHarvest.Proofs.Symbols
import Mathlib.Data.List.Pairwise

/-!
# Packages as layers

A harvest does not look at the map that it adds to. So a package has one map of its own, the one
that is harvested from nothing, and every harvest of the package lays that map over the one at hand
(`harvest_lays_over`). A batch lays one map after the other (`harvestAll_eq_foldl`).

Layers can change places if no key is in both of them (`CommentMap.overlay_comm`). All keys of a
package start with its import path and a dot. Two such starts of one key are starts of each other,
so the keys of two packages meet only if the import paths are the same or one of them goes on with a
dot where the other ends (`Package.KeysApart`). Where that is ruled out, a batch can be harvested in
any order (`harvestAll_perm`).
-/

namespace DocHarvest

/-! ## Layers that change places -/

namespace CommentMap

/-- Two maps without a common key can be laid over a map in either order. -/
theorem overlay_comm {v w : CommentMap} (h : ∀ key, v.get? key = none ∨ w.get? key = none)
    (m : CommentMap) : (m.overlay v).overlay w = (m.overlay w).overlay v := by
  apply ext_get?
  intro key
  simp only [get?_overlay]
  rcases h key with hv | hw
  · rw [hv, Option.none_or, Option.none_or]
  · rw [hw, Option.none_or, Option.none_or]

/-- Entries that are added to the empty map are found again. -/
theorem mem_of_get?_insertAll {es : List Entry} {key text : String}
    (h : (empty.insertAll es).get? key = some text) : (key, text) ∈ es := by
  rw [get?_insertAll, show empty.get? key = none from rfl, Option.or_none, lastText] at h
  obtain ⟨front, back, hsplit, -⟩ := List.lookup_eq_some_iff.mp h
  rw [← List.mem_reverse, hsplit]
  exact List.mem_append_right _ List.mem_cons_self

end CommentMap

namespace Harvest

open DocHarvest.Load

variable {load : Loader} {mode : Mode} {path : String} {w : CommentMap}

/-! ## One package -/

/-- The map of a package alone is made of its entries. -/
theorem harvest_empty_eq_ok_iff :
    harvest load mode .empty path = .ok w ↔
      ∃ es, pathEntries load mode path = .ok es ∧ w = CommentMap.empty.insertAll es := by
  rw [harvest_eq]
  cases pathEntries load mode path with
  | error e => simp [Except.map]
  | ok es => simp [Except.map, eq_comm]

/-- A package that is harvested is laid over the map at hand. -/
theorem harvest_eq_overlay (h : harvest load mode .empty path = .ok w) (m : CommentMap) :
    harvest load mode m path = .ok (m.overlay w) := by
  obtain ⟨es, hes, rfl⟩ := harvest_empty_eq_ok_iff.mp h
  rw [harvest_eq, hes, ← CommentMap.insertAll_eq_overlay]
  rfl

/-- **A harvest is an overlay.** Whether a package is harvested, and why not, is the same for every
map. If it is harvested, its map is laid over the one at hand: its keys take its texts and all other
keys keep theirs. So harvesting it again changes nothing, no key is lost, and a key that the package
does not have keeps its text. -/
theorem harvest_lays_over (load : Loader) (mode : Mode) (path : String) :
    (∀ m m' e, harvest load mode m path = .error e ↔ harvest load mode m' path = .error e) ∧
    ∀ w, harvest load mode .empty path = .ok w → ∀ m,
      harvest load mode m path = .ok (m.overlay w) ∧
      (harvestInPlace load mode path).run m = (.ok (), m.overlay w) ∧
      (∀ key, (m.overlay w).get? key = (w.get? key).or (m.get? key)) ∧
      harvest load mode (m.overlay w) path = .ok (m.overlay w) ∧
      (∀ key, (m.get? key).isSome = true → ((m.overlay w).get? key).isSome = true) ∧
      ∀ key, w.get? key = none → (m.overlay w).get? key = m.get? key := by
  refine ⟨?_, ?_⟩
  · intro m m' e
    rw [harvest_eq_error_iff, harvest_eq_error_iff]
  intro w hw m
  refine ⟨harvest_eq_overlay hw m, ?_, m.get?_overlay w, ?_, ?_, ?_⟩
  · rw [run_harvestInPlace, harvest_eq_overlay hw m]
  · -- the second layer hides nothing but itself
    have htwice : (m.overlay w).overlay w = m.overlay w := by
      apply CommentMap.ext_get?
      intro key
      rw [CommentMap.get?_overlay, CommentMap.get?_overlay, ← Option.or_assoc, Option.or_self]
    rw [harvest_eq_overlay hw, htwice]
  · intro key hkey
    rw [CommentMap.get?_overlay, Option.isSome_or, hkey, Bool.or_true]
  · intro key hkey
    rw [CommentMap.get?_overlay, hkey, Option.none_or]

/-! ## Batches -/

/-- What the package at a path adds to a map: nothing if it is refused. -/
def layer (load : Loader) (mode : Mode) (path : String) : CommentMap :=
  match harvest load mode .empty path with
  | .ok w => w
  | .error _ => .empty

/-- A batch without refused packages lays their maps over the one at hand, one after the other. -/
theorem harvestAll_eq_foldl {paths : List String}
    (hok : ∀ path ∈ paths, ∃ w, harvest load mode .empty path = .ok w) (m : CommentMap) :
    harvestAll load mode m paths
      = (paths.foldl (fun m path => m.overlay (layer load mode path)) m, .ok ()) := by
  induction paths generalizing m with
  | nil => rfl
  | cons path paths ih =>
    obtain ⟨⟨w, hw⟩, hrest⟩ := List.forall_mem_cons.mp hok
    have hlayer : layer load mode path = w := by rw [layer, hw]
    rw [harvestAll_cons_ok (harvest_eq_overlay hw m), ih hrest, List.foldl_cons, hlayer]

end Harvest

/-! ## Keys that cannot meet -/

/-- The keys of two packages cannot meet: the import paths are different, and neither of them goes
on with a dot where the other ends. -/
structure Package.KeysApart (p q : Package) : Prop where
  ne : p.importPath ≠ q.importPath
  left : ¬p.importPath.toList ++ ['.'] <+: q.importPath.toList
  right : ¬q.importPath.toList ++ ['.'] <+: p.importPath.toList

theorem Package.KeysApart.symm {p q : Package} (h : p.KeysApart q) : q.KeysApart p :=
  ⟨h.ne.symm, h.right, h.left⟩

/-- No text starts with the import paths of two such packages, each with a dot behind it. -/
theorem Package.KeysApart.not_both {p q : Package} (h : p.KeysApart q) {key : List Char}
    (hp : p.importPath.toList ++ ['.'] <+: key) (hq : q.importPath.toList ++ ['.'] <+: key) :
    False := by
  -- a start with a dot at its end is the whole of a longer one, or ends before the last dot of it
  have hstart : ∀ {x y : List Char}, x ++ ['.'] <+: y ++ ['.'] → x = y ∨ x ++ ['.'] <+: y := by
    intro x y hxy
    rcases List.prefix_concat_iff.mp hxy with heq | hpre
    · exact Or.inl (List.append_cancel_right heq)
    · exact Or.inr hpre
  rcases List.prefix_or_prefix_of_prefix hp hq with hpq | hqp
  · rcases hstart hpq with heq | hpre
    · exact h.ne (String.toList_injective heq)
    · exact h.left hpre
  · rcases hstart hqp with heq | hpre
    · exact h.ne (String.toList_injective heq).symm
    · exact h.right hpre

namespace Harvest

open DocHarvest.Load

variable {load : Loader} {mode : Mode} {path : String}

/-- The keys of a package start with its import path and a dot. -/
theorem prefix_of_mem_layer {p : Package} (hp : load path = .ok p) {key text : String}
    (h : (layer load mode path).get? key = some text) :
    p.importPath.toList ++ ['.'] <+: key.toList := by
  unfold layer at h
  split at h
  next w hw =>
    obtain ⟨es, hes, rfl⟩ := harvest_empty_eq_ok_iff.mp hw
    have hmem := CommentMap.mem_of_get?_insertAll h
    obtain ⟨-, p', hp', hes⟩ := pathEntries_eq_ok_iff.mp hes
    obtain rfl : p' = p := Except.ok.inj (hp'.symm.trans hp)
    obtain ⟨summarize, rfl⟩ := packageEntries_eq_written hes
    obtain ⟨q, -, hwritten⟩ := List.mem_flatMap.mp hmem
    obtain ⟨s, -, hkey⟩ := Place.records_of_mem_written hwritten
    rw [show key = s.key p'.importPath from hkey]
    exact s.prefix_key p'.importPath
  next => cases h

/-- The packages at two paths have keys that cannot meet. -/
def KeysApartAt (load : Loader) (path path' : String) : Prop :=
  ∀ p q, load path = .ok p → load path' = .ok q → p.KeysApart q

instance : Std.Symm (KeysApartAt load) where
  symm _ _ h p q hp hq := (h q p hq hp).symm

/-- A package that is harvested is loaded. -/
theorem loaded_of_harvest {w : CommentMap} (h : harvest load mode .empty path = .ok w) :
    ∃ p, load path = .ok p := by
  obtain ⟨es, hes, -⟩ := harvest_empty_eq_ok_iff.mp h
  obtain ⟨-, p, hp, -⟩ := pathEntries_eq_ok_iff.mp hes
  exact ⟨p, hp⟩

/-- Packages whose keys cannot meet can be harvested in either order. -/
theorem overlay_layer_comm {path' : String} {p q : Package} (hp : load path = .ok p)
    (hq : load path' = .ok q) (hapart : p.KeysApart q) (m : CommentMap) :
    (m.overlay (layer load mode path)).overlay (layer load mode path')
      = (m.overlay (layer load mode path')).overlay (layer load mode path) := by
  apply CommentMap.overlay_comm
  intro key
  cases hfirst : (layer load mode path).get? key with
  | none => exact Or.inl rfl
  | some text =>
    cases hsecond : (layer load mode path').get? key with
    | none => exact Or.inr rfl
    | some text' =>
      exact (hapart.not_both (prefix_of_mem_layer hp hfirst) (prefix_of_mem_layer hq hsecond)).elim

/-- **The order of packages does not matter where their keys cannot meet.** If all packages of a
batch are harvested and the keys of no two of them can meet, then the batch in any other order gives
the same map, whatever map it starts from, and every entry that a package has alone is in that
map. -/
theorem harvestAll_perm {paths : List String}
    (hok : ∀ path ∈ paths, ∃ w, harvest load mode .empty path = .ok w)
    (hapart : paths.Pairwise (KeysApartAt load)) (m : CommentMap) {paths' : List String}
    (hperm : paths'.Perm paths) :
    ∃ m', harvestAll load mode m paths = (m', .ok ()) ∧
      harvestAll load mode m paths' = (m', .ok ()) ∧
      ∀ path ∈ paths, ∀ w, harvest load mode .empty path = .ok w →
        ∀ key text, w.get? key = some text → m'.get? key = some text := by
  have hswap : ∀ a ∈ paths, ∀ b ∈ paths, ∀ m : CommentMap,
      (m.overlay (layer load mode a)).overlay (layer load mode b)
        = (m.overlay (layer load mode b)).overlay (layer load mode a) := by
    intro a ha b hb m
    by_cases heq : a = b
    · rw [heq]
    · obtain ⟨_, hw⟩ := hok a ha
      obtain ⟨_, hv⟩ := hok b hb
      obtain ⟨p, hp⟩ := loaded_of_harvest hw
      obtain ⟨q, hq⟩ := loaded_of_harvest hv
      exact overlay_layer_comm hp hq (hapart.forall ha hb heq p q hp hq) m
  have hfold : ∀ {other : List String}, other.Perm paths →
      other.foldl (fun m path => m.overlay (layer load mode path)) m
        = paths.foldl (fun m path => m.overlay (layer load mode path)) m := by
    intro other hother
    exact (hother.symm.foldl_eq' hswap m).symm
  refine ⟨_, harvestAll_eq_foldl hok m, ?_, ?_⟩
  · rw [harvestAll_eq_foldl (fun path hpath => hok path (hperm.mem_iff.mp hpath)), hfold hperm]
  · intro path hpath w hw key text hkey
    -- harvested last, the package hides the others
    have hlast : (paths.erase path ++ [path]).Perm paths :=
      List.perm_append_comm.trans (List.perm_cons_erase hpath).symm
    rw [← hfold hlast, List.foldl_append, List.foldl_cons, List.foldl_nil, CommentMap.get?_overlay,
      layer, hw]
    show (w.get? key).or _ = some text
    rw [hkey, Option.some_or]

/-- One import path goes on where the other ends, but not with a dot. -/
theorem harvestAll_perm_of_nested_paths :
    let load := memory [⟨"example.com", "p.go", "package p\n\n// T of p.\ntype T int\n"⟩,
      ⟨"example.com/x", "x.go", "package x\n\n// T of x.\ntype T int\n"⟩]
    let m := CommentMap.empty.insert "example.com.T" "T before."
    ∃ m', harvestAll load .full m ["example.com", "example.com/x"] = (m', .ok ()) ∧
      harvestAll load .full m ["example.com/x", "example.com"] = (m', .ok ()) ∧
      m'.get? "example.com.T" = some "T of p." ∧ m'.get? "example.com/x.T" = some "T of x." := by
  intro load m
  have hfacts : (load "example.com").toOption.map (·.importPath) = some "example.com" ∧
      (load "example.com/x").toOption.map (·.importPath) = some "example.com/x" ∧
      (harvest load .full .empty "example.com").toOption.bind (·.get? "example.com.T")
        = some "T of p." ∧
      (harvest load .full .empty "example.com/x").toOption.bind (·.get? "example.com/x.T")
        = some "T of x." := by decide +kernel
  obtain ⟨hp, hq, hfirst, hsecond⟩ := hfacts
  cases hw : harvest load .full .empty "example.com" with
  | error e => rw [hw] at hfirst; cases hfirst
  | ok w =>
    cases hv : harvest load .full .empty "example.com/x" with
    | error e => rw [hv] at hsecond; cases hsecond
    | ok v =>
      rw [hw] at hfirst
      rw [hv] at hsecond
      have hapart : ["example.com", "example.com/x"].Pairwise (KeysApartAt load) := by
        rw [List.pairwise_pair]
        intro p q hload hload'
        rw [hload] at hp
        rw [hload'] at hq
        have hpath : p.importPath = "example.com" := Option.some.inj hp
        have hpath' : q.importPath = "example.com/x" := Option.some.inj hq
        refine ⟨?_, ?_, ?_⟩
        · rw [hpath, hpath']
          decide
        · rw [hpath, hpath']
          decide
        · rw [hpath, hpath']
          decide
      have hok : ∀ path ∈ ["example.com", "example.com/x"],
          ∃ w, harvest load .full .empty path = .ok w := by simp [hw, hv]
      obtain ⟨m', hbatch, hother, hkeep⟩ := harvestAll_perm hok hapart m (List.Perm.swap _ _ _)
      exact ⟨m', hbatch, hother, hkeep _ (by simp) w hw _ _ hfirst,
        hkeep _ (by simp) v hv _ _ hsecond⟩

/-- Where an import path goes on with a dot, a type of the one package can have the key of a field
of the other, and then the order matters. -/
example :
    let load := memory
      [⟨"a", "a.go", "package a\n\ntype B struct \x7b\n\tC int // C of B.\n\x7d\n"⟩,
        ⟨"a.B", "b.go", "package b\n\n// C is a type.\ntype C int\n"⟩]
    (harvestAll load .full .empty ["a", "a.B"]).1.get? "a.B.C" = some "C is a type." ∧
      (harvestAll load .full .empty ["a.B", "a"]).1.get? "a.B.C" = some "C of B." := by
  decide +kernel

end Harvest

end DocHarvest
