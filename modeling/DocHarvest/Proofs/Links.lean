import DocHarvest.Doc.Synopsis
import DocHarvest.Proofs.Lexing
import DocHarvest.Proofs.Visible

/-!
# What resolving links does to a line

A doc link is a symbol of the package, or an exported name of another package, with an optional star
in front (`LinkText`). Resolving the links of a line takes the brackets off some of them and leaves
everything else as it is; `Unwraps` says so without the state of the scan, and
`unwraps_resolveLinks` is all that has to be known of the scan.

A link ends with a name, so what is left of it shows something (`Unwraps.visible`). The names of a
link have no white space, and if no import and not the package itself is named with white space then
there is none in the whole link (`solid_of_isDocLink`).
-/

namespace DocHarvest.Doc

open DocHarvest.Text DocHarvest.Unicode

/-! ## Identifiers and import paths -/

theorem isBlank_of_isAlphabetic {c : Char} (h : isAlphabetic c = true) : isBlank c = false :=
  Syntax.isBlank_of_class isAlphabetic (fun _ => rfl) (by decide +kernel) (by decide +kernel) h

theorem isBlank_of_isNumeric {c : Char} (h : isNumeric c = true) : isBlank c = false :=
  Syntax.isBlank_of_class isNumeric (fun _ => rfl) (by decide +kernel) (by decide +kernel) h

theorem isBlank_of_isAlphanumeric {c : Char} (h : isAlphanumeric c = true) : isBlank c = false := by
  rw [isAlphanumeric, Bool.or_eq_true] at h
  exact h.elim isBlank_of_isAlphabetic isBlank_of_isNumeric

/-- An identifier is made of letters, numbers and underscores. -/
theorem chars_of_isIdentifier {cs : List Char} (h : isIdentifier cs = true) :
    cs ≠ [] ∧ ∀ c ∈ cs, isAlphanumeric c = true ∨ c = '_' := by
  cases cs with
  | nil => cases h
  | cons c cs =>
    simp only [isIdentifier, Bool.and_eq_true, Bool.or_eq_true, beq_iff_eq, List.all_eq_true] at h
    refine ⟨List.cons_ne_nil _ _, List.forall_mem_cons.mpr ⟨?_, h.2⟩⟩
    exact h.1.imp_left fun hletter => by rw [isAlphanumeric, hletter, Bool.true_or]

theorem solid_of_isIdentifier {cs : List Char} (h : isIdentifier cs = true) : Solid cs := by
  intro c hc
  rcases (chars_of_isIdentifier h).2 c hc with halnum | rfl
  · exact isBlank_of_isAlphanumeric halnum
  · decide

theorem visible_of_isIdentifier {cs : List Char} (h : isIdentifier cs = true) : Visible cs := by
  cases cs with
  | nil => cases h
  | cons c cs => exact .cons (solid_of_isIdentifier h c List.mem_cons_self) cs

theorem solid_of_isImportPath {cs : List Char} (h : isImportPath cs = true) : Solid cs := by
  intro c hc
  by_cases hslash : c = '/'
  · subst hslash
    decide
  · -- any other character stands in an element of the path
    obtain ⟨piece, hpiece, hmem⟩ := exists_mem_splitWhere_iff (p := (· == '/')).mpr
      ⟨hc, beq_eq_false_iff_ne.mpr hslash⟩
    simp only [isImportPath, Bool.and_eq_true, List.all_eq_true] at h
    have helement := h.2 piece hpiece
    simp only [isPathElement, Bool.and_eq_true, List.all_eq_true] at helement
    have hchar := helement.2 c hmem
    rw [Bool.or_eq_true] at hchar
    rcases hchar with halnum | hmark
    · exact isBlank_of_isAlphanumeric halnum
    · have hmarks : Solid "-._~".toList := by decide
      exact hmarks c (List.contains_iff_mem.mp hmark)

/-! ## Links -/

theorem splitLastDot_eq_some {cs qualifier name : List Char}
    (h : splitLastDot cs = some (qualifier, name)) : cs = qualifier ++ '.' :: name := by
  unfold splitLastDot at h
  split at h
  next hdot =>
    cases h
    -- the dot that is last in the text is the first from its end
    obtain ⟨rest, hrest⟩ : ∃ rest, cs.reverse
        = cs.reverse.takeWhile (· != '.') ++ '.' :: rest := by
      rcases takeWhile_ne_cases '.' cs.reverse with hall | hfirst
      · have hmem : '.' ∈ cs.reverse := List.mem_reverse.mpr (List.contains_iff_mem.mp hdot)
        rw [← hall] at hmem
        have := List.all_eq_true.mp List.all_takeWhile _ hmem
        simp at this
      · exact hfirst
    generalize cs.reverse.takeWhile (· != '.') = name at hrest ⊢
    have hcs : cs = rest.reverse ++ '.' :: name.reverse := by
      rw [← List.reverse_reverse cs, hrest]
      simp
    subst hcs
    congr 1
    rw [List.take_left' (by simp; omega)]
  next => cases h

/-- A name is an identifier, perhaps behind a qualifier and a dot. -/
theorem splitName_eq_some {cs name : List Char} {qualifier : Option (List Char)}
    (h : splitName cs = some (qualifier, name)) :
    isIdentifier name = true ∧ cs = qualifier.elim name (· ++ '.' :: name) := by
  unfold splitName at h
  split at h
  next q n hdots =>
    split at h
    next hname =>
      cases h
      exact ⟨hname, splitLastDot_eq_some hdots⟩
    next => cases h
  next =>
    split at h
    next hname =>
      cases h
      exact ⟨hname, rfl⟩
    next => cases h

/-- The texts of links, a star in front apart. -/
inductive LinkText (v : View) : List Char → Prop
  /-- A symbol of the package. -/
  | symbol {name : List Char} : isIdentifier name = true → v.hasSymbol (String.ofList name) = true →
      LinkText v name
  /-- A method of a type of the package. -/
  | method {type name : List Char} : isIdentifier type = true → isIdentifier name = true →
      v.hasSymbol (String.ofList (type ++ '.' :: name)) = true → LinkText v (type ++ '.' :: name)
  /-- An exported name of a package. -/
  | member {package name : List Char} : v.knowsPackage package = true → isIdentifier name = true →
      isExported (String.ofList name) = true → LinkText v (package ++ '.' :: name)
  /-- A method of a type of a package. -/
  | memberMethod {package type name : List Char} : v.knowsPackage package = true →
      isIdentifier type = true → isIdentifier name = true →
      isExported (String.ofList name) = true →
      LinkText v ((package ++ '.' :: type) ++ '.' :: name)

namespace View

variable {v : View}

/-- What is between the brackets of a link is the text of one. -/
theorem linkText_of_isDocLink {target : List Char} (h : v.isDocLink target = true) :
    ∃ text, (target = text ∨ target = '*' :: text) ∧ LinkText v text := by
  unfold isDocLink at h
  dsimp only at h
  have hstar : target = (if target.head? = some '*' then target.drop 1 else target) ∨
      target = '*' :: (if target.head? = some '*' then target.drop 1 else target) := by
    split
    next hhead =>
      obtain ⟨rest, rfl⟩ := List.head?_eq_some_iff.mp hhead
      exact Or.inr rfl
    next => exact Or.inl rfl
  generalize (if target.head? = some '*' then target.drop 1 else target) = text at h hstar
  refine ⟨text, hstar, ?_⟩
  split at h
  next => cases h
  next name hname =>
    obtain ⟨hident, rfl⟩ := splitName_eq_some hname
    exact .symbol hident h
  next qualifier name hname =>
    obtain ⟨hident, rfl⟩ := splitName_eq_some hname
    split at h
    next recv hrecv =>
      obtain ⟨hrecvIdent, rfl⟩ := splitName_eq_some hrecv
      rw [Bool.or_eq_true, Bool.and_eq_true] at h
      rcases h with hmethod | ⟨hpackage, hexported⟩
      · exact .method hrecvIdent hident hmethod
      · exact .member hpackage hident hexported
    next package type hpackage =>
      obtain ⟨htype, rfl⟩ := splitName_eq_some hpackage
      rw [Bool.and_eq_true] at h
      exact .memberMethod h.1 htype hident h.2
    next =>
      rw [Bool.and_eq_true] at h
      exact .member h.1 hident h.2

/-- Neither the package nor one of its imports has white space in its name. -/
structure SolidNames (v : View) : Prop where
  name : Solid v.name.toList
  imports : ∀ name ∈ v.imports, Solid name.toList

theorem solid_of_knowsPackage (hv : v.SolidNames) {cs : List Char}
    (h : v.knowsPackage cs = true) : Solid cs := by
  have hstandard : ∀ s ∈ standardPackages, Solid s.toList := by decide +kernel
  unfold knowsPackage at h
  split at h
  next => exact solid_of_isImportPath h
  next =>
    simp only [Bool.or_eq_true, Bool.and_eq_true, List.contains_iff_mem, beq_iff_eq] at h
    rw [← String.toList_ofList (l := cs)]
    rcases h with (himport | ⟨-, hname⟩) | hstd
    · exact hv.imports _ himport
    · exact hname ▸ hv.name
    · exact hstandard _ hstd

/-- There is no white space in a link. -/
theorem solid_of_isDocLink (hv : v.SolidNames) {target : List Char}
    (h : v.isDocLink target = true) : Solid target := by
  obtain ⟨text, htarget, hlink⟩ := linkText_of_isDocLink h
  have hdot : isBlank '.' = false := by decide
  have htext : Solid text := by
    cases hlink with
    | symbol hname _ => exact solid_of_isIdentifier hname
    | method htype hname _ =>
      exact (solid_of_isIdentifier htype).append (.cons hdot (solid_of_isIdentifier hname))
    | member hpackage hname _ =>
      exact (solid_of_knowsPackage hv hpackage).append (.cons hdot (solid_of_isIdentifier hname))
    | memberMethod hpackage htype hname _ =>
      have hfront := (solid_of_knowsPackage hv hpackage).append
        (.cons hdot (solid_of_isIdentifier htype))
      exact hfront.append (.cons hdot (solid_of_isIdentifier hname))
  rcases htarget with rfl | rfl
  · exact htext
  · exact .cons (by decide) htext

/-- The text of a doc link shows something: it ends with a name. -/
theorem visible_of_isDocLink {target : List Char} (h : v.isDocLink target = true) :
    Visible target := by
  obtain ⟨text, htarget, hlink⟩ := linkText_of_isDocLink h
  have hname : ∀ {name front : List Char}, isIdentifier name = true →
      Visible (front ++ '.' :: name) := by
    intro name front hname
    refine (visible_of_isIdentifier hname).mono ?_
    exact fun c hc => List.mem_append_right _ (List.mem_cons_of_mem _ hc)
  have htext : Visible text := by
    cases hlink with
    | symbol hident _ => exact visible_of_isIdentifier hident
    | method _ hident _ => exact hname hident
    | member _ hident _ => exact hname hident
    | memberMethod _ _ hident _ => exact hname hident
  rcases htarget with rfl | rfl
  · exact htext
  · exact htext.mono (List.subset_cons_self _ _)

/-! ## Lines -/

/-- A line, and the line with the brackets of some of its links taken off. -/
inductive Unwraps (v : View) : List Char → List Char → Prop
  | nil : Unwraps v [] []
  | keep (c : Char) {cs out : List Char} : Unwraps v cs out → Unwraps v (c :: cs) (c :: out)
  | link {target cs out : List Char} : v.isDocLink target = true → ']' ∉ target →
      (∀ c ∈ cs.head?, isLinkBoundary c = true) → Unwraps v cs out →
      Unwraps v ('[' :: (target ++ ']' :: cs)) (target ++ out)

theorem Unwraps.keepAll (front : List Char) {cs out : List Char} (h : Unwraps v cs out) :
    Unwraps v (front ++ cs) (front ++ out) := by
  induction front with
  | nil => exact h
  | cons c front ih => exact .keep c ih

theorem Unwraps.refl (cs : List Char) : Unwraps v cs cs := by
  have := Unwraps.keepAll (v := v) cs .nil
  rwa [List.append_nil] at this

/-- A line that shows something still does without the brackets of its links. -/
theorem Unwraps.visible {cs out : List Char} (h : v.Unwraps cs out)
    (hvisible : Visible cs) : Visible out := by
  induction h with
  | nil => exact hvisible
  | keep c _ ih =>
    obtain ⟨d, hd, hblank⟩ := hvisible
    rcases List.mem_cons.mp hd with rfl | hd
    · exact .cons hblank _
    · exact (ih ⟨d, hd, hblank⟩).mono (List.subset_cons_self _ _)
  | link hlink => exact (visible_of_isDocLink hlink).mono (List.subset_append_left _ _)

/-- What is written for a part of a line, together with what was read since a bracket was opened. -/
theorem unwraps_resolveFrom (v : View) (last : Option Char) (inner : Option (List Char))
    (cs : List Char) (h : ∀ i ∈ inner, ']' ∉ i) :
    Unwraps v (inner.elim cs ('[' :: · ++ cs)) (v.resolveFrom last inner cs) := by
  fun_induction resolveFrom v last inner cs with
  | case1 => exact .nil
  | case2 last inner =>
    -- a bracket that is not closed
    show Unwraps v ('[' :: inner ++ []) ('[' :: inner)
    rw [List.append_nil]
    exact .refl _
  | case3 last cs ih => exact ih (by simp)
  | case4 last c cs _ ih => exact .keep c (ih nofun)
  | case5 last inner cs hlink ih =>
    rw [Bool.and_eq_true, Bool.and_eq_true] at hlink
    refine .link hlink.2 (h inner rfl) ?_ (ih nofun)
    intro c hc
    exact (Option.all_eq_true _ _).mp hlink.1.2 c hc
  | case6 last inner cs _ ih => exact .keepAll ('[' :: inner) (.keep ']' (ih nofun))
  | case7 last inner c cs hc ih =>
    have hinner : ']' ∉ inner ++ [c] := by
      rw [List.mem_append, List.mem_singleton]
      exact not_or.mpr ⟨h inner rfl, Ne.symm hc⟩
    have := ih (by rintro i ⟨⟩; exact hinner)
    show Unwraps v ('[' :: inner ++ c :: cs) _
    rwa [List.append_cons]

/-- **Resolving links takes brackets off links**, and changes nothing else. -/
theorem unwraps_resolveLinks (v : View) (line : List Char) :
    Unwraps v line (v.resolveLinks line) :=
  unwraps_resolveFrom v none none line nofun

end View

end DocHarvest.Doc
