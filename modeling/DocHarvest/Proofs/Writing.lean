import DocHarvest.Command.Generate
import DocHarvest.Proofs.Batches
import DocHarvest.Proofs.Loading

/-!
# What a run changes

A run harvests, renders, formats and writes, and each of these can end it. The last one puts a
single file in place, or it prints. So a run that fails leaves the disk as it was, and a run that
succeeds changes the file at one location or what is printed (`generateWith_frame`). Only a run that
fails while it prints leaves something behind, the front of its text (`print_cut_and_mode_changed`).

The disk is compared by what can be seen of it. `Disk.SameBut loc` relates two disks that differ in
nothing but the file at `loc`. A path is looked up piece by piece, and every place on the way is a
directory; the file is none, neither before nor after, so no path to anything else leads past it
(`SameBut.foldlM_step`). Hence every path finds on both disks the same, or the file
(`SameBut.locate_iff`).
-/

namespace DocHarvest.Host.Disk

open DocHarvest.Text

variable {d d' : Disk} {loc other : Location} {path text : String}

/-! ## Lookups -/

/-- A path is found if it is not empty, all its pieces are, and something is there. -/
theorem locate_eq_ok_iff {entry : DiskEntry} :
    d.locate path = .ok (loc, entry) ↔
      path.isEmpty = false ∧ (split '/' path.toList).foldlM d.step (d.startOf path) = .ok loc ∧
        d.at? loc = some entry := by
  unfold locate
  cases path.isEmpty with
  | true =>
    constructor
    · intro h
      cases h
    · rintro ⟨h, -⟩
      cases h
  | false =>
    simp only [Bool.false_eq_true, if_false, true_and]
    constructor
    · intro h
      obtain ⟨found, hfound, h⟩ := bind_eq_ok.mp h
      split at h
      next => cases h
      next hat =>
        cases h
        exact ⟨hfound, hat⟩
    · rintro ⟨hfound, hat⟩
      refine bind_eq_ok.mpr ⟨loc, hfound, ?_⟩
      rw [hat]
      rfl

/-- A step is taken from a directory. -/
theorem at?_of_step {piece : List Char} (h : d.step loc piece = .ok other) :
    d.at? loc = some .directory := by
  unfold step at h
  split at h
  next => cases h
  next => cases h
  next hat => exact hat

/-! ## Disks that differ in one file -/

/-- Two disks that differ in nothing but the file at a location, which may be missing. -/
structure SameBut (loc : Location) (d d' : Disk) : Prop where
  workingDirectory : d'.workingDirectory = d.workingDirectory
  elsewhere : d'.entries.filter (·.1 ≠ loc) = d.entries.filter (·.1 ≠ loc)
  not_directory : d.at? loc ≠ some .directory
  not_directory' : d'.at? loc ≠ some .directory

theorem lookup_filter_ne (h : other ≠ loc) (es : List (Location × DiskEntry)) :
    (es.filter (·.1 ≠ loc)).lookup other = es.lookup other := by
  induction es with
  | nil => rfl
  | cons e es ih =>
    by_cases he : e.1 = loc
    · have hne : (other == e.1) = false := beq_false_of_ne (he ▸ h)
      rw [List.filter_cons_of_neg (by simp [he]), ih, List.lookup_cons, hne]
    · rw [List.filter_cons_of_pos (by simp [he]), List.lookup_cons, List.lookup_cons, ih]

namespace SameBut

theorem symm (h : SameBut loc d d') : SameBut loc d' d :=
  ⟨h.workingDirectory.symm, h.elsewhere.symm, h.not_directory', h.not_directory⟩

theorem at?_eq (h : SameBut loc d d') (hne : other ≠ loc) : d'.at? other = d.at? other := by
  unfold at?
  rw [← lookup_filter_ne hne d'.entries, h.elsewhere, lookup_filter_ne hne]

theorem startOf_eq (h : SameBut loc d d') (path : String) : d'.startOf path = d.startOf path := by
  unfold startOf
  rw [h.workingDirectory]

/-- A way that does not end at the file is the same on both disks: it cannot lead past the file. -/
theorem foldlM_step (h : SameBut loc d d') {pieces : List (List Char)} {start : Location}
    (hway : pieces.foldlM d.step start = .ok other) (hne : other ≠ loc) :
    pieces.foldlM d'.step start = .ok other := by
  induction pieces generalizing start with
  | nil => exact hway
  | cons piece pieces ih =>
    rw [List.foldlM_cons] at hway ⊢
    obtain ⟨next, hstep, hway⟩ := bind_eq_ok.mp hway
    have hstart : start ≠ loc := by
      rintro rfl
      exact h.not_directory (at?_of_step hstep)
    have hnext : next ≠ loc := by
      rintro rfl
      cases pieces with
      | nil =>
        cases hway
        exact hne rfl
      | cons piece' pieces =>
        rw [List.foldlM_cons] at hway
        obtain ⟨_, hstep', -⟩ := bind_eq_ok.mp hway
        exact h.not_directory (at?_of_step hstep')
    refine bind_eq_ok.mpr ⟨next, ?_, ih hway⟩
    -- the step looks at the place where it starts and at the place where it ends
    unfold step at hstep ⊢
    rw [h.at?_eq hstart]
    split at hstep
    next => cases hstep
    next => cases hstep
    next hat =>
      split at hstep
      next s _ =>
        split at hstep
        next hthere =>
          cases hstep
          rw [h.at?_eq hnext, if_pos hthere]
        next => cases hstep
      next => exact hstep
      next => exact hstep

/-- Every path to anything but the file finds the same on both disks. -/
theorem locate_iff (h : SameBut loc d d') (hne : other ≠ loc) {entry : DiskEntry} :
    d'.locate path = .ok (other, entry) ↔ d.locate path = .ok (other, entry) := by
  rw [locate_eq_ok_iff, locate_eq_ok_iff, h.startOf_eq, h.at?_eq hne]
  refine and_congr_right fun _ => and_congr_left fun _ => ?_
  exact ⟨fun hway => h.symm.foldlM_step hway hne, fun hway => h.foldlM_step hway hne⟩

end SameBut

/-! ## Putting a file in place -/

/-- The disk with a text in the file at a location. -/
def put (d : Disk) (loc : Location) (text : String) : Disk :=
  { d with entries := (loc, .file (.text text) privateMode) :: d.entries.filter (·.1 ≠ loc) }

/-- The location at which a file is put in place: a name in a directory that exists, and not the
name of a directory. -/
def Target (d : Disk) (path : String) (loc : Location) : Prop :=
  ∃ dir s, Component.ofPiece ((split '/' path.toList).getLastD []) = some (.name s) ∧
    (split '/' path.toList).dropLast.foldlM d.step (d.startOf path) = .ok dir ∧
    d.at? dir = some .directory ∧ loc = dir ++ [s] ∧ d.at? loc ≠ some .directory

theorem replaceFile_eq_some_iff :
    d.replaceFile path text = some d' ↔ ∃ loc, d.Target path loc ∧ d' = d.put loc text := by
  constructor
  · intro h
    unfold replaceFile at h
    dsimp only at h
    split at h
    next s hlast =>
      split at h
      next => cases h
      next dir hway =>
        split at h
        next hcond =>
          cases h
          exact ⟨dir ++ [s], ⟨dir, s, hlast, hway, hcond.1, rfl, hcond.2⟩, rfl⟩
        next => cases h
    next => cases h
  · rintro ⟨_, ⟨dir, s, hlast, hway, hat, rfl, hnot⟩, rfl⟩
    unfold replaceFile
    dsimp only
    rw [hlast]
    dsimp only
    rw [hway]
    dsimp only
    rw [if_pos ⟨hat, hnot⟩]
    rfl

theorem at?_put (d : Disk) (text : String) (hne : loc ≠ []) :
    (d.put loc text).at? loc = some (.file (.text text) privateMode) := by
  unfold at? put
  rw [if_neg (by simpa using hne), List.lookup_cons_self]

/-- What was put in place first does not matter. -/
theorem put_put (d : Disk) (loc : Location) (first second : String) :
    (d.put loc first).put loc second = d.put loc second := by
  simp [put]

theorem sameBut_put (hne : loc ≠ []) (hnot : d.at? loc ≠ some .directory) (text : String) :
    SameBut loc d (d.put loc text) := by
  refine ⟨rfl, ?_, hnot, ?_⟩
  · simp [put]
  · rw [at?_put d text hne]
    exact fun h => by cases h

namespace Target

theorem ne_nil (h : d.Target path loc) : loc ≠ [] := by
  obtain ⟨dir, s, -, -, -, rfl, -⟩ := h
  simp

theorem sameBut (h : d.Target path loc) (text : String) : SameBut loc d (d.put loc text) := by
  obtain ⟨-, -, -, -, -, -, hnot⟩ := id h
  exact sameBut_put h.ne_nil hnot text

/-- A path has one place. -/
theorem unique (h : d.Target path loc) (h' : d.Target path other) : loc = other := by
  obtain ⟨dir, s, hlast, hway, -, rfl, -⟩ := h
  obtain ⟨dir', s', hlast', hway', -, rfl, -⟩ := h'
  cases hlast.symm.trans hlast'
  cases hway.symm.trans hway'
  rfl

/-- The file is put in the same place on a disk that differs in nothing but that file. -/
theorem of_sameBut (h : d.Target path loc) (hsame : SameBut loc d d') : d'.Target path loc := by
  obtain ⟨dir, s, hlast, hway, hat, rfl, -⟩ := h
  have hdir : dir ≠ dir ++ [s] := by simp
  refine ⟨dir, s, hlast, ?_, ?_, rfl, hsame.not_directory'⟩
  · rw [hsame.startOf_eq]
    exact hsame.foldlM_step hway hdir
  · rw [hsame.at?_eq hdir]
    exact hat

/-- The path leads to the file that was put in place. -/
theorem locate_put (h : d.Target path loc) (text : String) :
    (d.put loc text).locate path = .ok (loc, .file (.text text) privateMode) := by
  have hat := at?_put d text h.ne_nil
  obtain ⟨dir, s, hlast, hway, hdir, rfl, -⟩ := h.of_sameBut (h.sameBut text)
  have hne : split '/' path.toList ≠ [] := by
    intro hnil
    rw [hnil] at hlast
    cases hlast
  have hpath : path.isEmpty = false := by
    rw [← Bool.not_eq_true, String.isEmpty_iff]
    rintro rfl
    cases hlast
  refine locate_eq_ok_iff.mpr ⟨hpath, ?_, hat⟩
  have hpieces : split '/' path.toList
      = (split '/' path.toList).dropLast ++ [(split '/' path.toList).getLastD []] := by
    rw [List.getLastD_eq_getLast?, List.getLast?_eq_some_getLast hne, Option.getD_some,
      List.dropLast_concat_getLast hne]
  rw [hpieces, List.foldlM_append, hway]
  show List.foldlM _ dir _ = _
  rw [List.foldlM_cons, step, hdir, hlast]
  dsimp only
  rw [hat]
  rfl

end Target

end DocHarvest.Host.Disk

namespace DocHarvest.Command

open DocHarvest.Host DocHarvest.Load DocHarvest.Harvest DocHarvest.Output

/-! ## What arrives on standard output -/

section

variable {sink : Sink} {text : String} {printed : Contents}

theorem print_eq_whole (h : sink.print text = (printed, true)) : printed = .text text := by
  unfold Sink.print at h
  dsimp only at h
  split at h
  next => cases h; rfl
  next =>
    split at h
    next => cases h; rfl
    next => cases h

/-- What arrives of a text that is cut is its front. -/
theorem print_eq_part (h : sink.print text = (printed, false)) :
    ∃ n < (Text.Utf8.encode text.toList).length,
      printed = .ofBytes ((Text.Utf8.encode text.toList).take n) := by
  unfold Sink.print at h
  dsimp only at h
  split at h
  next => cases h
  next n _ =>
    split at h
    next => cases h
    next hlong =>
      cases h
      exact ⟨n, Nat.lt_of_not_le hlong, rfl⟩

end

/-! ## Runs -/

/-- The reasons for which a run ends without a report, each given only where those before it are
not, and what has been printed by then. -/
inductive Fails (sink : Sink) (d : Disk) (o : Options) (load : Loader) (format : Formatter) :
    GenerateError → Contents → Prop
  /-- A package is refused. -/
  | harvest {m : CommentMap} {e : HarvestError} :
      harvestAll load o.mode .empty o.packages = (m, .error e) →
      Fails sink d o load format (.harvest e) (.text "")
  /-- The file is not formatted. -/
  | format {m : CommentMap} {e : FormatError} : Harvests load o.mode .empty o.packages m →
      format (render o.package m o.mpl2) = .error e →
      Fails sink d o load format (.format e) (.text "")
  /-- The file is refused, or there is no place for it. -/
  | place {m : CommentMap} {path text : String} : Harvests load o.mode .empty o.packages m →
      format (render o.package m o.mpl2) = .ok text → o.output = .file path →
      (sink.files = true → ¬∃ loc, d.Target path loc) →
      Fails sink d o load format .write (.text "")
  /-- Only the front of the file can be printed. -/
  | print {m : CommentMap} {text : String} {n : Nat} :
      Harvests load o.mode .empty o.packages m →
      format (render o.package m o.mpl2) = .ok text → o.output = .stdout →
      n < (Text.Utf8.encode text.toList).length →
      Fails sink d o load format .write (.ofBytes ((Text.Utf8.encode text.toList).take n))

section

variable {sink : Sink} {d after : Disk} {o : Options} {load : Loader} {format : Formatter}
  {printed : Contents}

/-- A run that ends with a report has gone through all its stages. -/
theorem generateWith_eq_ok_iff {report : Report} :
    generateWith d o load format sink = ⟨after, printed, .ok report⟩ ↔
      ∃ m text, Harvests load o.mode .empty o.packages m ∧
        format (render o.package m o.mpl2) = .ok text ∧
        writeTo sink d o.output text = (after, printed, true) ∧
        report = ⟨o.packages.length, m.size, o.output⟩ := by
  unfold generateWith generatedFile
  constructor
  · intro h
    rcases hall : harvestAll load o.mode .empty o.packages with ⟨m, e | u⟩
    · rw [hall] at h
      cases h
    · simp only [hall] at h
      cases hformat : format (render o.package m o.mpl2) with
      | error e => rw [hformat] at h; cases h
      | ok text =>
        simp only [hformat] at h
        rcases hwrite : writeTo sink d o.output text with ⟨after', printed', _ | _⟩
        · rw [hwrite] at h
          cases h
        · rw [hwrite] at h
          cases h
          exact ⟨m, text, harvestAll_eq_ok_iff.mp hall, hformat, hwrite, rfl⟩
  · rintro ⟨m, text, hall, hformat, hwrite, rfl⟩
    simp only [harvestAll_eq_ok_iff.mpr hall, hformat, hwrite, if_true]

/-- A text that could not be written to a destination has left the disk as it was. -/
theorem writeTo_eq_part {output : Destination} {text : String}
    (h : writeTo sink d output text = (after, printed, false)) :
    after = d ∧
      ((∃ path, output = .file path ∧ (sink.files = true → ¬∃ loc, d.Target path loc) ∧
          printed = .text "") ∨
        output = .stdout ∧ ∃ n < (Text.Utf8.encode text.toList).length,
          printed = .ofBytes ((Text.Utf8.encode text.toList).take n)) := by
  cases output with
  | stdout =>
    have hwritten : (d, sink.print text) = (after, printed, false) := h
    obtain ⟨rfl, hprint⟩ := Prod.mk.inj hwritten
    exact ⟨rfl, .inr ⟨rfl, print_eq_part hprint⟩⟩
  | file path =>
    unfold writeTo at h
    dsimp only at h
    split at h
    next hnone =>
      cases h
      refine ⟨rfl, .inl ⟨path, rfl, ?_, rfl⟩⟩
      rintro hfiles ⟨loc, htarget⟩
      rw [hfiles, if_pos rfl, Disk.replaceFile_eq_some_iff.mpr ⟨loc, htarget, rfl⟩] at hnone
      cases hnone
    next => cases h

/-- A run that ends without a report has changed nothing on the disk, whatever its reason is. -/
theorem generateWith_eq_error {e : GenerateError}
    (h : generateWith d o load format sink = ⟨after, printed, .error e⟩) :
    after = d ∧ Fails sink d o load format e printed := by
  unfold generateWith generatedFile at h
  rcases hall : harvestAll load o.mode .empty o.packages with ⟨m, e' | u⟩
  · rw [hall] at h
    cases h
    exact ⟨rfl, .harvest hall⟩
  · have hharvests := harvestAll_eq_ok_iff.mp hall
    simp only [hall] at h
    cases hformat : format (render o.package m o.mpl2) with
    | error e' =>
      rw [hformat] at h
      cases h
      exact ⟨rfl, .format hharvests hformat⟩
    | ok text =>
      simp only [hformat] at h
      rcases hwrite : writeTo sink d o.output text with ⟨after', printed', _ | _⟩
      · rw [hwrite] at h
        cases h
        obtain ⟨rfl, hreason⟩ := writeTo_eq_part hwrite
        refine ⟨rfl, ?_⟩
        rcases hreason with ⟨path, hout, hplace, rfl⟩ | ⟨hout, n, hn, rfl⟩
        · exact .place hharvests hformat hout hplace
        · exact .print hharvests hformat hout hn
      · rw [hwrite] at h
        cases h

/-- Only a run that prints can have printed something when it fails, and only if it got that far. -/
theorem Fails.printed_eq {e : GenerateError} (h : Fails sink d o load format e printed)
    (hnot : o.output ≠ .stdout ∨ e ≠ .write) : printed = .text "" := by
  cases h with
  | harvest | format | place => rfl
  | print _ _ hout _ => exact absurd rfl (hnot.resolve_left (not_not_intro hout))

/-- A text is written to a file if files are taken and there is a place for it. -/
theorem writeTo_file_eq_whole_iff {path text : String} :
    writeTo sink d (.file path) text = (after, printed, true) ↔
      sink.files = true ∧ (∃ loc, d.Target path loc ∧ after = d.put loc text) ∧
        printed = .text "" := by
  unfold writeTo
  dsimp only
  constructor
  · intro h
    split at h
    next => cases h
    next hreplace =>
      cases h
      split at hreplace
      next hfiles => exact ⟨hfiles, Disk.replaceFile_eq_some_iff.mp hreplace, rfl⟩
      next => cases hreplace
  · rintro ⟨hfiles, hplace, rfl⟩
    rw [if_pos hfiles, Disk.replaceFile_eq_some_iff.mpr hplace]

end

/-- **A run changes the world only at its target.** Whatever the loader and the formatter are, and
however the machine takes what is written: a run that fails leaves the disk as it was, and it has
printed nothing unless it failed while it was printing; then the front of the formatted text has
been printed, and not all of it. A run that succeeds has harvested all packages into a map, in order
and from the empty one, and has got a text from the formatter for the rendered map; the report
counts the packages and the entries of the map. Then either this text is printed and the disk is as
before, or nothing is printed and the output path leads to a file with this text, for its owner
alone, while everything else on the disk is as before and is found under the same paths. -/
theorem generateWith_frame (sink : Sink) (d : Disk) (o : Options) (load : Loader)
    (format : Formatter) :
    match generateWith d o load format sink with
    | ⟨after, printed, .error e⟩ => after = d ∧ Fails sink d o load format e printed ∧
      (o.output ≠ .stdout ∨ e ≠ .write → printed = .text "")
    | ⟨after, printed, .ok report⟩ =>
      ∃ m text, Harvests load o.mode .empty o.packages m ∧
        format (render o.package m o.mpl2) = .ok text ∧
        report = ⟨o.packages.length, m.size, o.output⟩ ∧
        match o.output with
        | .stdout => after = d ∧ printed = .text text
        | .file path => printed = .text "" ∧
          ∃ loc, after.locate path = .ok (loc, .file (.text text) Disk.privateMode) ∧
            Disk.SameBut loc d after ∧
            ∀ other, other ≠ loc → after.at? other = d.at? other ∧
              ∀ path' entry, after.locate path' = .ok (other, entry) ↔
                d.locate path' = .ok (other, entry) := by
  rcases h : generateWith d o load format sink with ⟨after, printed, e | report⟩
  · obtain ⟨hafter, hfails⟩ := generateWith_eq_error h
    exact ⟨hafter, hfails, hfails.printed_eq⟩
  · obtain ⟨m, text, hall, hformat, hwrite, hreport⟩ := generateWith_eq_ok_iff.mp h
    refine ⟨m, text, hall, hformat, hreport, ?_⟩
    cases hout : o.output with
    | stdout =>
      rw [hout] at hwrite
      have hwritten : (d, sink.print text) = (after, printed, true) := hwrite
      obtain ⟨rfl, hprint⟩ := Prod.mk.inj hwritten
      exact ⟨rfl, print_eq_whole hprint⟩
    | file path =>
      rw [hout] at hwrite
      obtain ⟨-, ⟨loc, htarget, rfl⟩, rfl⟩ := writeTo_file_eq_whole_iff.mp hwrite
      have hsame := htarget.sameBut text
      refine ⟨rfl, loc, htarget.locate_put text, hsame, ?_⟩
      exact fun other hne => ⟨hsame.at?_eq hne, fun path' entry => hsame.locate_iff hne⟩

/-- The last step leaves more than its result. Standard output that takes seven bytes keeps them of
a run that fails, and a file that others could read before a run is for its owner alone after it. -/
theorem print_cut_and_mode_changed :
    let d : Disk := ⟨[(["go.mod"], .file (.text "module example.com/m\n") 0o644),
      (["p"], .directory),
      (["p", "p.go"], .file (.text "package p\n\n// T is a type.\ntype T int\n") 0o644),
      (["out.go"], .file (.text "old\n") 0o644)], []⟩
    let o (output : Destination) : Options :=
      ⟨["./p"], "main", output, .synopsis, false, .dir, .gofmt, none⟩
    let run (output : Destination) (sink : Sink) : Outcome :=
      generateWith d (o output) (directory d "/") .ok sink
    ((run .stdout ⟨some 7, true⟩).result = .error .write ∧
        (run .stdout ⟨some 7, true⟩).stdout = .text "// Code" ∧
        (run .stdout ⟨some 7, true⟩).stdout ≠ .text "") ∧
      (run (.file "out.go") {}).result = .ok ⟨1, 1, .file "out.go"⟩ ∧
      d.at? ["out.go"] = some (.file (.text "old\n") 0o644) ∧
      ∃ text, (run (.file "out.go") {}).disk.at? ["out.go"] = some (.file (.text text) 0o600) := by
  intro d o run
  have hfacts : (generatedFile (o .stdout) (directory d "/") .ok).toOption.map
      (fun file => (Sink.print ⟨some 7, true⟩ file.1, file.2))
        = some ((.text "// Code", false), 1) := by decide +kernel
  cases hfile : generatedFile (o .stdout) (directory d "/") .ok with
  | error e =>
    rw [hfile] at hfacts
    cases hfacts
  | ok file =>
    obtain ⟨text, entries⟩ := file
    rw [hfile] at hfacts
    obtain ⟨hprint, rfl⟩ : Sink.print ⟨some 7, true⟩ text = (.text "// Code", false) ∧
        entries = 1 := by simpa [Except.toOption] using hfacts
    have htarget : d.Target "out.go" ["out.go"] :=
      ⟨[], "out.go", by decide, rfl, by decide, rfl, by decide⟩
    have hwrite : writeTo {} d (.file "out.go") text = (d.put ["out.go"] text, .text "", true) :=
      writeTo_file_eq_whole_iff.mpr ⟨rfl, ⟨_, htarget, rfl⟩, rfl⟩
    have hcut : run .stdout ⟨some 7, true⟩ = ⟨d, .text "// Code", .error .write⟩ := by
      show generateWith d (o .stdout) (directory d "/") .ok _ = _
      rw [generateWith, hfile]
      simp only [o, writeTo, hprint, Bool.false_eq_true, if_false]
    have hput : run (.file "out.go") {}
        = ⟨d.put ["out.go"] text, .text "", .ok ⟨1, 1, .file "out.go"⟩⟩ := by
      -- the formatted file does not depend on where it is written
      have hfile' : generatedFile (o (.file "out.go")) (directory d "/") .ok
          = .ok (text, 1) := by
        simp only [generatedFile, o] at hfile ⊢
        exact hfile
      show generateWith d (o (.file "out.go")) (directory d "/") .ok _ = _
      rw [generateWith, hfile']
      simp only [o, hwrite, if_true, List.length_singleton]
    rw [hcut, hput]
    exact ⟨⟨rfl, rfl, by decide⟩, rfl, by decide, text, Disk.at?_put d text (by decide)⟩

end DocHarvest.Command
