import DocHarvest.Output.Format
import DocHarvest.Proofs.Acceptance
import DocHarvest.Proofs.Rendering

/-!
# The generated file is accepted

The formatter that checks syntax takes the generated file as it is (`syntaxCheck_render`). The file
is scanned into the lexemes that `fileForms` lists, for a literal is one lexeme whatever its text
(`scans_quote`), and the grammar reads these lexemes to their end (`accepts_file`). Reading the
entries goes one goal deeper with each of them, so the fuel is counted in entries. What is read is a
package clause and one variable, whose value holds no further declaration (`parse?_render`).
-/

namespace DocHarvest.Output

open DocHarvest.Syntax DocHarvest.Syntax.Grammar DocHarvest.Text DocHarvest.Unicode

/-! ## The lexemes of the file -/

/-- The licence notice as one comment. -/
def noticeComment : String :=
  "/*\n" ++ unlines noticeText ++ "*/"

/-- The lexemes of the line of an entry. -/
def entryForms (e : Entry) : List Lexeme :=
  [.string (quote e.1), .symbol ":", .string (quote e.2), .symbol ",", .lineBreak]

/-- The lexemes of the last line. -/
def endForms : List Lexeme :=
  [.symbol "\x7d", .lineBreak]

/-- The lexemes of the map and what follows it. -/
def mapForms (es : List Entry) : List Lexeme :=
  [.keyword "map", .symbol "[", .name "string", .symbol "]", .name "string", .symbol "\x7b",
   .lineBreak] ++ (es.flatMap entryForms ++ endForms)

/-- The lexemes of the declaration and what follows it, from the blank line before. -/
def varForms (es : List Entry) : List Lexeme :=
  [.lineBreak, .lineBreak, .keyword "var", .name "CommentMap", .symbol "="] ++ mapForms es

/-- The lexemes of the generated file. -/
def fileForms (package : String) (es : List Entry) (mpl2 : Bool) : List Lexeme :=
  (if mpl2 then [.comment noticeComment, .lineBreak, .lineBreak] else []) ++
  ([.comment generatedMark, .lineBreak, .lineBreak, .keyword "package", .name package] ++
    varForms es)

/-! ## The grammar reads the lexemes -/

variable {source : List Char}

/-- An entry is an element with a key; its comma is read with it. -/
theorem accepts_entry (fuel : Nat) (e : Entry) {tail after : List Lexeme}
    (htail : ∀ first : Forest, Forest.Bare first → Accepts source (do
      if ← Parser.seesSymbol false "\x7d" then return first
      else return first ++ (← read (fuel + 3) .elements)) (.lineBreak :: tail) after Forest.Bare) :
    Accepts source (read (fuel + 4) .elements) (.lineBreak :: (entryForms e ++ tail)) after
      Forest.Bare := by
  refine .goal (.seq (accepts_element_string fuel rfl rfl) fun key hkey => ?_)
  refine .seesSymbol true rfl (.yes rfl (.seq (.symbol rfl rfl) fun colon hcolon => ?_))
  refine .seq (accepts_element_string fuel rfl rfl) fun value hvalue => .let_ ?_
  refine .seesSymbol true rfl (.yes rfl (.seq (.symbol rfl rfl) fun comma hcomma => htail _ ?_))
  exact (hkey.append (hcolon.append hvalue)).append hcomma

/-- The entries are read up to the line break before the brace. -/
theorem accepts_elements (fuel : Nat) (e : Entry) (es : List Entry) :
    Accepts source (read (fuel + es.length + 4) .elements)
      (.lineBreak :: ((e :: es).flatMap entryForms ++ endForms)) (.lineBreak :: endForms)
      Forest.Bare := by
  induction es generalizing e with
  | nil =>
    exact accepts_entry fuel e fun first hfirst => .seesSymbol true rfl (.yes rfl (.ret hfirst))
  | cons d es ih =>
    refine accepts_entry (fuel + es.length + 1) e fun first hfirst => ?_
    refine .seesSymbol false rfl (.no rfl ?_)
    exact .seq (ih d) fun more hmore => .ret (hfirst.append hmore)

theorem accepts_literalValue (fuel : Nat) (es : List Entry) :
    Accepts source (literalValue (read (fuel + es.length + 3)))
      (.symbol "\x7b" :: .lineBreak :: (es.flatMap entryForms ++ endForms)) [.lineBreak]
      Forest.Bare := by
  refine .seq (.symbol rfl rfl) fun left hleft => ?_
  cases es with
  | nil =>
    refine .seesSymbol true rfl (.seesSymbol false rfl (.yes rfl (.let_ ?_)))
    refine .seq (.symbol rfl rfl) fun right hright => .ret ?_
    exact (hleft.append Forest.bare_nil).append hright
  | cons e es =>
    refine .seesSymbol false rfl (.seesSymbol false rfl (.no rfl (.no rfl ?_)))
    refine .seq (accepts_elements fuel e es) fun members hmembers => ?_
    refine .seq (.symbol rfl rfl) fun right hright => .ret ?_
    exact (hleft.append hmembers).append hright

/-- The map with its type is an operand. -/
theorem accepts_mapLiteral (fuel : Nat) (es : List Entry) :
    Accepts source (typeOperand (read (fuel + es.length + 3)) true
      (mapType (read (fuel + es.length + 3)) false)) (mapForms es) [.lineBreak] Forest.Bare := by
  refine .seq (accepts_mapType (fuel + es.length + 2) rfl) fun type htype => ?_
  refine .seesSymbol true rfl (.yes rfl ?_)
  exact .seq (accepts_literalValue fuel es) fun members hmembers => .ret (htype.append hmembers)

/-- The value of the variable, which the last line break ends. -/
theorem accepts_value (fuel : Nat) (es : List Entry) :
    Accepts source (read (fuel + es.length + 5) (.expressions true true)) (mapForms es)
      [.lineBreak] Forest.Bare := by
  have hoperand (span : Span) : Accepts source
      (operand (read (fuel + es.length + 3)) ⟨.keyword, "map".toList, span⟩) (mapForms es)
      [.lineBreak] Forest.Bare :=
    .no rfl (.no rfl (.no rfl (.no rfl (.yes rfl (accepts_mapLiteral fuel es)))))
  have hexpression : Accepts source (read (fuel + es.length + 4) (.expression true true))
      (mapForms es) [.lineBreak] Forest.Bare := by
    refine .goal (.next rfl fun span => .no rfl (.seq (hoperand span) fun head hhead => ?_))
    -- neither a suffix nor an operator is looked for beyond the line break
    refine .seq (.goal (accepts_suffixes rfl)) fun tail htail => ?_
    exact .seesAnyOf false rfl (.no rfl (.ret (hhead.append htail)))
  exact .goal (.seq hexpression fun first hfirst => .seesSymbol false rfl (.no rfl (.ret hfirst)))

/-- The spec of the comment map: its name, then nothing that has a part in it. -/
def IsMapSpec (source : List Char) (ns : Forest) : Prop :=
  ∃ bound values, ns = bound ++ values ∧
    Forest.OneToken source (some .name) (.name "CommentMap") bound ∧ Forest.Bare values

theorem accepts_varSpec (fuel : Nat) (es : List Entry) :
    Accepts source (varSpec (read (fuel + es.length + 5)))
      ([.name "CommentMap", .symbol "="] ++ mapForms es) [.lineBreak]
      (Forest.OneNode .varSpec (IsMapSpec source)) := by
  refine .node (.seq (accepts_names _ rfl rfl) fun bound hbound => ?_) ?_
  · have hvalues : Accepts source (values (read (fuel + es.length + 5)))
        (.symbol "=" :: mapForms es) [.lineBreak] Forest.Bare := by
      refine .seq (.symbol rfl rfl) fun equals hequals => ?_
      exact .seq (accepts_value fuel es) fun value hvalue => .ret (hequals.append hvalue)
    refine .seesSymbol true rfl (.yes rfl (.seq hvalues fun values hvalues => .ret ?_))
    exact ⟨bound, values, rfl, hbound, hvalues⟩
  · rintro ⟨bound, values, hnil, hbound, -⟩
    exact hbound.ne_nil (List.append_eq_nil_iff.mp hnil.symm).1

/-- The declaration of the comment map: the keyword and the spec. -/
def IsMapDeclaration (source : List Char) (ns : Forest) : Prop :=
  ∃ word spec, ns = word ++ spec ∧ Forest.Bare word ∧
    Forest.OneNode .varSpec (IsMapSpec source) spec

theorem accepts_statement (fuel : Nat) (es : List Entry) :
    Accepts source (read (fuel + es.length + 6) .statement) (varForms es) [.lineBreak]
      (Forest.OneNode .varDeclaration (IsMapDeclaration source)) := by
  refine .goal (.next rfl fun span => .no rfl (.yes rfl (.node ?_ ?_)))
  · refine .seq (.symbol rfl rfl) fun word hword => .seesSymbol false rfl (.no rfl ?_)
    exact .seq (accepts_varSpec fuel es) fun spec hspec => .ret ⟨word, spec, rfl, hword, hspec⟩
  · rintro ⟨word, spec, hnil, -, skipped, span, children, rfl, -⟩
    simp at hnil

/-- The file: a package clause, the declaration of the comment map, and no more than comments. -/
def IsMapFile (source : List Char) (package : String) (ns : Forest) : Prop :=
  ∃ clause rest, ns = clause ++ rest ∧
    Forest.OneNode .packageClause (IsClause source package) clause ∧
    ∃ declaration comments, rest = declaration ++ comments ∧
      Forest.OneNode .varDeclaration (IsMapDeclaration source) declaration ∧
      Forest.Comments comments

/-- The file is read to its end. -/
theorem accepts_file (fuel : Nat) (package : String) (es : List Entry) (mpl2 : Bool) :
    Accepts source (read (fuel + es.length + 8) (.topLevel true)) (fileForms package es mpl2) []
      (IsMapFile source package) := by
  have hpackage : fromToken (fileForms package es mpl2)
      = .keyword "package" :: .name package :: varForms es := by
    cases mpl2 <;> rfl
  have hvar : Accepts source (topLevelItem (read (fuel + es.length + 6))) (varForms es)
      [.lineBreak] (Forest.OneNode .varDeclaration (IsMapDeclaration source)) :=
    .next rfl fun span => .no rfl (.no rfl (.no rfl (accepts_statement fuel es)))
  have hend : Accepts source (read (fuel + es.length + 6) (.topLevel false)) [.lineBreak] []
      Forest.Comments :=
    .goal (.next_none rfl (.yes rfl .comments))
  have hrest : Accepts source (read (fuel + es.length + 7) (.topLevel false)) (varForms es) []
      fun ns => ∃ declaration comments, ns = declaration ++ comments ∧
        Forest.OneNode .varDeclaration (IsMapDeclaration source) declaration ∧
        Forest.Comments comments :=
    .goal (accepts_topLevel rfl rfl hvar rfl hend)
  have hnext := find?_of_fromToken hpackage
  exact .goal (accepts_topLevel hnext rfl (accepts_package hpackage) rfl hrest)

/-! ## Literals are scanned whole -/

theorem interpretedLength_digits {ds : List Char} (h : ∀ d ∈ ds, isHexDigit d = true)
    (cs : List Char) :
    interpretedLength (ds ++ cs) = (interpretedLength cs).map (· + ds.length) := by
  induction ds with
  | nil => simp
  | cons d ds ih =>
    obtain ⟨hd, hds⟩ := List.forall_mem_cons.mp h
    have hne : ∀ c, isHexDigit c = false → d ≠ c := by
      rintro c hc rfl
      exact absurd hd (by simp [hc])
    rw [List.cons_append, interpretedLength_plain (hne _ (by decide)) (hne _ (by decide))
      (hne _ (by decide)), ih hds, Option.map_map]
    rfl

/-- A spelling is passed over whole by the scan of a literal. -/
theorem Spelling.interpretedLength_append {c : Char} {spelled : List Char}
    (h : Spelling c spelled) (rest : List Char) :
    interpretedLength (spelled ++ rest)
      = (interpretedLength rest).map (· + spelled.length) := by
  cases h with
  | @letter l hl =>
    have hletters : ∀ e ∈ letterEscapes, e.2 ≠ 'x' ∧ e.2 ≠ 'u' ∧ e.2 ≠ 'U' := by decide
    obtain ⟨hx, hu, hU⟩ := hletters _ hl
    have hcomplete : escapeComplete l rest = true := by
      rw [escapeComplete, if_neg hx, if_neg hu, if_neg hU]
    exact interpretedLength_escape hcomplete
  | @number mark width hmark hn =>
    -- the digits complete the escape, and the scan then passes over them one by one
    have hcomplete : escapeComplete mark (hexPadded width c.toNat ++ rest) = true := by
      have hdigits := startsWithMany_hexPadded hn rest
      simp only [numberMarks, List.mem_cons, Prod.mk.injEq, List.not_mem_nil, or_false] at hmark
      rcases hmark with ⟨rfl, rfl⟩ | ⟨rfl, rfl⟩ | ⟨rfl, rfl⟩ <;> exact hdigits
    rw [List.cons_append, List.cons_append, interpretedLength_escape hcomplete,
      interpretedLength_digits isHexDigit_of_mem_hexPadded, Option.map_map]
    rfl
  | itself hprint hquote hslash =>
    exact interpretedLength_plain hquote (ne_lineFeed_of_isPrintable hprint) hslash rest

theorem interpretedLength_spelled (cs rest : List Char) :
    interpretedLength (cs.flatMap literalChar ++ '"' :: rest)
      = some ((cs.flatMap literalChar).length + 1) := by
  induction cs with
  | nil =>
    rw [List.flatMap_nil, List.nil_append, interpretedLength.eq_def]
    rfl
  | cons c cs ih =>
    rw [List.flatMap_cons, List.append_assoc, (Spelling.of_literalChar c).interpretedLength_append,
      ih, Option.map_some, List.length_append]
    congr 1
    omega

/-- A literal is one lexeme, whatever its text. -/
theorem scans_quote {s : String} {cs : List Char} {forms : List Lexeme} (h : Scans cs forms) :
    Scans ((quote s).toList ++ cs) (.string (quote s) :: forms) := by
  have htext : (quote s).toList = '"' :: (s.toList.flatMap literalChar ++ ['"']) := by
    simp [quote, literal]
  refine .lexeme (by rw [htext]; rfl) ?_ h
  have hmunch (text : List Char) :
      munch ('"' :: text) = munchClosed .string (interpretedLength text) := rfl
  rw [htext, List.cons_append, hmunch, List.append_assoc, List.singleton_append,
    interpretedLength_spelled]
  simp [munchClosed]

/-! ## Names of packages -/

/-- Whether a text can be the name of a package: a letter or underscore, then letters, digits and
underscores, all of them ASCII, and not a keyword. -/
def isPackageName (package : String) : Bool :=
  match package.toList with
  | [] => false
  | c :: cs =>
    (c.isAlpha || c == '_') && cs.all (fun d => d.isAlphanum || d == '_')
      && !keywords.contains package

theorem toNat_lt_of_isAlphanum {c : Char} (h : (c.isAlphanum || c == '_') = true) :
    c.toNat < 0x80 := by
  have hranges : (decide ('A'.val ≤ c.val ∧ c.val ≤ 'Z'.val)
      || ('a'.val ≤ c.val && c.val ≤ 'z'.val) || ('0'.val ≤ c.val && c.val ≤ '9'.val)
      || c == '_') = true := h
  simp only [Bool.or_eq_true, Bool.and_eq_true, decide_eq_true_eq, beq_iff_eq] at hranges
  rcases hranges with ((⟨-, hc⟩ | ⟨-, hc⟩) | ⟨-, hc⟩) | rfl
  · exact Nat.lt_of_le_of_lt (UInt32.le_iff_toNat_le.mp hc) (by decide)
  · exact Nat.lt_of_le_of_lt (UInt32.le_iff_toNat_le.mp hc) (by decide)
  · exact Nat.lt_of_le_of_lt (UInt32.le_iff_toNat_le.mp hc) (by decide)
  · decide

theorem isWord_of_isPackageName {package : String} (h : isPackageName package = true) :
    isWord package.toList = true ∧ keywords.contains package = false := by
  have hstart : ∀ c : Char, (c.isAlpha || c == '_') = true → isIdentifierStart c = true := by
    intro c hc
    have hascii : c.toNat < 0x80 := by
      refine toNat_lt_of_isAlphanum ?_
      rw [Char.isAlphanum, Bool.or_right_comm, hc, Bool.true_or]
    rwa [isIdentifierStart, if_pos hascii]
  have hpart : ∀ c : Char, (c.isAlphanum || c == '_') = true → isIdentifierPart c = true := by
    intro c hc
    rwa [isIdentifierPart, if_pos (toNat_lt_of_isAlphanum hc)]
  unfold isPackageName at h
  split at h
  next => cases h
  next c cs htext =>
    simp only [Bool.and_eq_true, Bool.not_eq_true', List.all_eq_true] at h
    obtain ⟨⟨hc, hcs⟩, hkeyword⟩ := h
    refine ⟨?_, hkeyword⟩
    rw [htext, isWord, hstart c hc, Bool.true_and, List.all_eq_true]
    exact fun d hd => hpart d (hcs d hd)

/-! ## The file is scanned into the lexemes -/

section Scanned

variable {lines : List String} {forms : List Lexeme} (h : Scans (unlines lines).toList forms)
include h

theorem scans_blankLine : Scans (unlines ("" :: lines)).toList (.lineBreak :: forms) := by
  rw [toList_unlines_cons]
  exact .lineFeed h

theorem scans_entryLine (e : Entry) :
    Scans (unlines (entryLine e :: lines)).toList (entryForms e ++ forms) := by
  have htext : (unlines (entryLine e :: lines)).toList = '\t' :: ((quote e.1).toList ++
      ':' :: ' ' :: ((quote e.2).toList ++ ',' :: '\n' :: (unlines lines).toList)) := by
    simp [toList_unlines_cons, entryLine]
  rw [htext]
  -- what follows the colon and the comma makes no longer operator of them
  refine .blank rfl (scans_quote (.symbol ":" rfl rfl (.blank rfl (scans_quote ?_))))
  exact .symbol "," rfl rfl (.lineFeed h)

theorem scans_entryLines (es : List Entry) :
    Scans (unlines (es.map entryLine ++ lines)).toList (es.flatMap entryForms ++ forms) := by
  induction es with
  | nil => exact h
  | cons e es ih =>
    rw [List.map_cons, List.cons_append, List.flatMap_cons, List.append_assoc]
    exact scans_entryLine ih e

theorem scans_declaration :
    Scans (unlines ("var CommentMap = map[string]string\x7b" :: lines)).toList
      ([.keyword "var", .name "CommentMap", .symbol "=", .keyword "map", .symbol "[",
        .name "string", .symbol "]", .name "string", .symbol "\x7b", .lineBreak] ++ forms) := by
  rw [toList_unlines_cons]
  refine .keyword "var" rfl rfl (.blank rfl (.name "CommentMap" rfl rfl rfl (.blank rfl ?_)))
  refine .symbol "=" rfl rfl (.blank rfl (.keyword "map" rfl rfl (.symbol "[" rfl rfl ?_)))
  refine .name "string" rfl rfl rfl (.symbol "]" rfl rfl (.name "string" rfl rfl rfl ?_))
  exact .symbol "\x7b" rfl rfl (.lineFeed h)

theorem scans_packageLine {package : String} (hpackage : isPackageName package = true) :
    Scans (unlines (("package " ++ package) :: lines)).toList
      (.keyword "package" :: .name package :: .lineBreak :: forms) := by
  obtain ⟨hword, hkeyword⟩ := isWord_of_isPackageName hpackage
  rw [toList_unlines_cons, String.toList_append, List.append_assoc]
  refine .keyword "package" rfl rfl (.blank rfl ?_)
  exact .name package hword hkeyword rfl (.lineFeed h)

theorem scans_mark :
    Scans (unlines (generatedMark :: lines)).toList
      (.comment generatedMark :: .lineBreak :: forms) := by
  rw [toList_unlines_cons]
  exact .lineComment generatedMark rfl (by decide) (.lineFeed h)

theorem scans_notice :
    Scans (unlines (noticeLines ++ lines)).toList
      (.comment noticeComment :: .lineBreak :: .lineBreak :: forms) := by
  have htext : (unlines (noticeLines ++ lines)).toList
      = noticeComment.toList ++ '\n' :: '\n' :: (unlines lines).toList := by
    simp [noticeLines, noticeComment, unlines]
  have hmarks : noticeComment.toList
      = '/' :: '*' :: '\n' :: (unlines noticeText).toList ++ ['*', '/'] := by
    rw [noticeComment, String.toList_append, String.toList_append]
    rfl
  have hwords : ∀ line ∈ noticeText, '*' ∉ line.toList := by decide +kernel
  have hbody : '*' ∉ '\n' :: (unlines noticeText).toList := by
    simpa [unlines] using hwords
  rw [htext]
  exact .blockComment noticeComment hmarks hbody (.lineFeed (.lineFeed h))

end Scanned

/-- The file is scanned into the lexemes that are listed. -/
theorem scans_render {package : String} (hpackage : isPackageName package = true) (m : CommentMap)
    (mpl2 : Bool) : Scans (render package m mpl2).toList (fileForms package m.entries mpl2) := by
  have hlast : Scans (unlines ["\x7d"]).toList endForms := by
    rw [toList_unlines_cons]
    exact .symbol "\x7d" rfl rfl (.lineFeed .nil)
  -- the lines are put in front of each other from the last one up
  have hmap := scans_declaration (scans_entryLines hlast m.entries)
  have hmain := scans_mark (scans_blankLine (scans_packageLine (scans_blankLine hmap) hpackage))
  rw [render_eq_unlines, fileLines, List.append_assoc, List.append_assoc]
  cases mpl2 with
  | false => exact hmain
  | true => exact scans_notice hmain

/-! ## The check accepts the file -/

theorem trimEnd_append {c : Char} (hc : isBlank c = false) (cs : List Char) :
    trimEnd (cs ++ [c, '\n']) = cs ++ [c] := by
  have hfeed : isBlank '\n' = true := by decide
  simp [trimEnd, dropEndWhile, hfeed, hc]

/-- The file ends with one line feed and no other white space. -/
theorem trimmedEnd_render (package : String) (m : CommentMap) (mpl2 : Bool) :
    trimmedEnd (render package m mpl2) ++ "\n" = render package m mpl2 := by
  obtain ⟨front, hfront⟩ : ∃ front, (render package m mpl2).toList = front ++ ['\x7d', '\n'] := by
    rw [render_eq_unlines, fileLines, unlines_append, String.toList_append]
    exact ⟨_, rfl⟩
  apply String.toList_injective
  rw [trimmedEnd, hfront, trimEnd_append (by decide)]
  simp

theorem head?_render (package : String) (m : CommentMap) (mpl2 : Bool) :
    (render package m mpl2).toList.head? = some '/' := by
  rw [render_eq_unlines, fileLines, List.append_assoc, List.append_assoc]
  cases mpl2 with
  | false =>
    rw [if_neg Bool.false_ne_true, List.nil_append, List.cons_append, toList_unlines_cons]
    rfl
  | true =>
    rw [if_pos rfl, noticeLines, List.cons_append, List.cons_append, toList_unlines_cons]
    rfl

theorem length_le_length_fileForms (package : String) (es : List Entry) (mpl2 : Bool) :
    es.length ≤ (fileForms package es mpl2).length := by
  have hentries : (es.flatMap entryForms).length = es.length * 5 := by
    rw [List.length_flatMap]
    simp [entryForms]
  simp only [fileForms, varForms, mapForms, List.length_append, hentries]
  omega

/-- The tree of the file: what a file with the comment map is made of, and nothing else. -/
theorem parse?_render {package : String} (hpackage : isPackageName package = true) (m : CommentMap)
    (mpl2 : Bool) :
    ∃ children, Node.parse? (render package m mpl2).toList
        = some (.mk .sourceFile none (Span.whole (render package m mpl2).toList) children) ∧
      IsMapFile (render package m mpl2).toList package children := by
  refine exists_parse? (scans_render hpackage m mpl2) ?_ ?_
  · rw [head?_render]
    decide
  · have hle := length_le_length_fileForms package m.entries mpl2
    obtain ⟨fuel, hfuel⟩ : ∃ fuel, 8 * (fileForms package m.entries mpl2).length + 16
        = fuel + m.entries.length + 8 :=
      ⟨8 * (fileForms package m.entries mpl2).length + 8 - m.entries.length, by omega⟩
    rw [hfuel]
    exact accepts_file fuel package m.entries mpl2

/-- **The generated file is accepted as it is**, for every package that has a name and every map. -/
theorem syntaxCheck_render (package : String) (hpackage : isPackageName package = true)
    (m : CommentMap) (mpl2 : Bool) :
    syntaxCheck (render package m mpl2) = .ok (render package m mpl2) := by
  have hparse : (Node.parse? (render package m mpl2).toList).isSome = true := by
    obtain ⟨children, hparse, -⟩ := parse?_render hpackage m mpl2
    rw [hparse]
    rfl
  rw [syntaxCheck, if_pos hparse, trimmedEnd_render]

theorem syntaxCheck_render_escaped :
    isPackageName "schema_v2" = true ∧
      syntaxCheck (render "schema_v2"
          (CommentMap.empty.insert "example.com/p.T" "T \"quotes\" a \\ and\nends \u200b.") true)
        = .ok (render "schema_v2"
          (CommentMap.empty.insert "example.com/p.T" "T \"quotes\" a \\ and\nends \u200b.") true) :=
  ⟨by decide, syntaxCheck_render "schema_v2" (by decide) _ true⟩

end DocHarvest.Output
