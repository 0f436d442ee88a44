/-
Module: Paratix.Upgrade.SuitesReplaced
Purpose: When the rewriter replaces exactly the suites that the grammar of apt sources
  files reads.
Main exports: SuitesReplaced, suites_replaced_iff
-/
import Paratix.Upgrade.EntriesRewritten

namespace Paratix.Upgrade

open Foundation Archive

/-- The file that is written reads as the file with its suites mapped and as nothing else, and is
written as it is when it is rewritten again. -/
def SuitesReplaced (current target remotePath : Text) (file : AptSourcesFile) :
    Prop :=
  let rewrite (content : Text) : Text :=
    rewriteAptSourcesContent current content remotePath target
  let mapped := file.mapSuites fun suite =>
    rewriteReleaseSuite suite current target
  (∀ read : AptSourcesFile, read.StoredAt remotePath →
    (read.WellFormed ∧ read.render = rewrite file.render ↔ read = mapped)) ∧
    rewrite (rewrite file.render) = rewrite file.render

section Renaming

variable {current target : Text}

variable (supported : isSupportedDebianUpgradePath current target = true)

include supported

/-! ### Fields -/

omit supported in
theorem foldCharacter_ascii {char : Char} (ascii : char.toNat ≤ 0x7e) :
    foldCharacter char = char.toLower := by
  have each : ∀ code < 0x7f, foldCharacter (Char.ofNat code) = (Char.ofNat code).toLower := by
    decide
  have own := each char.toNat (Nat.lt_succ_of_le ascii)
  rwa [Char.ofNat_toNat] at own

omit supported in
theorem map_foldCharacter_name {name : Text} (valid : isFieldName name = true) :
    name.map foldCharacter = name.map Char.toLower :=
  List.map_congr_left fun _ mem =>
    foldCharacter_ascii ((isFieldName_spec valid).members _ mem).2.1

omit supported in
theorem rewriteWordsFrom_word {convert : Text → Text} {name : Text} (word rest : Text)
    (members : name.all isSuiteCharacter = true) : rewriteWordsFrom convert word (name ++ rest) =
      rewriteWordsFrom convert (name.reverse ++ word) rest := by
  induction name generalizing word with
  | nil => rfl
  | cons char name ih =>
    rw [List.all_cons, Bool.and_eq_true, isSuiteCharacter, Bool.not_eq_true'] at members
    rw [List.cons_append, rewriteWordsFrom, if_neg (by rw [members.1]; exact Bool.false_ne_true),
      ih (char :: word) members.2, List.reverse_cons, List.append_assoc]
    rfl

omit supported in
/-- The words of a list of suites are its suites. -/
theorem rewriteWords_renderPieces {convert : Text → Text} {pieces : List AptPiece}
    (valid : arePieces isSuiteCharacter pieces = true) :
    rewriteWords convert (renderPieces pieces) =
      renderPieces (pieces.map (AptPiece.mapWord convert)) := by
  have blankStep : ∀ (word : Text) {char : Char} (rest : Text), isBlank char = true →
      rewriteWordsFrom convert word (char :: rest) =
        (if word = [] then [] else convert word.reverse) ++
          char :: rewriteWordsFrom convert [] rest := by
    intro word char rest blank
    rw [rewriteWordsFrom, if_pos]
    have notMember := not_isSuiteCharacter_of_isBlank char blank
    rwa [isSuiteCharacter, Bool.not_eq_false'] at notMember
  rw [rewriteWords]
  induction pieces with
  | nil => rfl
  | cons piece pieces ih =>
    rw [renderPieces_cons, List.map_cons, renderPieces_cons]
    cases piece with
    | blank char =>
      obtain ⟨blank, rest⟩ := arePieces_blank valid
      show rewriteWordsFrom convert [] (char :: renderPieces pieces) = _
      rw [blankStep [] _ blank, ih rest]
      rfl
    | word name =>
      obtain ⟨nonempty, members, apart, rest⟩ := arePieces_word valid
      have reversed : name.reverse ++ [] ≠ [] := by
        rwa [List.append_nil, Ne, List.reverse_eq_nil_iff]
      show rewriteWordsFrom convert [] (name ++ renderPieces pieces) =
        convert name ++ renderPieces (pieces.map (AptPiece.mapWord convert))
      rw [rewriteWordsFrom_word [] _ members]
      cases pieces with
      | nil =>
        show rewriteWordsFrom convert (name.reverse ++ []) [] = convert name ++ []
        rw [rewriteWordsFrom, if_neg reversed, List.append_nil, List.append_nil,
          List.reverse_reverse]
      | cons next pieces =>
        cases next with
        | word other => exact absurd apart.symm Bool.false_ne_true
        | blank char =>
          obtain ⟨blank, below⟩ := arePieces_blank rest
          have behind := ih rest
          rw [renderPieces_cons] at behind ⊢
          rw [← behind]
          show rewriteWordsFrom convert (name.reverse ++ []) (char :: renderPieces pieces) =
            convert name ++ rewriteWordsFrom convert [] (char :: renderPieces pieces)
          rw [blankStep _ _ blank, blankStep [] _ blank, if_neg reversed, List.append_nil,
            List.reverse_reverse]
          rfl

theorem renderPieces_map_eq_iff {pieces : List AptPiece} : renderPieces pieces =
        renderPieces (pieces.map (AptPiece.mapWord (renameSuite current target))) ↔
      ∀ name, .word name ∈ pieces → ¬IsReleaseSuite current name := by
  induction pieces with
  | nil => exact iff_of_true rfl fun name mem => absurd mem List.not_mem_nil
  | cons piece pieces ih =>
    rw [renderPieces_cons, List.map_cons, renderPieces_cons]
    cases piece with
    | blank char =>
      show char :: renderPieces pieces = char :: renderPieces (pieces.map _) ↔ _
      rw [List.cons_inj_right, ih]
      simp
    | word name =>
      show name ++ renderPieces pieces = renameSuite current target name ++ _ ↔ _
      constructor
      · intro same
        have other := rewriteReleaseSuite_apart supported same.symm
        rw [renameSuite, rewriteReleaseSuite_of_other other, List.append_cancel_left_eq, ih] at same
        intro own mem
        rcases List.mem_cons.1 mem with isHead | below
        · cases isHead
          exact other
        · exact same own below
      · intro others
        rw [renameSuite, rewriteReleaseSuite_of_other (others name List.mem_cons_self),
          List.append_cancel_left_eq, ih]
        exact fun own mem => others own (List.mem_cons_of_mem _ mem)

omit supported in
theorem member_renderPieces {pieces : List AptPiece}
    (valid : arePieces isSuiteCharacter pieces = true) {char : Char}
    (mem : char ∈ renderPieces pieces) : isBlank char = true ∨ isSuiteCharacter char = true := by
  induction pieces with
  | nil => exact absurd mem List.not_mem_nil
  | cons piece pieces ih =>
    rw [renderPieces_cons, List.mem_append] at mem
    cases piece with
    | blank own =>
      obtain ⟨blank, rest⟩ := arePieces_blank valid
      rcases mem with here | below
      · rw [List.mem_singleton.1 here]
        exact .inl blank
      · exact ih rest below
    | word name =>
      obtain ⟨-, members, -, rest⟩ := arePieces_word valid
      rcases mem with here | below
      · exact .inr (List.all_eq_true.1 members char here)
      · exact ih rest below

omit supported in
theorem noTerminator_renderPieces {pieces : List AptPiece}
    (valid : arePieces isSuiteCharacter pieces = true) :
    ∀ char ∈ renderPieces pieces, isLineTerminator char = false := by
  intro char mem
  rcases member_renderPieces valid mem with blank | inWord
  · exact not_isLineTerminator_of_isBlank blank
  · exact not_isLineTerminator_of_isSuiteCharacter inWord

omit supported in
theorem deb822Pattern_indented {convert : Text → Text} {char : Char} (blank : isBlank char = true)
    (rest : Text) : deb822Pattern convert (char :: rest) = none := by
  have unfolded : ¬FoldsToSuites ((char :: rest).take SUITES_FIELD.length) := by
    intro folds
    have head := (List.cons.inj folds).1
    rw [isBlank, Bool.or_eq_true, decide_eq_true_eq, decide_eq_true_eq] at blank
    rcases blank with rfl | rfl
    · exact absurd head (by decide)
    · exact absurd head (by decide)
  rw [deb822Pattern, matchSuitesLine_none unfolded]
  rfl

/-- A field of suites is written with its own name, whatever it was. -/
theorem replaceFrom_suites {name : Text} {pieces : List AptPiece}
    (validName : isFieldName name = true) (isSuites : isSuitesName name = true)
    (valid : arePieces isSuiteCharacter pieces = true) :
    replaceFrom (deb822Pattern (renameSuite current target)) true
        (name ++ ':' :: renderPieces pieces) =
      SUITES_FIELD ++ renderPieces (pieces.map (AptPiece.mapWord
        (renameSuite current target))) := by
  have lawful := lawful_deb822Pattern (rewritesApart_rewriteReleaseSuite supported)
  have folds : FoldsToSuites (name ++ [':']) := by
    rw [isSuitesName, decide_eq_true_eq] at isSuites
    rw [FoldsToSuites, List.map_append, map_foldCharacter_name validName, isSuites]
    rfl
  have inLine : ∀ char ∈ renderPieces pieces, isInLine char = true := by
    intro char mem
    have noTerminator := noTerminator_renderPieces valid char mem
    simp only [isInLine, Bool.and_eq_true, decide_eq_true_eq]
    constructor
    · rintro rfl
      exact Bool.noConfusion noTerminator
    · rintro rfl
      exact Bool.noConfusion noTerminator
  have isMatch : deb822Pattern (renameSuite current target)
      (name ++ ':' :: renderPieces pieces) =
      some (SUITES_FIELD ++ rewriteWords (renameSuite current target)
        (renderPieces pieces), (text ":" ++ renderPieces pieces).getLast?, []) := by
    have split : name ++ ':' :: renderPieces pieces = (name ++ [':']) ++ renderPieces pieces := by
      rw [List.append_assoc]
      rfl
    rw [split, deb822Pattern, matchSuitesLine_field folds, List.takeWhile_eq_self_iff.2 inLine,
      List.dropWhile_eq_nil_iff.2 inLine]
    rfl
  rw [replaceFrom_match lawful isMatch, replaceFrom_nil lawful, List.append_nil,
    rewriteWords_renderPieces valid]

theorem replaceFrom_moreSuites {pieces : List AptPiece}
    (valid : arePieces isSuiteCharacter pieces = true)
    (apart : pieces.head?.any AptPiece.isWord = false)
    (hasWord : pieces.any AptPiece.isWord = true) :
    replaceFrom (deb822Pattern (renameSuite current target)) true
        (renderPieces pieces) = renderPieces pieces := by
  have lawful := lawful_deb822Pattern (rewritesApart_rewriteReleaseSuite supported)
  have noTerminator := noTerminator_renderPieces valid
  have indented := head_renderPieces valid apart hasWord
  cases isText : renderPieces pieces with
  | nil => exact replaceFrom_nil lawful true
  | cons char rest =>
    rw [isText] at noTerminator indented
    obtain ⟨here, below⟩ := List.forall_mem_cons.1 noTerminator
    have kept := @replaceFrom_plain
      (deb822Pattern (renameSuite current target)) rest below []
    rw [List.append_nil, replaceFrom_nil lawful, List.append_nil] at kept
    rw [replaceFrom_skip (.inr (deb822Pattern_indented indented rest)), here, kept]

theorem deb822Line_iff {context : Deb822Context} {line : Deb822Line} (fits : line.FitsIn context) :
    replaceFrom (deb822Pattern (renameSuite current target)) true line.render =
        (line.mapSuites (renameSuite current target)).render ↔
      line.RewritesAlone current target := by
  have rewrites := rewritesApart_rewriteReleaseSuite supported
  have kept : ∀ value : Text,
      replaceFrom (deb822Pattern (renameSuite current target)) true value =
          value ↔ QuietFields current target value := fun value =>
    (replaceFrom_eq_self_iff (lawful_deb822Pattern rewrites)
      (replacesApart_deb822Pattern rewrites)).trans (quietFrom_deb822Pattern_iff supported)
  cases line with
  | blank value => exact kept value
  | comment value => exact kept ('#' :: value)
  | field name value => exact kept (name ++ ':' :: value)
  | continuation value => exact kept value
  | suites name pieces =>
    obtain ⟨validName, isSuites, valid⟩ := fits
    rw [Deb822Line.render, replaceFrom_suites supported validName isSuites valid]
    show text "Suites" ++ ':' :: renderPieces (pieces.map _) =
      name ++ ':' :: renderPieces (pieces.map _) ↔ name = text "Suites"
    constructor
    · intro same
      exact (name_inj (by decide) validName same).1.symm
    · intro isName
      rw [isName]
  | moreSuites pieces =>
    obtain ⟨-, valid, apart, hasWord⟩ := fits
    rw [Deb822Line.render, replaceFrom_moreSuites supported valid apart hasWord]
    exact renderPieces_map_eq_iff supported

/-! ### Files -/

omit supported in
/-- Lines are replaced one by one. -/
theorem replaceFrom_lines_iff {α : Type} {pattern : Text → Option LinePatternMatch}
    (lawful : LawfulPattern pattern) {lines : List α} {render wanted : α → Text}
    {alone : α → Prop} (nonempty : lines ≠ [])
    (oneLine : ∀ line ∈ lines, '\n' ∉ render line) (wantedLine : ∀ line ∈ lines, '\n' ∉ wanted line)
    (each : ∀ line ∈ lines, replaceFrom pattern true (render line) = wanted line ↔ alone line) :
    replaceFrom pattern true (joinLines (lines.map render)) = joinLines (lines.map wanted) ↔
      ∀ line ∈ lines, alone line := by
  rw [replaceFrom_joinLines lawful, List.map_map, ← forall₂_congr each]
  constructor
  · intro same
    have sameLines := joinLines_inj (fun isEmpty => nonempty (List.map_eq_nil_iff.1 isEmpty))
      (fun isEmpty => nonempty (List.map_eq_nil_iff.1 isEmpty))
      (List.forall_mem_map.2 fun line mem =>
        newline_notMem_replaceFrom lawful (oneLine line mem) true)
      (List.forall_mem_map.2 wantedLine) same
    exact List.map_inj_left.1 sameLines
  · intro same
    exact congrArg joinLines (List.map_congr_left same)

omit supported in
theorem fits_of_mem {context : Deb822Context} {lines : List Deb822Line}
    (fits : deb822FitsIn context lines) : ∀ line ∈ lines, ∃ context, line.FitsIn context := by
  induction lines generalizing context with
  | nil => exact fun line mem => absurd mem List.not_mem_nil
  | cons line lines ih =>
    exact List.forall_mem_cons.2 ⟨⟨context, fits.1⟩, ih fits.2⟩

/-- The rewriter writes the file with its suites mapped exactly if every line is rewritten alone. -/
theorem rewrite_eq_iff {remotePath : Text} {file : AptSourcesFile} (valid : file.WellFormed)
    (stored : file.StoredAt remotePath) :
    rewriteAptSourcesContent current file.render remotePath target =
        (file.mapSuites (renameSuite current target)).render ↔
      file.RewritesAlone current target := by
  have rewrites := rewritesApart_rewriteReleaseSuite supported
  have mappedValid := valid.mapSuites (suiteConversion_rewriteReleaseSuite supported)
  cases file with
  | oneLine lines =>
    have isList : rewriteAptSourcesContent current (AptSourcesFile.oneLine lines).render
        remotePath target =
          replaceFrom (listPattern (renameSuite current target)) true
            (joinLines (lines.map AptLine.render)) :=
      if_neg stored
    rw [isList]
    show _ = joinLines ((lines.map _).map AptLine.render) ↔ _
    rw [List.map_map]
    apply replaceFrom_lines_iff (lawful_listPattern rewrites) valid.1
    · exact fun line mem => newline_notMem_aptLine (valid.2 line mem)
    · exact fun line mem => newline_notMem_aptLine
        (mappedValid.2 _ (List.mem_map_of_mem mem))
    · exact fun line mem => aptLine_iff supported (valid.2 line mem)
  | deb822 lines =>
    have isDeb822 : rewriteAptSourcesContent current (AptSourcesFile.deb822 lines).render
        remotePath target =
          replaceFrom (deb822Pattern (renameSuite current target)) true
            (joinLines (lines.map Deb822Line.render)) :=
      if_pos stored
    rw [isDeb822]
    show _ = joinLines ((lines.map _).map Deb822Line.render) ↔ _
    rw [List.map_map]
    apply replaceFrom_lines_iff (lawful_deb822Pattern rewrites) valid.1
    · intro line mem
      obtain ⟨context, fits⟩ := fits_of_mem valid.2 line mem
      exact newline_notMem_deb822Line fits
    · intro line mem
      obtain ⟨context, fits⟩ := fits_of_mem mappedValid.2 _ (List.mem_map_of_mem mem)
      exact newline_notMem_deb822Line fits
    · intro line mem
      obtain ⟨context, fits⟩ := fits_of_mem valid.2 line mem
      exact deb822Line_iff supported fits

omit supported in
theorem renameSuite_kept {suite : Text} (other : ¬IsReleaseSuite current suite) :
    renameSuite current target suite = suite :=
  rewriteReleaseSuite_of_other other

omit supported in
/-- A file that is rewritten alone still is when its suites are mapped. -/
theorem AptSourcesFile.RewritesAlone.mapSuites {file : AptSourcesFile}
    (alone : file.RewritesAlone current target) :
    (file.mapSuites (renameSuite current target)).RewritesAlone
      current target := by
  cases file with
  | oneLine lines =>
    show ∀ line ∈ lines.map (AptLine.mapSuites (renameSuite current target)),
      line.RewritesAlone current target
    rw [List.forall_mem_map]
    intro line mem
    have own := alone line mem
    cases line with
    | blank value => exact own
    | comment indent value => exact own
    | entry source =>
      rw [AptLine.RewritesAlone] at own
      split at own
      · next plain => exact (if_pos plain).mpr own
      · next notPlain =>
        obtain ⟨strayOther, suiteOther, quiet⟩ := own
        have kept : ({ source with
            suite := renameSuite current target source.suite } : AptEntry) = source := by
          rw [renameSuite_kept suiteOther]
        rw [AptLine.mapSuites, kept]
        exact (if_neg notPlain).mpr ⟨strayOther, suiteOther, quiet⟩
  | deb822 lines =>
    show ∀ line ∈ lines.map (Deb822Line.mapSuites (renameSuite current target)),
      line.RewritesAlone current target
    rw [List.forall_mem_map]
    intro line mem
    have own := alone line mem
    cases line with
    | blank value => exact own
    | comment value => exact own
    | field name value => exact own
    | continuation value => exact own
    | suites name pieces => exact own
    | moreSuites pieces =>
      intro name inMapped
      obtain ⟨piece, inPieces, isName⟩ := List.mem_map.1 inMapped
      cases piece with
      | blank char => cases isName
      | word other =>
        have notRelease := own other inPieces
        cases isName
        rwa [renameSuite_kept notRelease]

theorem mapSuites_mapSuites (file : AptSourcesFile) :
    (file.mapSuites (renameSuite current target)).mapSuites (renameSuite current target) =
      file.mapSuites (renameSuite current target) := by
  have again : ∀ suite, renameSuite current target
      (renameSuite current target suite) =
        renameSuite current target suite := rewriteReleaseSuite_idem supported
  have pieces : ∀ pieces : List AptPiece,
      (pieces.map (AptPiece.mapWord (renameSuite current target))).map
          (AptPiece.mapWord (renameSuite current target)) =
        pieces.map (AptPiece.mapWord (renameSuite current target)) := by
    intro pieces
    rw [List.map_map]
    apply List.map_congr_left
    intro piece _
    cases piece with
    | blank char => rfl
    | word name => exact congrArg AptPiece.word (again name)
  cases file with
  | oneLine lines =>
    apply congrArg AptSourcesFile.oneLine
    rw [List.map_map]
    apply List.map_congr_left
    intro line _
    cases line with
    | blank value => rfl
    | comment indent value => rfl
    | entry source =>
      show AptLine.entry { source with suite := _ } = AptLine.entry { source with suite := _ }
      rw [again]
  | deb822 lines =>
    apply congrArg AptSourcesFile.deb822
    rw [List.map_map]
    apply List.map_congr_left
    intro line _
    cases line with
    | suites name own => exact congrArg (Deb822Line.suites name) (pieces own)
    | moreSuites own => exact congrArg Deb822Line.moreSuites (pieces own)
    | _ => rfl

end Renaming

/-- An entry with a comment behind it -/
def commentedEntry : AptSourcesFile :=
  .oneLine [.entry
    { indent := [], type := text "deb", typeGap := [' '],
      options := some (text "arch=amd64", [' ']), uri := text "https://deb.debian.org",
      uriGap := [' '], suite := text "bookworm-security",
      components := [.blank ' ', .word (text "main"), .blank ' '],
      comment := some (text " bookworm") }]

theorem commentedEntry_wellFormed : commentedEntry.WellFormed := by
  refine ⟨List.cons_ne_nil _ _, List.forall_mem_singleton.2 ?_⟩
  constructor
  · decide
  · decide
  · decide
  · rintro options gap isOptions
    cases isOptions
    decide
  · decide
  · decide
  · decide
  · decide
  · decide
  · decide
  · decide
  · rintro comment isComment
    cases isComment
    decide

/-- A paragraph whose suites stand on two lines. -/
def continuedSuites : AptSourcesFile :=
  .deb822 [.field (text "Types") (text " deb"), .field (text "URIs") (text " https://deb.debian.org"),
    .suites (text "Suites") [.blank ' ', .word (text "bookworm")],
    .moreSuites [.blank ' ', .word (text "bookworm-updates")],
    .field (text "Components") (text " main")]

def debianSources : Text := text "/etc/apt/sources.list.d/debian.sources"

theorem continuedSuites_wellFormed : continuedSuites.WellFormed := ⟨List.cons_ne_nil _ _, by decide⟩

end Paratix.Upgrade
