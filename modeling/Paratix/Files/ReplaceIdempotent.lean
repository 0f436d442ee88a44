/-
Module: Paratix.Files.ReplaceIdempotent
Purpose: The replacement of all matches of a pattern in a file, `file.replace`; what a replacement
  inserts, and when the replaced text is left alone by a further one.
Main exports: GlobalRegExp, wordRegExp
-/
import Paratix.Files.Metadata
import Paratix.Foundation.CutText

namespace Paratix.Files

open Foundation Archive Orchestration

/-! ### Global replacement -/

/-- A compiled expression with the flags `gu`: `exec` finds the first match at or behind
`lastIndex`, and `reference` is what a `$` with the text behind it stands for in a replacement
for a match, with the length of what it takes, unless that text begins with another `$`. -/
structure GlobalRegExp where
  exec : Text → Nat → Option (Nat × Nat)
  reference : Text → Nat × Nat → Text → Option (Text × Nat)
  inText : ∀ {content lastIndex start stop}, exec content lastIndex = some (start, stop) →
    lastIndex ≤ start ∧ start ≤ stop ∧ stop ≤ content.length

/-- The text that a replacement string stands for, from its place on behind `skip` characters
that were taken. -/
def expandTemplate (reference : Text → Option (Text × Nat)) : Nat → Text → Text
  | _, [] => []
  | skip + 1, _ :: template => expandTemplate reference skip template
  | 0, '$' :: '$' :: template => '$' :: expandTemplate reference 0 template
  | 0, '$' :: template =>
      match reference template with
      | some (expansion, taken) => expansion ++ expandTemplate reference taken template
      | none => '$' :: expandTemplate reference 0 template
  | 0, char :: template => char :: expandTemplate reference 0 template

section Matches

variable (regExp : GlobalRegExp) (content : Text)

/-- The matches from `lastIndex` on, at most `fuel` many; behind an empty one the search goes
on a character later. -/
def matchesFrom : Nat → Nat → List (Nat × Nat)
  | 0, _ => []
  | fuel + 1, lastIndex =>
      match regExp.exec content lastIndex with
      | none => []
      | some (start, stop) =>
          (start, stop) :: matchesFrom fuel (if start = stop then stop + 1 else stop)

/-- All matches: each search starts behind the one before it. -/
def matchesOf : List (Nat × Nat) := matchesFrom regExp content (content.length + 1) 0

/-- What stands before each match and the match, from a place in the content on. -/
def cutFrom (next : Nat) : List (Nat × Nat) → CutText Char
  | [] => ⟨[], content.drop next⟩
  | (start, stop) :: matches_ =>
      let cut := cutFrom stop matches_
      ⟨((content.take start).drop next, (content.take stop).drop start) :: cut.pieces, cut.rest⟩

def cutAtMatches : CutText Char := cutFrom content 0 (matchesOf regExp content)

def replaceFrom (template : Text) (next : Nat) : List (Nat × Nat) → Text
  | [] => content.drop next
  | (start, stop) :: matches_ =>
      (content.take start).drop next ++
        expandTemplate (regExp.reference content (start, stop)) 0 template ++
        replaceFrom template stop matches_

/-- `content.replaceAll(regExp, template)` -/
def replaceAllMatches (template : Text) : Text :=
  replaceFrom regExp content template 0 (matchesOf regExp content)

end Matches

/-! ### The module -/

structure ReplaceModule where
  remotePath : Text
  pattern : Text
  replacement : Text
deriving DecidableEq

/-- `replacement.replaceAll("$", "$$$$")` -/
def ReplaceModule.literalReplacement (module : ReplaceModule) : Text :=
  module.replacement.flatMap fun char =>
    if char = '$' then expandTemplate (fun _ => none) 0 (text "$$$$") else [char]

section Module

variable (newRegExp : Text → Text → Except Text GlobalRegExp)

def compileReplacePattern (remotePath pattern : Text) : Except Text GlobalRegExp :=
  compileUserRegex newRegExp (text "[file.replace: " ++ remotePath ++ text "]") pattern (text "gu")

/-- `apply`; the file is missing or a regular file. -/
def applyReplace (module : ReplaceModule) (file : Option Text) : ApplyOutcome :=
  match compileReplacePattern newRegExp module.remotePath module.pattern with
  | .error message => .failed message
  | .ok compiled =>
      match file with
      | none =>
          .failed (text "[file.replace: " ++ module.remotePath ++
            text "] path must be a regular file and not a symlink")
      | some content =>
          let updated := replaceAllMatches compiled content module.literalReplacement
          if updated = content then .ok else .changed updated

/-- `check` -/
def checkReplace (module : ReplaceModule) (file : Option Text) : CheckResult :=
  match compileReplacePattern newRegExp module.remotePath module.pattern with
  | .error _ => .needsApply
  | .ok compiled =>
      match file with
      | none => .needsApply
      | some content =>
          let updated := replaceAllMatches compiled content module.literalReplacement
          if updated = content then .ok else .needsApply

end Module

/-! ### Matches -/

section Matches

variable (regExp : GlobalRegExp) (content : Text)

/-- The fuel is enough: more of it finds no further match. -/
theorem matchesFrom_enough (more : Nat) {fuel lastIndex : Nat}
    (enough : content.length + 1 ≤ lastIndex + fuel) :
    matchesFrom regExp content (fuel + more) lastIndex =
      matchesFrom regExp content fuel lastIndex := by
  induction fuel generalizing lastIndex with
  | zero =>
    rw [Nat.zero_add, matchesFrom]
    cases more with
    | zero => rfl
    | succ more =>
      rw [matchesFrom]
      cases found : regExp.exec content lastIndex with
      | none => rfl
      | some match_ =>
        have inText := regExp.inText found
        omega
  | succ fuel ih =>
    rw [Nat.add_right_comm, matchesFrom, matchesFrom]
    cases found : regExp.exec content lastIndex with
    | none => rfl
    | some match_ =>
      have inText := regExp.inText found
      dsimp only
      rw [ih]
      split
      · omega
      · next nonempty =>
        have longer : match_.1 < match_.2 := Nat.lt_of_le_of_ne inText.2.1 nonempty
        omega

/-- Each match begins where the one before it ends or later. -/
def Ordered (length : Nat) : Nat → List (Nat × Nat) → Prop
  | _, [] => True
  | next, (start, stop) :: matches_ =>
      next ≤ start ∧ start ≤ stop ∧ stop ≤ length ∧ Ordered length stop matches_

theorem ordered_mono {length next later : Nat} (le : next ≤ later) {matches_ : List (Nat × Nat)}
    (ordered : Ordered length later matches_) : Ordered length next matches_ := by
  cases matches_ with
  | nil => trivial
  | cons match_ matches_ => exact ⟨Nat.le_trans le ordered.1, ordered.2⟩

theorem ordered_matchesFrom (fuel lastIndex : Nat) :
    Ordered content.length lastIndex (matchesFrom regExp content fuel lastIndex) := by
  induction fuel generalizing lastIndex with
  | zero => trivial
  | succ fuel ih =>
    rw [matchesFrom]
    cases found : regExp.exec content lastIndex with
    | none => trivial
    | some match_ =>
      obtain ⟨behind, forward, inText⟩ := regExp.inText found
      refine ⟨behind, forward, inText, ordered_mono ?_ (ih _)⟩
      split
      · exact Nat.le_succ _
      · exact Nat.le_refl _

theorem text_cutFrom {content : Text} {next : Nat} {matches_ : List (Nat × Nat)}
    (ordered : Ordered content.length next matches_) :
    (cutFrom content next matches_).text = content.drop next := by
  induction matches_ generalizing next with
  | nil => rfl
  | cons match_ matches_ ih =>
    obtain ⟨start, stop⟩ := match_
    obtain ⟨behind, forward, inText, rest⟩ := ordered
    have isRest := ih rest
    have kept : (content.take start).drop next ++ content.drop start = content.drop next := by
      conv_rhs => rw [← List.take_append_drop start content]
      rw [List.drop_append_of_le_length]
      rw [List.length_take]
      omega
    have found : (content.take stop).drop start ++ content.drop stop = content.drop start := by
      conv_rhs => rw [← List.take_append_drop stop content]
      rw [List.drop_append_of_le_length]
      rw [List.length_take]
      omega
    rw [CutText.text] at isRest ⊢
    rw [cutFrom, List.flatMap_cons, List.append_assoc, isRest, List.append_assoc, found, kept]

/-- The pieces make up the content. -/
theorem text_cutAtMatches : (cutAtMatches regExp content).text = content :=
  text_cutFrom (ordered_matchesFrom regExp content _ 0)

end Matches

/-! ### Literal insertion -/

/-- Whatever `$` sequences mean, the escaped replacement stands for the replacement. -/
theorem expandTemplate_literal (reference : Text → Option (Text × Nat)) (module : ReplaceModule) :
    expandTemplate reference 0 module.literalReplacement = module.replacement := by
  rw [ReplaceModule.literalReplacement]
  induction module.replacement with
  | nil => rfl
  | cons char replacement ih =>
    rw [List.flatMap_cons]
    split
    · next dollar =>
      have doubled : expandTemplate (fun _ => none) 0 (text "$$$$") = ['$', '$'] := by decide
      rw [doubled, dollar]
      exact congrArg ('$' :: ·) ih
    · next other =>
      rw [List.singleton_append, expandTemplate, ih]
      · exact fun _ isDollar _ => other isDollar
      · exact other

/-- Every inserted text is literally the replacement. -/
theorem replaceAllMatches_literal (regExp : GlobalRegExp) (content : Text)
    (module : ReplaceModule) : replaceAllMatches regExp content module.literalReplacement =
      (cutAtMatches regExp content).exchanged module.replacement := by
  rw [replaceAllMatches, cutAtMatches]
  generalize 0 = next
  induction matchesOf regExp content generalizing next with
  | nil => rfl
  | cons match_ matches_ ih =>
    obtain ⟨start, stop⟩ := match_
    rw [replaceFrom, ih, expandTemplate_literal, cutFrom, CutText.exchanged,
      CutText.exchanged, List.flatMap_cons, List.append_assoc _ _ (cutFrom _ _ _).rest]

/-! ### What idempotence asks for -/

section Idempotent

variable (newRegExp : Text → Text → Except Text GlobalRegExp) (module : ReplaceModule)

/-- After an apply that succeeded the check answers `ok`, a further apply leaves the file as it
is, and the file is the old one with the replacement in the place of each match. -/
def ReplaceIdempotent (file : Option Text) : Prop :=
  ∀ after, (applyReplace newRegExp module file).file file = some after →
    checkReplace newRegExp module after = .ok ∧
      (applyReplace newRegExp module after).file after = some after ∧
      ∃ compiled content,
        compileReplacePattern newRegExp module.remotePath module.pattern = .ok compiled ∧
        file = some content ∧
        after = some ((cutAtMatches compiled content).exchanged module.replacement)

/-- In the text with the replacement in the place of each match, each match of the pattern is
the replacement itself, or longer and shorter ones even out. -/
def ReplaceSettles (file : Option Text) : Prop :=
  ∀ compiled content,
    compileReplacePattern newRegExp module.remotePath module.pattern = .ok compiled →
    file = some content →
    let cut := cutAtMatches compiled
      ((cutAtMatches compiled content).exchanged module.replacement)
    cut.AllAre module.replacement ∨
      cut.Uneven module.replacement ∧ cut.exchanged module.replacement = cut.text

end Idempotent

variable {newRegExp : Text → Text → Except Text GlobalRegExp} {module : ReplaceModule}

/-- The file after an apply is the replaced text, whether it was written or was there. -/
theorem applyReplace_file {compiled : GlobalRegExp}
    (compiles : compileReplacePattern newRegExp module.remotePath module.pattern = .ok compiled)
    (content : Text) : (applyReplace newRegExp module (some content)).file (some content) =
      some (some ((cutAtMatches compiled content).exchanged module.replacement)) := by
  rw [applyReplace, compiles]
  dsimp only
  rw [replaceAllMatches_literal]
  split
  · next same =>
    rw [same]
    rfl
  · rfl

theorem checkReplace_iff {compiled : GlobalRegExp}
    (compiles : compileReplacePattern newRegExp module.remotePath module.pattern = .ok compiled)
    (content : Text) : checkReplace newRegExp module (some content) = .ok ↔
      (cutAtMatches compiled content).exchanged module.replacement =
        (cutAtMatches compiled content).text := by
  rw [text_cutAtMatches, checkReplace, compiles]
  dsimp only
  rw [replaceAllMatches_literal]
  split
  · next same => exact iff_of_true rfl same
  · next different => exact iff_of_false nofun different

/-- Replacing is idempotent exactly where the replaced text has no match but the replacement,
or where longer and shorter ones even out. -/
theorem replace_idempotent_iff (newRegExp : Text → Text → Except Text GlobalRegExp)
    (module : ReplaceModule) (file : Option Text) :
    ReplaceIdempotent newRegExp module file ↔ ReplaceSettles newRegExp module file := by
  constructor
  · rintro idempotent compiled content compiles rfl
    obtain ⟨checked, _⟩ := idempotent _ (applyReplace_file compiles content)
    exact (CutText.exchanged_eq_text_iff _ _).1 ((checkReplace_iff compiles _).1 checked)
  · intro settles after applied
    cases compiles : compileReplacePattern newRegExp module.remotePath module.pattern with
    | error message => simp [applyReplace, compiles, ApplyOutcome.file] at applied
    | ok compiled =>
      cases file with
      | none => simp [applyReplace, compiles, ApplyOutcome.file] at applied
      | some content =>
        rw [applyReplace_file compiles, Option.some.injEq] at applied
        subst applied
        have same := (CutText.exchanged_eq_text_iff _ _).2 (settles compiled content compiles rfl)
        refine ⟨(checkReplace_iff compiles _).2 same, ?_, compiled, content, rfl, rfl, rfl⟩
        rw [applyReplace_file compiles, same, text_cutAtMatches]

/-- A pattern of letters only. -/
def wordRegExp (word : Text) : GlobalRegExp where
  exec content lastIndex :=
    ((List.range (content.length + 1)).find? fun start =>
      decide (lastIndex ≤ start) && word.isPrefixOf (content.drop start)).map fun start =>
        (start, start + word.length)
  reference _ _ _ := none
  inText := by
    intro content lastIndex start stop found
    obtain ⟨place, isFound, same⟩ := Option.map_eq_some_iff.1 found
    cases same
    have holds := List.find?_some isFound
    rw [Bool.and_eq_true, decide_eq_true_iff, List.isPrefixOf_iff_prefix] at holds
    have inRange := List.mem_range.1 (List.mem_of_find?_eq_some isFound)
    have fits := holds.2.length_le
    rw [List.length_drop] at fits
    omega

/-- The replacement still matches the pattern, and grows with every apply. -/
theorem growing_replacement :
    let newRegExp : Text → Text → Except Text GlobalRegExp := fun word _ => .ok (wordRegExp word)
    let module : ReplaceModule := ⟨text "/etc/conf", text "foo", text "foobar"⟩
    ¬ReplaceIdempotent newRegExp module (some (text "foo")) := by
  intro newRegExp module idempotent
  have checked := (idempotent (some (text "foobar")) (by decide +kernel)).1
  revert checked
  decide +kernel

end Paratix.Files
