/-
Module: Paratix.Files.Metadata
Purpose: Regular expressions of a recipe, what an apply leaves behind, mode texts and owners.
Main exports: compileUserRegex, assertValid_spec
-/
import Paratix.Archive.Member
import Paratix.Orchestration.Environment
import Paratix.Totp.TotpExact
import Paratix.Foundation.FileModes
import Paratix.Foundation.Words

namespace Paratix.Files

open Foundation Archive

def FILE_USER_REGEX_MAX_PATTERN_LENGTH : Nat := 1024

/-- `newRegExp pattern flags` is the compiled expression or the reason why it is none; the
error is the message of the failed result. -/
def compileUserRegex {ρ : Type} (newRegExp : Text → Text → Except Text ρ)
    (errorPrefix pattern flags : Text) : Except Text ρ :=
  if Totp.utf16Length pattern > FILE_USER_REGEX_MAX_PATTERN_LENGTH then
    .error (errorPrefix ++ text " pattern exceeds maximum length of " ++
      decimal FILE_USER_REGEX_MAX_PATTERN_LENGTH ++ text " characters: got " ++
      decimal (Totp.utf16Length pattern))
  else
    match newRegExp pattern flags with
    | .error reason => .error (errorPrefix ++ text " invalid regex pattern: " ++ reason)
    | .ok compiled => .ok compiled

/-- The result of an apply, with the content that it wrote. -/
inductive ApplyOutcome where
  | failed (message : Text)
  | ok
  | changed (newContent : Text)
deriving DecidableEq

/-- The file after an apply that did not fail. -/
def ApplyOutcome.file (before : Option Text) : ApplyOutcome → Option (Option Text)
  | .failed _ => none
  | .ok => some before
  | .changed newContent => some (some newContent)

/-! ### Modes -/

def isOctalDigit (char : Char) : Bool := char.isDigit && char ≠ '8' && char ≠ '9'

/-- `/^[0-7]{3,4}$/` -/
def validateMode (mode : Text) : Bool :=
  mode.all isOctalDigit && (mode.length = 3 || mode.length = 4)

theorem isOctalDigit_digitChar {digit : Nat} (below : digit < 8) :
    isOctalDigit digit.digitChar = true := by
  have all : ∀ digit < 8, isOctalDigit (Nat.digitChar digit) = true := by decide
  exact all digit below

theorem isOctalDigit_octal (mode : FileMode) : mode.octal.all isOctalDigit = true := by
  rw [FileMode.octal]
  induction mode.toNat using Nat.strongRecOn with
  | ind number ih =>
    by_cases small : number < 8
    · simp [Nat.toDigits_of_lt_base small, isOctalDigit_digitChar small]
    · have below : number % 8 < 8 := Nat.mod_lt _ (by decide)
      rw [Nat.toDigits_of_base_le (by decide) (by omega), List.all_append,
        ih (number / 8) (by omega)]
      simp [isOctalDigit_digitChar below]

/-- The text that `stat` prints for a mode is validated unless it has less than three digits. -/
theorem validateMode_octal (mode : FileMode) : validateMode mode.octal = true ↔ 64 ≤ mode.toNat := by
  have atMostFour : mode.octal.length ≤ 4 := (FileMode.length_octal_le_iff (by decide)).2 mode.isLt
  have twoDigits : mode.octal.length ≤ 2 ↔ mode.toNat < 8 ^ 2 :=
    FileMode.length_octal_le_iff (by decide)
  rw [validateMode, isOctalDigit_octal]
  simp only [Bool.true_and, Bool.or_eq_true, decide_eq_true_eq]
  omega

theorem trim_octal (mode : FileMode) : trim (mode.octal ++ ['\n']) = mode.octal := by
  refine trim_word_append ⟨Nat.toDigits_ne_nil, fun char mem => ?_⟩ (forall_mem_of_all (by decide))
  have isOctal := List.all_eq_true.1 (isOctalDigit_octal mode) char mem
  have isDigit : char.isDigit = true := by
    rw [isOctalDigit, Bool.and_eq_true, Bool.and_eq_true] at isOctal
    exact isOctal.1.1
  exact isJsSpace_of_isDigit isDigit

/-! ### Owners -/

/-- A name of an account: no colon, no white space, no dash in front. -/
def isAccountName (name : Text) : Bool :=
  name ≠ [] && name.head? ≠ some '-' && name.all fun char => !isJsSpace char && char ≠ ':'

structure Owner where
  user : Text
  group : Text
  validUser : isAccountName user = true
  validGroup : isAccountName group = true
deriving DecidableEq

/-- `stat -c '%U:%G'` -/
def Owner.spec (owner : Owner) : Text := owner.user ++ ':' :: owner.group

/-- The user and the group that `chown` takes a full specification for. -/
def Owner.ofSpec (spec : Text) : Option Owner :=
  match spec.splitOn ':' with
  | [user, group] =>
      if validUser : isAccountName user = true then
        if validGroup : isAccountName group = true then
          some { user := user, group := group, validUser := validUser, validGroup := validGroup }
        else none
      else none
  | _ => none

def assertValidChownOwnershipSpec (ownerSpec : Text) : Bool :=
  let pieces := (ownerSpec.splitOn ':').take 2
  let owner := pieces.headD []
  let group := (pieces.drop 1).headD []
  ownerSpec ≠ [] && !(owner.isEmpty && group.isEmpty) && owner.head? ≠ some '-' &&
    group.head? ≠ some '-'

theorem isAccountName_iff {name : Text} : isAccountName name = true ↔
    IsWord name ∧ ':' ∉ name ∧ name.head? ≠ some '-' := by
  simp only [isAccountName, IsWord, Bool.and_eq_true, decide_eq_true_eq, List.all_eq_true,
    Bool.not_eq_true', ne_eq]
  constructor
  · rintro ⟨⟨nonempty, noDash⟩, plain⟩
    exact ⟨⟨nonempty, fun char mem => (plain char mem).1⟩,
      fun colon => (plain ':' colon).2 rfl, noDash⟩
  · rintro ⟨⟨nonempty, noSpace⟩, noColon, noDash⟩
    refine ⟨⟨nonempty, noDash⟩, fun char mem => ⟨noSpace char mem, ?_⟩⟩
    rintro rfl
    exact noColon mem

theorem splitOn_spec (owner : Owner) : owner.spec.splitOn ':' = [owner.user, owner.group] := by
  obtain ⟨_, userPlain, _⟩ := isAccountName_iff.1 owner.validUser
  obtain ⟨_, groupPlain, _⟩ := isAccountName_iff.1 owner.validGroup
  rw [Owner.spec, List.splitOn_append_cons_self_of_not_mem userPlain,
    List.splitOn_eq_singleton groupPlain]

/-- What `stat` prints for an owner is this owner for `chown`. -/
theorem ofSpec_spec (owner : Owner) : Owner.ofSpec owner.spec = some owner := by
  rw [Owner.ofSpec, splitOn_spec]
  simp [owner.validUser, owner.validGroup]

theorem trim_spec (owner : Owner) : trim (owner.spec ++ ['\n']) = owner.spec := by
  refine trim_word_append ⟨by simp [Owner.spec], fun char mem => ?_⟩ (forall_mem_of_all (by decide))
  obtain ⟨⟨_, userPlain⟩, _⟩ := isAccountName_iff.1 owner.validUser
  obtain ⟨⟨_, groupPlain⟩, _⟩ := isAccountName_iff.1 owner.validGroup
  rw [Owner.spec, List.mem_append, List.mem_cons] at mem
  rcases mem with inUser | rfl | inGroup
  · exact userPlain char inUser
  · decide
  · exact groupPlain char inGroup

theorem assertValid_spec (owner : Owner) : assertValidChownOwnershipSpec owner.spec = true := by
  obtain ⟨⟨nonempty, _⟩, _, userDash⟩ := isAccountName_iff.1 owner.validUser
  obtain ⟨_, _, groupDash⟩ := isAccountName_iff.1 owner.validGroup
  rw [assertValidChownOwnershipSpec, splitOn_spec]
  simp [nonempty, userDash, groupDash, Owner.spec]

end Paratix.Files
