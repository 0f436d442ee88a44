/-
Module: Paratix.Foundation.FileModes
Purpose: Mode bits of files, their octal texts, and what a change of the owner leaves of them.
Main exports: FileMode, chowned_chowned
-/
import Mathlib.Algebra.Group.Nat.Defs
import Mathlib.Data.List.Basic

namespace Foundation

/-- The set-ID and sticky bits, then the permissions of user, group and others. -/
abbrev FileMode : Type := BitVec 12

namespace FileMode

def setUserId : FileMode := 0x800

def setGroupId : FileMode := 0x400

def groupExecute : FileMode := 0x008

/-- `stat -c '%a'` -/
def octal (mode : FileMode) : List Char := Nat.toDigits 8 mode.toNat

/-- The mode that `chmod` takes octal digits for. -/
def ofOctal (digits : List Char) : FileMode := BitVec.ofNat 12 (Nat.ofDigitChars 8 digits 0)

theorem ofOctal_octal (mode : FileMode) : ofOctal mode.octal = mode := by
  rw [ofOctal, octal, Nat.ofDigitChars_toDigits (by decide) (by decide), BitVec.ofNat_toNat,
    BitVec.setWidth_eq]

theorem length_octal_le_iff {mode : FileMode} {length : Nat} (positive : 0 < length) :
    mode.octal.length ≤ length ↔ mode.toNat < 8 ^ length :=
  Nat.length_toDigits_le_iff (by decide) positive

/-- What `chown` leaves of the mode of a regular file: no set-user-ID bit, and a set-group-ID
bit only where the group may not execute the file. -/
def chowned (mode : FileMode) : FileMode :=
  if mode &&& groupExecute = 0 then mode &&& ~~~setUserId
  else mode &&& ~~~(setUserId ||| setGroupId)

theorem chowned_chowned (mode : FileMode) : mode.chowned.chowned = mode.chowned := by
  have kept : ∀ mask : FileMode, groupExecute &&& ~~~mask = groupExecute →
      (mode &&& ~~~mask) &&& groupExecute = mode &&& groupExecute := by
    intro mask disjoint
    rw [BitVec.and_assoc, BitVec.and_comm (~~~mask), disjoint]
  have twice : ∀ mask : FileMode, (mode &&& ~~~mask) &&& ~~~mask = mode &&& ~~~mask := by
    intro mask
    rw [BitVec.and_assoc, BitVec.and_self]
  by_cases executable : mode &&& groupExecute = 0
  · have isChowned : mode.chowned = mode &&& ~~~setUserId := if_pos executable
    rw [isChowned, chowned, if_pos (by rw [kept _ (by decide), executable]), twice]
  · have isChowned : mode.chowned = mode &&& ~~~(setUserId ||| setGroupId) := if_neg executable
    rw [isChowned, chowned, if_neg (by rwa [kept _ (by decide)]), twice]

end FileMode

end Foundation
