/-
Module: Paratix.Foundation.Octets
Purpose: Bit strings cut into octets, numbers as bytes, and byte strings behind their length.
Main exports: bitsOf, wireStrings_injective
-/
import Mathlib.Data.Nat.Bitwise
import Mathlib.Tactic.Ring
import Mathlib.Algebra.Group.Nat.Defs
import Mathlib.Data.List.Induction

namespace Foundation

/-- The lowest bits of a number. -/
def bitsOf : Nat → Nat → List Bool
  | 0, _ => []
  | width + 1, value => value.testBit width :: bitsOf width value

def bitsValueFrom (value : Nat) : List Bool → Nat
  | [] => value
  | bit :: bits => bitsValueFrom (2 * value + bit.toNat) bits

/-- The number that the bits spell. -/
def bitsValue (bits : List Bool) : Nat := bitsValueFrom 0 bits

/-- The whole octets of a bit string; bits left over at the end are dropped. -/
def octets : List Bool → List UInt8
  | bit7 :: bit6 :: bit5 :: bit4 :: bit3 :: bit2 :: bit1 :: bit0 :: bits =>
      UInt8.ofNat (bitsValue [bit7, bit6, bit5, bit4, bit3, bit2, bit1, bit0]) :: octets bits
  | _ => []

@[simp] theorem length_bitsOf (width value : Nat) : (bitsOf width value).length = width := by
  induction width with
  | zero => rfl
  | succ width ih => rw [bitsOf, List.length_cons, ih]

theorem bitsValueFrom_eq (value : Nat) (bits : List Bool) :
    bitsValueFrom value bits = value * 2 ^ bits.length + bitsValue bits := by
  induction bits generalizing value with
  | nil => simp [bitsValueFrom, bitsValue]
  | cons bit bits ih =>
    rw [bitsValue, bitsValueFrom, bitsValueFrom, ih, ih, List.length_cons, Nat.pow_succ]
    ring

theorem bitsValue_append (front back : List Bool) :
    bitsValue (front ++ back) = bitsValue front * 2 ^ back.length + bitsValue back := by
  have whole (value : Nat) : bitsValueFrom value (front ++ back) =
      bitsValueFrom (bitsValueFrom value front) back := by
    induction front generalizing value with
    | nil => rfl
    | cons bit front ih => exact ih _
  rw [bitsValue, whole, bitsValueFrom_eq]
  rfl

theorem bitsValue_lt (bits : List Bool) : bitsValue bits < 2 ^ bits.length := by
  induction bits with
  | nil => exact Nat.one_pos
  | cons bit bits ih =>
    have small : bit.toNat ≤ 1 := Bool.toNat_le bit
    rw [bitsValue, bitsValueFrom, bitsValueFrom_eq, List.length_cons, Nat.pow_succ,
      Nat.mul_zero, Nat.zero_add]
    have scaled : bit.toNat * 2 ^ bits.length ≤ 1 * 2 ^ bits.length := Nat.mul_le_mul_right _ small
    omega

/-- The bits of a number spell its remainder. -/
theorem bitsValue_bitsOf (width value : Nat) :
    bitsValue (bitsOf width value) = value % 2 ^ width := by
  induction width with
  | zero => rw [bitsOf, Nat.pow_zero, Nat.mod_one]; rfl
  | succ width ih =>
    rw [bitsOf, bitsValue, bitsValueFrom, bitsValueFrom_eq, ih, length_bitsOf,
      Nat.mul_zero, Nat.zero_add, Nat.mod_pow_succ, Nat.toNat_testBit]
    ring

theorem octets_short {bits : List Bool} (short : bits.length < 8) : octets bits = [] := by
  unfold octets
  split
  · simp only [List.length_cons] at short
    omega
  · rfl

theorem octets_cons_octet {octet : List Bool} (isOctet : octet.length = 8) (bits : List Bool) :
    octets (octet ++ bits) = UInt8.ofNat (bitsValue octet) :: octets bits := by
  match octet, isOctet with
  | [_, _, _, _, _, _, _, _], _ => rfl

theorem octets_octet {octet : List Bool} (isOctet : octet.length = 8) :
    octets octet = [UInt8.ofNat (bitsValue octet)] := by
  have whole := octets_cons_octet isOctet []
  rwa [List.append_nil] at whole

/-- Whole octets are cut off one by one. -/
theorem octets_append {count : Nat} {front : List Bool} (whole : front.length = 8 * count)
    (back : List Bool) : octets (front ++ back) = octets front ++ octets back := by
  induction count generalizing front with
  | zero =>
    rw [List.length_eq_zero_iff.1 whole]
    rfl
  | succ count ih =>
    have first : (front.take 8).length = 8 := by
      rw [List.length_take]
      omega
    have rest : (front.drop 8).length = 8 * count := by
      rw [List.length_drop]
      omega
    rw [← List.take_append_drop 8 front, List.append_assoc, octets_cons_octet first,
      octets_cons_octet first, ih rest, List.cons_append]

/-- The number that the bytes spell. -/
def beValue (bytes : List UInt8) : Nat :=
  bytes.foldl (fun value byte => value * 256 + byte.toNat) 0

/-- The lowest bytes of a number. -/
def beBytes : Nat → Nat → List UInt8
  | 0, _ => []
  | width + 1, value => beBytes width (value / 256) ++ [UInt8.ofNat (value % 256)]

@[simp] theorem length_beBytes (width value : Nat) : (beBytes width value).length = width := by
  induction width generalizing value with
  | zero => rfl
  | succ width ih =>
    rw [beBytes, List.length_append, ih, List.length_singleton]

theorem beValue_concat (front : List UInt8) (byte : UInt8) :
    beValue (front ++ [byte]) = beValue front * 256 + byte.toNat := by
  rw [beValue, List.foldl_append]
  rfl

theorem beValue_lt (bytes : List UInt8) : beValue bytes < 256 ^ bytes.length := by
  induction bytes using List.reverseRecOn with
  | nil => exact Nat.one_pos
  | append_singleton front byte ih =>
    have small := byte.toNat_lt
    rw [beValue_concat, List.length_append, List.length_singleton, Nat.pow_succ]
    omega

theorem beValue_beBytes {width value : Nat} (small : value < 256 ^ width) :
    beValue (beBytes width value) = value := by
  induction width generalizing value with
  | zero =>
    rw [Nat.pow_zero] at small
    rw [beBytes, Nat.lt_one_iff.1 small]
    rfl
  | succ width ih =>
    rw [Nat.pow_succ] at small
    have lowest : (UInt8.ofNat (value % 256)).toNat = value % 256 := by
      rw [UInt8.toNat_ofNat']
      omega
    rw [beBytes, beValue_concat, ih (by omega), lowest]
    omega

theorem beBytes_beValue (bytes : List UInt8) : beBytes bytes.length (beValue bytes) = bytes := by
  induction bytes using List.reverseRecOn with
  | nil => rfl
  | append_singleton front byte ih =>
    have small := byte.toNat_lt
    have higher : (beValue front * 256 + byte.toNat) / 256 = beValue front := by omega
    have lowest : (beValue front * 256 + byte.toNat) % 256 = byte.toNat := by omega
    rw [beValue_concat, List.length_append, List.length_singleton, beBytes, higher, lowest,
      ih, UInt8.ofNat_toNat]

/-! ### Strings -/

def WIRE_LENGTH_SIZE : Nat := 4

/-- The longest string has a length of four bytes. -/
def FitsWire (value : List UInt8) : Prop := value.length < 256 ^ WIRE_LENGTH_SIZE

/-- The length and the bytes. -/
def wireString (value : List UInt8) : List UInt8 :=
  beBytes WIRE_LENGTH_SIZE value.length ++ value

/-- The string at the start of the bytes, and what follows it. -/
def takeString (bytes : List UInt8) : Option (List UInt8 × List UInt8) :=
  if bytes.length < WIRE_LENGTH_SIZE then none
  else
    let length := beValue (bytes.take WIRE_LENGTH_SIZE)
    let rest := bytes.drop WIRE_LENGTH_SIZE
    if rest.length < length then none else some (rest.take length, rest.drop length)

theorem length_wireString (value : List UInt8) :
    (wireString value).length = WIRE_LENGTH_SIZE + value.length := by
  rw [wireString, List.length_append, length_beBytes]

theorem takeString_wireString {value : List UInt8} (fits : FitsWire value) (rest : List UInt8) :
    takeString (wireString value ++ rest) = some (value, rest) := by
  have isLength : ((wireString value ++ rest).take WIRE_LENGTH_SIZE) =
      beBytes WIRE_LENGTH_SIZE value.length := by
    rw [wireString, List.append_assoc]
    exact List.take_left' (length_beBytes _ _)
  have isRest : (wireString value ++ rest).drop WIRE_LENGTH_SIZE = value ++ rest := by
    rw [wireString, List.append_assoc]
    exact List.drop_left' (length_beBytes _ _)
  have long : ¬(wireString value ++ rest).length < WIRE_LENGTH_SIZE := by
    rw [List.length_append, length_wireString]
    omega
  have inside : ¬(value ++ rest).length < value.length := by
    rw [List.length_append]
    omega
  rw [takeString, if_neg long]
  simp only [isLength, isRest, beValue_beBytes fits, if_neg inside, List.take_left, List.drop_left]

/-- A string is read exactly where one was written. -/
theorem takeString_eq_some_iff {bytes value rest : List UInt8} :
    takeString bytes = some (value, rest) ↔
      bytes = wireString value ++ rest ∧ FitsWire value := by
  constructor
  · intro taken
    rw [takeString] at taken
    split at taken
    · cases taken
    · next long =>
      simp only at taken
      split at taken
      · cases taken
      · next inside =>
        rw [Option.some.injEq, Prod.mk.injEq] at taken
        have header : (bytes.take WIRE_LENGTH_SIZE).length = WIRE_LENGTH_SIZE := by
          rw [List.length_take]
          omega
        have length : value.length = beValue (bytes.take WIRE_LENGTH_SIZE) := by
          rw [← taken.1, List.length_take]
          omega
        have small := beValue_lt (bytes.take WIRE_LENGTH_SIZE)
        have written := beBytes_beValue (bytes.take WIRE_LENGTH_SIZE)
        rw [header] at small written
        refine ⟨?_, by rw [FitsWire, length]; exact small⟩
        rw [wireString, length, written, ← taken.1, ← taken.2, List.append_assoc,
          List.take_append_drop, List.take_append_drop]
  · rintro ⟨rfl, fits⟩
    exact takeString_wireString fits rest

theorem wireString_append_inj {value other rest otherRest : List UInt8} (fits : FitsWire value)
    (otherFits : FitsWire other) (same : wireString value ++ rest = wireString other ++ otherRest) :
    value = other ∧ rest = otherRest := by
  have taken := takeString_wireString fits rest
  rw [same, takeString_wireString otherFits, Option.some.injEq, Prod.mk.injEq] at taken
  exact ⟨taken.1.symm, taken.2.symm⟩

/-! ### Rows of strings -/

def wireStrings (values : List (List UInt8)) : List UInt8 := values.flatMap wireString

theorem wireStrings_cons (value : List UInt8) (values : List (List UInt8)) :
    wireStrings (value :: values) = wireString value ++ wireStrings values := List.flatMap_cons

theorem wireString_ne_nil (value : List UInt8) : wireString value ≠ [] := by
  intro empty
  have length := length_wireString value
  rw [empty, List.length_nil, WIRE_LENGTH_SIZE] at length
  omega

/-- Bytes spell one row of strings at most. -/
theorem wireStrings_injective {values others : List (List UInt8)}
    (fits : ∀ value ∈ values, FitsWire value) (otherFits : ∀ value ∈ others, FitsWire value)
    (same : wireStrings values = wireStrings others) : values = others := by
  induction values generalizing others with
  | nil =>
    cases others with
    | nil => rfl
    | cons other others =>
      rw [wireStrings_cons] at same
      exact absurd (List.append_eq_nil_iff.1 same.symm).1 (wireString_ne_nil other)
  | cons value values ih =>
    cases others with
    | nil =>
      rw [wireStrings_cons] at same
      exact absurd (List.append_eq_nil_iff.1 same).1 (wireString_ne_nil value)
    | cons other others =>
      rw [wireStrings_cons, wireStrings_cons] at same
      rw [List.forall_mem_cons] at fits otherFits
      obtain ⟨rfl, rest⟩ := wireString_append_inj fits.1 otherFits.1 same
      rw [ih fits.2 otherFits.2 rest]

end Foundation
