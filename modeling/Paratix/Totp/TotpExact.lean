/-
Module: Paratix.Totp.TotpExact
Purpose: The one-time password code, whose 32-bit arithmetic gives what the standards say.
Main exports: accumulateBase32Bytes, totp_arithmetic_exact
-/
import Paratix.Archive.Member
import Paratix.Foundation.Octets
import Paratix.Foundation.LinePattern

namespace Paratix.Totp

open Foundation Archive

/-! ### Base32 -/

def BASE32_BITS_PER_CHAR : Nat := 5
def BITS_PER_BYTE : Nat := 8
def MAX_BASE32_INPUT_LENGTH : Nat := 1024
def BASE32_ALPHABET : Text := "ABCDEFGHIJKLMNOPQRSTUVWXYZ234567".toList

/-- `text.length` -/
def utf16Length (text : Text) : Nat :=
  (text.map fun char => if char.toNat < 0x10000 then 1 else 2).sum

/-- The loop of the source: the shift and the disjunction wrap at 32 bits, and what was
emitted already is never masked away. -/
def accumulateBase32BytesFrom (bytes : List UInt8) (bitBuffer : BitVec 32) (bitCount : Nat) :
    Text → Except Text (List UInt8)
  | [] => .ok bytes
  | character :: stripped =>
      match BASE32_ALPHABET.idxOf? character with
      | none => .error ("Invalid Base32 character: ".toList ++ [character])
      | some index =>
          let bitBuffer := bitBuffer <<< BASE32_BITS_PER_CHAR ||| BitVec.ofNat 32 index
          let bitCount := bitCount + BASE32_BITS_PER_CHAR
          if BITS_PER_BYTE ≤ bitCount then
            let bitCount := bitCount - BITS_PER_BYTE
            let byte := bitBuffer.sshiftRight bitCount &&& 0xff#32
            accumulateBase32BytesFrom (bytes ++ [UInt8.ofNat byte.toNat]) bitBuffer bitCount
              stripped
          else accumulateBase32BytesFrom bytes bitBuffer bitCount stripped

def accumulateBase32Bytes (stripped : Text) : Except Text (List UInt8) :=
  accumulateBase32BytesFrom [] 0 0 stripped

/-- `encoded.toUpperCase().replaceAll(/[=\s]/g, "")` -/
def base32Letters (toUpperCase : Text → Text) (encoded : Text) : Text :=
  (toUpperCase encoded).filter fun char => char ≠ '=' && !isJsSpace char

def decodeBase32 (toUpperCase : Text → Text) (encoded : Text) : Except Text (List UInt8) :=
  if utf16Length encoded > MAX_BASE32_INPUT_LENGTH then
    .error ("Base32 input exceeds the ".toList ++ decimal MAX_BASE32_INPUT_LENGTH ++
      "-character limit (got ".toList ++ decimal (utf16Length encoded) ++ ")".toList)
  else accumulateBase32Bytes (base32Letters toUpperCase encoded)

/-! ### Dynamic truncation -/

def OFFSET_MASK : Nat := 0x0f
def SIGN_BIT_MASK : BitVec 32 := 0x7f
def BYTE_MASK : BitVec 32 := 0xff
def SHIFT_24 : Nat := 24
def SHIFT_16 : Nat := 16
def DECIMAL_BASE : Int := 10
def MAX_DIGITS : Nat := 8

/-- The lengths of what the supported algorithms SHA1, SHA256 and SHA512 give. -/
def HMAC_LENGTHS : List Nat := [20, 32, 64]

/-- `hmacDigest.at(index) ?? 0` as an operand of a bitwise operator -/
def digestByte (hmacDigest : List UInt8) (index : Nat) : BitVec 32 :=
  BitVec.ofNat 32 ((hmacDigest[index]?).getD 0).toNat

/-- `value.toString()` -/
def integerText (value : Int) : Text :=
  if value < 0 then '-' :: decimal value.natAbs else decimal value.natAbs

/-- `text.padStart(width, "0")` -/
def padStartZero (width : Nat) (text : Text) : Text :=
  List.replicate (width - text.length) '0' ++ text

def truncateHmac (hmacDigest : List UInt8) (digits : Nat) : Text :=
  let offset := (hmacDigest.getLast?.getD 0).toNat &&& OFFSET_MASK
  let binaryCode :=
    (digestByte hmacDigest offset &&& SIGN_BIT_MASK) <<< SHIFT_24 |||
      (digestByte hmacDigest (offset + 1) &&& BYTE_MASK) <<< SHIFT_16 |||
      (digestByte hmacDigest (offset + 2) &&& BYTE_MASK) <<< BITS_PER_BYTE |||
      (digestByte hmacDigest (offset + 3) &&& BYTE_MASK)
  let otp := binaryCode.toInt.tmod (DECIMAL_BASE ^ digits)
  padStartZero digits (integerText otp)

/-! ### What the standards say -/

/-- RFC 4648: each letter stands for five bits, and the octets of the bits are the data. -/
def rfc4648Bytes (quintets : List Nat) : List UInt8 := octets (quintets.flatMap (bitsOf 5))

/-- The values of the letters, if all are in the alphabet. -/
def base32Quintets (letters : Text) : Option (List Nat) :=
  letters.mapM fun letter => BASE32_ALPHABET.idxOf? letter

/-- RFC 4226: the four bytes from the offset that the last four bits give, without the
sign bit, modulo the power of ten. -/
def rfc4226Value (hmacDigest : List UInt8) (digits : Nat) : Nat :=
  let offset := (hmacDigest.getLast?.getD 0).toNat % 16
  let fourBytes := (hmacDigest.drop offset).take 4
  let snum := fourBytes.foldl (fun value byte => value * 256 + byte.toNat) 0 % 2 ^ 31
  snum % 10 ^ digits

/-- A number with this many decimal digits, leading zeros included. -/
def fixedDigits : Nat → Nat → Text
  | 0, _ => []
  | count + 1, value => fixedDigits count (value / 10) ++ [Nat.digitChar (value % 10)]

/-! ### The bit buffer -/

/-- A shift by few enough bits keeps stale high bits out of the byte. -/
theorem toNat_shifted_byte (buffer : BitVec 32) {shift : Nat} (small : shift ≤ 24) :
    (buffer.sshiftRight shift &&& 0xff#32).toNat = buffer.toNat / 2 ^ shift % 2 ^ 8 := by
  have logical : buffer.sshiftRight shift &&& 0xff#32 = (buffer >>> shift) &&& 0xff#32 := by
    apply BitVec.eq_of_getLsbD_eq
    intro index inside
    rw [BitVec.getLsbD_and, BitVec.getLsbD_and, BitVec.getLsbD_sshiftRight,
      BitVec.getLsbD_ushiftRight]
    by_cases low : index < 8
    · have within : shift + index < 32 := by omega
      simp [within, Nat.not_le.2 inside]
    · have high : (0xff#32).getLsbD index = false := by
        have large : 2 ^ 8 ≤ 2 ^ index := Nat.pow_le_pow_right (by decide) (Nat.not_lt.1 low)
        rw [BitVec.getLsbD]
        exact Nat.testBit_lt_two_pow (lt_of_lt_of_le (by decide) large)
      rw [high, Bool.and_false, Bool.and_false]
  have mask : (0xff#32).toNat = 2 ^ 8 - 1 := rfl
  rw [logical, BitVec.toNat_and, BitVec.toNat_ushiftRight, mask, Nat.and_two_pow_sub_one_eq_mod,
    Nat.shiftRight_eq_div_pow]

/-- The buffer after one more letter: wrapped, but exact in its low bits. -/
theorem toNat_shifted_letter (buffer : BitVec 32) {index : Nat} (small : index < 2 ^ 5) :
    (buffer <<< 5 ||| BitVec.ofNat 32 index).toNat = (buffer.toNat * 2 ^ 5 + index) % 2 ^ 32 := by
  have wrapped : (buffer.toNat * 2 ^ 5) % 2 ^ 32 = (buffer.toNat % 2 ^ 27) <<< 5 := by
    rw [Nat.shiftLeft_eq]
    omega
  rw [BitVec.toNat_or, BitVec.toNat_shiftLeft, BitVec.toNat_ofNat, Nat.shiftLeft_eq, wrapped,
    Nat.mod_eq_of_lt (lt_of_lt_of_le small (by decide)), ← Nat.shiftLeft_add_eq_or_of_lt small,
    Nat.shiftLeft_eq]
  omega

/-! ### Base32 -/

/-- What the loop holds after the bits of some letters: their whole octets were emitted,
and the low bits of the buffer are the bits left over. -/
structure Holds (bytes : List UInt8) (bitBuffer : BitVec 32) (bitCount : Nat)
    (bits : List Bool) : Prop where
  fewBits : bitCount < 8
  emitted : ∃ whole rest, bits = whole ++ rest ∧ whole.length = 8 * bytes.length ∧
    octets whole = bytes ∧ rest.length = bitCount ∧
      bitBuffer.toNat % 2 ^ bitCount = bitsValue rest

theorem Holds.octets_eq {bytes : List UInt8} {bitBuffer : BitVec 32} {bitCount : Nat}
    {bits : List Bool} (holds : Holds bytes bitBuffer bitCount bits) : octets bits = bytes := by
  obtain ⟨whole, rest, rfl, isWhole, isBytes, restLength, _⟩ := holds.emitted
  rw [octets_append isWhole, isBytes, octets_short, List.append_nil]
  rw [restLength]
  exact holds.fewBits

theorem idxOf_lt {character : Char} {index : Nat}
    (found : BASE32_ALPHABET.idxOf? character = some index) : index < 2 ^ 5 := by
  have inside := (List.idxOf?_eq_some_iff.1 found).1
  exact inside

/-- The leftover bits with those of one more letter. -/
theorem bitsValue_letter (rest : List Bool) {index : Nat} (small : index < 2 ^ 5) :
    bitsValue (rest ++ bitsOf 5 index) = bitsValue rest * 2 ^ 5 + index := by
  rw [bitsValue_append, length_bitsOf, bitsValue_bitsOf, Nat.mod_eq_of_lt small]

theorem low_bits {buffer value width index : Nat} (small : index < 2 ^ 5) (few : width < 8)
    (low : buffer % 2 ^ width = value) :
    (buffer * 2 ^ 5 + index) % 2 ^ 32 % 2 ^ (width + 5) = value * 2 ^ 5 + index := by
  have divides : 2 ^ (width + 5) ∣ 2 ^ 32 := Nat.pow_dvd_pow 2 (by omega)
  have split : buffer = 2 ^ width * (buffer / 2 ^ width) + value := by
    rw [← low]
    exact (Nat.div_add_mod buffer (2 ^ width)).symm
  have bound : value < 2 ^ width := by
    rw [← low]
    exact Nat.mod_lt _ (Nat.two_pow_pos width)
  rw [Nat.mod_mod_of_dvd _ divides, split, Nat.pow_add]
  have regroup : (2 ^ width * (buffer / 2 ^ width) + value) * 2 ^ 5 + index =
      2 ^ width * 2 ^ 5 * (buffer / 2 ^ width) + (value * 2 ^ 5 + index) := by ring
  rw [regroup, Nat.mul_add_mod]
  apply Nat.mod_eq_of_lt
  calc value * 2 ^ 5 + index < value * 2 ^ 5 + 2 ^ 5 := Nat.add_lt_add_left small _
    _ = (value + 1) * 2 ^ 5 := (Nat.succ_mul _ _).symm
    _ ≤ 2 ^ width * 2 ^ 5 := Nat.mul_le_mul_right _ bound

/-- The low bits of the buffer after one more letter. -/
theorem low_bits_letter {bitBuffer : BitVec 32} {bitCount : Nat} {rest : List Bool}
    (few : bitCount < 8) (low : bitBuffer.toNat % 2 ^ bitCount = bitsValue rest) {index : Nat}
    (small : index < 2 ^ 5) :
    (bitBuffer <<< 5 ||| BitVec.ofNat 32 index).toNat % 2 ^ (bitCount + 5) =
      bitsValue (rest ++ bitsOf 5 index) := by
  rw [toNat_shifted_letter bitBuffer small, low_bits small few low, bitsValue_letter rest small]

theorem Holds.keep {bytes : List UInt8} {bitBuffer : BitVec 32} {bitCount : Nat}
    {bits : List Bool} (holds : Holds bytes bitBuffer bitCount bits) {index : Nat}
    (small : index < 2 ^ 5) (few : bitCount + 5 < 8) :
    Holds bytes (bitBuffer <<< 5 ||| BitVec.ofNat 32 index) (bitCount + 5)
      (bits ++ bitsOf 5 index) := by
  obtain ⟨whole, rest, rfl, isWhole, isBytes, restLength, low⟩ := holds.emitted
  refine ⟨few, whole, rest ++ bitsOf 5 index, List.append_assoc .., isWhole, isBytes, ?_, ?_⟩
  · rw [List.length_append, length_bitsOf, restLength]
  · exact low_bits_letter holds.fewBits low small

theorem Holds.emit {bytes : List UInt8} {bitBuffer : BitVec 32} {bitCount : Nat}
    {bits : List Bool} (holds : Holds bytes bitBuffer bitCount bits) {index : Nat}
    (small : index < 2 ^ 5) (enough : 8 ≤ bitCount + 5) : Holds
      (bytes ++ [UInt8.ofNat (((bitBuffer <<< 5 ||| BitVec.ofNat 32 index).sshiftRight
        (bitCount + 5 - 8) &&& 0xff#32).toNat)])
      (bitBuffer <<< 5 ||| BitVec.ofNat 32 index) (bitCount + 5 - 8) (bits ++ bitsOf 5 index) := by
  obtain ⟨whole, rest, rfl, isWhole, isBytes, restLength, low⟩ := holds.emitted
  have few := holds.fewBits
  have buffered := low_bits_letter few low small
  generalize bitBuffer <<< 5 ||| BitVec.ofNat 32 index = buffer at buffered ⊢
  have longLength : (rest ++ bitsOf 5 index).length = bitCount + 5 := by
    rw [List.length_append, length_bitsOf, restLength]
  rw [List.append_assoc]
  generalize rest ++ bitsOf 5 index = long at buffered longLength ⊢
  obtain ⟨left, isLeft⟩ : ∃ left, left = bitCount + 5 - 8 := ⟨_, rfl⟩
  have width : bitCount + 5 = left + 8 := by omega
  rw [← isLeft]
  rw [width] at buffered longLength
  have octetLength : (long.take 8).length = 8 := by
    rw [List.length_take]
    omega
  have leftLength : (long.drop 8).length = left := by
    rw [List.length_drop]
    omega
  have value : buffer.toNat % 2 ^ (left + 8) =
      bitsValue (long.take 8) * 2 ^ left + bitsValue (long.drop 8) := by
    rw [buffered, ← leftLength, ← bitsValue_append, List.take_append_drop]
  have restSmall : bitsValue (long.drop 8) < 2 ^ left := by
    rw [← leftLength]
    exact bitsValue_lt _
  have byte : buffer.toNat / 2 ^ left % 2 ^ 8 = bitsValue (long.take 8) := by
    rw [← Nat.mod_mul_right_div_self, ← Nat.pow_add, value, Nat.add_comm, Nat.add_mul_div_right _ _
      (Nat.two_pow_pos left), Nat.div_eq_of_lt restSmall, Nat.zero_add]
  refine ⟨by omega, whole ++ long.take 8, long.drop 8, ?_, ?_, ?_, leftLength, ?_⟩
  · rw [List.append_assoc, List.take_append_drop]
  · rw [List.length_append, List.length_append, isWhole, octetLength, List.length_singleton]
    omega
  · rw [octets_append isWhole, isBytes, octets_octet octetLength,
      toNat_shifted_byte buffer (by omega), byte]
  · rw [← Nat.mod_mod_of_dvd _ (Nat.pow_dvd_pow 2 (Nat.le_add_right left 8)), value,
      Nat.mul_add_mod_of_lt restSmall]

/-- The loop gives the octets of the letters' bits, and fails at a letter outside the
alphabet. -/
theorem accumulateBase32BytesFrom_eq {bytes : List UInt8} {bitBuffer : BitVec 32}
    {bitCount : Nat} {bits : List Bool} (holds : Holds bytes bitBuffer bitCount bits)
    {stripped : Text} {decoded : List UInt8}
    (accepted : accumulateBase32BytesFrom bytes bitBuffer bitCount stripped = .ok decoded) :
    ∃ quintets, base32Quintets stripped = some quintets ∧
      decoded = octets (bits ++ quintets.flatMap (bitsOf 5)) := by
  induction stripped generalizing bytes bitBuffer bitCount bits with
  | nil =>
    rw [accumulateBase32BytesFrom] at accepted
    refine ⟨[], rfl, ?_⟩
    rw [List.flatMap_nil, List.append_nil, holds.octets_eq]
    exact (Except.ok.inj accepted).symm
  | cons character stripped ih =>
    rw [accumulateBase32BytesFrom] at accepted
    cases found : BASE32_ALPHABET.idxOf? character with
    | none =>
      rw [found] at accepted
      cases accepted
    | some index =>
      rw [found] at accepted
      have small := idxOf_lt found
      have further : ∃ quintets, base32Quintets stripped = some quintets ∧
          decoded = octets (bits ++ bitsOf 5 index ++ quintets.flatMap (bitsOf 5)) := by
        dsimp only at accepted
        split at accepted
        · rename_i enough
          exact ih (holds.emit small enough) accepted
        · rename_i few
          exact ih (holds.keep small (Nat.not_le.1 few)) accepted
      obtain ⟨quintets, isQuintets, isDecoded⟩ := further
      refine ⟨index :: quintets, ?_, ?_⟩
      · rw [base32Quintets, List.mapM_cons, found]
        rw [base32Quintets] at isQuintets
        rw [isQuintets]
        rfl
      · rw [isDecoded, List.flatMap_cons, List.append_assoc]

theorem holds_initial : Holds [] 0 0 [] where
  fewBits := by decide
  emitted := ⟨[], [], rfl, rfl, rfl, rfl, rfl⟩

theorem decodeBase32_exact {toUpperCase : Text → Text} {encoded : Text} {decoded : List UInt8}
    (accepted : decodeBase32 toUpperCase encoded = .ok decoded) :
    ∃ quintets, base32Quintets (base32Letters toUpperCase encoded) = some quintets ∧
      decoded = rfc4648Bytes quintets := by
  rw [decodeBase32] at accepted
  split at accepted
  · cases accepted
  · exact accumulateBase32BytesFrom_eq holds_initial accepted

/-! ### Dynamic truncation -/

theorem toNat_digestByte (hmacDigest : List UInt8) (index : Nat) :
    (digestByte hmacDigest index).toNat = ((hmacDigest[index]?).getD 0).toNat := by
  rw [digestByte, BitVec.toNat_ofNat]
  exact Nat.mod_eq_of_lt (lt_trans (UInt8.toNat_lt _) (by decide))

/-- A byte put behind what was shifted up for it. -/
theorem or_shifted {high low shift : Nat} (small : low < 2 ^ 8) :
    high <<< (shift + 8) ||| low <<< shift = (high * 2 ^ 8 + low) <<< shift := by
  have below : low <<< shift < 2 ^ (shift + 8) := by
    rw [Nat.shiftLeft_eq, Nat.pow_add, Nat.mul_comm]
    exact Nat.mul_lt_mul_of_pos_left small (Nat.two_pow_pos shift)
  rw [← Nat.shiftLeft_add_eq_or_of_lt below, Nat.shiftLeft_eq, Nat.shiftLeft_eq, Nat.shiftLeft_eq,
    Nat.pow_add]
  ring

/-- Four bytes, the first without its sign bit, make a number below 2^31. -/
theorem toNat_binaryCode {byte0 byte1 byte2 byte3 : BitVec 32} {value1 value2 value3 : Nat}
    (is1 : byte1.toNat = value1) (is2 : byte2.toNat = value2) (is3 : byte3.toNat = value3)
    (small1 : value1 < 2 ^ 8) (small2 : value2 < 2 ^ 8) (small3 : value3 < 2 ^ 8) :
    ((byte0 &&& SIGN_BIT_MASK) <<< SHIFT_24 ||| (byte1 &&& BYTE_MASK) <<< SHIFT_16 |||
        (byte2 &&& BYTE_MASK) <<< BITS_PER_BYTE ||| (byte3 &&& BYTE_MASK)).toNat =
      ((byte0.toNat % 2 ^ 7 * 2 ^ 8 + value1) * 2 ^ 8 + value2) * 2 ^ 8 + value3 := by
  have signMask : SIGN_BIT_MASK.toNat = 2 ^ 7 - 1 := rfl
  have byteMask : BYTE_MASK.toNat = 2 ^ 8 - 1 := rfl
  have shifts : SHIFT_24 = 16 + 8 ∧ SHIFT_16 = 8 + 8 ∧ BITS_PER_BYTE = 0 + 8 := ⟨rfl, rfl, rfl⟩
  have small0 : byte0.toNat % 2 ^ 7 < 2 ^ 7 := Nat.mod_lt _ (by decide)
  have fits {value bits shift : Nat} (small : value < 2 ^ bits) (room : bits + shift ≤ 32) :
      value <<< shift % 2 ^ 32 = value <<< shift := by
    apply Nat.mod_eq_of_lt
    rw [Nat.shiftLeft_eq]
    calc value * 2 ^ shift < 2 ^ bits * 2 ^ shift :=
          Nat.mul_lt_mul_of_pos_right small (Nat.two_pow_pos shift)
      _ = 2 ^ (bits + shift) := (Nat.pow_add ..).symm
      _ ≤ 2 ^ 32 := Nat.pow_le_pow_right (by decide) room
  simp only [BitVec.toNat_or, BitVec.toNat_shiftLeft, BitVec.toNat_and, signMask, byteMask,
    Nat.and_two_pow_sub_one_eq_mod, is1, is2, is3, Nat.mod_eq_of_lt small1,
    Nat.mod_eq_of_lt small2, Nat.mod_eq_of_lt small3]
  rw [fits small0 (by decide), fits small1 (by decide), fits small2 (by decide), shifts.1,
    shifts.2.1, shifts.2.2, or_shifted small1, or_shifted small2]
  have last := @or_shifted ((byte0.toNat % 2 ^ 7 * 2 ^ 8 + value1) * 2 ^ 8 + value2) value3 0 small3
  rw [Nat.shiftLeft_zero, Nat.shiftLeft_zero] at last
  exact last

theorem fixedDigits_zero (count : Nat) : fixedDigits count 0 = List.replicate count '0' := by
  induction count with
  | zero => rfl
  | succ count ih =>
    rw [fixedDigits, Nat.zero_div, ih, List.replicate_succ']
    rfl

/-- Padding fills up to the fixed number of digits. -/
theorem padStartZero_decimal {count value : Nat} (small : value < 10 ^ (count + 1)) :
    padStartZero (count + 1) (decimal value) = fixedDigits (count + 1) value := by
  induction count generalizing value with
  | zero =>
    have oneDigit : value < 10 := small
    rw [decimal, Nat.toDigits_of_lt_base oneDigit, padStartZero, fixedDigits, fixedDigits,
      Nat.mod_eq_of_lt oneDigit]
    rfl
  | succ count ih =>
    by_cases oneDigit : value < 10
    · rw [decimal, Nat.toDigits_of_lt_base oneDigit, padStartZero, fixedDigits,
        Nat.div_eq_of_lt oneDigit, fixedDigits_zero, Nat.mod_eq_of_lt oneDigit]
      rfl
    · have rest : value / 10 < 10 ^ (count + 1) := by
        rw [Nat.div_lt_iff_lt_mul (by decide)]
        exact small
      have shorter := ih rest
      rw [fixedDigits, ← shorter]
      simp only [decimal, padStartZero]
      rw [Nat.toDigits_of_base_le (by decide) (Nat.not_lt.1 oneDigit), List.length_append,
        List.length_singleton, Nat.add_sub_add_right, List.append_assoc]

/-- The four bytes of the standard are there in what every supported algorithm gives. -/
theorem take_four {hmacDigest : List UInt8} {offset : Nat}
    (inside : offset + 3 < hmacDigest.length) : (hmacDigest.drop offset).take 4 =
      [(hmacDigest[offset]?).getD 0, (hmacDigest[offset + 1]?).getD 0,
        (hmacDigest[offset + 2]?).getD 0, (hmacDigest[offset + 3]?).getD 0] := by
  rw [List.drop_eq_getElem_cons (by omega : offset < hmacDigest.length),
    List.drop_eq_getElem_cons (by omega : offset + 1 < hmacDigest.length),
    List.drop_eq_getElem_cons (by omega : offset + 1 + 1 < hmacDigest.length),
    List.drop_eq_getElem_cons (by omega : offset + 1 + 1 + 1 < hmacDigest.length)]
  simp only [List.take_succ_cons, List.take_zero, Nat.add_assoc, Nat.reduceAdd]
  rw [List.getElem?_eq_getElem (by omega), List.getElem?_eq_getElem (by omega),
    List.getElem?_eq_getElem (by omega), List.getElem?_eq_getElem (by omega)]
  rfl

theorem integerText_tmod (value digits : Nat) :
    integerText ((value : Int).tmod (DECIMAL_BASE ^ digits)) = decimal (value % 10 ^ digits) := by
  have remainder : (value : Int).tmod (DECIMAL_BASE ^ digits) =
      ((value % 10 ^ digits : Nat) : Int) := by
    rw [Int.tmod_eq_emod_of_nonneg (Int.natCast_nonneg value)]
    push_cast
    rfl
  rw [remainder, integerText, if_neg (Int.not_lt.2 (Int.natCast_nonneg _)), Int.natAbs_natCast]

theorem truncateHmac_exact {hmacDigest : List UInt8} {digits : Nat}
    (isHmac : hmacDigest.length ∈ HMAC_LENGTHS) (someDigit : 1 ≤ digits) :
    truncateHmac hmacDigest digits = fixedDigits digits (rfc4226Value hmacDigest digits) := by
  have long : 20 ≤ hmacDigest.length := by
    have lengths : ∀ length ∈ HMAC_LENGTHS, 20 ≤ length := by decide
    exact lengths _ isHmac
  have masked : (hmacDigest.getLast?.getD 0).toNat &&& OFFSET_MASK =
      (hmacDigest.getLast?.getD 0).toNat % 16 := Nat.and_two_pow_sub_one_eq_mod _ 4
  have offsetSmall : (hmacDigest.getLast?.getD 0).toNat % 16 < 16 := Nat.mod_lt _ (by decide)
  rw [truncateHmac, rfc4226Value, masked]
  generalize (hmacDigest.getLast?.getD 0).toNat % 16 = offset at offsetSmall ⊢
  have code := @toNat_binaryCode (digestByte hmacDigest offset) _ _ _ _ _ _
    (toNat_digestByte hmacDigest (offset + 1)) (toNat_digestByte hmacDigest (offset + 2))
    (toNat_digestByte hmacDigest (offset + 3)) (UInt8.toNat_lt _) (UInt8.toNat_lt _)
    (UInt8.toNat_lt _)
  rw [toNat_digestByte] at code
  rw [take_four (by omega)]
  simp only [List.foldl_cons, List.foldl_nil, Nat.zero_mul, Nat.zero_add]
  have small1 := UInt8.toNat_lt ((hmacDigest[offset + 1]?).getD 0)
  have small2 := UInt8.toNat_lt ((hmacDigest[offset + 2]?).getD 0)
  have small3 := UInt8.toNat_lt ((hmacDigest[offset + 3]?).getD 0)
  generalize ((hmacDigest[offset]?).getD 0).toNat = value0 at code ⊢
  generalize ((hmacDigest[offset + 1]?).getD 0).toNat = value1 at code small1 ⊢
  generalize ((hmacDigest[offset + 2]?).getD 0).toNat = value2 at code small2 ⊢
  generalize ((hmacDigest[offset + 3]?).getD 0).toNat = value3 at code small3 ⊢
  have snum : (((value0 * 256 + value1) * 256 + value2) * 256 + value3) % 2 ^ 31 =
      ((value0 % 2 ^ 7 * 2 ^ 8 + value1) * 2 ^ 8 + value2) * 2 ^ 8 + value3 := by omega
  rw [← snum] at code
  rw [BitVec.toInt_eq_toNat_of_lt (by omega), code, integerText_tmod]
  obtain ⟨count, rfl⟩ := Nat.exists_eq_add_of_le' someDigit
  exact padStartZero_decimal (Nat.mod_lt _ (Nat.pow_pos (by decide)))

/-! ### Both -/

/-- The decoded seed is what the letters' bits spell, and the code is the truncated value
with as many digits as asked for. -/
theorem totp_arithmetic_exact (toUpperCase : Text → Text) :
    (∀ encoded decoded, decodeBase32 toUpperCase encoded = .ok decoded →
      ∃ quintets, base32Quintets (base32Letters toUpperCase encoded) = some quintets ∧
        decoded = rfc4648Bytes quintets) ∧
    ∀ hmacDigest digits, hmacDigest.length ∈ HMAC_LENGTHS → 1 ≤ digits → digits ≤ MAX_DIGITS →
      truncateHmac hmacDigest digits = fixedDigits digits (rfc4226Value hmacDigest digits) :=
  ⟨fun _ _ accepted => decodeBase32_exact accepted,
    fun _ _ isHmac someDigit _ => truncateHmac_exact isHmac someDigit⟩

/-- The digest of the standard's example. -/
def exampleDigest : List UInt8 :=
  [0x1f, 0x86, 0x98, 0x69, 0x0e, 0x02, 0xca, 0x16, 0x61, 0x85, 0x50, 0xef, 0x7f, 0x19, 0xda, 0x8e,
    0x94, 0x5b, 0x55, 0x5a]

example : truncateHmac exampleDigest 6 = "872921".toList := by decide +kernel

/-- A padded seed, and the six digits of the standard's example. -/
theorem totp_arithmetic_exact_example :
    decodeBase32 (·.map Char.toUpper) "mz xw6===".toList = .ok [102, 111, 111] ∧
      (∃ quintets, base32Quintets (base32Letters (·.map Char.toUpper) "mz xw6===".toList) =
          some quintets ∧ [102, 111, 111] = rfc4648Bytes quintets) ∧
      truncateHmac exampleDigest 6 = fixedDigits 6 (rfc4226Value exampleDigest 6) :=
  have accepted : decodeBase32 (·.map Char.toUpper) "mz xw6===".toList = .ok [102, 111, 111] := by
    decide +kernel
  ⟨accepted, (totp_arithmetic_exact _).1 _ _ accepted,
    (totp_arithmetic_exact id).2 exampleDigest 6 (by decide) (by decide) (by decide)⟩

end Paratix.Totp
