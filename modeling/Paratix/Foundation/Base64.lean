/-
Module: Paratix.Foundation.Base64
Purpose: Base64 with padding, the lenient decoder of buffers, and the strict alphabet.
Main exports: encodeBase64, encodeBase64_padding
-/
import Mathlib.Data.List.Basic

namespace Foundation

def base64Alphabet : List Char :=
  "ABCDEFGHIJKLMNOPQRSTUVWXYZabcdefghijklmnopqrstuvwxyz0123456789+/".toList

def base64Char (value : Nat) : Char := base64Alphabet.getD value 'A'

/-- The two characters of the alphabet for URLs are read too. -/
def base64Value (char : Char) : Option Nat :=
  if char = '-' then some 62
  else if char = '_' then some 63
  else base64Alphabet.idxOf? char

/-- `buffer.toString("base64")` -/
def encodeBase64 : List UInt8 → List Char
  | first :: second :: third :: rest =>
      let bits := first.toNat * 65536 + second.toNat * 256 + third.toNat
      base64Char (bits / 262144) :: base64Char (bits / 4096 % 64) ::
        base64Char (bits / 64 % 64) :: base64Char (bits % 64) :: encodeBase64 rest
  | [first, second] =>
      let bits := (first.toNat * 256 + second.toNat) * 4
      [base64Char (bits / 4096), base64Char (bits / 64 % 64), base64Char (bits % 64), '=']
  | [first] =>
      let bits := first.toNat * 16
      [base64Char (bits / 64), base64Char (bits % 64), '=', '=']
  | [] => []

/-- The whole bytes in a row of sextets. -/
def sextetBytes : List Nat → List UInt8
  | first :: second :: third :: fourth :: rest =>
      let bits := first * 262144 + second * 4096 + third * 64 + fourth
      UInt8.ofNat (bits / 65536) :: UInt8.ofNat (bits / 256 % 256) ::
        UInt8.ofNat (bits % 256) :: sextetBytes rest
  | [first, second, third] =>
      let bits := (first * 4096 + second * 64 + third) / 4
      [UInt8.ofNat (bits / 256), UInt8.ofNat (bits % 256)]
  | [first, second] => [UInt8.ofNat ((first * 64 + second) / 16)]
  | _ => []

/-- `Buffer.from(text, "base64")`: the text ends at a padding character, and what is not in
the alphabet is skipped. -/
def decodeBase64 (text : List Char) : List UInt8 :=
  sextetBytes ((text.takeWhile (· ≠ '=')).filterMap base64Value)

/-- `/^[A-Za-z0-9+\/]+=*$/` -/
def isStrictBase64 (text : List Char) : Bool :=
  let body := text.takeWhile (· ∈ base64Alphabet)
  body ≠ [] && (text.drop body.length).all (· = '=')

/-! ### Round trip -/

theorem base64Char_spec {value : Nat} (small : value < 64) :
    base64Char value ∈ base64Alphabet ∧ base64Value (base64Char value) = some value ∧
      base64Char value ≠ '=' := by
  have all : ∀ value < 64, base64Char value ∈ base64Alphabet ∧
      base64Value (base64Char value) = some value ∧ base64Char value ≠ '=' := by
    decide +kernel
  exact all value small

theorem byte_ofNat {value : Nat} {byte : UInt8} (same : value = byte.toNat) :
    UInt8.ofNat value = byte := by
  rw [same, UInt8.ofNat_toNat]

/-- The sextets that a byte text is written with, and the padding. -/
theorem encodeBase64_eq (bytes : List UInt8) :
    ∃ sextets padding, (∀ value ∈ sextets, value < 64) ∧ (∀ char ∈ padding, char = '=') ∧
      encodeBase64 bytes = sextets.map base64Char ++ padding ∧ sextetBytes sextets = bytes ∧
      (bytes ≠ [] → sextets ≠ []) := by
  induction bytes using encodeBase64.induct with
  | case1 first second third rest ih =>
    let bits := first.toNat * 65536 + second.toNat * 256 + third.toNat
    obtain ⟨sextets, padding, small, pads, encoded, decoded, _⟩ := ih
    have firstSmall := first.toNat_lt
    have secondSmall := second.toNat_lt
    have thirdSmall := third.toNat_lt
    refine ⟨bits / 262144 :: bits / 4096 % 64 :: bits / 64 % 64 :: bits % 64 :: sextets, padding,
      ?_, pads, ?_, ?_, fun _ => List.cons_ne_nil _ _⟩
    · simp only [List.forall_mem_cons]
      exact ⟨by omega, by omega, by omega, by omega, small⟩
    · rw [encodeBase64, encoded]
      rfl
    · rw [sextetBytes, decoded, byte_ofNat, byte_ofNat, byte_ofNat]
      all_goals omega
  | case2 first second =>
    let bits := (first.toNat * 256 + second.toNat) * 4
    have firstSmall := first.toNat_lt
    have secondSmall := second.toNat_lt
    refine ⟨[bits / 4096, bits / 64 % 64, bits % 64], ['='], ?_, ?_, rfl, ?_,
      fun _ => List.cons_ne_nil _ _⟩
    · simp only [List.forall_mem_cons]
      exact ⟨by omega, by omega, by omega, nofun⟩
    · exact List.forall_mem_singleton.2 rfl
    · rw [sextetBytes, byte_ofNat, byte_ofNat]
      all_goals omega
  | case3 first =>
    let bits := first.toNat * 16
    have firstSmall := first.toNat_lt
    refine ⟨[bits / 64, bits % 64], ['=', '='], ?_, ?_, rfl, ?_, fun _ => List.cons_ne_nil _ _⟩
    · simp only [List.forall_mem_cons]
      exact ⟨by omega, by omega, nofun⟩
    · simp
    · rw [sextetBytes, byte_ofNat]
      omega
  | case4 => exact ⟨[], [], nofun, nofun, rfl, rfl, fun nonempty => absurd rfl nonempty⟩

theorem takeWhile_before_padding {letters padding : List Char} {holds : Char → Bool}
    (areLetters : ∀ char ∈ letters, holds char = true) (pads : ∀ char ∈ padding, char = '=')
    (noPad : holds '=' = false) : (letters ++ padding).takeWhile holds = letters := by
  rw [List.takeWhile_append_of_pos areLetters]
  cases padding with
  | nil => exact List.append_nil letters
  | cons char padding =>
    rw [pads char List.mem_cons_self, List.takeWhile_cons_of_neg (ne_true_of_eq_false noPad),
      List.append_nil]

theorem decodeBase64_encodeBase64 (bytes : List UInt8) :
    decodeBase64 (encodeBase64 bytes) = bytes := by
  obtain ⟨sextets, padding, small, pads, encoded, decoded, _⟩ := encodeBase64_eq bytes
  have body : (sextets.map base64Char ++ padding).takeWhile (· ≠ '=') = sextets.map base64Char := by
    apply takeWhile_before_padding ?_ pads rfl
    simp only [List.forall_mem_map, decide_eq_true_eq]
    exact fun value mem => (base64Char_spec (small value mem)).2.2
  have values : (sextets.map base64Char).filterMap base64Value = sextets := by
    rw [List.filterMap_map]
    calc sextets.filterMap (base64Value ∘ base64Char)
        = sextets.filterMap some :=
          List.filterMap_congr fun value mem => (base64Char_spec (small value mem)).2.1
      _ = sextets := List.filterMap_some
  rw [decodeBase64, encoded, body, values, decoded]

/-- Letters followed by any padding are strict base64. -/
theorem isStrictBase64_append {letters padding : List Char} (nonempty : letters ≠ [])
    (areLetters : ∀ char ∈ letters, char ∈ base64Alphabet) (pads : ∀ char ∈ padding, char = '=') :
    isStrictBase64 (letters ++ padding) = true := by
  have noPad : '=' ∉ base64Alphabet := by decide +kernel
  have body : (letters ++ padding).takeWhile (· ∈ base64Alphabet) = letters :=
    takeWhile_before_padding (fun char mem => decide_eq_true (areLetters char mem)) pads
      (decide_eq_false noPad)
  simp only [isStrictBase64, body, List.drop_left, Bool.and_eq_true, decide_eq_true_eq,
    List.all_eq_true]
  exact ⟨nonempty, pads⟩

theorem isStrictBase64_encodeBase64 {bytes : List UInt8} (nonempty : bytes ≠ []) :
    isStrictBase64 (encodeBase64 bytes) = true := by
  obtain ⟨sextets, padding, small, pads, encoded, _, someSextet⟩ := encodeBase64_eq bytes
  rw [encoded]
  apply isStrictBase64_append ?_ ?_ pads
  · rw [Ne, List.map_eq_nil_iff]
    exact someSextet nonempty
  · rw [List.forall_mem_map]
    exact fun value mem => (base64Char_spec (small value mem)).1

/-- Only letters, digits, `+`, `/` and `=` are written. -/
theorem mem_encodeBase64 {bytes : List UInt8} {char : Char} (mem : char ∈ encodeBase64 bytes) :
    char ∈ base64Alphabet ∨ char = '=' := by
  obtain ⟨sextets, padding, small, pads, encoded, _, _⟩ := encodeBase64_eq bytes
  rw [encoded] at mem
  rcases List.mem_append.1 mem with inBody | inPadding
  · obtain ⟨value, own, rfl⟩ := List.mem_map.1 inBody
    exact .inl (base64Char_spec (small value own)).1
  · exact .inr (pads char inPadding)

/-- The letters of a group that is not full are followed by padding up to its end. -/
theorem encodeBase64_padding (bytes : List UInt8) :
    ∃ letters padding, encodeBase64 bytes = letters ++ List.replicate padding '=' ∧
      (∀ char ∈ letters, char ∈ base64Alphabet) ∧ letters.length % 4 ≠ 1 ∧
        padding = (letters.length + 3) / 4 * 4 - letters.length ∧ padding ≤ 2 := by
  induction bytes using encodeBase64.induct with
  | case1 first second third rest ih =>
    let bits := first.toNat * 65536 + second.toNat * 256 + third.toNat
    obtain ⟨letters, padding, encoded, areLetters, length, paddingEq, small⟩ := ih
    have firstSmall := first.toNat_lt
    have secondSmall := second.toNat_lt
    have thirdSmall := third.toNat_lt
    refine ⟨base64Char (bits / 262144) :: base64Char (bits / 4096 % 64) ::
      base64Char (bits / 64 % 64) :: base64Char (bits % 64) :: letters, padding, ?_, ?_, ?_, ?_,
      small⟩
    · rw [encodeBase64, encoded]
      rfl
    · simp only [List.forall_mem_cons]
      exact ⟨(base64Char_spec (by omega)).1, (base64Char_spec (by omega)).1,
        (base64Char_spec (by omega)).1, (base64Char_spec (by omega)).1, areLetters⟩
    · simp only [List.length_cons]
      omega
    · simp only [List.length_cons]
      omega
  | case2 first second =>
    let bits := (first.toNat * 256 + second.toNat) * 4
    have firstSmall := first.toNat_lt
    have secondSmall := second.toNat_lt
    refine ⟨[base64Char (bits / 4096), base64Char (bits / 64 % 64), base64Char (bits % 64)], 1,
      rfl, ?_, ?_, by simp, by decide⟩
    · simp only [List.forall_mem_cons]
      exact ⟨(base64Char_spec (by omega)).1, (base64Char_spec (by omega)).1,
        (base64Char_spec (by omega)).1, nofun⟩
    · simp
  | case3 first =>
    let bits := first.toNat * 16
    have firstSmall := first.toNat_lt
    refine ⟨[base64Char (bits / 64), base64Char (bits % 64)], 2, rfl, ?_, ?_, by simp, by decide⟩
    · simp only [List.forall_mem_cons]
      exact ⟨(base64Char_spec (by omega)).1, (base64Char_spec (by omega)).1, nofun⟩
    · simp
  | case4 => exact ⟨[], 0, rfl, nofun, by decide, rfl, by decide⟩

end Foundation
