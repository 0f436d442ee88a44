/-
Module: Paratix.Foundation.Utf8
Purpose: UTF-8 as bytes of texts: strict decoding, and cutting at a byte that
  stands for a character of its own.
Main exports: utf8Bytes, utf8Bytes_cut
-/
import Mathlib.Data.List.Infix

namespace Foundation

/-- The UTF-8 bytes of a text. -/
def utf8Bytes (value : List Char) : List UInt8 := value.flatMap String.utf8EncodeChar

/-- Strict decoding: nothing when the bytes are not valid UTF-8. -/
def decodeUtf8 (bytes : List UInt8) : Option (List Char) :=
  bytes.toByteArray.utf8Decode?.map Array.toList

@[simp] theorem utf8Bytes_nil : utf8Bytes [] = [] := rfl

@[simp] theorem utf8Bytes_cons (char : Char) (rest : List Char) :
    utf8Bytes (char :: rest) = String.utf8EncodeChar char ++ utf8Bytes rest := rfl

@[simp] theorem utf8Bytes_append (first second : List Char) :
    utf8Bytes (first ++ second) = utf8Bytes first ++ utf8Bytes second :=
  List.flatMap_append

theorem length_utf8Bytes_le (value : List Char) :
    (utf8Bytes value).length ≤ 4 * value.length := by
  induction value with
  | nil => exact Nat.le_refl 0
  | cons char rest ih =>
    have size := char.utf8Size_le_four
    rw [utf8Bytes_cons, List.length_append, String.length_utf8EncodeChar, List.length_cons]
    omega

theorem decodeUtf8_utf8Bytes (value : List Char) :
    decodeUtf8 (utf8Bytes value) = some value := by
  have decoded : value.utf8Encode.utf8Decode? = some value.toArray := List.utf8Decode?_utf8Encode
  simp only [List.utf8Encode] at decoded
  simp [decodeUtf8, utf8Bytes, decoded]

theorem toByteArray_inj {first second : List UInt8}
    (same : first.toByteArray = second.toByteArray) : first = second := by
  have data := congrArg (fun bytes => bytes.data.toList) same
  simpa [List.data_toByteArray] using data

theorem decodeUtf8_eq_some_iff {bytes : List UInt8} {value : List Char} :
    decodeUtf8 bytes = some value ↔ utf8Bytes value = bytes := by
  constructor
  · intro decoded
    obtain ⟨chars, found, rfl⟩ := Option.map_eq_some_iff.1 decoded
    have encoded : (bytes.toByteArray.utf8Decode?.get (by simp [found])).toList.utf8Encode =
        bytes.toByteArray := ByteArray.utf8Encode_get_utf8Decode?
    simp only [found, Option.get_some, List.utf8Encode] at encoded
    exact toByteArray_inj encoded
  · rintro rfl
    exact decodeUtf8_utf8Bytes value

theorem utf8Bytes_injective {first second : List Char}
    (same : utf8Bytes first = utf8Bytes second) : first = second := by
  have decoded := decodeUtf8_utf8Bytes first
  rw [same, decodeUtf8_utf8Bytes] at decoded
  exact (Option.some.inj decoded).symm

/-- A text whose bytes start with those of another text starts with that text. -/
theorem utf8Bytes_drop {value front : List Char} {after : List UInt8}
    (bytesEq : utf8Bytes value = utf8Bytes front ++ after) :
    ∃ back, value = front ++ back ∧ utf8Bytes back = after := by
  have isPrefix : front <+: value := by
    apply List.isPrefix_of_utf8Encode_append_eq_utf8Encode after.toByteArray
    have joined := congrArg List.toByteArray bytesEq
    rw [List.toByteArray_append] at joined
    exact joined.symm
  obtain ⟨back, rfl⟩ := isPrefix
  rw [utf8Bytes_append] at bytesEq
  exact ⟨back, rfl, List.append_cancel_left bytesEq⟩

/-! ### Bytes below 0x80 -/

theorem utf8EncodeChar_of_ascii {char : Char} (ascii : char.toNat ≤ 0x7f) :
    String.utf8EncodeChar char = [UInt8.ofNat char.toNat] := by
  have small : char.val.toNat ≤ 0x7f := ascii
  simp only [String.utf8EncodeChar, small, if_true]
  rfl

/-- A byte below 0x80 is all of the character it belongs to. -/
theorem ascii_of_mem_utf8EncodeChar {char : Char} {byte : UInt8} (small : byte.toNat < 0x80)
    (member : byte ∈ String.utf8EncodeChar char) :
    char.toNat = byte.toNat ∧ String.utf8EncodeChar char = [byte] := by
  have valueEq : char.toNat = char.val.toNat := rfl
  simp only [String.utf8EncodeChar] at member ⊢
  split at member
  · next ascii =>
      obtain rfl := List.mem_singleton.1 member
      rw [if_pos ascii]
      refine ⟨?_, rfl⟩
      rw [valueEq, UInt8.toNat_ofNat']
      omega
  · exfalso
    -- every byte of a longer encoding is its payload on top of 0x80
    split at member
    · simp only [List.mem_cons, List.not_mem_nil, or_false] at member
      rcases member with rfl | rfl <;> simp only [UInt8.toNat_ofNat'] at small <;> omega
    · split at member <;>
      · simp only [List.mem_cons, List.not_mem_nil, or_false] at member
        rcases member with rfl | rfl | rfl | rfl <;>
          simp only [UInt8.toNat_ofNat'] at small <;> omega

/-- Where the bytes of a text hold a byte below 0x80, the text can be cut. -/
theorem utf8Bytes_cut {value : List Char} {before after : List UInt8} {byte : UInt8}
    (small : byte.toNat < 0x80) (bytesEq : utf8Bytes value = before ++ byte :: after) :
    ∃ front char back, value = front ++ char :: back ∧ utf8Bytes front = before ∧
      char.toNat = byte.toNat ∧ utf8Bytes back = after := by
  induction value generalizing before with
  | nil => simp at bytesEq
  | cons head tail ih =>
    rw [utf8Bytes_cons] at bytesEq
    rcases List.append_eq_append_iff.1 bytesEq with
      ⟨rest, beforeEq, tailEq⟩ | ⟨rest, headEq, restEq⟩
    · obtain ⟨front, char, back, rfl, frontEq, charEq, backEq⟩ := ih tailEq
      exact ⟨head :: front, char, back, rfl, by rw [utf8Bytes_cons, frontEq, beforeEq],
        charEq, backEq⟩
    · cases rest with
      | nil =>
        rw [List.append_nil] at headEq
        have tailEq : utf8Bytes tail = [] ++ byte :: after := by
          simpa using restEq.symm
        obtain ⟨front, char, back, rfl, frontEq, charEq, backEq⟩ := ih tailEq
        exact ⟨head :: front, char, back, rfl,
          by rw [utf8Bytes_cons, frontEq, headEq, List.append_nil], charEq, backEq⟩
      | cons first others =>
        rw [List.cons_append] at restEq
        obtain ⟨rfl, othersEq⟩ := List.cons_eq_cons.1 restEq
        have member : byte ∈ String.utf8EncodeChar head := by
          rw [headEq]
          simp
        obtain ⟨charEq, single⟩ := ascii_of_mem_utf8EncodeChar small member
        rw [headEq] at single
        obtain ⟨rfl, othersNil⟩ : before = [] ∧ others = [] := by
          cases before with
          | nil => exact ⟨rfl, by simpa using single⟩
          | cons => simp at single
        subst othersNil
        exact ⟨[], head, tail, rfl, rfl, charEq, by simpa using othersEq.symm⟩

end Foundation
