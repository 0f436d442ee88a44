/-
Module: Paratix.Template.Base64Exact
Purpose: Which texts the `b64decode` modifier decodes, and where that is the text they spell.
Main exports: IsSpelling, b64decodeExact_iff
-/
import Paratix.Foundation.Result
import Paratix.Template.Template

namespace Paratix.Template

open Foundation Masking

/-! ### Spellings -/

/-- The canonical base64 of some bytes. -/
def canonicalBase64 (bytes : List UInt8) : CodeUnits := (encodeBase64 bytes).map codeUnit

/-- The canonical base64 without its padding. -/
def base64Letters (bytes : List UInt8) : CodeUnits :=
  (canonicalBase64 bytes).takeWhile (· ≠ PADDING)

def canonicalPadding (bytes : List UInt8) : Nat :=
  (canonicalBase64 bytes).length - (base64Letters bytes).length

/-- The text without its white space. -/
def compactText (text : CodeUnits) : CodeUnits := text.filter fun unit => !isSpaceUnit unit

/-- White space was put into the canonical base64 of the bytes, and padding taken from its
end. -/
def IsSpelling (text : CodeUnits) (bytes : List UInt8) : Prop :=
  ∃ removed, compactText text ++ List.replicate removed PADDING = canonicalBase64 bytes

/-- A spelling of valid UTF-8 is decoded to the text with these bytes, any other text is
rejected. -/
structure B64decodeExact (text varName : CodeUnits) : Prop where
  decoded : ∀ value, IsSpelling text (utf8Bytes value) →
    decodeBase64 text varName = .ok (utf16Units value)
  rejected : (∀ value, ¬IsSpelling text (utf8Bytes value)) →
    ∃ error, decodeBase64 text varName = .error error

def BYTE_ORDER_MARK_BYTES : List UInt8 := [0xef, 0xbb, 0xbf]

/-- Where the text is the letters of valid UTF-8 with up to two padding characters, it has no
more of them than the canonical base64, and the bytes do not start with a byte order mark. -/
def PaddedAndUnmarked (text : CodeUnits) : Prop :=
  ∀ value padding,
    compactText text = base64Letters (utf8Bytes value) ++ List.replicate padding PADDING →
    padding ≤ 2 →
      padding ≤ canonicalPadding (utf8Bytes value) ∧
        ¬BYTE_ORDER_MARK_BYTES <+: utf8Bytes value

/-! ### Code units of the alphabet -/

theorem unitChar_codeUnit_of_alphabet :
    ∀ char ∈ base64Alphabet, unitChar (codeUnit char) = char ∧ codeUnit char ≠ PADDING :=
  forall_mem_of_all (by decide +kernel)

theorem isBase64Unit_codeUnit {char : Char} (isLetter : char ∈ base64Alphabet) :
    isBase64Unit (codeUnit char) = true := by
  rw [isBase64Unit, (unitChar_codeUnit_of_alphabet char isLetter).1]
  exact decide_eq_true isLetter

theorem ne_padding_of_isBase64Unit {unit : UInt16} (isLetter : isBase64Unit unit = true) :
    unit ≠ PADDING := by
  rintro rfl
  exact absurd isLetter (by decide +kernel)

/-- The canonical base64 is its letters and its padding. -/
theorem canonicalBase64_eq (bytes : List UInt8) : canonicalBase64 bytes =
        base64Letters bytes ++ List.replicate (canonicalPadding bytes) PADDING ∧
      (∀ unit ∈ base64Letters bytes, isBase64Unit unit = true) ∧
        (base64Letters bytes).length % 4 ≠ 1 ∧
          canonicalPadding bytes =
            ((base64Letters bytes).length + 3) / 4 * 4 - (base64Letters bytes).length ∧
              canonicalPadding bytes ≤ 2 := by
  obtain ⟨letters, padding, encoded, areLetters, length, paddingEq, small⟩ :=
    encodeBase64_padding bytes
  have canonical : canonicalBase64 bytes =
      letters.map codeUnit ++ List.replicate padding PADDING := by
    rw [canonicalBase64, encoded, List.map_append, List.map_replicate]
    rfl
  have isLetters : base64Letters bytes = letters.map codeUnit := by
    rw [base64Letters, canonical, List.takeWhile_append_of_pos]
    · cases padding with
      | zero => simp
      | succ padding => simp [List.replicate_succ]
    · simp only [List.forall_mem_map, decide_eq_true_eq]
      exact fun char member => (unitChar_codeUnit_of_alphabet char (areLetters char member)).2
  have isPadding : canonicalPadding bytes = padding := by
    rw [canonicalPadding, canonical, isLetters, List.length_append, List.length_replicate]
    omega
  rw [isPadding, isLetters, List.length_map]
  refine ⟨canonical, ?_, length, paddingEq, small⟩
  simp only [List.forall_mem_map]
  exact fun char member => isBase64Unit_codeUnit (areLetters char member)

/-- The canonical base64 is read back. -/
theorem decodeBase64_canonicalBase64 (bytes : List UInt8) :
    Foundation.decodeBase64 ((canonicalBase64 bytes).map unitChar) = bytes := by
  have characters : (canonicalBase64 bytes).map unitChar = encodeBase64 bytes := by
    rw [canonicalBase64, List.map_map]
    calc (encodeBase64 bytes).map (unitChar ∘ codeUnit)
        = (encodeBase64 bytes).map id := by
          apply List.map_congr_left
          intro char member
          rcases mem_encodeBase64 member with isLetter | isPadding
          · exact (unitChar_codeUnit_of_alphabet char isLetter).1
          · rw [isPadding]
            decide
      _ = encodeBase64 bytes := List.map_id _
  rw [characters, decodeBase64_encodeBase64]

theorem base64Letters_injective {bytes other : List UInt8}
    (same : base64Letters bytes = base64Letters other) : bytes = other := by
  obtain ⟨canonical, _, _, paddingEq, _⟩ := canonicalBase64_eq bytes
  obtain ⟨otherCanonical, _, _, otherPaddingEq, _⟩ := canonicalBase64_eq other
  have sameCanonical : canonicalBase64 bytes = canonicalBase64 other := by
    rw [canonical, otherCanonical, paddingEq, otherPaddingEq, same]
  rw [← decodeBase64_canonicalBase64 bytes, sameCanonical, decodeBase64_canonicalBase64]

/-! ### Normalisation -/

/-- Letters before some padding are found again. -/
theorem letters_of_padded {letters : CodeUnits} (padding : Nat)
    (areLetters : ∀ unit ∈ letters, isBase64Unit unit = true) :
    (letters ++ List.replicate padding PADDING).takeWhile isBase64Unit = letters ∧
      (letters ++ List.replicate padding PADDING).dropWhile isBase64Unit =
        List.replicate padding PADDING := by
  have noLetter : isBase64Unit PADDING = false := by decide +kernel
  rw [List.takeWhile_append_of_pos areLetters, List.dropWhile_append_of_pos areLetters]
  cases padding with
  | zero => simp
  | succ padding => simp [List.replicate_succ, noLetter]

/-- The pattern is letters and up to two padding characters. -/
theorem matchesBase64_iff {compact : CodeUnits} : matchesBase64 compact = true ↔
      ∃ letters padding, compact = letters ++ List.replicate padding PADDING ∧
        (∀ unit ∈ letters, isBase64Unit unit = true) ∧ padding ≤ 2 := by
  constructor
  · intro isMatch
    rw [matchesBase64, Bool.and_eq_true, decide_eq_true_eq] at isMatch
    obtain ⟨onlyPadding, short⟩ := isMatch
    simp only [List.all_eq_true, decide_eq_true_eq] at onlyPadding
    refine ⟨compact.takeWhile isBase64Unit, (compact.dropWhile isBase64Unit).length, ?_,
      fun _ member => List.mem_takeWhile_imp member, short⟩
    rw [← List.eq_replicate_of_mem onlyPadding, List.takeWhile_append_dropWhile]
  · rintro ⟨letters, padding, rfl, areLetters, short⟩
    rw [matchesBase64, (letters_of_padded padding areLetters).2]
    simp [short]

theorem stripPadding_padded {letters : CodeUnits} {padding : Nat}
    (areLetters : ∀ unit ∈ letters, isBase64Unit unit = true) (short : padding ≤ 2) :
    stripPadding (letters ++ List.replicate padding PADDING) = letters := by
  have noPadding : ¬[PADDING] <:+ letters := by
    intro ends
    exact ne_padding_of_isBase64Unit (areLetters _ (ends.mem List.mem_cons_self)) rfl
  have noDouble : ¬[PADDING, PADDING] <:+ letters := fun ends =>
    noPadding ((List.suffix_cons _ _).trans ends)
  match padding, short with
  | 0, _ =>
    rw [List.replicate_zero, List.append_nil, stripPadding, if_neg noDouble, if_neg noPadding]
  | 1, _ =>
    have single : ¬[PADDING, PADDING] <:+ letters ++ [PADDING] := by
      rw [List.suffix_concat_iff]
      rintro (isNil | ⟨front, frontEq, ends⟩)
      · cases isNil
      · have isFront : front = [PADDING] := by
          have same : [PADDING] ++ [PADDING] = front ++ [PADDING] := frontEq
          exact (List.append_cancel_right same).symm
        exact noPadding (isFront ▸ ends)
    have isDropped : (letters ++ [PADDING]).dropLast = letters := List.dropLast_concat
    rw [List.replicate_one, stripPadding, if_neg single, if_pos (List.suffix_append _ _), isDropped]
  | 2, _ =>
    have double : List.replicate 2 PADDING = [PADDING, PADDING] := rfl
    rw [double, stripPadding, if_pos (List.suffix_append _ _)]
    have split : letters ++ [PADDING, PADDING] = (letters ++ [PADDING]) ++ [PADDING] := by simp
    rw [split, List.dropLast_concat, List.dropLast_concat]

theorem normalizeBase64_ok_iff {text location padded : CodeUnits} :
    normalizeBase64 text location = .ok padded ↔
      ∃ letters padding, compactText text = letters ++ List.replicate padding PADDING ∧
        (∀ unit ∈ letters, isBase64Unit unit = true) ∧ padding ≤ 2 ∧ letters.length % 4 ≠ 1 ∧
          padded = letters ++
            List.replicate ((letters.length + 3) / 4 * 4 - letters.length) PADDING := by
  have compact : (text.filter fun unit => !isSpaceUnit unit) = compactText text := rfl
  rw [normalizeBase64, compact]
  constructor
  · intro normalized
    dsimp only at normalized
    split at normalized
    · cases normalized
    next isMatch =>
      rw [Bool.not_eq_true, Bool.not_eq_false'] at isMatch
      obtain ⟨letters, padding, compactEq, areLetters, short⟩ := matchesBase64_iff.1 isMatch
      rw [compactEq, stripPadding_padded areLetters short] at normalized
      split at normalized
      · cases normalized
      next length =>
        cases normalized
        exact ⟨letters, padding, compactEq, areLetters, short, length, rfl⟩
  · rintro ⟨letters, padding, compactEq, areLetters, short, length, rfl⟩
    have isMatch := matchesBase64_iff.2 ⟨letters, padding, compactEq, areLetters, short⟩
    dsimp only
    rw [isMatch, compactEq, stripPadding_padded areLetters short]
    exact if_neg length

/-! ### Decoding -/

/-- What the decoder makes of a text: a byte order mark at the start is dropped. -/
def withoutMark (value : List Char) : List Char :=
  if value.head? = some BYTE_ORDER_MARK then value.tail else value

theorem decodeStrictUtf8_eq_some_iff {bytes : List UInt8} {decoded : List Char} :
    decodeStrictUtf8 bytes = some decoded ↔
      ∃ value, utf8Bytes value = bytes ∧ decoded = withoutMark value := by
  rw [decodeStrictUtf8, Option.map_eq_some_iff]
  constructor
  · rintro ⟨value, isValue, rfl⟩
    exact ⟨value, decodeUtf8_eq_some_iff.1 isValue, rfl⟩
  · rintro ⟨value, isValue, rfl⟩
    exact ⟨value, decodeUtf8_eq_some_iff.2 isValue, rfl⟩

/-- Exactly the letters of valid UTF-8 with up to two padding characters are decoded. -/
theorem decodeBase64_ok_iff {text varName result : CodeUnits} :
    decodeBase64 text varName = .ok result ↔
      ∃ value padding, compactText text =
          base64Letters (utf8Bytes value) ++ List.replicate padding PADDING ∧
        padding ≤ 2 ∧ result = utf16Units (withoutMark value) := by
  constructor
  · intro done
    obtain ⟨padded, normalized, done⟩ := ok_of_bind done
    obtain ⟨letters, padding, compactEq, areLetters, short, length, paddedEq⟩ :=
      normalizeBase64_ok_iff.1 normalized
    split at done
    · next isEmpty =>
        cases done
        have noLetters : letters = [] := by
          rw [paddedEq] at isEmpty
          exact (List.append_eq_nil_iff.1 isEmpty).1
        exact ⟨[], padding, by rw [compactEq, noLetters]; rfl, short, rfl⟩
    · next nonempty =>
        dsimp only at done
        split at done
        · cases done
        next isCanonical =>
          rw [not_not] at isCanonical
          generalize Foundation.decodeBase64 (padded.map unitChar) = bytes at done isCanonical
          split at done
          · next decoded isDecoded =>
              cases done
              obtain ⟨value, rfl, rfl⟩ := decodeStrictUtf8_eq_some_iff.1 isDecoded
              have sameLetters : base64Letters (utf8Bytes value) = letters := by
                rw [base64Letters, canonicalBase64, isCanonical, paddedEq]
                generalize (letters.length + 3) / 4 * 4 - letters.length = missing
                rw [List.takeWhile_append_of_pos]
                · cases missing with
                  | zero => simp
                  | succ missing => simp [List.replicate_succ]
                · exact fun unit member =>
                    decide_eq_true (ne_padding_of_isBase64Unit (areLetters unit member))
              exact ⟨value, padding, by rw [sameLetters, compactEq], short, rfl⟩
          · cases done
  · rintro ⟨value, padding, compactEq, short, rfl⟩
    obtain ⟨canonical, areLetters, length, paddingEq, _⟩ := canonicalBase64_eq (utf8Bytes value)
    have normalized : normalizeBase64 text (placeholderLocation varName) =
        .ok (canonicalBase64 (utf8Bytes value)) :=
      normalizeBase64_ok_iff.2 ⟨base64Letters (utf8Bytes value), padding, compactEq, areLetters,
        short, length, by rw [canonical, ← paddingEq]⟩
    have strict : decodeStrictUtf8 (utf8Bytes value) = some (withoutMark value) :=
      decodeStrictUtf8_eq_some_iff.2 ⟨value, rfl, rfl⟩
    have isCanonical : ¬((encodeBase64 (utf8Bytes value)).map codeUnit ≠
        canonicalBase64 (utf8Bytes value)) := fun different => different rfl
    rw [decodeBase64, normalized]
    change (if canonicalBase64 (utf8Bytes value) = [] then _ else _) = _
    rw [decodeBase64_canonicalBase64, if_neg isCanonical, strict]
    split
    · next isEmpty =>
        have noBytes : utf8Bytes value = utf8Bytes [] := by
          rw [← decodeBase64_canonicalBase64 (utf8Bytes value), isEmpty]
          rfl
        rw [utf8Bytes_injective noBytes]
        rfl
    · rfl

/-- Where a text is decoded, its letters name one value. -/
theorem isSpelling_iff {text : CodeUnits} {value : List Char} {padding : Nat}
    (compactEq : compactText text =
      base64Letters (utf8Bytes value) ++ List.replicate padding PADDING) (other : List Char) :
    IsSpelling text (utf8Bytes other) ↔
      other = value ∧ padding ≤ canonicalPadding (utf8Bytes value) := by
  constructor
  · rintro ⟨removed, isCanonical⟩
    obtain ⟨canonical, areLetters, _⟩ := canonicalBase64_eq (utf8Bytes other)
    obtain ⟨_, ownLetters, _⟩ := canonicalBase64_eq (utf8Bytes value)
    rw [compactEq, List.append_assoc, ← List.replicate_add, canonical] at isCanonical
    have letters := congrArg (List.takeWhile isBase64Unit) isCanonical
    rw [(letters_of_padded _ ownLetters).1, (letters_of_padded _ areLetters).1] at letters
    obtain rfl := utf8Bytes_injective (base64Letters_injective letters)
    have lengths := congrArg List.length isCanonical
    simp only [List.length_append, List.length_replicate] at lengths
    exact ⟨rfl, by omega⟩
  · rintro ⟨rfl, few⟩
    refine ⟨canonicalPadding (utf8Bytes other) - padding, ?_⟩
    rw [compactEq, List.append_assoc, ← List.replicate_add, Nat.add_sub_cancel' few]
    exact (canonicalBase64_eq (utf8Bytes other)).1.symm

theorem compactText_of_isSpelling {text : CodeUnits} {bytes : List UInt8}
    (isSpelling : IsSpelling text bytes) :
    ∃ padding, compactText text = base64Letters bytes ++ List.replicate padding PADDING ∧
      padding ≤ 2 := by
  obtain ⟨removed, isCanonical⟩ := isSpelling
  obtain ⟨canonical, areLetters, _, _, small⟩ := canonicalBase64_eq bytes
  rw [canonical] at isCanonical
  have taken := congrArg List.length isCanonical
  simp only [List.length_append, List.length_replicate] at taken
  have fewer : removed ≤ canonicalPadding bytes := by
    by_contra more
    -- the padding taken away would reach into the letters
    have lastLetter : PADDING ∈ base64Letters bytes := by
      have dropped := congrArg (List.drop (compactText text).length) isCanonical
      rw [List.drop_left, List.drop_append_of_le_length (by omega)] at dropped
      have nonempty : (base64Letters bytes).drop (compactText text).length ≠ [] := by
        rw [← List.length_pos_iff, List.length_drop]
        omega
      obtain ⟨unit, units, dropEq⟩ := List.exists_cons_of_ne_nil nonempty
      have isUnit : unit = PADDING := by
        have member : unit ∈ List.replicate removed PADDING := by
          rw [dropped, dropEq]
          exact List.mem_cons_self
        exact List.eq_of_mem_replicate member
      have member : unit ∈ (base64Letters bytes).drop (compactText text).length := by
        rw [dropEq]
        exact List.mem_cons_self
      exact isUnit ▸ List.mem_of_mem_drop member
    exact ne_padding_of_isBase64Unit (areLetters _ lastLetter) rfl
  refine ⟨canonicalPadding bytes - removed, ?_, by omega⟩
  have split : canonicalPadding bytes = (canonicalPadding bytes - removed) + removed := by omega
  rw [split, List.replicate_add, ← List.append_assoc] at isCanonical
  exact List.append_cancel_right isCanonical

/-! ### The byte order mark -/

theorem mark_prefix_iff {value : List Char} :
    BYTE_ORDER_MARK_BYTES <+: utf8Bytes value ↔ value.head? = some BYTE_ORDER_MARK := by
  have mark : BYTE_ORDER_MARK_BYTES = utf8Bytes [BYTE_ORDER_MARK] := by decide
  rw [mark]
  constructor
  · rintro ⟨after, isPrefix⟩
    obtain ⟨rest, rfl, _⟩ := utf8Bytes_drop isPrefix.symm
    rfl
  · intro isHead
    cases value with
    | nil => cases isHead
    | cons char value =>
      obtain rfl := Option.some.inj isHead
      exact ⟨utf8Bytes value, by simp⟩

/-- Dropping the mark changes the text. -/
theorem utf16Units_withoutMark_iff {value : List Char} :
    utf16Units (withoutMark value) = utf16Units value ↔
      ¬BYTE_ORDER_MARK_BYTES <+: utf8Bytes value := by
  rw [mark_prefix_iff, withoutMark]
  split
  · next isMarked =>
      refine iff_of_false (fun same => ?_) (not_not_intro isMarked)
      cases value with
      | nil => cases isMarked
      | cons char value =>
        have lengths := congrArg List.length same
        obtain rfl := Option.some.inj isMarked
        have one : (charUnits BYTE_ORDER_MARK).length = 1 := by decide
        rw [List.tail_cons, utf16Units, utf16Units, List.flatMap_cons, List.length_append,
          one] at lengths
        omega
  · next isUnmarked => exact iff_of_true rfl isUnmarked

/-- The modifier is exact on a text exactly where the text, if it is the letters of valid
UTF-8 with padding, has no padding too many and no byte order mark. -/
theorem b64decodeExact_iff (text varName : CodeUnits) :
    B64decodeExact text varName ↔ PaddedAndUnmarked text := by
  constructor
  · intro exactly value padding compactEq short
    have decoded := (@decodeBase64_ok_iff text varName _).mpr
      ⟨value, padding, compactEq, short, rfl⟩
    have few : padding ≤ canonicalPadding (utf8Bytes value) := by
      by_contra more
      obtain ⟨error, isError⟩ := exactly.rejected fun other isSpelling =>
        more ((isSpelling_iff compactEq other).mp isSpelling).2
      rw [decoded] at isError
      cases isError
    refine ⟨few, ?_⟩
    have own := exactly.decoded value ((isSpelling_iff compactEq value).mpr ⟨rfl, few⟩)
    rw [decoded] at own
    exact utf16Units_withoutMark_iff.mp (Except.ok.inj own)
  · intro plain
    refine ⟨fun value isSpelling => ?_, fun noSpelling => ?_⟩
    · obtain ⟨padding, compactEq, short⟩ := compactText_of_isSpelling isSpelling
      have unmarked := (plain value padding compactEq short).2
      exact decodeBase64_ok_iff.mpr ⟨value, padding, compactEq, short,
        (utf16Units_withoutMark_iff.mpr unmarked).symm⟩
    · cases done : decodeBase64 text varName with
      | error error => exact ⟨error, rfl⟩
      | ok result =>
          obtain ⟨value, padding, compactEq, short, _⟩ := decodeBase64_ok_iff.mp done
          have few := (plain value padding compactEq short).1
          exact absurd ((isSpelling_iff compactEq value).mpr ⟨rfl, few⟩) (noSpelling value)

/-- The bytes EF BB BF 41 come back as 41. -/
theorem mark_not_decoded :
    ¬B64decodeExact ((encodeBase64 [0xef, 0xbb, 0xbf, 0x41]).map codeUnit) (codeUnits "KEY") := by
  intro exactly
  have bytes : utf8Bytes [BYTE_ORDER_MARK, 'A'] = [0xef, 0xbb, 0xbf, 0x41] := by decide
  have isSpelling : IsSpelling ((encodeBase64 [0xef, 0xbb, 0xbf, 0x41]).map codeUnit)
      (utf8Bytes [BYTE_ORDER_MARK, 'A']) := ⟨0, by decide +kernel⟩
  have decoded := exactly.decoded _ isSpelling
  have dropped : decodeBase64 ((encodeBase64 [0xef, 0xbb, 0xbf, 0x41]).map codeUnit)
      (codeUnits "KEY") = .ok (codeUnits "A") := by decide +kernel
  rw [dropped] at decoded
  exact absurd decoded (by decide)

end Paratix.Template
