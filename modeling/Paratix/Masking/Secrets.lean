/-
Module: Paratix.Masking.Secrets
Purpose: Registered secrets, the spellings under which they are masked, and the
  masking of one text that is known as a whole.
Main exports: SecretSource, maskPreparedSecrets
-/
import Mathlib.Data.List.Sort
import Paratix.Foundation.AssocList
import Paratix.Foundation.ReplaceAll

namespace Paratix.Masking

open Foundation

/-- A JavaScript string: a sequence of UTF-16 code units, surrogates included. -/
abbrev CodeUnits := List UInt16

/-- The code unit of a character of the basic multilingual plane. -/
def codeUnit (char : Char) : UInt16 := UInt16.ofNat char.toNat

/-- The code units of a literal of the source. -/
def codeUnits (literal : String) : CodeUnits := literal.toList.map codeUnit

/-- Placeholder used when redacting secrets from output. -/
def REDACTED : CodeUnits := codeUnits "[REDACTED]"

/-- A registered secret is a text or a callback that yields one. -/
inductive SecretSource where
  | text (secret : CodeUnits)
  | callback (secret : Unit → CodeUnits)

def resolveSecret : SecretSource → CodeUnits
  | .text secret => secret
  | .callback secret => secret ()

/-! ### The spellings of a secret -/

/-- Wraps a text in single quotes, with embedded single quotes escaped. -/
def shellQuote (s : CodeUnits) : CodeUnits :=
  codeUnits "'" ++ replaceAll id (codeUnits "'") (codeUnits "'\\''") s ++ codeUnits "'"

/-- The characters `encodeURIComponent` keeps as they are. -/
def isUnescapedUriUnit (unit : UInt16) : Bool :=
  let code := unit.toNat
  (0x41 ≤ code && code ≤ 0x5a) || (0x61 ≤ code && code ≤ 0x7a) ||
    (0x30 ≤ code && code ≤ 0x39) || (codeUnits "-_.!~*'()").contains unit

def isHighSurrogate (unit : UInt16) : Bool :=
  0xd800 ≤ unit.toNat && unit.toNat ≤ 0xdbff

def isLowSurrogate (unit : UInt16) : Bool :=
  0xdc00 ≤ unit.toNat && unit.toNat ≤ 0xdfff

def upperHexDigit (value : Nat) : UInt16 :=
  UInt16.ofNat (if value < 10 then 0x30 + value else 0x37 + value)

/-- The escape sequence of one UTF-8 byte. -/
def percentByte (byte : Nat) : CodeUnits :=
  codeUnits "%" ++ [upperHexDigit (byte / 16), upperHexDigit (byte % 16)]

/-- The escape sequences of the UTF-8 bytes of one code point. -/
def percentCodePoint (code : Nat) : CodeUnits :=
  if code < 0x80 then percentByte code
  else if code < 0x800 then
    percentByte (0xc0 + code / 0x40) ++ percentByte (0x80 + code % 0x40)
  else if code < 0x10000 then
    percentByte (0xe0 + code / 0x1000) ++
      percentByte (0x80 + code / 0x40 % 0x40) ++ percentByte (0x80 + code % 0x40)
  else
    percentByte (0xf0 + code / 0x40000) ++
      percentByte (0x80 + code / 0x1000 % 0x40) ++
      percentByte (0x80 + code / 0x40 % 0x40) ++ percentByte (0x80 + code % 0x40)

/-- `none` stands for the `URIError` raised at a lone surrogate. -/
def encodeURIComponent : CodeUnits → Option CodeUnits
  | [] => some []
  | unit :: rest =>
      if isUnescapedUriUnit unit then
        (encodeURIComponent rest).map (unit :: ·)
      else if isLowSurrogate unit then none
      else if isHighSurrogate unit then
        match rest with
        | [] => none
        | low :: rest =>
            if isLowSurrogate low then
              let code := 0x10000 + (unit.toNat - 0xd800) * 0x400 + (low.toNat - 0xdc00)
              (encodeURIComponent rest).map (percentCodePoint code ++ ·)
            else none
      else (encodeURIComponent rest).map (percentCodePoint unit.toNat ++ ·)

/-! ### The list of variants -/

/-- Why a list of secrets is refused. -/
inductive SecretError where
  /-- Secret must not contain the redaction placeholder "[REDACTED]" -/
  | containsPlaceholder
  /-- The error `encodeURIComponent` raises. -/
  | malformedUri
deriving DecidableEq, Repr

/-- The variants one secret contributes. -/
def addSecretVariants (variants : List CodeUnits) (secret : CodeUnits) :
    Except SecretError (List CodeUnits) :=
  if secret.length = 0 then .ok variants
  else if REDACTED <:+: secret then .error .containsPlaceholder
  else
    let variants := setAdd variants secret
    match encodeURIComponent secret with
    | none => .error .malformedUri
    | some encoded =>
        let variants := if encoded ≠ secret then setAdd variants encoded else variants
        let quoted := shellQuote secret
        .ok (if quoted ≠ secret then setAdd variants quoted else variants)

/-- The variants of all secrets, longest first; the sort is stable. -/
def getSecretVariants (secrets : List SecretSource) :
    Except SecretError (List CodeUnits) := do
  let variants ← secrets.foldlM
    (fun variants source => addSecretVariants variants (resolveSecret source)) []
  return variants.insertionSort fun a b => b.length ≤ a.length

/-- A secret's variants are added to what is there. -/
theorem mem_of_addSecretVariants {before after : List CodeUnits} {secret : CodeUnits}
    (added : addSecretVariants before secret = .ok after) :
    (∀ variant ∈ before, variant ∈ after) ∧ (secret ≠ [] → secret ∈ after) := by
  have kept : ∀ {elements : List CodeUnits} {element other : CodeUnits},
      other ∈ elements → other ∈ setAdd elements element :=
    fun member => mem_setAdd.2 (Or.inl member)
  simp only [addSecretVariants] at added
  split at added
  · next empty =>
      cases added
      exact ⟨fun _ member => member,
        fun nonempty => absurd (List.length_eq_zero_iff.1 empty) nonempty⟩
  · split at added
    · cases added
    · split at added
      · cases added
      · next encoded _ =>
          cases added
          have own : secret ∈ setAdd before secret := mem_setAdd.2 (Or.inr rfl)
          constructor
          · intro variant member
            have inOwn : variant ∈ setAdd before secret := kept member
            split <;> split <;> first | exact kept (kept inOwn) | exact kept inOwn | exact inOwn
          · intro _
            split <;> split <;> first | exact kept (kept own) | exact kept own | exact own

theorem mem_of_foldlM_addSecretVariants {secrets : List SecretSource} :
    ∀ {before after : List CodeUnits},
      secrets.foldlM (fun variants source => addSecretVariants variants (resolveSecret source))
        before = .ok after →
      (∀ variant ∈ before, variant ∈ after) ∧
        ∀ source ∈ secrets, resolveSecret source ≠ [] → resolveSecret source ∈ after := by
  induction secrets with
  | nil =>
    intro before after folded
    cases folded
    exact ⟨fun _ member => member, by simp⟩
  | cons source secrets ih =>
    intro before after folded
    rw [List.foldlM_cons] at folded
    cases added : addSecretVariants before (resolveSecret source) with
    | error error =>
      rw [added] at folded
      cases folded
    | ok middle =>
      rw [added] at folded
      obtain ⟨kept, own⟩ := mem_of_addSecretVariants added
      obtain ⟨restKept, restOwn⟩ := ih folded
      constructor
      · exact fun variant member => restKept variant (kept variant member)
      · intro other member nonempty
        rcases List.mem_cons.1 member with isSource | inRest
        · subst isSource
          exact restKept _ (own nonempty)
        · exact restOwn other inRest nonempty

/-- Every nonempty secret is one of the variants. -/
theorem secret_mem_variants {secrets : List SecretSource} {variants : List CodeUnits}
    (accepted : getSecretVariants secrets = .ok variants) {source : SecretSource}
    (member : source ∈ secrets) (nonempty : resolveSecret source ≠ []) :
    resolveSecret source ∈ variants := by
  rw [getSecretVariants] at accepted
  cases folded : secrets.foldlM
      (fun variants source => addSecretVariants variants (resolveSecret source)) [] with
  | error error =>
    rw [folded] at accepted
    cases accepted
  | ok unsorted =>
    rw [folded] at accepted
    cases accepted
    have isMember := (mem_of_foldlM_addSecretVariants folded).2 source member nonempty
    exact (List.perm_insertionSort _ _).mem_iff.2 isMember

structure PreparedSecrets where
  variants : List CodeUnits
deriving DecidableEq, Repr

def prepareSecrets (secrets : List SecretSource) : Except SecretError PreparedSecrets := do
  return { variants := ← getSecretVariants secrets }

theorem variants_of_prepareSecrets {secrets : List SecretSource} {prepared : PreparedSecrets}
    (accepted : prepareSecrets secrets = .ok prepared) :
    getSecretVariants secrets = .ok prepared.variants := by
  rw [prepareSecrets] at accepted
  cases variantsEq : getSecretVariants secrets with
  | error error =>
    rw [variantsEq] at accepted
    cases accepted
  | ok variants =>
    rw [variantsEq] at accepted
    cases accepted
    rfl

namespace PreparedSecrets

/-- Length of the longest variant, 0 when there is none. -/
def getMaxLength (secrets : PreparedSecrets) : Nat :=
  (secrets.variants.map List.length).foldl max 0

theorem foldl_max_bounds (lengths : List Nat) (start : Nat) : start ≤ lengths.foldl max start ∧
      ∀ length ∈ lengths, length ≤ lengths.foldl max start := by
  induction lengths generalizing start with
  | nil => simp
  | cons first lengths ih =>
    obtain ⟨startBound, bounds⟩ := ih (max start first)
    simp only [List.foldl_cons, List.forall_mem_cons]
    exact ⟨le_trans (le_max_left _ _) startBound, le_trans (le_max_right _ _) startBound, bounds⟩

theorem length_le_getMaxLength {secrets : PreparedSecrets} {variant : CodeUnits}
    (member : variant ∈ secrets.variants) : variant.length ≤ secrets.getMaxLength :=
  (foldl_max_bounds _ 0).2 _ (List.mem_map_of_mem member)

end PreparedSecrets

/-- Masks a text whose cells carry code units, each variant over the result of
the previous one. -/
def mask {β : Type*} (value : β → UInt16) (redacted : List β)
    (secrets : PreparedSecrets) (text : List β) : List β :=
  replaceEach value secrets.variants redacted text

def maskPreparedSecrets (text : CodeUnits) (secrets : PreparedSecrets) : CodeUnits :=
  mask id REDACTED secrets text

end Paratix.Masking
