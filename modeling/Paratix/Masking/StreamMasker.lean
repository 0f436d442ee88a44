/-
Module: Paratix.Masking.StreamMasker
Purpose: The sliding-window masker of live output, the secrecy of what it writes, and when streaming
  hides what masking the whole text hides.
Main exports: StreamMasker, streamSecrets_hides_variants
-/
import Paratix.Masking.Secrets
import Paratix.Foundation.ReplaceCut

namespace Paratix.Masking

open Foundation

variable {β : Type*}

/-- State of a masker: the text it holds back, and everything it has passed to
the write callback. -/
structure StreamMasker (β : Type*) where
  pending : List β := []
  written : List β := []
deriving DecidableEq, Repr

/-- Number of code units held back between chunks. -/
def PreparedSecrets.getOverlap (secrets : PreparedSecrets) : Nat :=
  secrets.getMaxLength - 1

namespace StreamMasker

variable (value : β → UInt16) (redacted : List β) (secrets : PreparedSecrets)

def write (masker : StreamMasker β) (text : List β) : StreamMasker β :=
  { masker with written := masker.written ++ text }

def push (masker : StreamMasker β) (chunk : List β) : StreamMasker β :=
  let currentOverlap := secrets.getOverlap
  if currentOverlap = 0 then
    masker.write (mask value redacted secrets chunk)
  else
    let pending := masker.pending ++ chunk
    if pending.length ≤ currentOverlap then { masker with pending }
    else
      let masked := mask value redacted secrets pending
      if masked.length ≤ currentOverlap then { masker with pending := masked }
      else
        let cut := masked.length - currentOverlap
        { masker.write (masked.take cut) with pending := masked.drop cut }

def flush (masker : StreamMasker β) : StreamMasker β :=
  if 0 < masker.pending.length then
    { masker.write (mask value redacted secrets masker.pending) with pending := [] }
  else masker

/-- Every chunk is pushed, in order. -/
def pushAll (masker : StreamMasker β) (chunks : List (List β)) : StreamMasker β :=
  chunks.foldl (push value redacted secrets) masker

/-- A push only buffers, or masks what it holds and writes all but the last
`getOverlap` cells. -/
theorem push_cases {masker : StreamMasker β} (chunk : List β)
    (idle : secrets.getOverlap = 0 → masker.pending = []) :
    let buffer := masker.pending ++ chunk
    let after := push value redacted secrets masker chunk
    (buffer.length ≤ secrets.getOverlap ∧ 0 < secrets.getOverlap ∧
        after = ⟨buffer, masker.written⟩) ∨
      (secrets.getOverlap < buffer.length ∨ buffer = []) ∧
      ∃ front, mask value redacted secrets buffer = front ++ after.pending ∧
        after.written = masker.written ++ front ∧
        (front ≠ [] → after.pending.length = secrets.getOverlap) := by
  intro buffer after
  by_cases noOverlap : secrets.getOverlap = 0
  · have pendingNil := idle noOverlap
    have masks : secrets.getOverlap < buffer.length ∨ buffer = [] := by
      rw [noOverlap]
      cases buffer with
      | nil => exact Or.inr rfl
      | cons cell cells => exact Or.inl (Nat.succ_pos _)
    refine Or.inr ⟨masks, mask value redacted secrets chunk, ?_⟩
    simp only [after, buffer, push, noOverlap, if_true, write, pendingNil,
      List.nil_append, List.append_nil, List.length_nil, implies_true, and_self]
  · by_cases short : buffer.length ≤ secrets.getOverlap
    · refine Or.inl ⟨short, Nat.pos_of_ne_zero noOverlap, ?_⟩
      simp only [after, buffer, push, noOverlap, if_false] at short ⊢
      rw [if_pos short]
    · refine Or.inr ⟨Or.inl (Nat.lt_of_not_le short), ?_⟩
      by_cases maskedShort :
          (mask value redacted secrets buffer).length ≤ secrets.getOverlap
      · refine ⟨[], ?_⟩
        simp only [after, push, noOverlap, if_false]
        rw [if_neg short, if_pos maskedShort]
        simp [buffer]
      · refine ⟨(mask value redacted secrets buffer).take
          ((mask value redacted secrets buffer).length - secrets.getOverlap), ?_⟩
        simp only [after, push, noOverlap, if_false]
        rw [if_neg short, if_neg maskedShort]
        refine ⟨(List.take_append_drop _ _).symm, rfl, fun _ => ?_⟩
        simp only [List.length_drop]
        exact Nat.sub_sub_self (Nat.le_of_not_le maskedShort)

/-- What is held back stays empty when no variant needs a window. -/
theorem push_idle {masker : StreamMasker β} (chunk : List β)
    (idle : secrets.getOverlap = 0 → masker.pending = []) (noOverlap : secrets.getOverlap = 0) :
    (push value redacted secrets masker chunk).pending = [] := by
  simp only [push, noOverlap, if_true, write]
  exact idle noOverlap

/-- A flush writes the masked rest. -/
theorem flush_written (masker : StreamMasker β) : (flush value redacted secrets masker).written =
      masker.written ++ mask value redacted secrets masker.pending := by
  cases pendingEq : masker.pending with
  | nil => simp [flush, pendingEq, mask]
  | cons cell cells => simp [flush, pendingEq, write]

end StreamMasker

/-- What a masker writes in all when `chunks` are pushed and it is flushed. -/
def streamMask (value : β → UInt16) (redacted : List β) (secrets : PreparedSecrets)
    (chunks : List (List β)) : List β :=
  let masker := StreamMasker.pushAll value redacted secrets {} chunks
  (masker.flush value redacted secrets).written

/-- The output of a masker created from a list of secrets. -/
def streamSecrets (secrets : List SecretSource) (chunks : List CodeUnits) :
    Except SecretError CodeUnits := do
  return streamMask id REDACTED (← prepareSecrets secrets) chunks

/-! ### No variant starts in what is written -/

/-- What a masker withholds: nothing that is still to come completes a variant
that starts in the written text. -/
structure Withheld (value : β → UInt16) (secrets : PreparedSecrets)
    (masker : StreamMasker β) : Prop where
  idle : secrets.getOverlap = 0 → masker.pending = []
  notStarting : ∀ variant ∈ secrets.variants, ∀ more,
    ¬ StartsIn variant (masker.written.map value)
      (masker.pending.map value ++ more)

namespace Withheld

variable {value : β → UInt16} {redacted : List β} {secrets : PreparedSecrets}

theorem initial : Withheld value secrets ({} : StreamMasker β) where
  idle := fun _ => rfl
  notStarting := fun variant _ _ => not_startsIn_nil variant _

/-- Masking the buffer lets no variant start in the written text. -/
theorem masked_notStarting
    (apart : ∀ variant ∈ secrets.variants, Apart variant (redacted.map value))
    {masker : StreamMasker β} (withheld : Withheld value secrets masker) (chunk : List β) :
    ∀ variant ∈ secrets.variants, ∀ more, ¬ StartsIn variant (masker.written.map value)
        ((mask value redacted secrets (masker.pending ++ chunk)).map value ++ more) := by
  intro variant member
  have nonempty : ∀ other ∈ secrets.variants, other ≠ [] :=
    fun other otherMember => (apart other otherMember).pattern_ne_nil
  apply not_startsIn_replaceEach nonempty (apart variant member)
  intro more
  have before := withheld.notStarting variant member (chunk.map value ++ more)
  rwa [← List.append_assoc, ← List.map_append] at before

/-- No variant starts in the part of a masked buffer that a push writes. -/
theorem front_notStarting (apart : ∀ variant ∈ secrets.variants, Apart variant (redacted.map value))
    {buffer front pending : List β}
    (maskedEq : mask value redacted secrets buffer = front ++ pending)
    (heldBack : front ≠ [] → pending.length = secrets.getOverlap) :
    ∀ variant ∈ secrets.variants, ∀ more,
      ¬ StartsIn variant (front.map value) (pending.map value ++ more) := by
  intro variant member more
  have absent : ¬ variant <:+: (mask value redacted secrets buffer).map value :=
    replaceEach_free apart buffer variant member
  rw [maskedEq, List.map_append] at absent
  cases front with
  | nil => exact not_startsIn_nil variant _
  | cons cell cells =>
    have length := heldBack (by simp)
    have bound := PreparedSecrets.length_le_getMaxLength member
    have long : variant.length ≤ (pending.map value).length + 1 := by
      rw [List.length_map, length, PreparedSecrets.getOverlap]
      omega
    exact not_startsIn_of_long absent long more

/-- A push keeps the invariant. -/
theorem push (apart : ∀ variant ∈ secrets.variants, Apart variant (redacted.map value))
    {masker : StreamMasker β} (withheld : Withheld value secrets masker) (chunk : List β) :
    Withheld value secrets (masker.push value redacted secrets chunk) where
  idle := StreamMasker.push_idle value redacted secrets chunk withheld.idle
  notStarting := by
    intro variant member more
    rcases StreamMasker.push_cases value redacted secrets chunk withheld.idle with
      ⟨_, _, afterEq⟩ | ⟨_, front, maskedEq, writtenEq, heldBack⟩
    · rw [afterEq, List.map_append, List.append_assoc]
      exact withheld.notStarting variant member _
    · rw [writtenEq, List.map_append]
      intro starts
      rcases startsIn_append starts with inWritten | inFront
      · have before := withheld.masked_notStarting apart chunk variant member more
        rw [maskedEq, List.map_append, List.append_assoc] at before
        exact before inWritten
      · exact front_notStarting apart maskedEq heldBack variant member more inFront

theorem pushAll (apart : ∀ variant ∈ secrets.variants, Apart variant (redacted.map value))
    {masker : StreamMasker β} (withheld : Withheld value secrets masker) (chunks : List (List β)) :
    Withheld value secrets (masker.pushAll value redacted secrets chunks) := by
  induction chunks generalizing masker with
  | nil => exact withheld
  | cons chunk chunks ih =>
    exact ih (withheld.push apart chunk)

end Withheld

/-- No variant that is apart from the placeholder occurs in the output. -/
theorem streamMask_free {value : β → UInt16} {redacted : List β} {secrets : PreparedSecrets}
    (apart : ∀ variant ∈ secrets.variants, Apart variant (redacted.map value))
    (chunks : List (List β)) : ∀ variant ∈ secrets.variants,
      ¬ variant <:+: (streamMask value redacted secrets chunks).map value := by
  intro variant member found
  have withheld : Withheld value secrets
      (StreamMasker.pushAll value redacted secrets {} chunks) :=
    Withheld.initial.pushAll apart chunks
  simp only [streamMask, StreamMasker.flush_written, List.map_append] at found
  generalize StreamMasker.pushAll value redacted secrets {} chunks = masker
    at withheld found
  obtain ⟨front, back, texts⟩ := found
  have absent := replaceEach_free apart masker.pending variant member
  have notStarting := withheld.masked_notStarting apart [] variant member []
  rw [List.append_nil, List.append_nil] at notStarting
  by_cases inWritten : front.length < masker.written.length
  · exact notStarting ⟨front, back, by simpa using inWritten,
      by rw [← texts, List.append_assoc]⟩
  · apply absent
    rw [List.append_assoc] at texts
    rcases List.append_eq_append_iff.1 texts with
      ⟨gap, writtenEq, restEq⟩ | ⟨gap, _, maskedEq⟩
    · have lengths := congrArg List.length writtenEq
      simp only [List.length_append, List.length_map] at lengths
      have gapNil : gap = [] := List.length_eq_zero_iff.1 (by omega)
      subst gapNil
      exact ⟨[], back, by rw [List.nil_append]; exact restEq⟩
    · exact ⟨gap, back, by rw [List.append_assoc]; exact maskedEq.symm⟩

/-- A variant without brackets that is no part of the placeholder is apart
from it. -/
theorem apart_redacted {variant : CodeUnits}
    (noOpening : codeUnit '[' ∉ variant) (noClosing : codeUnit ']' ∉ variant)
    (notInside : ¬ variant <:+: REDACTED) : Apart variant REDACTED := by
  have delimited : REDACTED = codeUnit '[' :: (codeUnits "REDACTED" ++ [codeUnit ']']) := by decide
  rw [delimited] at notInside ⊢
  exact Apart.of_delimited notInside noOpening noClosing

/-- The output of the stream masker holds no variant of any secret, however
the text is cut into chunks. -/
theorem streamSecrets_hides_variants {secrets : List SecretSource}
    {variants : List CodeUnits} {chunks : List CodeUnits} {output : CodeUnits}
    (accepted : getSecretVariants secrets = .ok variants)
    (noOpening : ∀ variant ∈ variants, codeUnit '[' ∉ variant)
    (noClosing : ∀ variant ∈ variants, codeUnit ']' ∉ variant)
    (notInside : ∀ variant ∈ variants, ¬ variant <:+: REDACTED)
    (streamed : streamSecrets secrets chunks = .ok output) :
    ∀ variant ∈ variants, ¬ variant <:+: output := by
  have outputEq : output = streamMask id REDACTED ⟨variants⟩ chunks := by
    simp only [streamSecrets, prepareSecrets, accepted] at streamed
    exact (Except.ok.inj streamed).symm
  have apart : ∀ variant ∈ (PreparedSecrets.mk variants).variants,
      Apart variant (REDACTED.map id) := by
    intro variant member
    rw [List.map_id]
    exact apart_redacted (noOpening variant member) (noClosing variant member)
      (notInside variant member)
  intro variant member
  have free := streamMask_free apart chunks variant member
  rwa [List.map_id, ← outputEq] at free

/-- A secret with a blank, cut in two by the chunks. -/
theorem streamSecrets_hides_variants_split :
    streamSecrets [.text (codeUnits "to ken")] [codeUnits "xto k", codeUnits "eny"] =
        .ok (codeUnits "x[REDACTED]y") ∧
      ∀ variant ∈ [codeUnits "to%20ken", codeUnits "'to ken'", codeUnits "to ken"],
        ¬ variant <:+: codeUnits "x[REDACTED]y" := by
  have accepted : getSecretVariants [.text (codeUnits "to ken")] =
      .ok [codeUnits "to%20ken", codeUnits "'to ken'", codeUnits "to ken"] := by
    decide +kernel
  have streamed : streamSecrets [.text (codeUnits "to ken")]
      [codeUnits "xto k", codeUnits "eny"] = .ok (codeUnits "x[REDACTED]y") := by
    decide +kernel
  constructor
  · exact streamed
  · exact streamSecrets_hides_variants accepted (by decide) (by decide) (by decide)
      streamed

/-- A code unit of the output: an input character, with its index in the text,
or a character of a redaction placeholder. -/
inductive TracedUnit where
  | input (index : Nat) (unit : UInt16)
  | redaction (unit : UInt16)
deriving DecidableEq, Repr

namespace TracedUnit

def unit : TracedUnit → UInt16
  | input _ unit => unit
  | redaction unit => unit

/-- The index of the input character this is, if it is one. -/
def source? : TracedUnit → Option Nat
  | input index _ => some index
  | redaction _ => none

end TracedUnit

def traceFrom (index : Nat) : CodeUnits → List TracedUnit
  | [] => []
  | unit :: units => .input index unit :: traceFrom (index + 1) units

/-- Chunks of one text, numbered through. -/
def traceChunksFrom (index : Nat) : List CodeUnits → List (List TracedUnit)
  | [] => []
  | chunk :: chunks =>
      traceFrom index chunk :: traceChunksFrom (index + chunk.length) chunks

def tracedRedacted : List TracedUnit := REDACTED.map .redaction

/-- `maskPreparedSecrets`, on a traced text. -/
def tracedBatch (secrets : PreparedSecrets) (text : CodeUnits) : List TracedUnit :=
  mask TracedUnit.unit tracedRedacted secrets (traceFrom 0 text)

/-- The stream masker, on the traced chunks of a text. -/
def tracedStream (secrets : PreparedSecrets) (chunks : List CodeUnits) :
    List TracedUnit :=
  streamMask TracedUnit.unit tracedRedacted secrets (traceChunksFrom 0 chunks)

/-- The input character at `index` stands in the output as it is. -/
def Emits (output : List TracedUnit) (index : Nat) : Prop :=
  index ∈ output.filterMap TracedUnit.source?

instance (output : List TracedUnit) (index : Nat) : Decidable (Emits output index) :=
  inferInstanceAs (Decidable (index ∈ output.filterMap TracedUnit.source?))

/-- Every input character that masking the whole text replaces is also not
emitted when the text arrives in chunks. -/
def StreamHidesWhatBatchHides (secrets : PreparedSecrets) (chunks : List CodeUnits) :
    Prop :=
  ∀ index, ¬ Emits (tracedBatch secrets chunks.flatten) index →
    ¬ Emits (tracedStream secrets chunks) index

/-! ### Tracing changes nothing -/

theorem map_unit_traceFrom (index : Nat) (units : CodeUnits) :
    (traceFrom index units).map TracedUnit.unit = units := by
  induction units generalizing index with
  | nil => rfl
  | cons unit units ih =>
    simp only [traceFrom, List.map_cons, TracedUnit.unit, ih]

theorem traceFrom_append (index : Nat) (front back : CodeUnits) : traceFrom index (front ++ back) =
      traceFrom index front ++ traceFrom (index + front.length) back := by
  induction front generalizing index with
  | nil => rfl
  | cons unit front ih =>
    simp only [List.cons_append, traceFrom, ih, List.length_cons, Nat.add_right_comm, Nat.add_assoc]

theorem flatten_traceChunksFrom (index : Nat) (chunks : List CodeUnits) :
    (traceChunksFrom index chunks).flatten = traceFrom index chunks.flatten := by
  induction chunks generalizing index with
  | nil => rfl
  | cons chunk chunks ih =>
    simp only [traceChunksFrom, List.flatten_cons, traceFrom_append, ih]

theorem map_unit_traceChunksFrom (index : Nat) (chunks : List CodeUnits) :
    (traceChunksFrom index chunks).map (List.map TracedUnit.unit) = chunks := by
  induction chunks generalizing index with
  | nil => rfl
  | cons chunk chunks ih =>
    simp only [traceChunksFrom, List.map_cons, map_unit_traceFrom, ih]

theorem map_unit_tracedRedacted : tracedRedacted.map TracedUnit.unit = REDACTED := by
  decide

theorem map_unit_mask (secrets : PreparedSecrets) (text : List TracedUnit) :
    (mask TracedUnit.unit tracedRedacted secrets text).map TracedUnit.unit =
      mask id REDACTED secrets (text.map TracedUnit.unit) := by
  have mapped :
      (mask TracedUnit.unit tracedRedacted secrets text).map TracedUnit.unit =
        replaceEach id secrets.variants (tracedRedacted.map TracedUnit.unit)
          (text.map TracedUnit.unit) :=
    replaceEach_map TracedUnit.unit id secrets.variants text
  rwa [map_unit_tracedRedacted] at mapped

namespace StreamMasker

/-- The masker of the bare code units. -/
def erase (masker : StreamMasker TracedUnit) : StreamMasker UInt16 where
  pending := masker.pending.map TracedUnit.unit
  written := masker.written.map TracedUnit.unit

theorem erase_push (secrets : PreparedSecrets) (masker : StreamMasker TracedUnit)
    (chunk : List TracedUnit) : (masker.push TracedUnit.unit tracedRedacted secrets chunk).erase =
      masker.erase.push id REDACTED secrets (chunk.map TracedUnit.unit) := by
  have bufferEq : masker.erase.pending ++ chunk.map TracedUnit.unit =
      (masker.pending ++ chunk).map TracedUnit.unit := by
    rw [List.map_append]
    rfl
  have maskedEq := map_unit_mask secrets (masker.pending ++ chunk)
  have maskedLength := congrArg List.length maskedEq
  rw [List.length_map] at maskedLength
  by_cases noOverlap : secrets.getOverlap = 0
  · simp only [push, noOverlap, if_true, erase, write, List.map_append, map_unit_mask]
  · simp only [push, noOverlap, if_false, bufferEq, List.length_map, ← maskedLength]
    by_cases short : (masker.pending ++ chunk).length ≤ secrets.getOverlap
    · rw [if_pos short, if_pos short]
      rfl
    · rw [if_neg short, if_neg short]
      by_cases maskedShort : (mask TracedUnit.unit tracedRedacted secrets
          (masker.pending ++ chunk)).length ≤ secrets.getOverlap
      · rw [if_pos maskedShort, if_pos maskedShort, ← maskedEq]
        rfl
      · rw [if_neg maskedShort, if_neg maskedShort, ← maskedEq]
        simp only [erase, write, List.map_append, List.map_take, List.map_drop]

end StreamMasker

/-! ### Runs whose pushes are settled -/

/-- A masked push is settled when no variant in the buffer covers the beginning
of an earlier variant that the text still to come completes. -/
def SettledPush (secrets : PreparedSecrets) (pending chunk following : CodeUnits) :
    Prop :=
  secrets.getOverlap < (pending ++ chunk).length →
    secrets.variants.Pairwise fun longer shorter =>
      ¬ Clobbers shorter longer (pending ++ chunk) following

/-- Every push of the run is settled in the state it starts from. -/
def SettledRun (secrets : PreparedSecrets) :
    StreamMasker UInt16 → List CodeUnits → Prop
  | _, [] => True
  | masker, chunk :: chunks =>
      SettledPush secrets masker.pending chunk chunks.flatten ∧
        SettledRun secrets (masker.push id REDACTED secrets chunk) chunks

instance (secrets : PreparedSecrets) (pending chunk following : CodeUnits) :
    Decidable (SettledPush secrets pending chunk following) :=
  inferInstanceAs (Decidable (_ → _))

instance decidableSettledRun (secrets : PreparedSecrets) :
    ∀ (masker : StreamMasker UInt16) (chunks : List CodeUnits),
      Decidable (SettledRun secrets masker chunks)
  | _, [] => isTrue trivial
  | masker, chunk :: chunks =>
      have := decidableSettledRun secrets (masker.push id REDACTED secrets chunk) chunks
      inferInstanceAs (Decidable (_ ∧ _))

/-- Masking the held text after a settled push and the rest of the input is
masking all of it at once. -/
theorem mask_mask_append {β : Type*} {value : β → UInt16} {redacted : List β}
    {secrets : PreparedSecrets}
    (apart : ∀ variant ∈ secrets.variants, Apart variant (redacted.map value))
    {pending chunk following : List β}
    (masks : secrets.getOverlap < (pending ++ chunk).length ∨ pending ++ chunk = [])
    (settled : SettledPush secrets (pending.map value) (chunk.map value) (following.map value)) :
    mask value redacted secrets (mask value redacted secrets (pending ++ chunk) ++ following) =
      mask value redacted secrets (pending ++ chunk ++ following) := by
  rcases masks with masks | bufferNil
  · apply replaceEach_replaceEach_append apart
    rw [List.map_append]
    apply settled
    rwa [← List.map_append, List.length_map]
  · have maskedNil : mask value redacted secrets ([] : List β) = [] := replaceEach_empty _
    rw [bufferNil, maskedNil]

/-- In a settled run the masker writes what masking the whole rest at once
would give. -/
theorem written_eq_mask {secrets : PreparedSecrets}
    (apart : ∀ variant ∈ secrets.variants, Apart variant REDACTED)
    (masker : StreamMasker TracedUnit) (chunks : List (List TracedUnit))
    (idle : secrets.getOverlap = 0 → masker.pending = []) (settled : SettledRun secrets masker.erase
      (chunks.map (List.map TracedUnit.unit))) :
    ((masker.pushAll TracedUnit.unit tracedRedacted secrets chunks).flush
        TracedUnit.unit tracedRedacted secrets).written =
      masker.written ++ mask TracedUnit.unit tracedRedacted secrets
          (masker.pending ++ chunks.flatten) := by
  have tracedApart : ∀ variant ∈ secrets.variants,
      Apart variant (tracedRedacted.map TracedUnit.unit) := by
    rw [map_unit_tracedRedacted]
    exact apart
  induction chunks generalizing masker with
  | nil =>
    rw [StreamMasker.flush_written, List.flatten_nil, List.append_nil]
    rfl
  | cons chunk chunks ih =>
    obtain ⟨settledPush, settledRest⟩ := settled
    rw [← StreamMasker.erase_push] at settledRest
    have rest := ih _
      (StreamMasker.push_idle TracedUnit.unit tracedRedacted secrets chunk idle)
      settledRest
    have step := StreamMasker.push_cases TracedUnit.unit tracedRedacted secrets chunk idle
    simp only at step
    simp only [StreamMasker.pushAll, List.foldl_cons, List.flatten_cons] at rest ⊢
    rw [rest]
    generalize masker.push TracedUnit.unit tracedRedacted secrets chunk = after
      at step ⊢
    rcases step with ⟨_, _, afterEq⟩ | ⟨masks, front, maskedEq, writtenEq, heldBack⟩
    · rw [afterEq, List.append_assoc]
    · have settledTraced : SettledPush secrets
          (masker.pending.map TracedUnit.unit) (chunk.map TracedUnit.unit)
          (chunks.flatten.map TracedUnit.unit) := by
        rw [List.map_flatten]
        exact settledPush
      have copied : mask TracedUnit.unit tracedRedacted secrets
          (front ++ (after.pending ++ chunks.flatten)) =
          front ++ mask TracedUnit.unit tracedRedacted secrets
            (after.pending ++ chunks.flatten) := by
        apply replaceEach_append_of_not_startsIn tracedApart
        intro variant member more
        rw [List.map_append, List.append_assoc]
        exact Withheld.front_notStarting tracedApart maskedEq heldBack variant member _
      calc
        after.written ++ mask TracedUnit.unit tracedRedacted secrets
            (after.pending ++ chunks.flatten)
          = masker.written ++ mask TracedUnit.unit tracedRedacted secrets
              (front ++ (after.pending ++ chunks.flatten)) := by
            rw [writtenEq, copied, List.append_assoc]
        _ = masker.written ++ mask TracedUnit.unit tracedRedacted secrets
              (masker.pending ++ chunk ++ chunks.flatten) := by
            rw [← mask_mask_append tracedApart masks settledTraced, maskedEq, List.append_assoc]
        _ = masker.written ++ mask TracedUnit.unit tracedRedacted secrets
              (masker.pending ++ (chunk ++ chunks.flatten)) := by
            rw [List.append_assoc]

/-- In a settled run streaming gives the very output that masking the whole
text gives. -/
theorem tracedStream_eq_tracedBatch {secrets : PreparedSecrets}
    (apart : ∀ variant ∈ secrets.variants, Apart variant REDACTED)
    {chunks : List CodeUnits} (settled : SettledRun secrets {} chunks) :
    tracedStream secrets chunks = tracedBatch secrets chunks.flatten := by
  have settledTraced : SettledRun secrets
      (StreamMasker.erase {}) ((traceChunksFrom 0 chunks).map (List.map TracedUnit.unit)) := by
    rw [map_unit_traceChunksFrom]
    exact settled
  have written := written_eq_mask apart {} (traceChunksFrom 0 chunks)
    (fun _ => rfl) settledTraced
  rw [List.nil_append, List.nil_append, flatten_traceChunksFrom] at written
  exact written

/-- The variants of a secret and of a longer one that starts with it. -/
def nestedSecrets : PreparedSecrets where
  variants := [codeUnits "'abcd'", codeUnits "'ab'", codeUnits "abcd", codeUnits "ab"]

end Paratix.Masking
