/-
Module: Paratix.Masking.TerminalSanitizer
Purpose: The removal of escape sequences and control characters from live output,
  behind the stream masker, and what it can put together again.
Main exports: consumeTerminalChar, terminalOutput_hides_secret
-/
import Paratix.Foundation.Sieve
import Paratix.Masking.StreamMasker

namespace Paratix.Masking

open Foundation

/-! ### The sanitizer -/

inductive TerminalSanitizerState where
  | csi
  | esc
  | osc
  | oscEsc
  | text
deriving DecidableEq, Repr

def BYTE_BEL : Nat := 0x07
def BYTE_TAB : Nat := 0x09
def BYTE_LF : Nat := 0x0a
def BYTE_C0_MAX : Nat := 0x1f
def BYTE_ESC_SEQUENCE_MIN : Nat := 0x30
def BYTE_CSI_FINAL_MIN : Nat := 0x40
def BYTE_FINAL_MAX : Nat := 0x7e
def BYTE_DEL : Nat := 0x7f
def BYTE_C1_MIN : Nat := 0x80
def BYTE_C1_CSI : Nat := 0x9b
def BYTE_C1_ST : Nat := 0x9c
def BYTE_C1_OSC : Nat := 0x9d
def BYTE_C1_MAX : Nat := 0x9f
def ESC : UInt16 := 0x1b
def CSI_START : UInt16 := codeUnit '['
def OSC_START : UInt16 := codeUnit ']'
def ST_FINAL : UInt16 := codeUnit '\\'

def isAllowedTextControl (code : Nat) : Bool :=
  code = BYTE_TAB || code = BYTE_LF

def isControlByte (code : Nat) : Bool :=
  code ≤ BYTE_C0_MAX || code = BYTE_DEL || (BYTE_C1_MIN ≤ code && code ≤ BYTE_C1_MAX)

def isCsiFinalByte (code : Nat) : Bool :=
  BYTE_CSI_FINAL_MIN ≤ code && code ≤ BYTE_FINAL_MAX

def isEscSequenceFinalByte (code : Nat) : Bool :=
  BYTE_ESC_SEQUENCE_MIN ≤ code && code ≤ BYTE_FINAL_MAX

def consumeEscState (char : UInt16) (code : Nat) : TerminalSanitizerState :=
  if char = CSI_START then .csi
  else if char = OSC_START then .osc
  else if isEscSequenceFinalByte code || isControlByte code then .text else .esc

def consumeOscState (char : UInt16) (code : Nat) : TerminalSanitizerState :=
  if code = BYTE_BEL || code = BYTE_C1_ST then .text
  else if char = ESC then .oscEsc else .osc

/-- The state after a character, and what is shown of it. -/
structure Consumed where
  nextState : TerminalSanitizerState
  text : CodeUnits
deriving DecidableEq, Repr

def consumeTextState (char : UInt16) (code : Nat) : Consumed :=
  if char = ESC then ⟨.esc, []⟩
  else if code = BYTE_C1_CSI then ⟨.csi, []⟩
  else if code = BYTE_C1_OSC then ⟨.osc, []⟩
  else ⟨.text, if !isControlByte code || isAllowedTextControl code then [char] else []⟩

/-- A surrogate pair is one character of the source; its halves are neither
control nor final bytes, so taking them one by one comes to the same. -/
def consumeTerminalChar (state : TerminalSanitizerState) (char : UInt16) : Consumed :=
  let code := char.toNat
  match state with
  | .csi => ⟨if isCsiFinalByte code then .text else .csi, []⟩
  | .esc => ⟨consumeEscState char code, []⟩
  | .osc => ⟨consumeOscState char code, []⟩
  | .oscEsc => ⟨if char = ST_FINAL then .text else .osc, []⟩
  | .text => consumeTextState char code

/-- `push`: the state after the text and what is shown of it. -/
def sanitize (state : TerminalSanitizerState) : CodeUnits → TerminalSanitizerState × CodeUnits
  | [] => (state, [])
  | char :: text =>
      let consumed := consumeTerminalChar state char
      let rest := sanitize consumed.nextState text
      (rest.1, consumed.text ++ rest.2)

/-- The sanitizer as an automaton that keeps or drops each code unit. -/
def terminalSieve : Sieve TerminalSanitizerState UInt16 where
  next state char := (consumeTerminalChar state char).nextState
  keeps state char := (consumeTerminalChar state char).text ≠ []

theorem consumed_text (state : TerminalSanitizerState) (char : UInt16) :
    (consumeTerminalChar state char).text =
      if terminalSieve.keeps state char then [char] else [] := by
  simp only [terminalSieve, decide_eq_true_eq]
  cases state with
  | csi => rfl
  | esc => rfl
  | osc => rfl
  | oscEsc => rfl
  | text =>
    simp only [consumeTerminalChar, consumeTextState]
    split
    · rfl
    · split
      · rfl
      · split
        · rfl
        · split <;> rfl

theorem sanitize_eq (state : TerminalSanitizerState) (text : CodeUnits) :
    sanitize state text = (terminalSieve.after state text, terminalSieve.kept state text) := by
  induction text generalizing state with
  | nil => rfl
  | cons char text ih =>
    simp only [sanitize, ih, consumed_text, Sieve.after_cons, Sieve.kept]
    split <;> rfl

/-! ### Masked, then sanitized -/

/-- One output stream of a command: its masker, its sanitizer, and what was
written to the terminal. -/
structure OutputForwarder where
  masker : StreamMasker UInt16 := {}
  sanitizer : TerminalSanitizerState := .text
  shown : CodeUnits := []
deriving DecidableEq, Repr

namespace OutputForwarder

/-- The masker moves on, and what it writes goes through the sanitizer. -/
def write (silent : Bool) (forwarder : OutputForwarder) (masker : StreamMasker UInt16) :
    OutputForwarder :=
  if silent then { forwarder with masker }
  else
    let text := masker.written.drop forwarder.masker.written.length
    let sanitized := sanitize forwarder.sanitizer text
    { masker, sanitizer := sanitized.1, shown := forwarder.shown ++ sanitized.2 }

def push (secrets : PreparedSecrets) (silent : Bool) (forwarder : OutputForwarder)
    (chunk : CodeUnits) : OutputForwarder :=
  forwarder.write silent (forwarder.masker.push id REDACTED secrets chunk)

/-- The masker's rest is written, then the sanitizer starts anew. -/
def drain (secrets : PreparedSecrets) (silent : Bool) (forwarder : OutputForwarder) :
    OutputForwarder :=
  { forwarder.write silent (forwarder.masker.flush id REDACTED secrets) with
    sanitizer := .text }

/-- What is shown is what the sanitizer leaves of what the masker wrote. -/
structure Follows (silent : Bool) (forwarder : OutputForwarder) : Prop where
  sanitizer : silent = false →
    forwarder.sanitizer = terminalSieve.after .text forwarder.masker.written
  shown : forwarder.shown =
    if silent then [] else terminalSieve.kept .text forwarder.masker.written

theorem follows_initial (silent : Bool) : Follows silent {} where
  sanitizer _ := rfl
  shown := by
    cases silent with
    | false => rfl
    | true => rfl

theorem Follows.write {silent : Bool} {forwarder : OutputForwarder}
    (follows : Follows silent forwarder) {masker : StreamMasker UInt16} {text : CodeUnits}
    (extended : masker.written = forwarder.masker.written ++ text) :
    Follows silent (forwarder.write silent masker) ∧
      (forwarder.write silent masker).masker = masker := by
  cases silent with
  | true =>
    refine ⟨⟨?_, follows.shown⟩, rfl⟩
    intro notSilent
    cases notSilent
  | false =>
    refine ⟨⟨?_, ?_⟩, rfl⟩
    · intro _
      simp only [OutputForwarder.write, sanitize_eq, Bool.false_eq_true, if_false, extended,
        List.drop_left, Sieve.after_append, follows.sanitizer]
    · simp only [OutputForwarder.write, sanitize_eq, Bool.false_eq_true, if_false, extended,
        List.drop_left, Sieve.kept_append, follows.sanitizer, follows.shown]

end OutputForwarder

/-- What one stream of a command shows on the terminal. -/
def terminalOutput (secrets : PreparedSecrets) (silent : Bool) (chunks : List CodeUnits) :
    CodeUnits :=
  ((chunks.foldl (OutputForwarder.push secrets silent) {}).drain secrets silent).shown

theorem StreamMasker.push_written (secrets : PreparedSecrets) (masker : StreamMasker UInt16)
    (chunk : CodeUnits) : ∃ text,
      (masker.push id REDACTED secrets chunk).written = masker.written ++ text := by
  simp only [StreamMasker.push]
  split
  · exact ⟨_, rfl⟩
  · split
    · exact ⟨[], (List.append_nil _).symm⟩
    · split
      · exact ⟨[], (List.append_nil _).symm⟩
      · exact ⟨_, rfl⟩

theorem follows_pushes (secrets : PreparedSecrets) (silent : Bool) (chunks : List CodeUnits)
    {forwarder : OutputForwarder} (follows : forwarder.Follows silent) :
    (chunks.foldl (OutputForwarder.push secrets silent) forwarder).Follows silent ∧
      (chunks.foldl (OutputForwarder.push secrets silent) forwarder).masker =
        StreamMasker.pushAll id REDACTED secrets forwarder.masker chunks := by
  induction chunks generalizing forwarder with
  | nil => exact ⟨follows, rfl⟩
  | cons chunk chunks ih =>
    obtain ⟨text, extended⟩ := StreamMasker.push_written secrets forwarder.masker chunk
    obtain ⟨pushed, maskerEq⟩ := follows.write extended
    obtain ⟨all, allEq⟩ := ih pushed
    refine ⟨all, ?_⟩
    rw [List.foldl_cons, OutputForwarder.push, allEq, maskerEq]
    rfl

/-- The terminal shows the sanitized output of the stream masker. -/
theorem terminalOutput_eq (secrets : PreparedSecrets) (silent : Bool)
    (chunks : List CodeUnits) : terminalOutput secrets silent chunks = if silent then []
      else terminalSieve.kept .text (streamMask id REDACTED secrets chunks) := by
  obtain ⟨follows, maskerEq⟩ :=
    follows_pushes secrets silent chunks (OutputForwarder.follows_initial silent)
  obtain ⟨drained, drainedEq⟩ := follows.write
    (StreamMasker.flush_written id REDACTED secrets _)
  rw [terminalOutput, OutputForwarder.drain]
  rw [drained.shown, drainedEq, maskerEq]
  rfl

/-! ### What the masker leaves of the remote text -/

section Redacted

variable {secrets : PreparedSecrets}

/-- Masking what is held back replaces occurrences of variants in the remote
text, also where it was masked before. -/
theorem redacts_mask (apart : ∀ variant ∈ secrets.variants, Apart variant REDACTED)
    {masker : StreamMasker UInt16} (withheld : Withheld id secrets masker) {text chunk : CodeUnits}
    (redacts : Redacts secrets.variants REDACTED text (masker.written ++ masker.pending)) :
    Redacts secrets.variants REDACTED (text ++ chunk)
      (masker.written ++ mask id REDACTED secrets (masker.pending ++ chunk)) := by
  have valueApart : ∀ variant ∈ secrets.variants, Apart variant (REDACTED.map id) := by
    rw [List.map_id]
    exact apart
  have extended := redacts.append (Redacts.refl chunk)
  have masked := extended.replaceEach (fun _ member => member) apart
  rw [List.append_assoc, replaceEach_append_of_not_startsIn valueApart] at masked
  · exact masked
  · intro variant member more
    rw [List.map_append, List.append_assoc]
    exact withheld.notStarting variant member _

theorem redacts_push (apart : ∀ variant ∈ secrets.variants, Apart variant REDACTED)
    {masker : StreamMasker UInt16} (withheld : Withheld id secrets masker)
    {text : CodeUnits} (chunk : CodeUnits)
    (redacts : Redacts secrets.variants REDACTED text (masker.written ++ masker.pending)) :
    Redacts secrets.variants REDACTED (text ++ chunk)
      ((masker.push id REDACTED secrets chunk).written ++
        (masker.push id REDACTED secrets chunk).pending) := by
  rcases StreamMasker.push_cases id REDACTED secrets chunk withheld.idle with
    ⟨_, _, afterEq⟩ | ⟨_, front, maskedEq, writtenEq, _⟩
  · rw [afterEq, ← List.append_assoc]
    exact redacts.append (Redacts.refl chunk)
  · rw [writtenEq, List.append_assoc, ← maskedEq]
    exact redacts_mask apart withheld redacts

theorem redacts_pushAll (apart : ∀ variant ∈ secrets.variants, Apart variant REDACTED)
    (chunks : List CodeUnits) {masker : StreamMasker UInt16}
    (withheld : Withheld id secrets masker) {text : CodeUnits}
    (redacts : Redacts secrets.variants REDACTED text (masker.written ++ masker.pending)) :
    Redacts secrets.variants REDACTED (text ++ chunks.flatten)
      ((masker.pushAll id REDACTED secrets chunks).written ++
        (masker.pushAll id REDACTED secrets chunks).pending) := by
  have valueApart : ∀ variant ∈ secrets.variants, Apart variant (REDACTED.map id) := by
    rw [List.map_id]
    exact apart
  induction chunks generalizing masker text with
  | nil =>
    rw [List.flatten_nil, List.append_nil]
    exact redacts
  | cons chunk chunks ih =>
    rw [List.flatten_cons, ← List.append_assoc]
    exact ih (withheld.push valueApart chunk)
      (redacts_push apart withheld chunk redacts)

/-- The stream masker only ever replaces occurrences of variants in the remote
text. -/
theorem streamMask_redacts (apart : ∀ variant ∈ secrets.variants, Apart variant REDACTED)
    (chunks : List CodeUnits) :
    Redacts secrets.variants REDACTED chunks.flatten (streamMask id REDACTED secrets chunks) := by
  have valueApart : ∀ variant ∈ secrets.variants, Apart variant (REDACTED.map id) := by
    rw [List.map_id]
    exact apart
  have started : Withheld id secrets ({} : StreamMasker UInt16) := .initial
  have pushed := redacts_pushAll apart chunks started .done
  have flushed := @redacts_mask _ apart _ (started.pushAll valueApart chunks) _ [] pushed
  rw [streamMask, StreamMasker.flush_written]
  rw [List.nil_append, List.append_nil, List.append_nil] at flushed
  exact flushed

end Redacted

/-! ### What is shown -/

/-- What the sanitizer shows of the masked text holds a variant only where the
remote text spells it with an escape sequence or a control character inside. -/
theorem terminalOutput_hides_variant {prepared : PreparedSecrets}
    (apart : ∀ variant ∈ prepared.variants, Apart variant REDACTED) (silent : Bool)
    {chunks : List CodeUnits}
    (undisturbed : terminalSieve.Undisturbed .text prepared.variants REDACTED chunks.flatten)
    {variant : CodeUnits} (member : variant ∈ prepared.variants)
    (found : variant <:+: terminalOutput prepared silent chunks) :
    terminalSieve.Interrupted .text variant chunks.flatten := by
  have valueApart : ∀ variant ∈ prepared.variants, Apart variant (REDACTED.map id) := by
    rw [List.map_id]
    exact apart
  rw [terminalOutput_eq] at found
  split at found
  · exact absurd (List.infix_nil.1 found) (apart _ member).pattern_ne_nil
  · rcases Sieve.infix_kept_redacted (apart _ member) (streamMask_redacts apart chunks)
      (fun other isOther => (apart other isOther).pattern_ne_nil) undisturbed found with
      inMasked | interrupted
    · have free := streamMask_free valueApart chunks _ member
      rw [List.map_id] at free
      exact absurd inMasked free
    · exact interrupted

theorem kept_controlled {state : TerminalSanitizerState} {text : CodeUnits} {unit : UInt16}
    (shown : unit ∈ terminalSieve.kept state text) :
    isControlByte unit.toNat = false ∨ isAllowedTextControl unit.toNat = true := by
  induction text generalizing state with
  | nil => cases shown
  | cons char text ih =>
    rw [Sieve.kept] at shown
    split at shown
    · next keeps =>
      rcases List.mem_cons.1 shown with rfl | later
      · cases state <;> grind [terminalSieve, consumeTerminalChar, consumeTextState]
      · exact ih later
    · exact ih shown

end Paratix.Masking
