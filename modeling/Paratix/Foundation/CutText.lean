/-
Module: Paratix.Foundation.CutText
Purpose: A text cut at what was found in it, and when exchanging all finds for one word leaves
  the text as it is.
Main exports: CutText, CutText.exchanged_eq_text_iff
-/
import Mathlib.Algebra.GroupWithZero.Nat
import Mathlib.Data.List.Basic

namespace Foundation

variable {α : Type*}

/-- The finds with what stands before each, and what stands behind the last one. -/
structure CutText (α : Type*) where
  pieces : List (List α × List α)
  rest : List α
deriving DecidableEq

namespace CutText

/-- The text that was cut. -/
def text (cut : CutText α) : List α :=
  (cut.pieces.flatMap fun piece => piece.1 ++ piece.2) ++ cut.rest

/-- The text with a word in the place of each find. -/
def exchanged (word : List α) (cut : CutText α) : List α :=
  (cut.pieces.flatMap fun piece => piece.1 ++ word) ++ cut.rest

/-- Every find is the word. -/
def AllAre (word : List α) (cut : CutText α) : Prop := ∀ piece ∈ cut.pieces, piece.2 = word

instance [DecidableEq α] (word : List α) (cut : CutText α) : Decidable (cut.AllAre word) :=
  inferInstanceAs (Decidable (∀ piece ∈ cut.pieces, piece.2 = word))

/-- One find is longer than the word and another one shorter. -/
def Uneven (word : List α) (cut : CutText α) : Prop :=
  (∃ piece ∈ cut.pieces, word.length < piece.2.length) ∧
    ∃ piece ∈ cut.pieces, piece.2.length < word.length

variable {word : List α} {pieces : List (List α × List α)}

/-! ### Lengths -/

/-- The lengths of the finds, added up. -/
def findsLength (pieces : List (List α × List α)) : Nat :=
  (pieces.map fun piece => piece.2.length).sum

theorem findsLength_cons (piece : List α × List α) (pieces : List (List α × List α)) :
    findsLength (piece :: pieces) = piece.2.length + findsLength pieces := by
  rw [findsLength, List.map_cons, List.sum_cons]
  rfl

theorem length_exchanged (word : List α) (pieces : List (List α × List α)) (rest : List α) :
    (exchanged word ⟨pieces, rest⟩).length + findsLength pieces =
      (text ⟨pieces, rest⟩).length + pieces.length * word.length := by
  simp only [exchanged, text, List.length_append]
  induction pieces with
  | nil => simp [findsLength]
  | cons piece pieces ih =>
    simp only [List.flatMap_cons, List.length_append, findsLength_cons, List.length_cons,
      Nat.add_mul, Nat.one_mul]
    omega

theorem findsLength_le (short : ∀ piece ∈ pieces, piece.2.length ≤ word.length) :
    findsLength pieces ≤ pieces.length * word.length := by
  induction pieces with
  | nil => exact Nat.zero_le _
  | cons piece pieces ih =>
    rw [List.forall_mem_cons] at short
    have rest := ih short.2
    rw [findsLength_cons, List.length_cons, Nat.add_mul, Nat.one_mul]
    omega

theorem le_findsLength (long : ∀ piece ∈ pieces, word.length ≤ piece.2.length) :
    pieces.length * word.length ≤ findsLength pieces := by
  induction pieces with
  | nil => exact Nat.le_of_eq (Nat.zero_mul _)
  | cons piece pieces ih =>
    rw [List.forall_mem_cons] at long
    have rest := ih long.2
    rw [findsLength_cons, List.length_cons, Nat.add_mul, Nat.one_mul]
    omega

/-- Finds that are as long as so many words in sum, none longer than the word or none shorter,
are all as long as the word. -/
theorem lengths_eq (even : (∀ piece ∈ pieces, piece.2.length ≤ word.length) ∨
      ∀ piece ∈ pieces, word.length ≤ piece.2.length)
    (sum : findsLength pieces = pieces.length * word.length) :
    ∀ piece ∈ pieces, piece.2.length = word.length := by
  induction pieces with
  | nil => exact nofun
  | cons piece pieces ih =>
    rw [List.forall_mem_cons, List.forall_mem_cons] at even
    rw [findsLength_cons, List.length_cons, Nat.add_mul, Nat.one_mul] at sum
    rw [List.forall_mem_cons]
    rcases even with ⟨here, rest⟩ | ⟨here, rest⟩
    · have bound := findsLength_le rest
      exact ⟨by omega, ih (.inl rest) (by omega)⟩
    · have bound := le_findsLength rest
      exact ⟨by omega, ih (.inr rest) (by omega)⟩

/-! ### Exchanging -/

theorem exchanged_of_allAre {cut : CutText α} (allAre : cut.AllAre word) :
    cut.exchanged word = cut.text := by
  rw [exchanged, text]
  congr 1
  refine List.flatMap_congr fun piece mem => ?_
  rw [allAre piece mem]

/-- Finds of the word's length are the word where exchanging them changes nothing. -/
theorem allAre_of_lengths {rest : List α} (lengths : ∀ piece ∈ pieces, piece.2.length = word.length)
    (same : exchanged word ⟨pieces, rest⟩ = text ⟨pieces, rest⟩) :
    ∀ piece ∈ pieces, piece.2 = word := by
  induction pieces with
  | nil => exact nofun
  | cons piece pieces ih =>
    rw [List.forall_mem_cons] at lengths ⊢
    simp only [exchanged, text, List.flatMap_cons, List.append_assoc] at same
    have behind := List.append_cancel_left same
    obtain ⟨isWord, others⟩ := List.append_inj behind lengths.1.symm
    exact ⟨isWord.symm, ih lengths.2 others⟩

/-- Exchanging the finds for a word changes nothing exactly where each of them is the word, or
where longer and shorter ones even out. -/
theorem exchanged_eq_text_iff (word : List α) (cut : CutText α) : cut.exchanged word = cut.text ↔
      cut.AllAre word ∨ cut.Uneven word ∧ cut.exchanged word = cut.text := by
  constructor
  · intro same
    by_cases uneven : cut.Uneven word
    · exact .inr ⟨uneven, same⟩
    · have sum : (cut.exchanged word).length + findsLength cut.pieces =
          cut.text.length + cut.pieces.length * word.length :=
        length_exchanged word cut.pieces cut.rest
      have total := congrArg List.length same
      have even : (∀ piece ∈ cut.pieces, piece.2.length ≤ word.length) ∨
          ∀ piece ∈ cut.pieces, word.length ≤ piece.2.length := by
        rw [Uneven, not_and_or] at uneven
        simpa only [not_exists, not_and, Nat.not_lt] using uneven
      exact .inl (allAre_of_lengths (lengths_eq even (by omega)) same)
  · rintro (allAre | ⟨_, same⟩)
    · exact exchanged_of_allAre allAre
    · exact same

end CutText

end Foundation
