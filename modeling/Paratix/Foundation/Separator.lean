/-
Module: Paratix.Foundation.Separator
Purpose: Cutting a text at the first occurrence of a separator, and where a
  separator can occur in a text that was joined with it.
Main exports: cutFirst, LoneBorder.cut_join_cases
-/
import Mathlib.Data.List.Infix

namespace Foundation

variable {α : Type*} [DecidableEq α]

/-- The texts before and after the first occurrence of `word`. -/
def cutFirst (word : List α) : List α → Option (List α × List α)
  | [] => if word = [] then some ([], []) else none
  | head :: tail =>
      if word <+: head :: tail then some ([], (head :: tail).drop word.length)
      else (cutFirst word tail).map fun cut => (head :: cut.1, cut.2)

theorem cutFirst_eq_none_iff {word text : List α} :
    cutFirst word text = none ↔ ¬ word <:+: text := by
  induction text with
  | nil =>
    rw [cutFirst, List.infix_nil]
    split <;> simp_all
  | cons head tail ih =>
    rw [cutFirst, List.infix_cons_iff]
    by_cases here : word <+: head :: tail
    · simp [here]
    · simp [here, ih]

theorem cutFirst_spec {word text front back : List α}
    (cut : cutFirst word text = some (front, back)) : text = front ++ (word ++ back) ∧
      ∀ otherFront otherBack, text = otherFront ++ (word ++ otherBack) →
        front.length ≤ otherFront.length := by
  induction text generalizing front with
  | nil =>
    rw [cutFirst] at cut
    split at cut
    · next wordNil =>
        cases cut
        exact ⟨by simp [wordNil], fun _ _ _ => Nat.zero_le _⟩
    · cases cut
  | cons head tail ih =>
    rw [cutFirst] at cut
    split at cut
    · next here =>
        cases cut
        exact ⟨(List.prefix_iff_eq_append.1 here).symm, fun _ _ _ => Nat.zero_le _⟩
    · next notHere =>
        obtain ⟨⟨inner, innerBack⟩, innerCut, cutEq⟩ := Option.map_eq_some_iff.1 cut
        cases cutEq
        obtain ⟨tailEq, first⟩ := ih innerCut
        refine ⟨by rw [tailEq, List.cons_append], fun otherFront otherBack textEq => ?_⟩
        cases otherFront with
        | nil => exact absurd ⟨otherBack, textEq.symm⟩ notHere
        | cons otherHead otherTail =>
          obtain ⟨rfl, tailEq⟩ := List.cons_eq_cons.1 textEq
          exact Nat.succ_le_succ (first otherTail otherBack tailEq)

/-- A cell that does not occur before is cut at. -/
theorem cutFirst_singleton {cell : α} {front : List α} (absent : cell ∉ front)
    (back : List α) : cutFirst [cell] (front ++ cell :: back) = some (front, back) := by
  induction front with
  | nil => simp [cutFirst]
  | cons head front ih =>
    obtain ⟨different, absent⟩ := not_or.1 (mt List.mem_cons.2 absent)
    rw [List.cons_append, cutFirst, if_neg, ih absent]
    · rfl
    · intro isPrefix
      exact different (List.cons_prefix_cons.1 isPrefix).1

omit [DecidableEq α]

/-- The word stands in the text twice, with no cell in common. -/
def TwoApart (word text : List α) : Prop :=
  ∃ front gap back, text = front ++ (word ++ (gap ++ (word ++ back)))

theorem TwoApart.isInfix {word text : List α} (apart : TwoApart word text) :
    word <:+: text := by
  obtain ⟨front, gap, back, rfl⟩ := apart
  exact ⟨front, gap ++ (word ++ back), by simp⟩

/-- The text is cut at the first occurrence of the separator and there is none
after it. -/
structure CutsAt (separator text front back : List α) : Prop where
  textEq : text = front ++ (separator ++ back)
  first : ∀ otherFront otherBack, text = otherFront ++ (separator ++ otherBack) →
    front.length ≤ otherFront.length
  last : ¬ separator <:+: back

namespace CutsAt

variable {separator text front back : List α}

theorem isInfix (cut : CutsAt separator text front back) : separator <:+: text :=
  ⟨front, back, by rw [cut.textEq, List.append_assoc]⟩

/-- Two separators apart leave one after the first cut. -/
theorem not_twoApart (cut : CutsAt separator text front back) :
    ¬ TwoApart separator text := by
  rintro ⟨otherFront, gap, otherBack, textEq⟩
  have early := cut.first otherFront _ textEq
  apply cut.last
  have texts : (front ++ separator) ++ back =
      (otherFront ++ (separator ++ gap)) ++ (separator ++ otherBack) := by
    rw [List.append_assoc, ← cut.textEq, textEq]
    simp
  have isPrefix : front ++ separator <+: otherFront ++ (separator ++ gap) := by
    apply List.prefix_of_prefix_length_le ⟨back, rfl⟩ ⟨separator ++ otherBack, texts.symm⟩
    simp only [List.length_append]
    omega
  obtain ⟨more, moreEq⟩ := isPrefix
  rw [← moreEq, List.append_assoc (front ++ separator)] at texts
  exact ⟨more, otherBack, by rw [List.append_cancel_left texts, List.append_assoc]⟩

end CutsAt

/-- Two occurrences of the word overlap in one cell at most: the word begins and
ends alike in its outermost cells only. -/
structure LoneBorder (word : List α) : Prop where
  long : 2 ≤ word.length
  ends : word.head? = word.getLast?
  border : ∀ size < word.length, 2 ≤ size →
    word.take size ≠ word.drop (word.length - size)

instance (word : List α) : Decidable (LoneBorder word) :=
  decidable_of_iff (2 ≤ word.length ∧ word.head? = word.getLast? ∧
    ∀ size < word.length, 2 ≤ size → word.take size ≠ word.drop (word.length - size))
    ⟨fun all => ⟨all.1, all.2.1, all.2.2⟩, fun lone => ⟨lone.1, lone.2, lone.3⟩⟩

namespace LoneBorder

/-- A proper end of the word that is also a beginning is its last cell. -/
theorem end_eq {word init shared : List α} (lone : LoneBorder word)
    (wordEq : word = init ++ shared) (nonempty : shared ≠ []) (initNonempty : init ≠ [])
    (isPrefix : shared <+: word) : init = word.dropLast := by
  have shorter : shared.length < word.length := by
    have := List.length_pos_of_ne_nil initNonempty
    rw [wordEq, List.length_append]
    omega
  have single : shared.length = 1 := by
    by_contra notOne
    have two : 2 ≤ shared.length := by
      have := List.length_pos_of_ne_nil nonempty
      omega
    apply lone.border shared.length shorter two
    have dropped : word.drop (word.length - shared.length) = shared := by
      rw [wordEq, List.length_append, Nat.add_sub_cancel, List.drop_left]
    rw [dropped, ← List.prefix_iff_eq_take.1 isPrefix]
  obtain ⟨cell, rfl⟩ := List.length_eq_one_iff.1 single
  rw [wordEq, List.dropLast_concat]

/-- An occurrence that starts no later than another one is that one, meets it in
one cell, or ends before it. -/
theorem earlier_cases {word left right front back : List α} (lone : LoneBorder word)
    (texts : left ++ (word ++ right) = front ++ (word ++ back))
    (early : front.length ≤ left.length) :
    front = left ∨ left = front ++ word.dropLast ∨ ∃ gap, left = front ++ (word ++ gap) := by
  have isPrefix : front <+: left :=
    List.prefix_of_prefix_length_le ⟨word ++ back, texts.symm⟩ ⟨word ++ right, rfl⟩ early
  obtain ⟨gap, rfl⟩ := isPrefix
  rw [List.append_assoc] at texts
  have meeting := List.append_cancel_left texts
  by_cases gapNil : gap = []
  · exact Or.inl (by simp [gapNil])
  · apply Or.inr
    rcases List.append_eq_append_iff.1 meeting with
      ⟨shared, wordEq, tailEq⟩ | ⟨rest, gapEq, _⟩
    · by_cases sharedNil : shared = []
      · exact Or.inr ⟨[], by simp [wordEq, sharedNil]⟩
      · apply Or.inl
        have sharedPrefix : shared <+: word := by
          apply List.prefix_of_prefix_length_le ⟨back, rfl⟩ ⟨right, tailEq⟩
          rw [wordEq, List.length_append]
          omega
        rw [← lone.end_eq wordEq sharedNil gapNil sharedPrefix]
    · exact Or.inr ⟨rest, by rw [gapEq]⟩

/-- Where the word occurs in `left ++ word ++ right`: between the two, inside one
of them, or sharing one cell with the word between them. -/
theorem occurrence_cases {word left right front back : List α} (lone : LoneBorder word)
    (texts : left ++ (word ++ right) = front ++ (word ++ back)) :
    front = left ∨ left = front ++ word.dropLast ∨ (∃ gap, left = front ++ (word ++ gap)) ∨
      right = word.tail ++ back ∨ ∃ gap, right = gap ++ (word ++ back) := by
  rcases Nat.le_total front.length left.length with early | late
  · rcases lone.earlier_cases texts early with same | meets | inside
    · exact Or.inl same
    · exact Or.inr (Or.inl meets)
    · exact Or.inr (Or.inr (Or.inl inside))
  · rcases lone.earlier_cases texts.symm late with same | meets | ⟨gap, inside⟩
    · exact Or.inl same.symm
    · apply Or.inr ∘ Or.inr ∘ Or.inr ∘ Or.inl
      rw [meets, List.append_assoc] at texts
      have wordNonempty : word ≠ [] := by
        have := lone.long
        exact List.ne_nil_of_length_pos (by omega)
      have ends : word = word.dropLast ++ [word.getLast wordNonempty] :=
        (List.dropLast_append_getLast wordNonempty).symm
      have meeting := List.append_cancel_left texts
      nth_rewrite 1 [ends] at meeting
      rw [List.append_assoc] at meeting
      have rightEq := List.append_cancel_left meeting
      cases word with
      | nil => exact absurd rfl wordNonempty
      | cons head tail => exact (List.cons_eq_cons.1 rightEq).2
    · apply Or.inr ∘ Or.inr ∘ Or.inr ∘ Or.inr
      rw [inside, List.append_assoc] at texts
      have rightEq := List.append_cancel_left texts
      rw [List.append_assoc] at rightEq
      exact ⟨gap, List.append_cancel_left rightEq⟩

theorem dropLast_concat {word : List α} (lone : LoneBorder word) :
    ∃ edge middle, word = edge :: (middle ++ [edge]) ∧
      word.dropLast = edge :: middle ∧ word.tail = middle ++ [edge] := by
  obtain ⟨edge, tail, rfl⟩ : ∃ edge tail, word = edge :: tail :=
    List.exists_cons_of_length_pos (Nat.lt_of_lt_of_le Nat.zero_lt_two lone.long)
  have tailNonempty : tail ≠ [] := by
    rintro rfl
    have long := lone.long
    simp at long
  have last : tail.getLast tailNonempty = edge := by
    have ends := lone.ends
    rw [List.head?_cons, List.getLast?_cons_of_ne_nil tailNonempty,
      List.getLast?_eq_some_getLast tailNonempty] at ends
    exact (Option.some.inj ends).symm
  have tailEq : tail = tail.dropLast ++ [edge] := by
    rw [← last, List.dropLast_append_getLast]
  refine ⟨edge, tail.dropLast, by rw [← tailEq], ?_, tailEq⟩
  rw [List.dropLast_cons_of_ne_nil tailNonempty]

/-- How far from the joint an occurrence can be when it lies in neither part. -/
theorem seam_cases {word left right front back : List α} (lone : LoneBorder word)
    (notLeft : ¬ word <:+: left) (notRight : ¬ word <:+: right)
    (texts : left ++ (word ++ right) = front ++ (word ++ back)) : front = left ∨
      (word.dropLast <:+ left ∧ front.length + word.length = left.length + 1) ∨
      (word.tail <+: right ∧ front.length + 1 = left.length + word.length) := by
  have long := lone.long
  have lengths := congrArg List.length texts
  simp only [List.length_append] at lengths
  rcases lone.occurrence_cases texts with same | meets | ⟨gap, inside⟩ | meets | ⟨gap, inside⟩
  · exact Or.inl same
  · apply Or.inr ∘ Or.inl
    have size := congrArg List.length meets
    simp only [List.length_append, List.length_dropLast] at size
    exact ⟨⟨front, meets.symm⟩, by omega⟩
  · exact absurd ⟨front, gap, by rw [inside, List.append_assoc]⟩ notLeft
  · apply Or.inr ∘ Or.inr
    have size := congrArg List.length meets
    simp only [List.length_append, List.length_tail] at size
    exact ⟨⟨back, meets.symm⟩, by omega⟩
  · exact absurd ⟨gap, back, by rw [inside, List.append_assoc]⟩ notRight

/-- When a text joined with the word holds the word twice apart. -/
theorem twoApart_join_iff {word left right : List α} (lone : LoneBorder word) :
    TwoApart word (left ++ (word ++ right)) ↔
      word <:+: left ∨ word <:+: right ∨ (word.dropLast <:+ left ∧ word.tail <+: right) := by
  constructor
  · rintro ⟨front, gap, back, texts⟩
    by_cases inLeft : word <:+: left
    · exact Or.inl inLeft
    by_cases inRight : word <:+: right
    · exact Or.inr (Or.inl inRight)
    apply Or.inr ∘ Or.inr
    have long := lone.long
    have later : left ++ (word ++ right) =
        (front ++ (word ++ gap)) ++ (word ++ back) := by
      rw [texts]
      simp
    have secondSize : (front ++ (word ++ gap)).length =
        front.length + word.length + gap.length := by
      simp only [List.length_append]
      omega
    rcases lone.seam_cases inLeft inRight texts with rfl | ⟨ends, size⟩ | ⟨begins, size⟩ <;>
      rcases lone.seam_cases inLeft inRight later with same | ⟨ends', size'⟩ | ⟨begins', size'⟩
    · have := congrArg List.length same
      omega
    · omega
    · omega
    · have := congrArg List.length same
      omega
    · omega
    · exact ⟨ends, begins'⟩
    · have := congrArg List.length same
      omega
    · omega
    · omega
  · rintro (⟨front, gap, rfl⟩ | ⟨gap, back, rfl⟩ | ⟨⟨front, rfl⟩, ⟨back, rfl⟩⟩)
    · exact ⟨front, gap, right, by simp⟩
    · exact ⟨left, gap, back, by simp⟩
    · obtain ⟨edge, middle, wordEq, initEq, tailEq⟩ := lone.dropLast_concat
      refine ⟨front, middle, back, ?_⟩
      rw [initEq, tailEq, wordEq]
      simp

/-- When a text joined with the word holds the word at another place as well. -/
theorem other_occurrence_iff {word left right : List α} (lone : LoneBorder word) :
    (∃ front back, left ++ (word ++ right) = front ++ (word ++ back) ∧ front ≠ left) ↔
      word <:+: left ∨ word <:+: right ∨ word.dropLast <:+ left ∨ word.tail <+: right := by
  have long := lone.long
  constructor
  · rintro ⟨front, back, texts, different⟩
    by_cases inLeft : word <:+: left
    · exact Or.inl inLeft
    by_cases inRight : word <:+: right
    · exact Or.inr (Or.inl inRight)
    rcases lone.seam_cases inLeft inRight texts with same | ⟨ends, _⟩ | ⟨begins, _⟩
    · exact absurd same different
    · exact Or.inr (Or.inr (Or.inl ends))
    · exact Or.inr (Or.inr (Or.inr begins))
  · obtain ⟨edge, middle, wordEq, initEq, tailEq⟩ := lone.dropLast_concat
    rintro (⟨front, gap, leftEq⟩ | ⟨gap, back, rightEq⟩ | ⟨front, leftEq⟩ | ⟨back, rightEq⟩)
    · refine ⟨front, gap ++ (word ++ right), by simp [← leftEq], fun same => ?_⟩
      have size := congrArg List.length leftEq
      simp only [same, List.length_append] at size
      omega
    · refine ⟨left ++ (word ++ gap), back, by simp [← rightEq], fun same => ?_⟩
      have size := congrArg List.length same
      simp only [List.length_append] at size
      omega
    · refine ⟨front, word.tail ++ right, ?_, fun same => ?_⟩
      · rw [← leftEq, initEq, tailEq, wordEq]
        simp
      · have size := congrArg List.length leftEq
        rw [same, initEq] at size
        simp at size
    · refine ⟨left ++ word.dropLast, back, ?_, fun same => ?_⟩
      · rw [← rightEq, initEq, tailEq, wordEq]
        simp
      · have size := congrArg List.length same
        rw [initEq] at size
        simp at size

/-- A cut of a joined text is at the joint, or in front of it where the left
part ends like the word. -/
theorem cut_join_cases {word left right front back : List α} (lone : LoneBorder word)
    (cut : CutsAt word (left ++ (word ++ right)) front back) : (front = left ∧ back = right) ∨
      (word.dropLast <:+ left ∧ front.length < left.length) := by
  have notApart := mt lone.twoApart_join_iff.2 cut.not_twoApart
  simp only [not_or] at notApart
  have long := lone.long
  have early := cut.first left right rfl
  rcases lone.seam_cases notApart.1 notApart.2.1 cut.textEq with
    rfl | ⟨ends, size⟩ | ⟨begins, size⟩
  · have backEq := List.append_cancel_left (List.append_cancel_left cut.textEq)
    exact Or.inl ⟨rfl, backEq.symm⟩
  · exact Or.inr ⟨ends, by omega⟩
  · omega

end LoneBorder

end Foundation
