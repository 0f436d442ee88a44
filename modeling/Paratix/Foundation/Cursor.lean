/-
Module: Paratix.Foundation.Cursor
Purpose: Readers that advance over cells and may fail, and the grammars that they read exactly.
Main exports: Cursor, readWhile_iff
-/
import Mathlib.Data.List.Forall2
import Paratix.Foundation.Result

namespace Foundation

/-- A position in a row of cells. -/
@[ext] structure Cursor (α : Type) where
  data : List α
  offset : Nat
  inside : offset ≤ data.length

abbrev Reading (ε α β : Type) : Type := StateT (Cursor α) (Except ε) β

namespace Cursor

variable {α : Type}

/-- The position before the first cell. -/
def start (data : List α) : Cursor α := ⟨data, 0, Nat.zero_le _⟩

/-- What has not been read. -/
def rest (cursor : Cursor α) : List α := cursor.data.drop cursor.offset

def atEnd (cursor : Cursor α) : Bool := cursor.offset = cursor.data.length

@[simp] theorem rest_start (data : List α) : (start data).rest = data := rfl

theorem length_rest (cursor : Cursor α) :
    cursor.rest.length = cursor.data.length - cursor.offset := List.length_drop

theorem atEnd_iff {cursor : Cursor α} : cursor.atEnd = true ↔ cursor.rest = [] := by
  have inside := cursor.inside
  rw [atEnd, decide_eq_true_eq, rest, List.drop_eq_nil_iff]
  omega

end Cursor

section Consuming

variable {α : Type} {before middle after : Cursor α} {cells front back : List α}

/-- The cells are the next ones, and the position is behind them. -/
structure Consumes (before : Cursor α) (cells : List α) (after : Cursor α) : Prop where
  data : after.data = before.data
  offset : after.offset = before.offset + cells.length
  next : before.rest = cells ++ after.rest

theorem Consumes.nil (cursor : Cursor α) : Consumes cursor [] cursor := ⟨rfl, rfl, rfl⟩

theorem consumes_nil_iff : Consumes before [] after ↔ after = before := by
  constructor
  · intro consumed
    exact Cursor.ext consumed.data consumed.offset
  · rintro rfl
    exact Consumes.nil after

theorem Consumes.trans (first : Consumes before front middle)
    (second : Consumes middle back after) : Consumes before (front ++ back) after where
  data := second.data.trans first.data
  offset := by rw [second.offset, first.offset, List.length_append, Nat.add_assoc]
  next := by rw [first.next, second.next, List.append_assoc]

/-- The next cells can be consumed. -/
theorem exists_consumes {rest : List α} (next : before.rest = cells ++ rest) :
    ∃ after, Consumes before cells after ∧ after.rest = rest := by
  have inside : before.offset + cells.length ≤ before.data.length := by
    have length := congrArg List.length next
    have own := before.inside
    rw [Cursor.length_rest, List.length_append] at length
    omega
  have isRest : before.data.drop (before.offset + cells.length) = rest := by
    rw [← List.drop_drop]
    exact (congrArg (List.drop cells.length) next).trans List.drop_left
  refine ⟨⟨before.data, before.offset + cells.length, inside⟩, ⟨rfl, rfl, ?_⟩, isRest⟩
  rw [next, ← isRest]
  rfl

theorem Consumes.split (consumed : Consumes before (front ++ back) after) :
    ∃ middle, Consumes before front middle ∧ Consumes middle back after := by
  have next := consumed.next
  rw [List.append_assoc] at next
  obtain ⟨middle, first, isRest⟩ := exists_consumes next
  refine ⟨middle, first, consumed.data.trans first.data.symm, ?_, isRest⟩
  rw [consumed.offset, first.offset, List.length_append, Nat.add_assoc]

/-- What has been read grows by the cells. -/
theorem Consumes.take_offset_eq (consumed : Consumes before cells after) :
    after.data.take after.offset = before.data.take before.offset ++ cells := by
  rw [consumed.data, consumed.offset, List.take_add]
  exact congrArg _ ((congrArg (List.take cells.length) consumed.next).trans List.take_left)

end Consuming

/-! ### Grammars -/

section Grammars

variable {ε α β γ : Type}

/-- The reader succeeds exactly where the next cells are in the grammar, with the value that the
grammar has for them. -/
def Reads (read : Reading ε α β) (grammar : β → List α → Prop) : Prop :=
  ∀ before value after, read before = .ok (value, after) ↔
    ∃ cells, grammar value cells ∧ Consumes before cells after

theorem Reads.congr {read : Reading ε α β} {grammar other : β → List α → Prop}
    (reads : Reads read grammar) (same : ∀ value cells, grammar value cells ↔ other value cells) :
    Reads read other := by
  intro before value after
  rw [reads before value after]
  exact exists_congr fun cells => and_congr_left' (same value cells)

theorem bind_ok_iff {read : Reading ε α β} {next : β → Reading ε α γ} {before after : Cursor α}
    {value : γ} : (read >>= next) before = .ok (value, after) ↔
      ∃ first middle, read before = .ok (first, middle) ∧
        next first middle = .ok (value, after) := by
  constructor
  · intro succeeded
    cases first : read before with
    | error message =>
      have failed : (read >>= next) before = .error message := by
        show (read before >>= _) = _
        rw [first]
        rfl
      rw [failed] at succeeded
      cases succeeded
    | ok pair =>
      have continued : (read >>= next) before = next pair.1 pair.2 := by
        show (read before >>= _) = _
        rw [first]
        rfl
      rw [continued] at succeeded
      exact ⟨pair.1, pair.2, rfl, succeeded⟩
  · rintro ⟨first, middle, isFirst, succeeded⟩
    show (read before >>= _) = _
    rw [isFirst]
    exact succeeded

theorem Reads.bind {read : Reading ε α β} {next : β → Reading ε α γ}
    {grammar : β → List α → Prop} {nextGrammar : β → γ → List α → Prop}
    (reads : Reads read grammar) (readsNext : ∀ first, Reads (next first) (nextGrammar first)) :
    Reads (read >>= next) fun value cells => ∃ first front back,
      grammar first front ∧ nextGrammar first value back ∧ cells = front ++ back := by
  intro before value after
  rw [bind_ok_iff]
  constructor
  · rintro ⟨first, middle, isFirst, isNext⟩
    obtain ⟨front, inGrammar, consumed⟩ := (reads before first middle).1 isFirst
    obtain ⟨back, inNext, consumedNext⟩ := (readsNext first middle value after).1 isNext
    exact ⟨front ++ back, ⟨first, front, back, inGrammar, inNext, rfl⟩, consumed.trans consumedNext⟩
  · rintro ⟨_, ⟨first, front, back, inGrammar, inNext, rfl⟩, consumed⟩
    obtain ⟨middle, consumedFront, consumedBack⟩ := consumed.split
    exact ⟨first, middle, (reads before first middle).2 ⟨front, inGrammar, consumedFront⟩,
      (readsNext first middle value after).2 ⟨back, inNext, consumedBack⟩⟩

theorem Reads.pure (result : β) :
    Reads (pure result : Reading ε α β) fun value cells => value = result ∧ cells = [] := by
  intro before value after
  constructor
  · intro succeeded
    cases succeeded
    exact ⟨[], ⟨rfl, rfl⟩, Consumes.nil _⟩
  · rintro ⟨_, ⟨rfl, rfl⟩, consumed⟩
    rw [consumes_nil_iff.1 consumed]
    rfl

theorem Reads.throw (message : ε) :
    Reads (throw message : Reading ε α β) fun _ _ => False := by
  intro before value after
  refine iff_of_false nofun ?_
  rintro ⟨_, impossible, _⟩
  exact impossible

/-- A check that reads nothing. -/
theorem Reads.ite {condition : Prop} [Decidable condition] {first second : Reading ε α β}
    {grammar other : β → List α → Prop} (reads : Reads first grammar)
    (readsOther : Reads second other) :
    Reads (if condition then first else second) fun value cells =>
      if condition then grammar value cells else other value cells := by
  by_cases holds : condition
  · simpa only [if_pos holds] using reads
  · simpa only [if_neg holds] using readsOther

end Grammars

/-! ### Reading to the end -/

section While

variable {ε α β : Type}

/-- `while (offset < data.length) push(read())`, with a bound on the rounds. -/
def readWhile (read : Reading ε α β) : Nat → Cursor α → Except ε (List β)
  | 0, _ => .ok []
  | rounds + 1, cursor =>
      if cursor.atEnd then .ok []
      else do
        let (value, cursor) ← read cursor
        let values ← readWhile read rounds cursor
        return value :: values

theorem rows_of_nothing {grammar : β → List α → Prop}
    (nonempty : ∀ value cells, grammar value cells → cells ≠ []) {cells : List α}
    (nothing : cells = []) {values : List β} :
    values = [] ↔ ∃ rows, List.Forall₂ grammar values rows ∧ cells = rows.flatten := by
  constructor
  · rintro rfl
    exact ⟨[], .nil, nothing⟩
  · rintro ⟨rows, inGrammar, split⟩
    cases inGrammar with
    | nil => rfl
    | cons first =>
      rw [nothing, List.flatten_cons] at split
      exact absurd (List.append_eq_nil_iff.1 split.symm).1 (nonempty _ _ first)

/-- Where a value takes at least one cell, the cells are read as a row of values. -/
theorem readWhile_iff {read : Reading ε α β} {grammar : β → List α → Prop}
    (reads : Reads read grammar) (nonempty : ∀ value cells, grammar value cells → cells ≠ [])
    {rounds : Nat} {cursor : Cursor α} (enough : cursor.rest.length ≤ rounds) {values : List β} :
    readWhile read rounds cursor = .ok values ↔
      ∃ rows, List.Forall₂ grammar values rows ∧ cursor.rest = rows.flatten := by
  induction rounds generalizing cursor values with
  | zero =>
    have nothing := List.length_eq_zero_iff.1 (Nat.le_zero.1 enough)
    rw [readWhile, Except.ok.injEq, eq_comm]
    exact rows_of_nothing nonempty nothing
  | succ rounds ih =>
    rw [readWhile]
    by_cases atEnd : cursor.atEnd = true
    · rw [if_pos atEnd, Except.ok.injEq, eq_comm]
      exact rows_of_nothing nonempty (Cursor.atEnd_iff.1 atEnd)
    · rw [if_neg atEnd]
      -- the row behind the first value is shorter, so the rounds left are enough for it
      have shorter : ∀ value cells after, grammar value cells → Consumes cursor cells after →
          after.rest.length ≤ rounds := by
        intro value cells after inGrammar consumed
        have some := List.length_pos_iff.2 (nonempty value cells inGrammar)
        rw [consumed.next, List.length_append] at enough
        omega
      constructor
      · intro succeeded
        obtain ⟨pair, isFirst, succeeded⟩ := ok_of_bind succeeded
        obtain ⟨others, isRest, isValues⟩ := ok_of_bind succeeded
        cases isValues
        obtain ⟨cells, inGrammar, consumed⟩ := (reads _ _ _).1 isFirst
        obtain ⟨rows, areRows, split⟩ := (ih (shorter _ _ _ inGrammar consumed)).1 isRest
        refine ⟨cells :: rows, .cons inGrammar areRows, ?_⟩
        rw [consumed.next, split, List.flatten_cons]
      · rintro ⟨rows, areRows, split⟩
        cases areRows with
        | nil => exact absurd (Cursor.atEnd_iff.2 split) atEnd
        | @cons value cells values rows inGrammar areRows =>
          rw [List.flatten_cons] at split
          obtain ⟨after, consumed, isRest⟩ := exists_consumes split
          have others := (ih (shorter _ _ _ inGrammar consumed)).2 ⟨rows, areRows, isRest⟩
          rw [(reads _ _ _).2 ⟨cells, inGrammar, consumed⟩]
          show (readWhile read rounds after >>= _) = _
          rw [others]
          rfl

end While

end Foundation
