/-
Module: Paratix.Foundation.Chain
Purpose: Walks along a chain of items that may come back to one of them, and what
  they write.
Main exports: ChainLink, forall_mem_walkChain_iff
-/
import Mathlib.Data.Fintype.Basic
import Mathlib.Data.Finset.Card

namespace Foundation

/-- What an item of a chain points to: nothing, a value that ends the chain, or
another item. -/
inductive ChainLink (κ β : Type*) where
  | done
  | last (value : β)
  | item (key : κ)

variable {κ β γ : Type*}

/-- The walk along the links from one of them leads to the other. -/
inductive ChainReaches (next : κ → ChainLink κ β) : ChainLink κ β → ChainLink κ β → Prop where
  | here (link : ChainLink κ β) : ChainReaches next link link
  | item {key : κ} {link : ChainLink κ β} (later : ChainReaches next (next key) link) :
      ChainReaches next (.item key) link

theorem ChainReaches.item_cases {next : κ → ChainLink κ β} {key : κ} {link : ChainLink κ β}
    (reaches : ChainReaches next (.item key) link) :
    link = .item key ∨ ChainReaches next (next key) link := by
  cases reaches with
  | here => exact .inl rfl
  | item later => exact .inr later

theorem ChainReaches.of_done {next : κ → ChainLink κ β} {link : ChainLink κ β}
    (reaches : ChainReaches next .done link) : link = .done := by
  cases reaches with
  | here => rfl

theorem ChainReaches.of_last {next : κ → ChainLink κ β} {value : β} {link : ChainLink κ β}
    (reaches : ChainReaches next (.last value) link) : link = .last value := by
  cases reaches with
  | here => rfl

variable [DecidableEq κ]

theorem card_unvisited_lt [Fintype κ] {visited : Finset κ} {key : κ} (unvisited : key ∉ visited) :
    (Finset.univ \ insert key visited).card < (Finset.univ \ visited).card := by
  apply Finset.card_lt_card
  refine ⟨Finset.sdiff_subset_sdiff (Finset.Subset.refl _) (Finset.subset_insert ..), ?_⟩
  intro subset
  have outside := subset (Finset.mem_sdiff.2 ⟨Finset.mem_univ key, unvisited⟩)
  exact (Finset.mem_sdiff.1 outside).2 (Finset.mem_insert_self ..)

/-- What is written on the way along a chain, where the walk stops at an item it
has visited before. -/
def walkChain [Fintype κ] (next : κ → ChainLink κ β) (onItem : Nat → κ → List γ)
    (onLast : Nat → β → List γ) (onVisited : Nat → List γ) (visited : Finset κ) (depth : Nat) :
    ChainLink κ β → List γ
  | .done => []
  | .last value => onLast depth value
  | .item key =>
      if key ∈ visited then onVisited depth
      else onItem depth key ++
        walkChain next onItem onLast onVisited (insert key visited) (depth + 1) (next key)
termination_by (Finset.univ \ visited).card
decreasing_by exact card_unvisited_lt ‹_›

/-- The items visited point to each other, up to the one that points on. -/
def VisitedUpTo (next : κ → ChainLink κ β) (visited : Finset κ) (start : ChainLink κ β) : Prop :=
  ∀ key ∈ visited, next key = start ∨ ∃ other ∈ visited, next key = .item other

theorem VisitedUpTo.insert {next : κ → ChainLink κ β} {visited : Finset κ} {key : κ}
    (upTo : VisitedUpTo next visited (.item key)) :
    VisitedUpTo next (insert key visited) (next key) := by
  intro earlier isVisited
  rcases Finset.mem_insert.1 isVisited with rfl | before
  · exact .inl rfl
  · rcases upTo earlier before with pointsOn | ⟨other, isOther, points⟩
    · exact .inr ⟨key, Finset.mem_insert_self .., pointsOn⟩
    · exact .inr ⟨other, Finset.mem_insert_of_mem isOther, points⟩

omit [DecidableEq κ] in
/-- Where the walk is back at an item it visited, every link ahead of it is one. -/
theorem VisitedUpTo.reaches_back {next : κ → ChainLink κ β} {visited : Finset κ} {key : κ}
    (upTo : VisitedUpTo next visited (.item key)) (back : key ∈ visited)
    {start link : ChainLink κ β} (reaches : ChainReaches next start link)
    (isVisited : ∃ earlier ∈ visited, start = .item earlier) :
    ∃ visitedKey ∈ visited, link = .item visitedKey := by
  induction reaches with
  | here => exact isVisited
  | item later ih =>
    obtain ⟨earlier, before, same⟩ := isVisited
    injection same with same
    rw [same] at later ih
    apply ih
    rcases upTo earlier before with pointsOn | points
    · exact ⟨key, back, pointsOn⟩
    · exact points

/-- All that a walk writes is good just when the items ahead that were not visited
and the value at the end write nothing bad. -/
theorem forall_mem_walkChain_iff [Fintype κ] {next : κ → ChainLink κ β} {onItem : Nat → κ → List γ}
    {onLast : Nat → β → List γ} {onVisited : Nat → List γ} {good : γ → Prop}
    {goodItem : κ → Prop} {goodLast : β → Prop}
    (item : ∀ depth key, (∀ piece ∈ onItem depth key, good piece) ↔ goodItem key)
    (last : ∀ depth value, (∀ piece ∈ onLast depth value, good piece) ↔ goodLast value)
    (again : ∀ depth, ∀ piece ∈ onVisited depth, good piece)
    (visited : Finset κ) (depth : Nat) (start : ChainLink κ β)
    (upTo : VisitedUpTo next visited start) :
    (∀ piece ∈ walkChain next onItem onLast onVisited visited depth start, good piece) ↔
      (∀ key ∉ visited, ChainReaches next start (.item key) → goodItem key) ∧
        ∀ value, ChainReaches next start (.last value) → goodLast value := by
  induction visited, depth, start using walkChain.induct next with
  | case1 visited depth =>
    rw [walkChain]
    constructor
    · intro _
      constructor
      · intro key _ reaches
        cases reaches.of_done
      · intro value reaches
        cases reaches.of_done
    · intro _ piece written
      exact absurd written List.not_mem_nil
  | case2 visited depth value =>
    rw [walkChain, last]
    constructor
    · intro goodValue
      constructor
      · intro key _ reaches
        cases reaches.of_last
      · intro other reaches
        cases reaches.of_last
        exact goodValue
    · intro ahead
      exact ahead.2 value (.here _)
  | case3 visited depth key back =>
    rw [walkChain, if_pos back]
    constructor
    · intro _
      constructor
      · intro other unvisited reaches
        obtain ⟨visitedKey, isVisited, same⟩ := upTo.reaches_back back reaches ⟨key, back, rfl⟩
        cases same
        exact absurd isVisited unvisited
      · intro value reaches
        obtain ⟨_, _, same⟩ := upTo.reaches_back back reaches ⟨key, back, rfl⟩
        cases same
    · intro _
      exact again depth
  | case4 visited depth key unvisited ih =>
    rw [walkChain, if_neg unvisited]
    have onward := ih upTo.insert
    simp only [List.forall_mem_append, item, onward]
    constructor
    · rintro ⟨goodKey, goodItems, goodLasts⟩
      constructor
      · intro other notVisited reaches
        by_cases same : other = key
        · rw [same]
          exact goodKey
        · refine goodItems other ?_ ?_
          · rw [Finset.mem_insert]
            exact not_or.2 ⟨same, notVisited⟩
          · rcases reaches.item_cases with isKey | later
            · cases isKey
              exact absurd rfl same
            · exact later
      · intro value reaches
        rcases reaches.item_cases with isKey | later
        · cases isKey
        · exact goodLasts value later
    · rintro ⟨goodItems, goodLasts⟩
      refine ⟨goodItems key unvisited (.here _), ?_, ?_⟩
      · intro other notVisited later
        rw [Finset.mem_insert, not_or] at notVisited
        exact goodItems other notVisited.2 (.item later)
      · intro value later
        exact goodLasts value (.item later)

end Foundation
