/-
Module: Paratix.Foundation.PathWalk
Purpose: Path lookup in a tree with symbolic links, as a relation between a
  starting directory, the moves of a path, the links followed and the end.
Main exports: Move, Reached
-/
import Mathlib.Data.List.Basic
import Paratix.Foundation.Columns

namespace Foundation

variable {ν : Type*}

/-- What one segment of a path asks for. -/
inductive Move (ν : Type*) where
  | stay
  | up
  | down (name : ν)
deriving DecidableEq, Repr

/-- Where the target of a link is read from: the directory that holds the
link, or the root. -/
inductive Anchor where
  | parent
  | root
deriving DecidableEq, Repr

/-- A link leaves the tree or leads to a path inside it. -/
inductive Link (ν : Type*) where
  | outside
  | inside (anchor : Anchor) (moves : List (Move ν))
deriving DecidableEq, Repr

/-- The links of a tree by location; every other location is a plain
directory. -/
abbrev Links (ν : Type*) := List ν → Option (Link ν)

/-- The directory a target is read from, for a link in `directory`. -/
def Anchor.start : Anchor → List ν → List ν
  | .parent, directory => directory
  | .root, _ => []

/-- `Walk links current moves hops final`: applying `moves` from `current`
follows `hops` links and ends at `final`, without leaving the root. -/
inductive Walk (links : Links ν) :
    List ν → List (Move ν) → Nat → List ν → Prop where
  | done {current : List ν} : Walk links current [] 0 current
  | stay {current final : List ν} {moves : List (Move ν)} {hops : Nat}
      (rest : Walk links current moves hops final) :
      Walk links current (.stay :: moves) hops final
  | up {parent final : List ν} {last : ν} {moves : List (Move ν)} {hops : Nat}
      (rest : Walk links parent moves hops final) :
      Walk links (parent ++ [last]) (.up :: moves) hops final
  | down {current final : List ν} {name : ν} {moves : List (Move ν)} {hops : Nat}
      (plain : links (current ++ [name]) = none)
      (rest : Walk links (current ++ [name]) moves hops final) :
      Walk links current (.down name :: moves) hops final
  | follow {current final : List ν} {name : ν} {moves target : List (Move ν)}
      {anchor : Anchor} {hops : Nat}
      (link : links (current ++ [name]) = some (.inside anchor target))
      (rest : Walk links (anchor.start current) (target ++ moves) hops final) :
      Walk links current (.down name :: moves) (hops + 1) final

/-- Following the link at `key`, itself counted, ends at `final`. -/
def LinkWalk (links : Links ν) (key : List ν) (hops : Nat) (final : List ν) : Prop :=
  ∃ anchor target rest, links key = some (.inside anchor target) ∧
    Walk links (anchor.start key.dropLast) target rest final ∧ hops = rest + 1

namespace Walk

variable {links : Links ν}

theorem deterministic {current final final' : List ν} {moves : List (Move ν)}
    {hops hops' : Nat} (first : Walk links current moves hops final)
    (second : Walk links current moves hops' final') :
    hops = hops' ∧ final = final' := by
  induction first generalizing hops' final' with
  | done =>
    cases second
    exact ⟨rfl, rfl⟩
  | stay _ ih =>
    cases second with
    | stay rest => exact ih rest
  | @up parent final last moves hops _ ih =>
    generalize currentEq : parent ++ [last] = current at second
    cases second with
    | up rest =>
      obtain ⟨rfl, _⟩ := List.append_inj' currentEq rfl
      exact ih rest
  | down plain _ ih =>
    cases second with
    | down _ rest => exact ih rest
    | follow link _ => rw [plain] at link; cases link
  | follow link _ ih =>
    cases second with
    | down plain _ => rw [plain] at link; cases link
    | follow link' rest =>
      rw [link] at link'
      cases link'
      obtain ⟨hopsEq, finalEq⟩ := ih rest
      exact ⟨congrArg (· + 1) hopsEq, finalEq⟩

/-- Two walks in a row are one walk. -/
theorem append {current middle final : List ν} {first second : List (Move ν)}
    {firstHops secondHops : Nat} (front : Walk links current first firstHops middle)
    (back : Walk links middle second secondHops final) :
    Walk links current (first ++ second) (firstHops + secondHops) final := by
  induction front with
  | done =>
    rw [Nat.zero_add]
    exact back
  | stay _ ih => exact .stay (ih back)
  | up _ ih => exact .up (ih back)
  | down plain _ ih => exact .down plain (ih back)
  | follow link _ ih =>
    have rest := ih back
    rw [List.append_assoc] at rest
    rw [Nat.add_right_comm]
    exact .follow link rest

/-- A walk passes the end of any beginning of its moves. -/
theorem split {current final : List ν} {first second : List (Move ν)} {hops : Nat}
    (walk : Walk links current (first ++ second) hops final) :
    ∃ firstHops secondHops middle, hops = firstHops + secondHops ∧
      Walk links current first firstHops middle ∧
      Walk links middle second secondHops final := by
  generalize movesEq : first ++ second = moves at walk
  induction walk generalizing first with
  | @done current =>
    obtain ⟨rfl, rfl⟩ := List.append_eq_nil_iff.1 movesEq
    exact ⟨0, 0, current, rfl, .done, .done⟩
  | @stay current final moves hops rest ih =>
    cases first with
    | nil =>
      rw [List.nil_append] at movesEq
      subst movesEq
      exact ⟨0, hops, current, (Nat.zero_add hops).symm, .done, .stay rest⟩
    | cons move first =>
      cases movesEq
      obtain ⟨firstHops, secondHops, middle, hopsEq, front, back⟩ := ih rfl
      exact ⟨firstHops, secondHops, middle, hopsEq, .stay front, back⟩
  | @up parent final last moves hops rest ih =>
    cases first with
    | nil =>
      rw [List.nil_append] at movesEq
      subst movesEq
      exact ⟨0, hops, _, (Nat.zero_add hops).symm, .done, .up rest⟩
    | cons move first =>
      cases movesEq
      obtain ⟨firstHops, secondHops, middle, hopsEq, front, back⟩ := ih rfl
      exact ⟨firstHops, secondHops, middle, hopsEq, .up front, back⟩
  | @down current final name moves hops plain rest ih =>
    cases first with
    | nil =>
      rw [List.nil_append] at movesEq
      subst movesEq
      exact ⟨0, hops, current, (Nat.zero_add hops).symm, .done, .down plain rest⟩
    | cons move first =>
      cases movesEq
      obtain ⟨firstHops, secondHops, middle, hopsEq, front, back⟩ := ih rfl
      exact ⟨firstHops, secondHops, middle, hopsEq, .down plain front, back⟩
  | @follow current final name moves target anchor hops link rest ih =>
    cases first with
    | nil =>
      rw [List.nil_append] at movesEq
      subst movesEq
      exact ⟨0, hops + 1, current, (Nat.zero_add _).symm, .done, .follow link rest⟩
    | cons move first =>
      cases movesEq
      obtain ⟨firstHops, secondHops, middle, hopsEq, front, back⟩ :=
        ih (List.append_assoc target first second)
      refine ⟨firstHops + 1, secondHops, middle, ?_, .follow link front, back⟩
      rw [hopsEq, Nat.add_right_comm]

/-- Names that are closed under the links' targets are the only ones a walk
can end in. -/
theorem names {Known : ν → Prop}
    (known : ∀ key anchor target, links key = some (.inside anchor target) →
      ∀ name, Move.down name ∈ target → Known name)
    {current final : List ν} {moves : List (Move ν)} {hops : Nat}
    (walk : Walk links current moves hops final) (start : ∀ name ∈ current, Known name)
    (asked : ∀ name, Move.down name ∈ moves → Known name) :
    ∀ name ∈ final, Known name := by
  induction walk with
  | done => exact start
  | stay _ ih =>
    exact ih start fun name member => asked name (List.mem_cons_of_mem _ member)
  | up _ ih =>
    exact ih
      (fun name member => start name (List.mem_append_left _ member))
      fun name member => asked name (List.mem_cons_of_mem _ member)
  | @down current final name moves hops plain _ ih =>
    apply ih
    · intro other member
      rcases List.mem_append.1 member with inCurrent | last
      · exact start other inCurrent
      · obtain rfl := List.mem_singleton.1 last
        exact asked other List.mem_cons_self
    · exact fun other member => asked other (List.mem_cons_of_mem _ member)
  | @follow current final name moves target anchor hops link _ ih =>
    apply ih
    · cases anchor with
      | parent => exact start
      | root => intro other member; cases member
    · intro other member
      rcases List.mem_append.1 member with inTarget | inMoves
      · exact known _ _ _ link other inTarget
      · exact asked other (List.mem_cons_of_mem _ inMoves)

/-- Walking down a path that names no link on the way stays lexical. -/
theorem descend {current path : List ν} {moves : List (Move ν)} {final : List ν} {hops : Nat}
    (plain : ∀ front back, back ≠ [] → path = front ++ back → front ≠ [] →
      links (current ++ front) = none) (nonempty : path ≠ []) :
    Walk links current (path.map .down ++ moves) hops final ↔
      Walk links (current ++ path.dropLast)
        (.down (path.getLast nonempty) :: moves) hops final := by
  induction path generalizing current with
  | nil => exact absurd rfl nonempty
  | cons name path ih =>
    cases path with
    | nil => simp
    | cons next path =>
      have plainHere : links (current ++ [name]) = none :=
        plain [name] (next :: path) (by simp) rfl (by simp)
      have plainBelow : ∀ front back, back ≠ [] → next :: path = front ++ back →
          front ≠ [] → links (current ++ [name] ++ front) = none := by
        intro front back backNonempty pathEq frontNonempty
        have below := plain (name :: front) back backNonempty
          (by rw [pathEq, List.cons_append]) (by simp)
        rwa [List.append_assoc, List.singleton_append]
      have below := ih plainBelow (by simp)
      constructor
      · intro walk
        cases walk with
        | down _ rest => simpa using below.1 rest
        | follow link _ => rw [plainHere] at link; cases link
      · intro walk
        apply Walk.down plainHere
        apply below.2
        simpa using walk

end Walk

namespace LinkWalk

variable {links : Links ν}

theorem deterministic {key final final' : List ν} {hops hops' : Nat}
    (first : LinkWalk links key hops final) (second : LinkWalk links key hops' final') :
    hops = hops' ∧ final = final' := by
  obtain ⟨anchor, target, rest, link, walk, rfl⟩ := first
  obtain ⟨anchor', target', rest', link', walk', rfl⟩ := second
  rw [link] at link'
  cases link'
  obtain ⟨hopsEq, finalEq⟩ := walk.deterministic walk'
  exact ⟨congrArg (· + 1) hopsEq, finalEq⟩

theorem hops_pos {key final : List ν} {hops : Nat}
    (walk : LinkWalk links key hops final) : 0 < hops := by
  obtain ⟨_, _, _, _, _, rfl⟩ := walk
  exact Nat.succ_pos _

/-- A step onto a link is the walk of that link, then the rest. -/
theorem step_iff {current final : List ν} {name : ν} {moves : List (Move ν)}
    {hops : Nat} (isLink : links (current ++ [name]) ≠ none) :
    Walk links current (.down name :: moves) hops final ↔
      ∃ linkHops restHops middle, hops = linkHops + restHops ∧
        LinkWalk links (current ++ [name]) linkHops middle ∧
        Walk links middle moves restHops final := by
  constructor
  · intro walk
    cases walk with
    | down plain _ => exact absurd plain isLink
    | @follow _ _ _ _ target anchor hops link rest =>
      obtain ⟨targetHops, restHops, middle, rfl, toTarget, onwards⟩ := rest.split
      refine ⟨targetHops + 1, restHops, middle, Nat.add_right_comm _ _ _,
        ⟨anchor, target, targetHops, link, ?_, rfl⟩, onwards⟩
      rwa [List.dropLast_concat]
  · rintro ⟨linkHops, restHops, middle, rfl,
      ⟨anchor, target, targetHops, link, toTarget, rfl⟩, onwards⟩
    rw [List.dropLast_concat] at toTarget
    rw [Nat.add_right_comm]
    exact .follow link (toTarget.append onwards)

/-- The walk of a link that lies below no other link is the lookup of its path
from the root. -/
theorem iff_walk_root {key final : List ν} {hops : Nat} (nonempty : key ≠ [])
    (isLink : links key ≠ none)
    (noLinkAbove : ∀ front back, back ≠ [] → key = front ++ back → front ≠ [] →
      links front = none) :
    LinkWalk links key hops final ↔ Walk links [] (key.map .down) hops final := by
  have keyEq : key.dropLast ++ [key.getLast nonempty] = key := List.dropLast_append_getLast nonempty
  have noLinkBelowRoot : ∀ front back, back ≠ [] → key = front ++ back →
      front ≠ [] → links ([] ++ front) = none := noLinkAbove
  have descend : Walk links [] (key.map .down ++ []) hops final ↔
      Walk links ([] ++ key.dropLast) [.down (key.getLast nonempty)] hops final :=
    Walk.descend noLinkBelowRoot nonempty
  rw [List.append_nil, List.nil_append] at descend
  rw [descend, step_iff (by rwa [keyEq]), keyEq]
  constructor
  · intro walk
    exact ⟨hops, 0, final, rfl, walk, .done⟩
  · rintro ⟨linkHops, restHops, middle, rfl, walk, onwards⟩
    cases onwards
    exact walk

end LinkWalk

/-! ### Where the walk of a link must pass -/

/-- Every walk of the link at `above` takes more hops than some walk of the
link at `below`: it leads through it. -/
def LeadsThrough (links : Links ν) (above below : List ν) : Prop :=
  ∀ hops final, LinkWalk links above hops final →
    ∃ fewer middle, fewer < hops ∧ LinkWalk links below fewer middle

namespace LeadsThrough

variable {links : Links ν}

theorem trans {first second third : List ν} (front : LeadsThrough links first second)
    (back : LeadsThrough links second third) : LeadsThrough links first third := by
  intro hops final walk
  obtain ⟨fewer, middle, less, through⟩ := front hops final walk
  obtain ⟨fewest, last, lesser, onwards⟩ := back fewer middle through
  exact ⟨fewest, last, Nat.lt_trans lesser less, onwards⟩

/-- A link that leads through itself leads nowhere. -/
theorem no_walk_of_cycle {key : List ν} (cycle : LeadsThrough links key key) :
    ∀ hops final, ¬ LinkWalk links key hops final := by
  intro hops
  induction hops using Nat.strongRecOn with
  | _ hops ih =>
    intro final walk
    obtain ⟨fewer, middle, less, again⟩ := cycle hops final walk
    exact ih fewer less middle again

end LeadsThrough

/-- Every walk of the link at `key` arrives, after `hops` hops, at `current`
with `moves` left to do. -/
def Reached (links : Links ν) (key : List ν) (hops : Nat) (current : List ν)
    (moves : List (Move ν)) : Prop :=
  ∀ total final, LinkWalk links key total final →
    ∃ restHops, total = hops + restHops ∧ Walk links current moves restHops final

namespace Reached

variable {links : Links ν} {key current : List ν} {hops : Nat} {moves : List (Move ν)}

theorem start {anchor : Anchor} {target : List (Move ν)}
    (link : links key = some (.inside anchor target)) :
    Reached links key 1 (anchor.start key.dropLast) target := by
  rintro total final ⟨anchor', target', rest, link', walk, rfl⟩
  rw [link] at link'
  cases link'
  exact ⟨rest, Nat.add_comm _ _, walk⟩

theorem stay (reached : Reached links key hops current (.stay :: moves)) :
    Reached links key hops current moves := by
  intro total final walk
  obtain ⟨restHops, totalEq, onwards⟩ := reached total final walk
  cases onwards with
  | stay rest => exact ⟨restHops, totalEq, rest⟩

theorem up {last : ν} (reached : Reached links key hops (current ++ [last]) (.up :: moves)) :
    Reached links key hops current moves := by
  intro total final walk
  obtain ⟨restHops, totalEq, onwards⟩ := reached total final walk
  generalize currentEq : current ++ [last] = whole at onwards
  cases onwards with
  | up rest =>
    obtain ⟨rfl, _⟩ := List.append_inj' currentEq rfl
    exact ⟨restHops, totalEq, rest⟩

/-- Above the root there is nothing. -/
theorem up_root (reached : Reached links key hops [] (.up :: moves)) :
    ∀ total final, ¬ LinkWalk links key total final := by
  intro total final walk
  obtain ⟨restHops, _, onwards⟩ := reached total final walk
  generalize currentEq : ([] : List ν) = whole at onwards
  cases onwards with
  | up rest => simp at currentEq

theorem down {name : ν} (plain : links (current ++ [name]) = none)
    (reached : Reached links key hops current (.down name :: moves)) :
    Reached links key hops (current ++ [name]) moves := by
  intro total final walk
  obtain ⟨restHops, totalEq, onwards⟩ := reached total final walk
  cases onwards with
  | down _ rest => exact ⟨restHops, totalEq, rest⟩
  | follow link _ => rw [plain] at link; cases link

/-- Every walk of `key` leads through a link it has arrived at. -/
theorem leadsThrough {name : ν} (positive : 0 < hops) (isLink : links (current ++ [name]) ≠ none)
    (reached : Reached links key hops current (.down name :: moves)) :
    LeadsThrough links key (current ++ [name]) := by
  intro total final walk
  obtain ⟨restHops, rfl, onwards⟩ := reached total final walk
  obtain ⟨linkHops, afterHops, middle, rfl, through, _⟩ := (LinkWalk.step_iff isLink).1 onwards
  exact ⟨linkHops, middle, by omega, through⟩

/-- Past a link whose walk is known, the rest is walked from its end. -/
theorem follow {name : ν} {middle : List ν} {linkHops : Nat}
    (through : LinkWalk links (current ++ [name]) linkHops middle)
    (reached : Reached links key hops current (.down name :: moves)) :
    Reached links key (hops + linkHops) middle moves := by
  intro total final walk
  obtain ⟨restHops, rfl, onwards⟩ := reached total final walk
  have isLink : links (current ++ [name]) ≠ none := by
    obtain ⟨_, _, _, link, _⟩ := through
    rw [link]
    exact Option.some_ne_none _
  obtain ⟨otherHops, afterHops, other, rfl, through', rest⟩ := (LinkWalk.step_iff isLink).1 onwards
  obtain ⟨rfl, rfl⟩ := through.deterministic through'
  exact ⟨afterHops, by omega, rest⟩

/-- A walk that has used up more hops than `bound` shows every walk does. -/
theorem bound {limit : Nat} (reached : Reached links key hops current moves)
    (tooMany : limit < hops) :
    ∀ total final, LinkWalk links key total final → limit < total := by
  intro total final walk
  obtain ⟨restHops, rfl, _⟩ := reached total final walk
  omega

end Reached

end Foundation
