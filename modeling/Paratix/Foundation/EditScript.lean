/-
Module: Paratix.Foundation.EditScript
Purpose: Edit scripts between two sequences, the hunks of a patch and what applying
  them gives.
Main exports: Edit, ContextNear
-/
import Mathlib.Data.List.Basic

namespace Foundation

variable {α : Type*}

/-! ### Scripts -/

/-- A line of both sides, of the old side only, or of the new side only. -/
inductive Edit (α : Type*) where
  | context (line : α)
  | delete (line : α)
  | insert (line : α)
deriving DecidableEq, Repr

def Edit.isContext : Edit α → Bool
  | .context _ => true
  | .delete _ => false
  | .insert _ => false

@[simp] theorem Edit.isContext_context (line : α) : (Edit.context line).isContext = true := rfl

@[simp] theorem Edit.isContext_delete (line : α) : (Edit.delete line).isContext = false := rfl

@[simp] theorem Edit.isContext_insert (line : α) : (Edit.insert line).isContext = false := rfl

def Edit.old? : Edit α → Option α
  | .context line => some line
  | .delete line => some line
  | .insert _ => none

def Edit.new? : Edit α → Option α
  | .context line => some line
  | .delete _ => none
  | .insert line => some line

def oldLines (script : List (Edit α)) : List α := script.filterMap Edit.old?

def newLines (script : List (Edit α)) : List α := script.filterMap Edit.new?

@[simp] theorem oldLines_nil : oldLines ([] : List (Edit α)) = [] := rfl

@[simp] theorem newLines_nil : newLines ([] : List (Edit α)) = [] := rfl

@[simp] theorem oldLines_append (script more : List (Edit α)) :
    oldLines (script ++ more) = oldLines script ++ oldLines more :=
  List.filterMap_append

@[simp] theorem newLines_append (script more : List (Edit α)) :
    newLines (script ++ more) = newLines script ++ newLines more :=
  List.filterMap_append

@[simp] theorem oldLines_context (line : α) (script : List (Edit α)) :
    oldLines (.context line :: script) = line :: oldLines script := rfl

@[simp] theorem oldLines_delete (line : α) (script : List (Edit α)) :
    oldLines (.delete line :: script) = line :: oldLines script := rfl

@[simp] theorem oldLines_insert (line : α) (script : List (Edit α)) :
    oldLines (.insert line :: script) = oldLines script := rfl

@[simp] theorem newLines_context (line : α) (script : List (Edit α)) :
    newLines (.context line :: script) = line :: newLines script := rfl

@[simp] theorem newLines_delete (line : α) (script : List (Edit α)) :
    newLines (.delete line :: script) = newLines script := rfl

@[simp] theorem newLines_insert (line : α) (script : List (Edit α)) :
    newLines (.insert line :: script) = line :: newLines script := rfl

/-- Nothing changes. -/
def AllContext (script : List (Edit α)) : Prop := ∀ edit ∈ script, edit.isContext

instance (script : List (Edit α)) : Decidable (AllContext script) :=
  inferInstanceAs (Decidable (∀ edit ∈ script, edit.isContext = true))

/-- Every line changes. -/
def NoContext (script : List (Edit α)) : Prop := ∀ edit ∈ script, ¬edit.isContext

theorem AllContext.sameLines {script : List (Edit α)} (allContext : AllContext script) :
    newLines script = oldLines script := by
  induction script with
  | nil => rfl
  | cons edit script ih =>
    obtain ⟨isContext, rest⟩ := List.forall_mem_cons.1 allContext
    cases edit with
    | context line => simp [ih rest]
    | delete line => cases isContext
    | insert line => cases isContext

theorem AllContext.length_oldLines {script : List (Edit α)} (allContext : AllContext script) :
    (oldLines script).length = script.length := by
  induction script with
  | nil => rfl
  | cons edit script ih =>
    obtain ⟨isContext, rest⟩ := List.forall_mem_cons.1 allContext
    cases edit with
    | context line => simp [ih rest]
    | delete line => cases isContext
    | insert line => cases isContext

/-! ### Hunks -/

/-- A part of a script, the numbers of the first lines it concerns on both sides and
how many lines of each side it holds. -/
structure PatchHunk (α : Type*) where
  oldStart : Nat
  oldCount : Nat
  newStart : Nat
  newCount : Nat
  body : List (Edit α)
deriving DecidableEq, Repr

/-- The hunk of a part of a script that starts at the two numbers. -/
def PatchHunk.of (oldStart newStart : Nat) (body : List (Edit α)) : PatchHunk α where
  oldStart := oldStart
  oldCount := (oldLines body).length
  newStart := newStart
  newCount := (newLines body).length
  body := body

section Applying

variable [DecidableEq α]

/-- The new lines, and the old lines behind the hunk. Lines that the hunk keeps or
deletes must stand there. -/
def applyBody : List (Edit α) → List α → Option (List α × List α)
  | [], rest => some ([], rest)
  | .context line :: body, head :: rest =>
      if head = line then (applyBody body rest).map fun done => (line :: done.1, done.2) else none
  | .delete line :: body, head :: rest => if head = line then applyBody body rest else none
  | .insert line :: body, rest => (applyBody body rest).map fun done => (line :: done.1, done.2)
  | .context _ :: _, [] => none
  | .delete _ :: _, [] => none

/-- Apply hunks to the lines from number `old` on, which are the new lines from number
`new` on: copy up to the start of a hunk, apply its body, go on behind it. -/
def applyHunks (old new : Nat) : List (PatchHunk α) → List α → Option (List α)
  | [], rest => some rest
  | hunk :: hunks, rest =>
      let gap := hunk.oldStart - old
      if old ≤ hunk.oldStart ∧ hunk.newStart = new + gap ∧ gap ≤ rest.length then
        (applyBody hunk.body (rest.drop gap)).bind fun done =>
          (applyHunks (hunk.oldStart + hunk.oldCount) (hunk.newStart + hunk.newCount) hunks
            done.2).map fun after => rest.take gap ++ done.1 ++ after
      else none

@[simp] theorem applyBody_oldLines (body : List (Edit α)) (rest : List α) :
    applyBody body (oldLines body ++ rest) = some (newLines body, rest) := by
  induction body with
  | nil => rfl
  | cons edit body ih =>
    cases edit with
    | context line => simp [applyBody, ih]
    | delete line => simp [applyBody, ih]
    | insert line => simp [applyBody, ih]

/-- What a body applies to are its old lines. -/
theorem applyBody_eq_some {body : List (Edit α)} {lines : List α} {done : List α × List α}
    (applied : applyBody body lines = some done) :
    lines = oldLines body ++ done.2 ∧ done.1 = newLines body := by
  induction body generalizing lines done with
  | nil =>
    cases applied
    exact ⟨rfl, rfl⟩
  | cons edit body ih =>
    cases edit with
    | insert line =>
      rw [applyBody, Option.map_eq_some_iff] at applied
      obtain ⟨inner, isInner, rfl⟩ := applied
      obtain ⟨isLines, isDone⟩ := ih isInner
      exact ⟨isLines, congrArg (List.cons line) isDone⟩
    | context line =>
      cases lines with
      | nil => cases applied
      | cons head rest =>
        rw [applyBody] at applied
        split at applied
        · next same =>
          obtain ⟨inner, isInner, rfl⟩ := Option.map_eq_some_iff.1 applied
          obtain ⟨isLines, isDone⟩ := ih isInner
          exact ⟨List.cons_eq_cons.2 ⟨same, isLines⟩, congrArg (List.cons line) isDone⟩
        · cases applied
    | delete line =>
      cases lines with
      | nil => cases applied
      | cons head rest =>
        rw [applyBody] at applied
        split at applied
        · next same =>
          obtain ⟨isLines, isDone⟩ := ih applied
          exact ⟨List.cons_eq_cons.2 ⟨same, isLines⟩, isDone⟩
        · cases applied

/-- A hunk at its place, `gap` lines behind the last one. -/
theorem applyHunks_cons {old new gap : Nat} {hunk : PatchHunk α} {hunks : List (PatchHunk α)}
    {rest : List α} (oldStart : hunk.oldStart = old + gap) (newStart : hunk.newStart = new + gap)
    (fits : gap ≤ rest.length) : applyHunks old new (hunk :: hunks) rest =
      (applyBody hunk.body (rest.drop gap)).bind fun done =>
        (applyHunks (hunk.oldStart + hunk.oldCount) (hunk.newStart + hunk.newCount) hunks
          done.2).map fun after => rest.take gap ++ done.1 ++ after := by
  have isGap : hunk.oldStart - old = gap := by
    rw [oldStart, Nat.add_sub_cancel_left]
  have behind : old ≤ hunk.oldStart := by
    rw [oldStart]
    exact Nat.le_add_right _ _
  simp only [applyHunks, isGap]
  exact if_pos ⟨behind, newStart, fits⟩

/-- What one hunk replaces, and by what. -/
theorem applyHunks_one {old new : Nat} {body : List (Edit α)} {front rest result : List α}
    (applied : applyHunks old new [PatchHunk.of (old + front.length) (new + front.length) body]
      (front ++ rest) = some result) :
    ∃ more, rest = oldLines body ++ more ∧ result = front ++ (newLines body ++ more) := by
  rw [applyHunks_cons rfl rfl (List.length_append ▸ Nat.le_add_right _ _), List.drop_left,
    List.take_left, Option.bind_eq_some_iff] at applied
  obtain ⟨done, isDone, applied⟩ := applied
  obtain ⟨isRest, isNew⟩ := applyBody_eq_some isDone
  rw [applyHunks, Option.map_some] at applied
  refine ⟨done.2, isRest, ?_⟩
  rw [← Option.some.inj applied, isNew, List.append_assoc]
  rfl

end Applying

/-! ### Hunks that cover a script -/

/-- The hunks are the parts of the script between stretches of context, each at its
place; the script ends with the last hunk. -/
inductive Covers : Nat → Nat → List (PatchHunk α) → List (Edit α) → Prop where
  | nil {old new : Nat} : Covers old new [] []
  | cons {old new : Nat} {gap body script : List (Edit α)} {hunks : List (PatchHunk α)}
      (allContext : AllContext gap)
      (rest : Covers (old + gap.length + (oldLines body).length)
        (new + gap.length + (newLines body).length) hunks script) :
      Covers old new (PatchHunk.of (old + gap.length) (new + gap.length) body :: hunks)
        (gap ++ body ++ script)

namespace Covers

variable {old new : Nat} {hunks : List (PatchHunk α)} {script : List (Edit α)}

/-- One more hunk behind the script. -/
theorem snoc (covers : Covers old new hunks script) {gap : List (Edit α)}
    (allContext : AllContext gap) (body : List (Edit α)) : Covers old new
      (hunks ++ [PatchHunk.of (old + (oldLines script).length + gap.length)
        (new + (newLines script).length + gap.length) body])
      (script ++ (gap ++ body)) := by
  induction covers with
  | @nil old new =>
    have last : Covers (old + gap.length + (oldLines body).length)
      (new + gap.length + (newLines body).length) ([] : List (PatchHunk α)) [] := .nil
    simpa using Covers.cons allContext last
  | @cons old new before first script hunks isContext rest ih =>
    have extended := Covers.cons isContext ih
    have sameOld : old + before.length + (oldLines first).length + (oldLines script).length +
        gap.length = old + (oldLines (before ++ first ++ script)).length + gap.length := by
      simp only [oldLines_append, List.length_append, isContext.length_oldLines]
      omega
    have sameNew : new + before.length + (newLines first).length + (newLines script).length +
        gap.length = new + (newLines (before ++ first ++ script)).length + gap.length := by
      simp only [newLines_append, List.length_append, isContext.sameLines,
        isContext.length_oldLines]
      omega
    rw [sameOld, sameNew] at extended
    simpa only [List.cons_append, List.append_assoc] using extended

/-- Applying the hunks turns the old lines into the new ones; context behind the last
hunk stays. -/
theorem apply [DecidableEq α] (covers : Covers old new hunks script) {tail : List (Edit α)}
    (allContext : AllContext tail) :
    applyHunks old new hunks (oldLines (script ++ tail)) = some (newLines (script ++ tail)) := by
  induction covers with
  | nil => rw [List.nil_append, applyHunks, allContext.sameLines]
  | @cons old new gap body script hunks isContext rest ih =>
    have gapLength := isContext.length_oldLines
    have split : oldLines (gap ++ body ++ script ++ tail) =
        oldLines gap ++ (oldLines body ++ oldLines (script ++ tail)) := by
      simp only [oldLines_append, List.append_assoc]
    have dropped : (oldLines gap ++ (oldLines body ++ oldLines (script ++ tail))).drop gap.length =
        oldLines body ++ oldLines (script ++ tail) := by
      rw [← gapLength, List.drop_left]
    have taken : (oldLines gap ++ (oldLines body ++ oldLines (script ++ tail))).take gap.length =
        oldLines gap := by
      rw [← gapLength, List.take_left]
    have fits : gap.length ≤
        (oldLines gap ++ (oldLines body ++ oldLines (script ++ tail))).length := by
      rw [List.length_append, gapLength]
      exact Nat.le_add_right _ _
    rw [split, applyHunks_cons rfl rfl fits, dropped, taken]
    simp only [PatchHunk.of, applyBody_oldLines, Option.bind_some, ih,
      Option.map_some, newLines_append, isContext.sameLines, List.append_assoc]

/-- Every hunk starts behind `old` and `new`. -/
theorem behind (covers : Covers old new hunks script) {hunk : PatchHunk α} (mem : hunk ∈ hunks) :
    old ≤ hunk.oldStart ∧ new ≤ hunk.newStart := by
  induction covers with
  | nil => cases mem
  | @cons old new gap body script hunks isContext rest ih =>
    rcases List.mem_cons.1 mem with rfl | later
    · exact ⟨Nat.le_add_right _ _, Nat.le_add_right _ _⟩
    · obtain ⟨oldBehind, newBehind⟩ := ih later
      exact ⟨by omega, by omega⟩

/-- The hunks follow each other without overlap, on both sides. -/
theorem ordered (covers : Covers old new hunks script) :
    hunks.Pairwise fun first second => first.oldStart + first.oldCount ≤ second.oldStart ∧
      first.newStart + first.newCount ≤ second.newStart := by
  induction covers with
  | nil => exact .nil
  | cons isContext rest ih =>
    exact .cons (fun second mem => rest.behind mem) ih

theorem counted (covers : Covers old new hunks script) {hunk : PatchHunk α} (mem : hunk ∈ hunks) :
    hunk.oldCount = (oldLines hunk.body).length ∧ hunk.newCount = (newLines hunk.body).length := by
  induction covers with
  | nil => cases mem
  | cons isContext rest ih =>
    rcases List.mem_cons.1 mem with rfl | later
    · exact ⟨rfl, rfl⟩
    · exact ih later

theorem subset (covers : Covers old new hunks script) {hunk : PatchHunk α} (mem : hunk ∈ hunks)
    {edit : Edit α} (isEdit : edit ∈ hunk.body) : edit ∈ script := by
  induction covers with
  | nil => cases mem
  | cons isContext rest ih =>
    rcases List.mem_cons.1 mem with rfl | later
    · exact List.mem_append_left _ (List.mem_append_right _ isEdit)
    · exact List.mem_append_right _ (ih later)

end Covers

/-! ### Context lines near a change -/

/-- Every context line of the body is at most `distance` lines away from a change. -/
def ContextNear (distance : Nat) (body : List (Edit α)) : Prop :=
  ∀ (position : Nat) (edit : Edit α), body[position]? = some edit → edit.isContext →
    ∃ (change : Nat) (other : Edit α), body[change]? = some other ∧ ¬other.isContext ∧
      position ≤ change + distance ∧ change ≤ position + distance

namespace ContextNear

variable {distance : Nat} {body : List (Edit α)} {edit : Edit α}

/-- The last line of the extended body, or one of the body. -/
theorem snoc_cases {position : Nat} {other : Edit α}
    (found : (body ++ [edit])[position]? = some other) :
    body[position]? = some other ∨ position = body.length ∧ other = edit := by
  rcases Nat.lt_trichotomy position body.length with inside | atEnd | outside
  · exact .inl (by rwa [List.getElem?_append_left inside] at found)
  · subst atEnd
    rw [List.getElem?_concat_length] at found
    exact .inr ⟨rfl, (Option.some.inj found).symm⟩
  · have pastEnd : (body ++ [edit]).length ≤ position := by
      rw [List.length_append]
      exact outside
    rw [List.getElem?_eq_none pastEnd] at found
    cases found

theorem getElem?_snoc {position : Nat} {other : Edit α} (found : body[position]? = some other)
    (edit : Edit α) : (body ++ [edit])[position]? = some other := by
  obtain ⟨inside, -⟩ := List.getElem?_eq_some_iff.1 found
  rw [List.getElem?_append_left inside, found]

theorem snoc_change (near : ContextNear distance body) (isChange : ¬edit.isContext) :
    ContextNear distance (body ++ [edit]) := by
  intro position other found isContext
  rcases snoc_cases found with inBody | ⟨-, rfl⟩
  · obtain ⟨change, changed, isThere, isChanged, close⟩ := near position other inBody isContext
    exact ⟨change, changed, getElem?_snoc isThere edit, isChanged, close⟩
  · exact absurd isContext isChange

theorem snoc_context (near : ContextNear distance body) {change : Nat} {changed : Edit α}
    (isThere : body[change]? = some changed) (isChanged : ¬changed.isContext)
    (close : body.length ≤ change + distance) : ContextNear distance (body ++ [edit]) := by
  intro position other found isContext
  rcases snoc_cases found with inBody | ⟨rfl, -⟩
  · obtain ⟨near, other, isNear, otherChanged, bounds⟩ := near position other inBody isContext
    exact ⟨near, other, getElem?_snoc isNear edit, otherChanged, bounds⟩
  · obtain ⟨inside, -⟩ := List.getElem?_eq_some_iff.1 isThere
    exact ⟨change, changed, getElem?_snoc isThere edit, isChanged, close, by omega⟩

/-- Leading context in front of a first change. -/
theorem leading (short : body.length ≤ distance) (isChange : ¬edit.isContext) :
    ContextNear distance (body ++ [edit]) := by
  intro position other found isContext
  have isThere : (body ++ [edit])[body.length]? = some edit := List.getElem?_concat_length
  rcases snoc_cases found with inBody | ⟨-, rfl⟩
  · obtain ⟨inside, -⟩ := List.getElem?_eq_some_iff.1 inBody
    exact ⟨body.length, edit, isThere, isChange, by omega, by omega⟩
  · exact absurd isContext isChange

theorem of_noContext (distance : Nat) (noContext : NoContext body) : ContextNear distance body :=
  fun _ _ found isContext => absurd isContext (noContext _ (List.mem_of_getElem? found))

end ContextNear

end Foundation
