/-
Module: Paratix.Foundation.Columns
Purpose: Texts as lists of characters, fields between runs of cells, white space as JavaScript sees
  it, and lines that start with columns.
Main exports: splitRuns, dropColumns_succ
-/
import Mathlib.Data.List.Basic
import Mathlib.Data.List.TakeWhile

namespace Foundation

variable {α : Type*}

/-- The fields of a text that follows a separator or not. -/
def splitRunsFrom (separates : α → Bool) : Bool → List α → List (List α)
  | _, [] => [[]]
  | afterSeparator, head :: rest =>
      if separates head then
        if afterSeparator then splitRunsFrom separates true rest
        else [] :: splitRunsFrom separates true rest
      else
        match splitRunsFrom separates false rest with
        | [] => [[head]]
        | field :: fields => (head :: field) :: fields

/-- `text.split(/[…]+/)` -/
def splitRuns (separates : α → Bool) (text : List α) : List (List α) :=
  splitRunsFrom separates false text

variable {separates : α → Bool}

theorem splitRunsFrom_true {text : List α}
    (starts : ∀ head, text.head? = some head → separates head = false) :
    splitRunsFrom separates true text = splitRuns separates text := by
  cases text with
  | nil => rfl
  | cons head rest => simp [splitRuns, splitRunsFrom, starts head rfl]

/-- The first field ends at the first separator. -/
theorem splitRuns_append {field rest : List α} {separator : α}
    (isField : ∀ cell ∈ field, separates cell = false) (isSeparator : separates separator = true)
    (starts : ∀ head, rest.head? = some head → separates head = false) :
    splitRuns separates (field ++ separator :: rest) = field :: splitRuns separates rest := by
  unfold splitRuns
  induction field with
  | nil =>
    rw [List.nil_append, splitRunsFrom, isSeparator, splitRunsFrom_true starts]
    rfl
  | cons head field ih =>
    rw [List.cons_append, splitRunsFrom, isField head List.mem_cons_self,
      ih fun cell mem => isField cell (List.mem_cons_of_mem _ mem)]
    rfl

/-- No field holds a separator. -/
theorem noSeparator_of_mem_splitRuns {text field : List α}
    (mem : field ∈ splitRuns separates text) : ∀ cell ∈ field, separates cell = false := by
  have all : ∀ afterSeparator, ∀ field ∈ splitRunsFrom separates afterSeparator text,
      ∀ cell ∈ field, separates cell = false := by
    clear mem
    induction text with
    | nil =>
      intro afterSeparator field mem
      rw [splitRunsFrom, List.mem_singleton] at mem
      rw [mem]
      exact nofun
    | cons head rest ih =>
      intro afterSeparator field mem
      rw [splitRunsFrom] at mem
      split at mem
      · split at mem
        · exact ih true field mem
        · rcases List.mem_cons.1 mem with rfl | inRest
          · exact nofun
          · exact ih true field inRest
      · next inField =>
        rw [Bool.not_eq_true] at inField
        split at mem
        · rw [List.mem_singleton.1 mem, List.forall_mem_singleton]
          exact inField
        · next first fields split =>
          have areFields := ih false
          rw [split, List.forall_mem_cons] at areFields
          rcases List.mem_cons.1 mem with rfl | inFields
          · exact List.forall_mem_cons.2 ⟨inField, areFields.1⟩
          · exact areFields.2 field inFields
  exact all false field mem

/-- A separator behind the text adds an empty field at most. -/
theorem splitRuns_concat {separator : α} (isSeparator : separates separator = true)
    (text : List α) : splitRuns separates (text ++ [separator]) = splitRuns separates text ∨
      splitRuns separates (text ++ [separator]) = splitRuns separates text ++ [[]] := by
  have all : ∀ afterSeparator,
      splitRunsFrom separates afterSeparator (text ++ [separator]) =
          splitRunsFrom separates afterSeparator text ∨
        splitRunsFrom separates afterSeparator (text ++ [separator]) =
          splitRunsFrom separates afterSeparator text ++ [[]] := by
    induction text with
    | nil =>
      intro afterSeparator
      cases afterSeparator with
      | true => exact .inl (by simp [splitRunsFrom, isSeparator])
      | false => exact .inr (by simp [splitRunsFrom, isSeparator])
    | cons head text ih =>
      intro afterSeparator
      rw [List.cons_append, splitRunsFrom, splitRunsFrom]
      by_cases separating : separates head = true
      · rw [if_pos separating, if_pos separating]
        cases afterSeparator with
        | true => exact ih true
        | false =>
          exact (ih true).imp (congrArg ([] :: ·)) (congrArg ([] :: ·))
      · rw [if_neg separating, if_neg separating]
        rcases ih false with same | more
        · rw [same]
          exact .inl rfl
        · rw [more]
          cases splitRunsFrom separates false text with
          | nil => exact .inl rfl
          | cons field fields => exact .inr rfl
  exact all false

/-- Membership in a list of texts is decided with this instance in every module. -/
instance lawfulText : LawfulBEq (List Char) := inferInstance

/-- The characters that `\s` matches and `trim` removes. -/
def isJsSpace (char : Char) : Bool :=
  let code := char.toNat
  (0x09 ≤ code && code ≤ 0x0d) || code = 0x20 || code = 0xa0 || code = 0x1680 ||
    (0x2000 ≤ code && code ≤ 0x200a) || code = 0x2028 || code = 0x2029 ||
    code = 0x202f || code = 0x205f || code = 0x3000 || code = 0xfeff

theorem isJsSpace_of_isDigit {char : Char} (isDigit : char.isDigit = true) :
    isJsSpace char = false := by
  have bounds : 48 ≤ char.toNat ∧ char.toNat ≤ 57 := by
    simpa [Char.isDigit, UInt32.le_iff_toNat_le] using isDigit
  simp only [isJsSpace, Bool.or_eq_false_iff, Bool.and_eq_false_iff, decide_eq_false_iff_not]
  omega

/-- The characters that `.` does not match. -/
def isLineTerminator (char : Char) : Bool :=
  let code := char.toNat
  code = 0x0a || code = 0x0d || code = 0x2028 || code = 0x2029

variable {α : Type*}

/-- What holds of all elements of a list can be evaluated element by element, whatever
other ways there are to decide it. -/
theorem forall_mem_of_all {holds : α → Prop} [DecidablePred holds] {items : List α}
    (all : items.all (fun item => decide (holds item)) = true) : ∀ item ∈ items, holds item :=
  fun item mem => of_decide_eq_true (List.all_eq_true.1 all item mem)

/-- What follows `count` columns and the white space after them. -/
def dropColumns (space : α → Bool) (count : Nat) (text : List α) : Option (List α) :=
  let afterGap := text.dropWhile space
  if text.takeWhile space = [] ∨ afterGap = [] then none
  else
    match count with
    | 0 => some afterGap
    | count + 1 => dropColumns space count (afterGap.dropWhile fun char => !space char)

theorem takeWhile_gap {space : α → Bool} {gap rest : List α} {head : α}
    (gapSpace : ∀ char ∈ gap, space char = true) (starts : space head = false) :
    (gap ++ head :: rest).takeWhile space = gap := by
  rw [List.takeWhile_append_of_pos gapSpace, List.takeWhile_cons_of_neg (by simp [starts]),
    List.append_nil]

theorem dropWhile_gap {space : α → Bool} {gap rest : List α} {head : α}
    (gapSpace : ∀ char ∈ gap, space char = true) (starts : space head = false) :
    (gap ++ head :: rest).dropWhile space = head :: rest := by
  rw [List.dropWhile_append_of_pos gapSpace, List.dropWhile_cons_of_neg (by simp [starts])]

/-- A text that does not vanish under `dropWhile` is a run and a rest that
starts otherwise. -/
theorem exists_dropWhile_eq {space : α → Bool} {text : List α} (rest : text.dropWhile space ≠ []) :
    ∃ head tail, text.dropWhile space = head :: tail ∧ space head = false ∧
      text = text.takeWhile space ++ head :: tail := by
  obtain ⟨head, tail, dropped⟩ := List.exists_cons_of_ne_nil rest
  have starts := List.head_dropWhile_not space rest
  simp only [dropped, List.head_cons] at starts
  refine ⟨head, tail, dropped, starts, ?_⟩
  rw [← dropped, List.takeWhile_append_dropWhile]

/-- Without columns, what follows the white space is the rest. -/
theorem dropColumns_zero {space : α → Bool} {gap text : List α} (gapNonempty : gap ≠ [])
    (gapSpace : ∀ char ∈ gap, space char = true) : dropColumns space 0 (gap ++ text) =
      if text.dropWhile space = [] then none else some (text.dropWhile space) := by
  rw [dropColumns, List.takeWhile_append_of_pos gapSpace, List.dropWhile_append_of_pos gapSpace]
  simp [gapNonempty]

/-- A column and the white space before it are dropped. -/
theorem dropColumns_succ {space : α → Bool} {count : Nat} {gap column text : List α}
    {head : α} (gapNonempty : gap ≠ []) (gapSpace : ∀ char ∈ gap, space char = true)
    (columnNonempty : column ≠ []) (columnText : ∀ char ∈ column, space char = false)
    (isSpace : space head = true) :
    dropColumns space (count + 1) (gap ++ (column ++ head :: text)) =
      dropColumns space count (head :: text) := by
  obtain ⟨first, others, rfl⟩ := List.exists_cons_of_ne_nil columnNonempty
  have starts := columnText first List.mem_cons_self
  have columnRun : ((first :: others) ++ head :: text).dropWhile
      (fun char => !space char) = head :: text :=
    dropWhile_gap (fun char member => by simp [columnText char member]) (by simp [isSpace])
  simp only [List.cons_append] at columnRun
  rw [dropColumns]
  simp only [List.cons_append, takeWhile_gap gapSpace starts, dropWhile_gap gapSpace starts,
    columnRun, gapNonempty, List.cons_ne_nil, or_self, if_false]

end Foundation
