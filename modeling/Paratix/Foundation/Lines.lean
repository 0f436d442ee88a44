/-
Module: Paratix.Foundation.Lines
Purpose: A file as lines, each ended by a newline but perhaps the last, and what an
  append does to them.
Main exports: fileLines, fileLines_append_glued
-/
import Mathlib.Data.List.Basic

namespace Foundation

variable {α : Type*} [DecidableEq α] {newline : α}

/-- The lines of a file; the last one may lack its newline. -/
def fileLines (newline : α) : List α → List (List α)
  | [] => []
  | head :: rest =>
      if head = newline then [] :: fileLines newline rest
      else
        match fileLines newline rest with
        | [] => [[head]]
        | line :: lines => (head :: line) :: lines

/-- Lines written one after the other. -/
def fileText (newline : α) (lines : List (List α)) : List α := lines.flatMap (· ++ [newline])

/-- The last line of the file has its newline. -/
def Terminated (newline : α) (content : List α) : Prop :=
  content = [] ∨ content.getLast? = some newline

instance (content : List α) : Decidable (Terminated newline content) :=
  inferInstanceAs (Decidable (_ ∨ _))

omit [DecidableEq α] in
theorem fileText_cons (line : List α) (lines : List (List α)) :
    fileText newline (line :: lines) = line ++ newline :: fileText newline lines := by
  rw [fileText, List.flatMap_cons, List.append_assoc]
  rfl

omit [DecidableEq α] in
theorem fileText_append (lines more : List (List α)) :
    fileText newline (lines ++ more) = fileText newline lines ++ fileText newline more :=
  List.flatMap_append

theorem fileLines_line {line : List α} (oneLine : newline ∉ line) (rest : List α) :
    fileLines newline (line ++ newline :: rest) = line :: fileLines newline rest := by
  induction line with
  | nil => rw [List.nil_append, fileLines, if_pos rfl]
  | cons head line ih =>
    rw [List.mem_cons, not_or] at oneLine
    rw [List.cons_append, fileLines, if_neg (Ne.symm oneLine.1), ih oneLine.2]

theorem fileLines_last {line : List α} (oneLine : newline ∉ line) (nonempty : line ≠ []) :
    fileLines newline line = [line] := by
  induction line with
  | nil => exact absurd rfl nonempty
  | cons head line ih =>
    rw [List.mem_cons, not_or] at oneLine
    rw [fileLines, if_neg (Ne.symm oneLine.1)]
    cases line with
    | nil => rfl
    | cons next line => rw [ih oneLine.2 (List.cons_ne_nil _ _)]

theorem fileLines_fileText_append {lines : List (List α)}
    (oneLine : ∀ line ∈ lines, newline ∉ line) (rest : List α) :
    fileLines newline (fileText newline lines ++ rest) = lines ++ fileLines newline rest := by
  induction lines with
  | nil => rfl
  | cons line lines ih =>
    rw [fileText_cons, List.append_assoc, List.cons_append,
      fileLines_line (oneLine line List.mem_cons_self),
      ih fun other mem => oneLine other (List.mem_cons_of_mem _ mem)]
    rfl

theorem fileLines_fileText {lines : List (List α)} (oneLine : ∀ line ∈ lines, newline ∉ line) :
    fileLines newline (fileText newline lines) = lines := by
  simpa only [List.append_nil, fileLines] using fileLines_fileText_append oneLine []

/-- Every file is whole lines and an unterminated rest. -/
theorem exists_fileText (newline : α) (content : List α) :
    ∃ lines last, (∀ line ∈ lines, newline ∉ line) ∧ newline ∉ last ∧
      content = fileText newline lines ++ last := by
  induction content with
  | nil => exact ⟨[], [], nofun, List.not_mem_nil, rfl⟩
  | cons head rest ih =>
    obtain ⟨lines, last, oneLine, lastLine, rfl⟩ := ih
    by_cases ends : head = newline
    · subst ends
      refine ⟨[] :: lines, last, ?_, lastLine, rfl⟩
      rintro line (_ | ⟨_, mem⟩)
      · exact List.not_mem_nil
      · exact oneLine line mem
    · cases lines with
      | nil =>
        have stillLine : newline ∉ head :: last := by
          rw [List.mem_cons, not_or]
          exact ⟨Ne.symm ends, lastLine⟩
        exact ⟨[], head :: last, nofun, stillLine, rfl⟩
      | cons line lines =>
        refine ⟨(head :: line) :: lines, last, ?_, lastLine, rfl⟩
        rintro other (_ | ⟨_, mem⟩)
        · rw [List.mem_cons, not_or]
          exact ⟨Ne.symm ends, oneLine line List.mem_cons_self⟩
        · exact oneLine other (List.mem_cons_of_mem _ mem)

omit [DecidableEq α] in
theorem terminated_fileText (lines : List (List α)) :
    Terminated newline (fileText newline lines) := by
  rcases List.eq_nil_or_concat lines with rfl | ⟨front, line, rfl⟩
  · exact .inl rfl
  · refine .inr ?_
    rw [List.concat_eq_append, fileText_append, fileText_cons, ← List.append_assoc]
    exact List.getLast?_concat ..

omit [DecidableEq α] in
theorem terminated_iff {lines : List (List α)} {last : List α} (oneLine : newline ∉ last) :
    Terminated newline (fileText newline lines ++ last) ↔ last = [] := by
  constructor
  · intro terminated
    by_contra nonempty
    rcases terminated with empty | ends
    · exact nonempty (List.append_eq_nil_iff.1 empty).2
    · rw [List.getLast?_append_of_ne_nil _ nonempty] at ends
      exact oneLine (List.mem_of_getLast? ends)
  · rintro rfl
    rw [List.append_nil]
    exact terminated_fileText lines

/-- A separator stands in no segment. -/
theorem separator_notMem_of_mem_splitOn {separator : α} {content segment : List α}
    (member : segment ∈ content.splitOn separator) : separator ∉ segment := by
  induction content generalizing segment with
  | nil =>
    rw [List.mem_singleton.1 member]
    exact List.not_mem_nil
  | cons head content ih =>
    rw [List.splitOn_cons_eq_if_modifyHead] at member
    split at member
    · rcases List.mem_cons.1 member with rfl | inRest
      · exact List.not_mem_nil
      · exact ih inRest
    · next notSeparator =>
      cases rest : content.splitOn separator with
      | nil => exact absurd rest (List.splitOn_ne_nil _ _)
      | cons first others =>
        rw [rest] at member ih
        rw [List.modifyHead_cons] at member
        rcases List.mem_cons.1 member with rfl | inOthers
        · intro mem
          rcases List.mem_cons.1 mem with here | inFirst
          · exact notSeparator (beq_iff_eq.2 here.symm)
          · exact ih List.mem_cons_self inFirst
        · exact ih (List.mem_cons_of_mem _ inOthers)

omit [DecidableEq α] in
theorem intercalate_cons (separator first : List α) (segments : List (List α)) :
    separator.intercalate (first :: segments) =
      first ++ segments.flatMap (separator ++ ·) := by
  induction segments generalizing first with
  | nil => simp [List.intercalate]
  | cons segment segments ih =>
    have rest := ih segment
    rw [List.intercalate, List.intersperse_cons_cons, List.flatten_cons, List.flatten_cons,
      List.flatMap_cons, List.append_assoc separator, ← rest]
    rfl

omit [DecidableEq α] in
theorem infix_intercalate (separator : List α) {segment : List α} {segments : List (List α)}
    (mem : segment ∈ segments) : segment <:+: separator.intercalate segments := by
  obtain ⟨first, segments, rfl⟩ := List.exists_cons_of_ne_nil (List.ne_nil_of_mem mem)
  rw [intercalate_cons]
  rcases List.mem_cons.1 mem with rfl | mem
  · exact (List.prefix_append _ _).isInfix
  · have inRest : separator ++ segment <:+: segments.flatMap (separator ++ ·) :=
      List.infix_of_mem_flatten (List.mem_map_of_mem mem)
    exact ((List.suffix_append _ _).isInfix.trans inRest).trans (List.suffix_append _ _).isInfix

omit [DecidableEq α] in
/-- `${lines.join(newline)}${newline}` -/
theorem intercalate_newline {lines : List (List α)} (nonempty : lines ≠ []) :
    [newline].intercalate lines ++ [newline] = fileText newline lines := by
  obtain ⟨line, lines, rfl⟩ := List.exists_cons_of_ne_nil nonempty
  rw [intercalate_cons]
  induction lines generalizing line with
  | nil =>
    rw [List.flatMap_nil, List.append_nil, fileText_cons]
    rfl
  | cons next lines ih =>
    rw [List.flatMap_cons, List.singleton_append, fileText_cons,
      ← ih next (List.cons_ne_nil _ _), List.append_assoc]
    rfl

/-- Segments that follow each other behind a separator are read back. -/
theorem splitOn_flatMap_cons {separator : α} {segments : List (List α)}
    (whole : ∀ segment ∈ segments, separator ∉ segment) {first : List α}
    (wholeFirst : separator ∉ first) :
    (first ++ segments.flatMap (separator :: ·)).splitOn separator = first :: segments := by
  induction segments generalizing first with
  | nil =>
    rw [List.flatMap_nil, List.append_nil]
    exact List.splitOn_eq_singleton wholeFirst
  | cons segment segments ih =>
    obtain ⟨wholeSegment, wholeRest⟩ := List.forall_mem_cons.1 whole
    rw [List.flatMap_cons, List.cons_append, List.splitOn_append_cons_self_of_not_mem wholeFirst,
      ih wholeRest wholeSegment]

/-- `text.split(newline)` of whole lines and a rest -/
theorem splitOn_fileText_append {lines : List (List α)}
    (oneLine : ∀ line ∈ lines, newline ∉ line) (rest : List α) :
    (fileText newline lines ++ rest).splitOn newline = lines ++ rest.splitOn newline := by
  induction lines with
  | nil => rfl
  | cons line lines ih =>
    rw [fileText_cons, List.append_assoc, List.cons_append,
      List.splitOn_append_cons_self_of_not_mem (oneLine line List.mem_cons_self),
      ih fun other mem => oneLine other (List.mem_cons_of_mem _ mem)]
    rfl

/-- `text.split(newline)` shows one empty line more than a terminated file has. -/
theorem splitOn_cases (newline : α) (content : List α) : (Terminated newline content ∧
        content.splitOn newline = fileLines newline content ++ [[]]) ∨
      (¬Terminated newline content ∧
        content.splitOn newline = fileLines newline content) := by
  obtain ⟨lines, last, whole, lastLine, rfl⟩ := exists_fileText newline content
  rw [terminated_iff lastLine, splitOn_fileText_append whole, List.splitOn_eq_singleton lastLine,
    fileLines_fileText_append whole]
  by_cases empty : last = []
  · subst empty
    refine .inl ⟨rfl, ?_⟩
    rw [fileLines, List.append_nil]
  · refine .inr ⟨empty, ?_⟩
    rw [fileLines_last lastLine empty]

/-! ### Appending a line -/

/-- A terminated file gains the line. -/
theorem fileLines_append_line {content line : List α} (terminated : Terminated newline content)
    (oneLine : newline ∉ line) :
    fileLines newline (content ++ (line ++ [newline])) = fileLines newline content ++ [line] := by
  obtain ⟨lines, last, whole, lastLine, rfl⟩ := exists_fileText newline content
  cases (terminated_iff lastLine).1 terminated
  rw [List.append_nil, fileLines_fileText_append whole, fileLines_line oneLine,
    fileLines_fileText whole]
  rfl

/-- In an unterminated file the line is glued to the last one. -/
theorem fileLines_append_glued {content line : List α}
    (unterminated : ¬Terminated newline content) (oneLine : newline ∉ line) :
    ∃ front last, last ≠ [] ∧ fileLines newline content = front ++ [last] ∧
      fileLines newline (content ++ (line ++ [newline])) = front ++ [last ++ line] := by
  obtain ⟨lines, last, whole, lastLine, rfl⟩ := exists_fileText newline content
  rw [terminated_iff lastLine] at unterminated
  have glued : newline ∉ last ++ line := by
    rw [List.mem_append, not_or]
    exact ⟨lastLine, oneLine⟩
  refine ⟨lines, last, unterminated, ?_, ?_⟩
  · rw [fileLines_fileText_append whole, fileLines_last lastLine unterminated]
  · rw [List.append_assoc, ← List.append_assoc last, fileLines_fileText_append whole,
      fileLines_line glued]
    rfl

/-- No line holds a newline. -/
theorem oneLine_of_mem_fileLines {content line : List α}
    (mem : line ∈ fileLines newline content) : newline ∉ line := by
  obtain ⟨lines, last, whole, lastLine, rfl⟩ := exists_fileText newline content
  rw [fileLines_fileText_append whole] at mem
  rcases List.mem_append.1 mem with isWhole | isLast
  · exact whole line isWhole
  · cases last with
    | nil => cases isLast
    | cons head last =>
      rw [fileLines_last lastLine (List.cons_ne_nil _ _)] at isLast
      rw [List.mem_singleton.1 isLast]
      exact lastLine

end Foundation
