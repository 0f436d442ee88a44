/-
Module: Paratix.Foundation.Records
Purpose: A file as records, each with its newline but perhaps the last.
Main exports: fileRecords, fileRecords_append_newline
-/
import Paratix.Foundation.Lines

namespace Foundation

variable {α : Type*} [DecidableEq α] {newline : α}

def fileRecords (newline : α) : List α → List (List α)
  | [] => []
  | head :: rest =>
      if head = newline then [newline] :: fileRecords newline rest
      else
        match fileRecords newline rest with
        | [] => [[head]]
        | record :: records => (head :: record) :: records

/-- Only the last record may lack its newline. -/
inductive IsRecords (newline : α) : List (List α) → Prop where
  | nil : IsRecords newline []
  | last {record : List α} (nonempty : record ≠ []) (oneLine : newline ∉ record) :
      IsRecords newline [record]
  | cons {line : List α} {records : List (List α)} (oneLine : newline ∉ line)
      (rest : IsRecords newline records) : IsRecords newline ((line ++ [newline]) :: records)

theorem fileRecords_line {line : List α} (oneLine : newline ∉ line) (rest : List α) :
    fileRecords newline (line ++ newline :: rest) =
      (line ++ [newline]) :: fileRecords newline rest := by
  induction line with
  | nil => rw [List.nil_append, fileRecords, if_pos rfl, List.nil_append]
  | cons head line ih =>
    rw [List.mem_cons, not_or] at oneLine
    rw [List.cons_append, fileRecords, if_neg (Ne.symm oneLine.1), ih oneLine.2]
    rfl

theorem fileRecords_last {record : List α} (nonempty : record ≠ []) (oneLine : newline ∉ record) :
    fileRecords newline record = [record] := by
  induction record with
  | nil => exact absurd rfl nonempty
  | cons head record ih =>
    rw [List.mem_cons, not_or] at oneLine
    rw [fileRecords, if_neg (Ne.symm oneLine.1)]
    cases record with
    | nil => rfl
    | cons next record => rw [ih (List.cons_ne_nil _ _) oneLine.2]

/-- What is written as records is read as these. -/
theorem fileRecords_flatten {records : List (List α)} (areRecords : IsRecords newline records) :
    fileRecords newline records.flatten = records := by
  induction areRecords with
  | nil => rfl
  | last nonempty oneLine =>
    rw [List.flatten_cons, List.flatten_nil, List.append_nil, fileRecords_last nonempty oneLine]
  | cons oneLine _ ih =>
    rw [List.flatten_cons, List.append_assoc, List.singleton_append, fileRecords_line oneLine, ih]

theorem fileRecords_fileText_append {lines : List (List α)}
    (oneLine : ∀ line ∈ lines, newline ∉ line) (rest : List α) :
    fileRecords newline (fileText newline lines ++ rest) =
      lines.map (· ++ [newline]) ++ fileRecords newline rest := by
  induction lines with
  | nil => rfl
  | cons line lines ih =>
    rw [List.forall_mem_cons] at oneLine
    rw [fileText_cons, List.append_assoc, List.cons_append, fileRecords_line oneLine.1,
      ih oneLine.2]
    rfl

theorem exists_records (newline : α) (content : List α) :
    ∃ records, IsRecords newline records ∧ content = records.flatten := by
  obtain ⟨lines, last, whole, lastLine, rfl⟩ := exists_fileText newline content
  induction lines with
  | nil =>
    by_cases empty : last = []
    · exact ⟨[], .nil, empty⟩
    · exact ⟨[last], .last empty lastLine, by simp [fileText]⟩
  | cons line lines ih =>
    rw [List.forall_mem_cons] at whole
    obtain ⟨records, areRecords, content⟩ := ih whole.2
    refine ⟨_, .cons whole.1 areRecords, ?_⟩
    rw [List.flatten_cons, ← content, fileText_cons, List.append_assoc, List.append_assoc]
    rfl

theorem isRecords_fileRecords (content : List α) :
    IsRecords newline (fileRecords newline content) := by
  obtain ⟨records, areRecords, rfl⟩ := exists_records newline content
  rwa [fileRecords_flatten areRecords]

theorem flatten_fileRecords (content : List α) :
    (fileRecords newline content).flatten = content := by
  obtain ⟨records, areRecords, rfl⟩ := exists_records newline content
  rw [fileRecords_flatten areRecords]

/-- A file is told by its records. -/
theorem fileRecords_injective (newline : α) {content other : List α}
    (same : fileRecords newline content = fileRecords newline other) : content = other := by
  rw [← @flatten_fileRecords _ _ newline content, same, flatten_fileRecords]

/-! ### Edits of records -/

section Edits

variable {records : List (List α)}

omit [DecidableEq α] in
/-- Some of the records, in their order, are records. -/
theorem IsRecords.sublist {some : List (List α)} (areRecords : IsRecords newline records)
    (part : some.Sublist records) : IsRecords newline some := by
  induction areRecords generalizing some with
  | nil => rw [List.sublist_nil.1 part]; exact .nil
  | last nonempty oneLine =>
    rcases List.sublist_singleton.1 part with rfl | rfl
    · exact .nil
    · exact .last nonempty oneLine
  | cons oneLine rest ih =>
    rcases List.sublist_cons_iff.1 part with inRest | ⟨some', rfl, inRest⟩
    · exact ih inRest
    · exact .cons oneLine (ih inRest)

omit [DecidableEq α] in
/-- A whole record takes the place of any record. -/
theorem IsRecords.replaced {front back : List (List α)} {record line : List α}
    (areRecords : IsRecords newline (front ++ record :: back)) (oneLine : newline ∉ line) :
    IsRecords newline (front ++ (line ++ [newline]) :: back) := by
  induction front with
  | nil =>
    cases areRecords with
    | last => exact .cons oneLine .nil
    | cons _ rest => exact .cons oneLine rest
  | cons first front ih =>
    generalize whole : first :: front ++ record :: back = all at areRecords
    cases areRecords with
    | nil => cases whole
    | last =>
      obtain ⟨_, empty⟩ := List.cons.inj whole
      exact absurd empty (List.append_ne_nil_of_right_ne_nil _ (List.cons_ne_nil _ _))
    | cons isLine rest =>
      obtain ⟨rfl, rfl⟩ := List.cons.inj whole
      exact .cons isLine (ih rest)

omit [DecidableEq α] in
theorem IsRecords.flatten_last (areRecords : IsRecords newline records) :
    Terminated newline records.flatten ∧ (∀ line, newline ∉ line →
        IsRecords newline (records ++ [line ++ [newline]])) ∨
      ¬Terminated newline records.flatten ∧ ∃ front last, records = front ++ [last] ∧
        newline ∉ last ∧ IsRecords newline (front ++ [last ++ [newline]]) := by
  induction areRecords with
  | nil => exact .inl ⟨.inl rfl, fun line oneLine => .cons oneLine .nil⟩
  | @last record nonempty oneLine =>
    refine .inr ⟨?_, [], record, rfl, oneLine, .cons oneLine .nil⟩
    rintro (empty | ends)
    · rw [List.flatten_cons, List.flatten_nil, List.append_nil] at empty
      exact nonempty empty
    · rw [List.flatten_cons, List.flatten_nil, List.append_nil] at ends
      exact oneLine (List.mem_of_getLast? ends)
  | @cons line records oneLine rest ih =>
    have flat : ((line ++ [newline]) :: records).flatten = line ++ newline :: records.flatten := by
      rw [List.flatten_cons, List.append_assoc]
      rfl
    have same : Terminated newline (line ++ newline :: records.flatten) ↔
        Terminated newline records.flatten := by
      rw [Terminated, Terminated, List.getLast?_append_cons]
      cases records.flatten with
      | nil => simp
      | cons head tail => simp [List.getLast?_cons_cons]
    rw [flat, same]
    refine ih.imp ?_ ?_
    · rintro ⟨terminated, appended⟩
      exact ⟨terminated, fun own isLine => .cons oneLine (appended own isLine)⟩
    · rintro ⟨unterminated, front, last, rfl, lastLine, whole⟩
      exact ⟨unterminated, _ :: front, last, rfl, lastLine, .cons oneLine whole⟩

/-- A record behind a terminated file is one of its own. -/
theorem fileRecords_append_record {content line : List α} (terminated : Terminated newline content)
    (oneLine : newline ∉ line) : fileRecords newline (content ++ (line ++ [newline])) =
      fileRecords newline content ++ [line ++ [newline]] := by
  obtain ⟨records, areRecords, rfl⟩ := exists_records newline content
  rcases areRecords.flatten_last with ⟨_, appended⟩ | ⟨unterminated, _⟩
  · rw [fileRecords_flatten areRecords, ← fileRecords_flatten (appended line oneLine),
      List.flatten_append, List.flatten_singleton]
  · exact absurd terminated unterminated

/-- A newline behind an unterminated file ends its last record. -/
theorem fileRecords_append_newline {content : List α} (unterminated : ¬Terminated newline content) :
    ∃ front last, fileRecords newline content = front ++ [last] ∧
      fileRecords newline (content ++ [newline]) = front ++ [last ++ [newline]] := by
  obtain ⟨records, areRecords, rfl⟩ := exists_records newline content
  rcases areRecords.flatten_last with ⟨terminated, _⟩ | ⟨_, front, last, rfl, _, whole⟩
  · exact absurd terminated unterminated
  · refine ⟨front, last, fileRecords_flatten areRecords, ?_⟩
    rw [← fileRecords_flatten whole, List.flatten_append, List.flatten_append,
      List.flatten_singleton, List.flatten_singleton, List.append_assoc]

omit [DecidableEq α] in
theorem terminated_append_newline (content : List α) : Terminated newline (content ++ [newline]) :=
  .inr List.getLast?_concat

end Edits

end Foundation
