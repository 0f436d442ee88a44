/-
Module: Paratix.Foundation.Sieve
Purpose: Texts in which occurrences of words are replaced by a marker, and automata that drop some
  cells of such a text.
Main exports: Redacts, Sieve.infix_kept_redacted
-/
import Paratix.Foundation.ReplaceAll

namespace Foundation

variable {α : Type*}

/-- The second text is the first one with disjoint occurrences of the patterns
replaced by the marker. -/
inductive Redacts (patterns : List (List α)) (marker : List α) :
    List α → List α → Prop where
  | done : Redacts patterns marker [] []
  | copy {cell : α} {text result : List α} (rest : Redacts patterns marker text result) :
      Redacts patterns marker (cell :: text) (cell :: result)
  | hit {pattern text result : List α} (member : pattern ∈ patterns)
      (rest : Redacts patterns marker text result) :
      Redacts patterns marker (pattern ++ text) (marker ++ result)

namespace Redacts

variable {patterns : List (List α)} {marker : List α}

theorem refl (text : List α) : Redacts patterns marker text text := by
  induction text with
  | nil => exact .done
  | cons cell text ih => exact .copy ih

theorem append {first firstResult second secondResult : List α}
    (firstRedacts : Redacts patterns marker first firstResult)
    (secondRedacts : Redacts patterns marker second secondResult) :
    Redacts patterns marker (first ++ second) (firstResult ++ secondResult) := by
  induction firstRedacts with
  | done => exact secondRedacts
  | copy _ ih => exact .copy ih
  | hit member _ ih =>
    rw [List.append_assoc, List.append_assoc]
    exact .hit member ih

/-- Where no pattern occurs nothing is replaced. -/
theorem eq_of_absent {text result : List α} (redacts : Redacts patterns marker text result)
    (absent : ∀ pattern ∈ patterns, ¬ pattern <:+: text) : result = text := by
  induction redacts with
  | done => rfl
  | @copy cell text result _ ih =>
    have restAbsent : ∀ pattern ∈ patterns, ¬ pattern <:+: text :=
      fun pattern member found =>
        absent pattern member (found.trans (List.suffix_cons cell text).isInfix)
    rw [ih restAbsent]
  | hit member _ _ => exact absurd (List.prefix_append _ _).isInfix (absent _ member)

/-- A cell that no pattern holds splits the text and the result. -/
theorem split_spare {spare : α} (absent : ∀ pattern ∈ patterns, spare ∉ pattern)
    {front back result : List α}
    (redacts : Redacts patterns marker (front ++ spare :: back) result) :
    ∃ frontResult backResult, result = frontResult ++ spare :: backResult ∧
      Redacts patterns marker front frontResult ∧ Redacts patterns marker back backResult := by
  generalize textEq : front ++ spare :: back = text at redacts
  induction redacts generalizing front with
  | done => simp at textEq
  | @copy cell text result rest ih =>
    cases front with
    | nil =>
      cases textEq
      exact ⟨[], result, rfl, .done, rest⟩
    | cons head front =>
      obtain ⟨headEq, tailEq⟩ := List.cons.inj textEq
      obtain ⟨frontResult, backResult, resultEq, frontRedacts, backRedacts⟩ := ih tailEq
      exact ⟨cell :: frontResult, backResult, by rw [resultEq, List.cons_append],
        headEq ▸ .copy frontRedacts, backRedacts⟩
  | @hit pattern text result member rest ih =>
    rcases List.append_eq_append_iff.1 textEq with
      ⟨middle, patternEq, tailEq⟩ | ⟨middle, frontEq, tailEq⟩
    · cases middle with
      | nil =>
        obtain ⟨frontResult, backResult, resultEq, frontRedacts, backRedacts⟩ := @ih [] tailEq
        rw [List.append_nil] at patternEq
        refine ⟨marker ++ frontResult, backResult, ?_, ?_, backRedacts⟩
        · rw [resultEq, List.append_assoc]
        · have marked : Redacts patterns marker (pattern ++ []) (marker ++ frontResult) :=
            .hit member frontRedacts
          rw [patternEq, List.append_nil] at marked
          exact marked
      | cons head middle =>
        have isSpare : spare = head := (List.cons.inj tailEq).1
        have inPattern : spare ∈ pattern := by
          rw [patternEq, isSpare]
          exact List.mem_append_right _ List.mem_cons_self
        exact absurd inPattern (absent pattern member)
    · obtain ⟨frontResult, backResult, resultEq, frontRedacts, backRedacts⟩ := ih tailEq.symm
      refine ⟨marker ++ frontResult, backResult, ?_, ?_, backRedacts⟩
      · rw [resultEq, List.append_assoc]
      · rw [frontEq]
        exact .hit member frontRedacts

/-- The end of a word apart from the marker at the start of the result is copied
from the text. -/
theorem ended_of_result {begun ended : List α} (apart : Apart (begun ++ ended) marker) :
    ∀ {text result : List α}, Redacts patterns marker text (ended ++ result) →
      ∃ rest, text = ended ++ rest ∧ Redacts patterns marker rest result := by
  induction ended generalizing begun with
  | nil =>
    intro text result redacts
    exact ⟨text, rfl, redacts⟩
  | cons cell ended ih =>
    intro text result redacts
    generalize wholeEq : (cell :: ended) ++ result = whole at redacts
    cases redacts with
    | done => cases wholeEq
    | copy rest =>
      cases wholeEq
      have restApart : Apart ((begun ++ [cell]) ++ ended) marker := by
        rw [List.append_assoc]
        exact apart
      obtain ⟨tail, textEq, tailRedacts⟩ := ih restApart rest
      exact ⟨tail, by rw [textEq, List.cons_append], tailRedacts⟩
    | @hit _ _ markedResult _ _ =>
      have texts : begun ++ (marker ++ markedResult) =
          [] ++ ((begun ++ cell :: ended) ++ result) := by
        rw [← wholeEq, List.nil_append, List.append_assoc]
      rcases apart.occurrence texts with ⟨tail, begunEq, _⟩ | ⟨start, nilEq, _⟩
      · have lengths := congrArg List.length begunEq
        simp only [List.nil_append, List.length_append, List.length_cons] at lengths
        omega
      · have lengths := congrArg List.length nilEq
        simp only [List.length_nil, List.length_append] at lengths
        exact absurd (List.length_eq_zero_iff.1 (by omega)) apart.marker_ne_nil

variable [DecidableEq α]

/-- A further pass for one of the patterns. -/
theorem replaceAll {pattern : List α} (member : pattern ∈ patterns)
    (apart : Apart pattern marker) {text cells : List α}
    (redacts : Redacts patterns marker text cells) :
    Redacts patterns marker text (replaceAll id pattern marker cells) := by
  have valueApart : Apart pattern (marker.map id) := by
    rw [List.map_id]
    exact apart
  induction hlen : cells.length using Nat.strong_induction_on generalizing text cells with
  | _ length ih =>
    by_cases found : pattern <+: cells
    · obtain ⟨rest, cellsEq⟩ := found
      subst cellsEq
      have whole : Apart ([] ++ pattern) marker := apart
      obtain ⟨tail, textEq, tailRedacts⟩ := ended_of_result whole redacts
      rw [replaceAll_hit apart.pattern_ne_nil (List.map_id pattern), textEq]
      have positive := List.length_pos_iff.2 apart.pattern_ne_nil
      rw [List.length_append] at hlen
      exact .hit member (ih rest.length (by omega) tailRedacts rfl)
    · cases redacts with
      | done => exact .done
      | @copy cell text cells rest =>
        have miss : ¬ pattern <+: (cell :: cells).map id := by
          rw [List.map_id]
          exact found
        rw [replaceAll_copy miss]
        rw [List.length_cons] at hlen
        exact .copy (ih cells.length (by omega) rest rfl)
      | @hit other text cells otherMember rest =>
        have passed := replaceAll_marker valueApart [] cells
        rw [List.nil_append, replaceAll_nil, List.nil_append] at passed
        rw [passed]
        have positive := List.length_pos_iff.2 apart.marker_ne_nil
        rw [List.length_append] at hlen
        exact .hit otherMember (ih cells.length (by omega) rest rfl)

/-- Further passes for some of the patterns. -/
theorem replaceEach {passes : List (List α)} (members : ∀ pattern ∈ passes, pattern ∈ patterns)
    (apart : ∀ pattern ∈ passes, Apart pattern marker) {text cells : List α}
    (redacts : Redacts patterns marker text cells) :
    Redacts patterns marker text (replaceEach id passes marker cells) := by
  induction passes generalizing cells with
  | nil => exact redacts
  | cons pattern passes ih =>
    rw [replaceEach_cons]
    apply ih
    · exact fun other member => members other (List.mem_cons_of_mem _ member)
    · exact fun other member => apart other (List.mem_cons_of_mem _ member)
    · exact redacts.replaceAll (members pattern List.mem_cons_self)
        (apart pattern List.mem_cons_self)

end Redacts

variable {σ α : Type*}

/-- An automaton that keeps or drops each cell. -/
structure Sieve (σ α : Type*) where
  next : σ → α → σ
  keeps : σ → α → Bool

namespace Sieve

variable (sieve : Sieve σ α)

def after (state : σ) (text : List α) : σ :=
  text.foldl sieve.next state

def kept (state : σ) : List α → List α
  | [] => []
  | cell :: text =>
      if sieve.keeps state cell then cell :: kept (sieve.next state cell) text
      else kept (sieve.next state cell) text

@[simp] theorem after_nil (state : σ) : sieve.after state [] = state := rfl

@[simp] theorem after_cons (state : σ) (cell : α) (text : List α) :
    sieve.after state (cell :: text) = sieve.after (sieve.next state cell) text := rfl

@[simp] theorem after_append (state : σ) (front back : List α) :
    sieve.after state (front ++ back) = sieve.after (sieve.after state front) back :=
  List.foldl_append

@[simp] theorem kept_nil (state : σ) : sieve.kept state [] = [] := rfl

theorem kept_append (state : σ) (front back : List α) : sieve.kept state (front ++ back) =
      sieve.kept state front ++ sieve.kept (sieve.after state front) back := by
  induction front generalizing state with
  | nil => rfl
  | cons cell front ih =>
    simp only [List.cons_append, kept, after_cons, ih]
    split
    · rw [List.cons_append]
    · rfl

variable {sieve}

theorem kept_cons_of_keeps {state : σ} {cell : α} (keeps : sieve.keeps state cell = true)
    (text : List α) :
    sieve.kept state (cell :: text) = cell :: sieve.kept (sieve.next state cell) text := by
  rw [kept, if_pos keeps]

theorem kept_cons_of_drops {state : σ} {cell : α} (drops : ¬ sieve.keeps state cell = true)
    (text : List α) :
    sieve.kept state (cell :: text) = sieve.kept (sieve.next state cell) text := by
  rw [kept, if_neg drops]

/-- At some dropped cell, what is kept before it ends with a beginning of the word
that what is kept after it completes. -/
def Interrupted (sieve : Sieve σ α) (state : σ) (word text : List α) : Prop :=
  ∃ front cell back first second, text = front ++ cell :: back ∧
    ¬ sieve.keeps (sieve.after state front) cell = true ∧ word = first ++ second ∧
    first ≠ [] ∧ second ≠ [] ∧ first <:+ sieve.kept state front ∧
    second <+: sieve.kept (sieve.next (sieve.after state front) cell) back

theorem Interrupted.shift {state : σ} {word text : List α} (passed : List α)
    (interrupted : Interrupted sieve (sieve.after state passed) word text) :
    Interrupted sieve state word (passed ++ text) := by
  obtain ⟨front, cell, back, first, second, textEq, drops, wordEq, firstSome, secondSome,
    before, behind⟩ := interrupted
  rw [← after_append] at drops behind
  refine ⟨passed ++ front, cell, back, first, second, ?_, drops, wordEq, firstSome,
    secondSome, ?_, behind⟩
  · rw [textEq, List.append_assoc]
  · rw [kept_append]
    exact before.trans (List.suffix_append _ _)

/-- The sieve closes the gap. -/
theorem Interrupted.infix_kept {state : σ} {word text : List α}
    (interrupted : Interrupted sieve state word text) : word <:+: sieve.kept state text := by
  obtain ⟨front, cell, back, first, second, textEq, drops, wordEq, _, _, before, behind⟩ :=
    interrupted
  obtain ⟨begun, begunEq⟩ := before
  obtain ⟨ended, endedEq⟩ := behind
  refine ⟨begun, ended, ?_⟩
  rw [textEq, kept_append, kept_cons_of_drops drops, ← begunEq, ← endedEq, wordEq]
  simp only [List.append_assoc]

/-- In the state the pattern and its marker are both passed over without a trace
in the state, and a marker that is not shown replaces nothing that is. -/
structure Passes (sieve : Sieve σ α) (state : σ) (pattern marker : List α) : Prop where
  pattern_after : sieve.after state pattern = state
  marker_after : sieve.after state marker = state
  shown : sieve.kept state marker = marker ∨
    sieve.kept state marker = [] ∧ sieve.kept state pattern = []

/-- Every occurrence of a pattern in the text is passed over. -/
def Undisturbed (sieve : Sieve σ α) (state : σ) (patterns : List (List α))
    (marker text : List α) : Prop :=
  ∀ before pattern rest, pattern ∈ patterns → text = before ++ (pattern ++ rest) →
    Passes sieve (sieve.after state before) pattern marker

theorem Undisturbed.drop {state : σ} {patterns : List (List α)} {marker front text : List α}
    (undisturbed : Undisturbed sieve state patterns marker (front ++ text)) :
    Undisturbed sieve (sieve.after state front) patterns marker text := by
  intro before pattern rest member textEq
  have passes := undisturbed (front ++ before) pattern rest member
    (by rw [textEq, List.append_assoc])
  rw [after_append] at passes
  exact passes

theorem Undisturbed.tail {state : σ} {patterns : List (List α)} {marker text : List α}
    {cell : α} (undisturbed : Undisturbed sieve state patterns marker (cell :: text)) :
    Undisturbed sieve (sieve.next state cell) patterns marker text := by
  intro before pattern rest member textEq
  exact undisturbed (cell :: before) pattern rest member (by rw [textEq, List.cons_append])

/-! ### Both conditions can be tested -/

section Decidable

variable [DecidableEq α]

instance (sieve : Sieve σ α) (state : σ) (word text : List α) :
    Decidable (Interrupted sieve state word text) :=
  decidable_of_iff
    (∃ index : Fin text.length, ∃ cut : Fin word.length, 0 < cut.val ∧
      ¬ sieve.keeps (sieve.after state (text.take index)) text[index] = true ∧
      word.take cut <:+ sieve.kept state (text.take index) ∧
      word.drop cut <+:
        sieve.kept (sieve.next (sieve.after state (text.take index)) text[index])
          (text.drop (index + 1))) (by
    constructor
    · intro found
      obtain ⟨index, cut, positive, drops, before, behind⟩ := found
      refine ⟨text.take index, text[index], text.drop (index + 1), word.take cut,
        word.drop cut, ?_, drops, ?_, ?_, ?_, before, behind⟩
      · rw [Fin.getElem_fin, List.cons_getElem_drop_succ, List.take_append_drop]
      · rw [List.take_append_drop]
      · apply List.ne_nil_of_length_pos
        rw [List.length_take]
        exact Nat.lt_min.mpr ⟨positive, Nat.lt_of_lt_of_le positive (Nat.le_of_lt cut.isLt)⟩
      · apply List.ne_nil_of_length_pos
        rw [List.length_drop]
        exact Nat.sub_pos_of_lt cut.isLt
    · intro interrupted
      obtain ⟨front, cell, back, first, second, textEq, drops, wordEq, firstSome, secondSome,
        before, behind⟩ := interrupted
      subst textEq wordEq
      have inText : front.length < (front ++ cell :: back).length := by simp
      have inWord : first.length < (first ++ second).length := by
        rw [List.length_append]
        exact Nat.lt_add_of_pos_right (List.length_pos_iff.mpr secondSome)
      refine ⟨⟨front.length, inText⟩, ⟨first.length, inWord⟩,
        List.length_pos_iff.mpr firstSome, ?_⟩
      simpa using ⟨by simpa using drops, before, behind⟩)

instance [DecidableEq σ] (sieve : Sieve σ α) (state : σ) (pattern marker : List α) :
    Decidable (Passes sieve state pattern marker) :=
  decidable_of_iff
    (sieve.after state pattern = state ∧ sieve.after state marker = state ∧
      (sieve.kept state marker = marker ∨
        sieve.kept state marker = [] ∧ sieve.kept state pattern = []))
    ⟨fun parts => ⟨parts.1, parts.2.1, parts.2.2⟩,
      fun passes => ⟨passes.pattern_after, passes.marker_after, passes.shown⟩⟩

instance [DecidableEq σ] (sieve : Sieve σ α) (state : σ) (patterns : List (List α))
    (marker text : List α) : Decidable (Undisturbed sieve state patterns marker text) :=
  decidable_of_iff
    (∀ pattern ∈ patterns, ∀ index : Fin (text.length + 1), pattern <+: text.drop index →
      Passes sieve (sieve.after state (text.take index)) pattern marker) (by
    constructor
    · intro tested before pattern rest member textEq
      have inText : before.length < text.length + 1 := by
        rw [textEq, List.length_append]
        exact Nat.lt_succ_of_le (Nat.le_add_right _ _)
      have passes := tested pattern member ⟨before.length, inText⟩
      subst textEq
      simp only [List.drop_left, List.take_left] at passes
      exact passes (List.prefix_append _ _)
    · intro undisturbed pattern member index isPrefix
      obtain ⟨rest, restEq⟩ := isPrefix
      apply undisturbed (text.take index) pattern rest member
      rw [restEq, List.take_append_drop])

end Decidable

/-! ### What is kept of a redacted text -/

/-- The word is kept at the start of the text, with a dropped cell before its
end. -/
def Broken (sieve : Sieve σ α) (state : σ) (word text : List α) : Prop :=
  ∃ front cell back second, text = front ++ cell :: back ∧
    ¬ sieve.keeps (sieve.after state front) cell = true ∧
    word = sieve.kept state front ++ second ∧ second ≠ [] ∧
    second <+: sieve.kept (sieve.next (sieve.after state front) cell) back

theorem Broken.cons {state : σ} {cell : α} {word text : List α}
    (keeps : sieve.keeps state cell = true)
    (broken : Broken sieve (sieve.next state cell) word text) :
    Broken sieve state (cell :: word) (cell :: text) := by
  obtain ⟨front, dropped, back, second, textEq, drops, wordEq, secondSome, behind⟩ := broken
  refine ⟨cell :: front, dropped, back, second, ?_, drops, ?_, secondSome, behind⟩
  · rw [textEq, List.cons_append]
  · rw [kept_cons_of_keeps keeps, wordEq, List.cons_append]

theorem Broken.interrupted {state : σ} {cell : α} {word text : List α}
    (keeps : sieve.keeps state cell = true)
    (broken : Broken sieve (sieve.next state cell) word text) :
    Interrupted sieve state (cell :: word) (cell :: text) := by
  obtain ⟨front, dropped, back, second, textEq, drops, wordEq, secondSome, behind⟩ :=
    broken.cons keeps
  cases front with
  | nil =>
    cases textEq
    exact absurd keeps drops
  | cons head front =>
    have isHead : cell = head := (List.cons.inj textEq).1
    subst isHead
    refine ⟨cell :: front, dropped, back, sieve.kept state (cell :: front), second, textEq,
      drops, wordEq, ?_, secondSome, List.suffix_rfl, behind⟩
    rw [kept_cons_of_keeps keeps]
    exact List.cons_ne_nil _ _

theorem Broken.of_drops {state : σ} {cell : α} {word text : List α}
    (drops : ¬ sieve.keeps state cell = true) (wordSome : word ≠ [])
    (behind : word <+: sieve.kept (sieve.next state cell) text) :
    Broken sieve state word (cell :: text) :=
  ⟨[], cell, text, word, rfl, drops, rfl, wordSome, behind⟩

section Redacted

variable {patterns : List (List α)} {marker : List α}

/-- What the sieve keeps at the start of a redacted text it also keeps of the
text itself, and it stands there in one piece or broken. -/
theorem prefix_kept_redacted {begun ended : List α} (apart : Apart (begun ++ ended) marker)
    {state : σ} {text result : List α} (redacts : Redacts patterns marker text result)
    (nonempty : ∀ pattern ∈ patterns, pattern ≠ [])
    (undisturbed : Undisturbed sieve state patterns marker text)
    (found : ended <+: sieve.kept state result) :
    ended <+: sieve.kept state text ∧ (ended <+: result ∨ Broken sieve state ended text) := by
  induction redacts generalizing begun ended state with
  | done => exact ⟨found, .inl found⟩
  | @copy cell text result rest ih =>
    cases ended with
    | nil => exact ⟨List.nil_prefix, .inl List.nil_prefix⟩
    | cons head ended =>
      by_cases keeps : sieve.keeps state cell = true
      · rw [kept_cons_of_keeps keeps] at found ⊢
        obtain ⟨headEq, tailFound⟩ := List.cons_prefix_cons.1 found
        subst headEq
        have restApart : Apart ((begun ++ [head]) ++ ended) marker := by
          rw [List.append_assoc]
          exact apart
        obtain ⟨inText, inTail⟩ := ih restApart undisturbed.tail tailFound
        constructor
        · exact List.cons_prefix_cons.2 ⟨rfl, inText⟩
        · rcases inTail with inResult | broken
          · exact .inl (List.cons_prefix_cons.2 ⟨rfl, inResult⟩)
          · exact .inr (broken.cons keeps)
      · rw [kept_cons_of_drops keeps] at found ⊢
        have inText := (ih apart undisturbed.tail found).1
        exact ⟨inText, .inr (.of_drops keeps (List.cons_ne_nil _ _) inText)⟩
  | @hit pattern text result member rest ih =>
    cases ended with
    | nil => exact ⟨List.nil_prefix, .inl List.nil_prefix⟩
    | cons head ended =>
      have passes : Passes sieve state pattern marker := undisturbed [] pattern text member rfl
      have restUndisturbed := undisturbed.drop
      rw [passes.pattern_after] at restUndisturbed
      rw [kept_append, passes.marker_after] at found
      rcases passes.shown with shown | ⟨markerDropped, patternDropped⟩
      · -- a shown marker would share cells with the word
        rw [shown] at found
        obtain ⟨tail, texts⟩ := found
        have aligned : begun ++ (marker ++ sieve.kept state result) =
            [] ++ ((begun ++ head :: ended) ++ tail) := by
          rw [← texts, List.nil_append, List.append_assoc]
        rcases apart.occurrence aligned with ⟨after, begunEq, _⟩ | ⟨start, nilEq, _⟩
        · have lengths := congrArg List.length begunEq
          simp only [List.nil_append, List.length_append, List.length_cons] at lengths
          omega
        · have lengths := congrArg List.length nilEq
          simp only [List.length_nil, List.length_append] at lengths
          exact absurd (List.length_eq_zero_iff.1 (by omega)) apart.marker_ne_nil
      · rw [markerDropped, List.nil_append] at found
        have inText := (ih apart restUndisturbed found).1
        have inWhole : head :: ended <+: sieve.kept state (pattern ++ text) := by
          rw [kept_append, patternDropped, passes.pattern_after]
          exact inText
        constructor
        · exact inWhole
        · cases pattern with
          | nil => exact absurd rfl (nonempty _ member)
          | cons cell tail =>
            have drops : ¬ sieve.keeps state cell = true := by
              intro keeps
              rw [kept_cons_of_keeps keeps] at patternDropped
              cases patternDropped
            rw [List.cons_append, kept_cons_of_drops drops] at inWhole
            exact .inr (.of_drops drops (List.cons_ne_nil _ _) inWhole)

/-- A word apart from the marker that the sieve keeps of a redacted text stands
in the redacted text in one piece, or interrupted in the text itself. -/
theorem infix_kept_redacted {word : List α} (apart : Apart word marker) {state : σ}
    {text result : List α} (redacts : Redacts patterns marker text result)
    (nonempty : ∀ pattern ∈ patterns, pattern ≠ [])
    (undisturbed : Undisturbed sieve state patterns marker text)
    (found : word <:+: sieve.kept state result) :
    word <:+: result ∨ Interrupted sieve state word text := by
  induction redacts generalizing state with
  | done => exact absurd (List.infix_nil.1 found) apart.pattern_ne_nil
  | @copy cell text result rest ih =>
    have inTail : word <:+: sieve.kept (sieve.next state cell) result →
        word <:+: cell :: result ∨ Interrupted sieve state word (cell :: text) := by
      intro tailFound
      rcases ih undisturbed.tail tailFound with inResult | interrupted
      · exact .inl (inResult.trans ⟨[cell], [], by simp⟩)
      · exact .inr (Interrupted.shift [cell] interrupted)
    by_cases keeps : sieve.keeps state cell = true
    · rw [kept_cons_of_keeps keeps, List.infix_cons_iff] at found
      rcases found with atStart | tailFound
      · cases word with
        | nil => exact absurd rfl apart.pattern_ne_nil
        | cons head ended =>
          obtain ⟨headEq, endedFound⟩ := List.cons_prefix_cons.1 atStart
          subst headEq
          have restApart : Apart ([head] ++ ended) marker := apart
          rcases (prefix_kept_redacted restApart rest nonempty undisturbed.tail
            endedFound).2 with inResult | broken
          · exact .inl (List.cons_prefix_cons.2 ⟨rfl, inResult⟩).isInfix
          · exact .inr (broken.interrupted keeps)
      · exact inTail tailFound
    · rw [kept_cons_of_drops keeps] at found
      exact inTail found
  | @hit pattern text result member rest ih =>
    have passes : Passes sieve state pattern marker := undisturbed [] pattern text member rfl
    have restUndisturbed := undisturbed.drop
    have inTail : word <:+: sieve.kept state result →
        word <:+: marker ++ result ∨ Interrupted sieve state word (pattern ++ text) := by
      intro tailFound
      rw [passes.pattern_after] at restUndisturbed
      rcases ih restUndisturbed tailFound with inResult | interrupted
      · exact .inl (inResult.trans (List.suffix_append _ _).isInfix)
      · rw [← passes.pattern_after] at interrupted
        exact .inr (interrupted.shift pattern)
    rw [kept_append, passes.marker_after] at found
    rcases passes.shown with shown | ⟨markerDropped, _⟩
    · rw [shown] at found
      obtain ⟨front, back, texts⟩ := found
      have aligned : [] ++ (marker ++ sieve.kept state result) = front ++ (word ++ back) := by
        rw [List.nil_append, ← texts, List.append_assoc]
      rcases apart.occurrence aligned with ⟨after, nilEq, _⟩ | ⟨start, _, keptEq⟩
      · have lengths := congrArg List.length nilEq
        simp only [List.length_nil, List.length_append] at lengths
        exact absurd (List.length_eq_zero_iff.1 (by omega)) apart.pattern_ne_nil
      · exact inTail ⟨start, back, by rw [keptEq, List.append_assoc]⟩
    · rw [markerDropped, List.nil_append] at found
      exact inTail found

end Redacted

end Sieve

end Foundation
