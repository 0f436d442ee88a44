/-
Module: Paratix.Template.SinglePass
Purpose: The tokenizer as a left-to-right scan with the grammar of placeholders; a rendered
  template is its tokens in order, each placeholder replaced by the value of a read of its key.
Main exports: IsPlaceholder, renderTemplate_singlePass
-/
import Paratix.Template.Template
import Paratix.Foundation.Result

namespace Paratix.Template

open Foundation Masking

/-! ### Words behind separators -/

/-- `\w+` -/
def IsWord (word : CodeUnits) : Prop := word ≠ [] ∧ ∀ unit ∈ word, isWordUnit unit = true

/-- Words, each behind a separator. -/
def wordsText (separator : UInt16) (words : List CodeUnits) : CodeUnits :=
  words.flatMap (separator :: ·)

/-- The text does not go on with a word behind the separator. -/
def Ends (separator : UInt16) (text : CodeUnits) : Prop :=
  ∀ rest, text = separator :: rest → startsWord rest = false

theorem startsWord_of_isWord {word : CodeUnits} (isWord : IsWord word) (rest : CodeUnits) :
    startsWord (word ++ rest) = true := by
  obtain ⟨unit, units, rfl⟩ := List.exists_cons_of_ne_nil isWord.1
  simp only [startsWord, List.cons_append, List.head?_cons, Option.any_some]
  exact isWord.2 unit List.mem_cons_self

theorem readWords_run {separator : UInt16} {run : CodeUnits}
    (isRun : ∀ unit ∈ run, isWordUnit unit = true) (rest : CodeUnits) :
    readWords separator true (run ++ rest) =
      (run ++ (readWords separator true rest).1, (readWords separator true rest).2) := by
  induction run with
  | nil => rfl
  | cons unit run ih =>
    obtain ⟨isUnit, isRun⟩ := List.forall_mem_cons.1 isRun
    rw [List.cons_append, readWords, ih isRun]
    simp [isUnit]

/-- A word behind its separator is read. -/
theorem readWords_word {separator : UInt16} {inWord : Bool} {word : CodeUnits}
    (isWord : IsWord word) (rest : CodeUnits) :
    readWords separator inWord (separator :: word ++ rest) =
      (separator :: word ++ (readWords separator true rest).1,
        (readWords separator true rest).2) := by
  rw [List.cons_append, readWords, startsWord_of_isWord isWord, readWords_run isWord.2]
  simp

/-- Reading stops where the text goes on neither in a word nor with another one. -/
theorem readWords_stop {separator : UInt16} {inWord : Bool} {text : CodeUnits}
    (noWord : inWord = true → startsWord text = false) (ends : Ends separator text) :
    readWords separator inWord text = ([], text) := by
  cases text with
  | nil => rw [readWords]
  | cons unit rest =>
    have stops : ((inWord && isWordUnit unit) || (unit = separator && startsWord rest)) =
        false := by
      rw [Bool.or_eq_false_iff]
      constructor
      · cases inWord with
        | false => rfl
        | true => exact noWord rfl
      · by_cases same : unit = separator
        · rw [ends rest (by rw [same]), Bool.and_false]
        · simp [same]
    rw [readWords, stops]
    rfl

theorem readWords_words {separator : UInt16} {words : List CodeUnits}
    (areWords : ∀ word ∈ words, IsWord word) {rest : CodeUnits}
    (noWord : startsWord rest = false) (ends : Ends separator rest) :
    ∀ inWord, readWords separator inWord (wordsText separator words ++ rest) =
      (wordsText separator words, rest) := by
  induction words with
  | nil => exact fun _ => readWords_stop (fun _ => noWord) ends
  | cons word words ih =>
    intro inWord
    obtain ⟨isWord, areWords⟩ := List.forall_mem_cons.1 areWords
    rw [wordsText, List.flatMap_cons, List.append_assoc, readWords_word isWord]
    have later := ih areWords true
    rw [wordsText] at later
    rw [later]

/-- What is read is the rest of a word and words behind separators. -/
theorem readWords_spec {separator : UInt16} {inWord : Bool} {text words after : CodeUnits}
    (read : readWords separator inWord text = (words, after)) :
    text = words ++ after ∧ ∃ run more, words = run ++ wordsText separator more ∧
      (∀ unit ∈ run, isWordUnit unit = true) ∧ (∀ word ∈ more, IsWord word) ∧
        (inWord = false → run = []) ∧ (inWord = true → startsWord text = true → run ≠ []) := by
  induction text generalizing inWord words after with
  | nil =>
    cases read
    exact ⟨rfl, [], [], rfl, by simp, by simp, fun _ => rfl, fun _ starts => by cases starts⟩
  | cons unit rest ih =>
    rw [readWords] at read
    split at read
    · next goesOn =>
        cases restRead : readWords separator true rest with
        | mk restWords restAfter =>
          rw [restRead] at read
          obtain ⟨rfl, rfl⟩ := Prod.mk.inj read
          obtain ⟨restEq, run, more, wordsEq, isRun, areWords, _, nonempty⟩ := ih restRead
          refine ⟨by rw [restEq, List.cons_append], ?_⟩
          by_cases inRun : (inWord && isWordUnit unit) = true
          · -- the unit goes on with the word that is being read
            obtain ⟨isIn, isUnit⟩ := Bool.and_eq_true_iff.1 inRun
            refine ⟨unit :: run, more, by rw [wordsEq, List.cons_append],
              List.forall_mem_cons.2 ⟨isUnit, isRun⟩, areWords, ?_, ?_⟩
            · intro notIn
              rw [isIn] at notIn
              cases notIn
            · exact fun _ _ => List.cons_ne_nil _ _
          · -- the unit is a separator, and the run behind it a word of its own
            rw [Bool.not_eq_true] at inRun
            rw [inRun, Bool.false_or, Bool.and_eq_true, decide_eq_true_eq] at goesOn
            obtain ⟨rfl, starts⟩ := goesOn
            refine ⟨[], run :: more, ?_, by simp,
              List.forall_mem_cons.2 ⟨⟨nonempty rfl starts, isRun⟩, areWords⟩,
              fun _ => rfl, ?_⟩
            · rw [wordsEq, wordsText, wordsText, List.flatMap_cons, List.nil_append,
                List.cons_append]
            · intro isIn startsHere
              rw [isIn, Bool.true_and] at inRun
              rw [startsWord, List.head?_cons, Option.any_some, inRun] at startsHere
              cases startsHere
    · next stops =>
        obtain ⟨rfl, rfl⟩ := Prod.mk.inj read
        refine ⟨rfl, [], [], rfl, by simp, by simp, fun _ => rfl, fun isIn starts => ?_⟩
        rw [startsWord, List.head?_cons, Option.any_some] at starts
        rw [isIn, starts] at stops
        exact absurd rfl stops

/-! ### Placeholders -/

/-- `\||(?:\|\w+)*` -/
def IsModifierChain (rawModifiers : CodeUnits) : Prop :=
  rawModifiers = [PIPE] ∨
    ∃ names : List CodeUnits, (∀ name ∈ names, IsWord name) ∧ rawModifiers = wordsText PIPE names

/-- `\w+(?:\.\w+)*` -/
def IsVarName (varName : CodeUnits) : Prop :=
  ∃ first more, IsWord first ∧ (∀ word ∈ more, IsWord word) ∧
    varName = first ++ wordsText DOT more

/-- The text of a placeholder with these two groups. -/
def placeholderSource (varName rawModifiers : CodeUnits) : CodeUnits :=
  PLACEHOLDER_OPEN ++ (varName ++ (rawModifiers ++ PLACEHOLDER_CLOSE))

structure IsPlaceholder (varName rawModifiers : CodeUnits) : Prop where
  isName : IsVarName varName
  isChain : IsModifierChain rawModifiers

theorem startsWord_close (rest : CodeUnits) :
    startsWord (PLACEHOLDER_CLOSE ++ rest) = false := by
  rfl

theorem ends_close (separator : UInt16) (other : separator ≠ codeUnit '\x7d')
    (rest : CodeUnits) : Ends separator (PLACEHOLDER_CLOSE ++ rest) := by
  intro tail same
  exact absurd (List.cons.inj same).1.symm other

theorem startsWord_chain {rawModifiers : CodeUnits} (isChain : IsModifierChain rawModifiers)
    (rest : CodeUnits) : startsWord (rawModifiers ++ (PLACEHOLDER_CLOSE ++ rest)) = false := by
  rcases isChain with rfl | ⟨names, _, rfl⟩
  · rfl
  · cases names with
    | nil => rfl
    | cons name names => rfl

/-- The groups of the pattern, whatever stands behind the placeholder. -/
theorem matchModifiers_chain {rawModifiers : CodeUnits} (isChain : IsModifierChain rawModifiers)
    (rest : CodeUnits) :
    matchModifiers (rawModifiers ++ (PLACEHOLDER_CLOSE ++ rest)) = some rawModifiers := by
  rcases isChain with rfl | ⟨names, areWords, rfl⟩
  · have empty : PIPE :: PLACEHOLDER_CLOSE <+: [PIPE] ++ (PLACEHOLDER_CLOSE ++ rest) := ⟨rest, rfl⟩
    rw [matchModifiers, if_pos empty]
  · have notEmpty : ¬PIPE :: PLACEHOLDER_CLOSE <+:
        wordsText PIPE names ++ (PLACEHOLDER_CLOSE ++ rest) := by
      rintro ⟨tail, tailEq⟩
      cases names with
      | nil => exact absurd (List.cons.inj tailEq).1 (by decide)
      | cons name names =>
        obtain ⟨isWord, _⟩ := List.forall_mem_cons.1 areWords
        obtain ⟨unit, units, rfl⟩ := List.exists_cons_of_ne_nil isWord.1
        have same := (List.cons.inj (List.cons.inj tailEq).2).1
        have isUnit := isWord.2 unit List.mem_cons_self
        rw [← same] at isUnit
        exact absurd isUnit (by decide)
    have read := readWords_words areWords (startsWord_close rest)
      (ends_close PIPE (by decide) rest) false
    rw [matchModifiers, if_neg notEmpty, read]
    exact if_pos (List.prefix_append _ _)

theorem matchModifiers_spec {text rawModifiers : CodeUnits}
    (matched : matchModifiers text = some rawModifiers) :
    IsModifierChain rawModifiers ∧ rawModifiers ++ PLACEHOLDER_CLOSE <+: text := by
  rw [matchModifiers] at matched
  split at matched
  · next empty =>
      cases matched
      exact ⟨.inl rfl, empty⟩
  · next notEmpty =>
      cases read : readWords PIPE false text with
      | mk chain rest =>
        rw [read] at matched
        dsimp only at matched
        split at matched
        · next closes =>
            cases matched
            obtain ⟨textEq, run, more, chainEq, _, areWords, noRun, _⟩ := readWords_spec read
            rw [noRun rfl, List.nil_append] at chainEq
            obtain ⟨tail, tailEq⟩ := closes
            exact ⟨.inr ⟨more, areWords, chainEq⟩, tail, by
              rw [textEq, ← tailEq, List.append_assoc]⟩
        · cases matched

/-- The matcher is the pattern: no group can be cut shorter or longer. -/
theorem matchPlaceholder_eq_some_iff {text varName rawModifiers : CodeUnits} :
    matchPlaceholder text = some (varName, rawModifiers) ↔
      IsPlaceholder varName rawModifiers ∧ placeholderSource varName rawModifiers <+: text := by
  constructor
  · intro matched
    rw [matchPlaceholder] at matched
    split at matched
    · next opens =>
        dsimp only at matched
        split at matched
        · next starts =>
            cases read : readWords DOT true (text.drop PLACEHOLDER_OPEN.length) with
            | mk name rest =>
              rw [read] at matched
              dsimp only at matched
              obtain ⟨raw, rawMatched, same⟩ := Option.map_eq_some_iff.1 matched
              obtain ⟨rfl, rfl⟩ := Prod.mk.inj same
              obtain ⟨innerEq, run, more, nameEq, isRun, areWords, _, nonempty⟩ :=
                readWords_spec read
              obtain ⟨isChain, closes⟩ := matchModifiers_spec rawMatched
              refine ⟨⟨⟨run, more, ⟨nonempty rfl starts, isRun⟩, areWords, nameEq⟩, isChain⟩, ?_⟩
              obtain ⟨tail, tailEq⟩ := closes
              obtain ⟨after, afterEq⟩ := opens
              rw [← afterEq, List.drop_left, ← tailEq] at innerEq
              refine ⟨tail, ?_⟩
              rw [← afterEq, innerEq]
              simp [placeholderSource]
        · cases matched
    · cases matched
  · rintro ⟨⟨isName, isChain⟩, tail, rfl⟩
    obtain ⟨first, more, isFirst, areWords, rfl⟩ := isName
    have opens : PLACEHOLDER_OPEN <+:
        placeholderSource (first ++ wordsText DOT more) rawModifiers ++ tail := by
      rw [placeholderSource, List.append_assoc]
      exact List.prefix_append _ _
    have inner : (placeholderSource (first ++ wordsText DOT more) rawModifiers ++ tail).drop
        PLACEHOLDER_OPEN.length =
          first ++ (wordsText DOT more ++ (rawModifiers ++ (PLACEHOLDER_CLOSE ++ tail))) := by
      rw [placeholderSource, List.append_assoc, List.drop_left]
      simp
    have ends : Ends DOT (rawModifiers ++ (PLACEHOLDER_CLOSE ++ tail)) := by
      intro rest same
      rcases isChain with rfl | ⟨names, _, rfl⟩
      · exact absurd (List.cons.inj same).1 (by decide)
      · cases names with
        | nil => exact absurd (List.cons.inj same).1 (by decide)
        | cons name names => exact absurd (List.cons.inj same).1 (by decide)
    have read := readWords_words areWords (startsWord_chain isChain tail) ends true
    rw [matchPlaceholder, if_pos opens]
    dsimp only
    rw [inner, startsWord_of_isWord isFirst, if_pos rfl, readWords_run isFirst.2, read]
    dsimp only
    rw [matchModifiers_chain isChain]
    rfl

/-! ### Tokens -/

/-- The text of the template that a token stands for. -/
def Token.source : Token → CodeUnits
  | .escaped => ESCAPED_OPEN
  | .literal text => text
  | .placeholder token =>
      placeholderSource token.varName (wordsText PIPE token.modifiers)

theorem wordsText_splitOn (separator : UInt16) (text : CodeUnits) :
    wordsText separator (text.splitOn separator) = separator :: text := by
  have joined : ∀ words : List CodeUnits, words ≠ [] →
      wordsText separator words = separator :: [separator].intercalate words := by
    intro words nonempty
    induction words with
    | nil => exact absurd rfl nonempty
    | cons word words ih =>
      cases words with
      | nil => simp [wordsText]
      | cons next words =>
        have later := ih (List.cons_ne_nil _ _)
        rw [wordsText, List.flatMap_cons, ← wordsText, later]
        simp [List.intercalate]
  rw [joined _ (List.splitOn_ne_nil _ _), List.intercalate_splitOn]

/-- The modifiers of a token are spelled as in the template. -/
theorem wordsText_modifiers {rawModifiers : CodeUnits} (isChain : IsModifierChain rawModifiers)
    (varName : CodeUnits) :
    wordsText PIPE (placeholderToken varName rawModifiers).modifiers = rawModifiers := by
  have pipe : rawModifiers = [] ∨ ∃ rest, rawModifiers = PIPE :: rest := by
    rcases isChain with rfl | ⟨names, _, rfl⟩
    · exact .inr ⟨[], rfl⟩
    · cases names with
      | nil => exact .inl rfl
      | cons name names => exact .inr ⟨_, rfl⟩
  rcases pipe with rfl | ⟨rest, rfl⟩
  · rfl
  · rw [placeholderToken, if_neg (List.cons_ne_nil _ _), List.tail_cons, wordsText_splitOn]

/-- A unit of literal text before the other tokens. -/
def pushUnit (unit : UInt16) : List Token → List Token
  | .literal text :: tokens => .literal (unit :: text) :: tokens
  | tokens => .literal [unit] :: tokens

/-- A text as it is read from left to right: an escape or a placeholder where one stands, one
unit of literal text elsewhere. A strict reading stops at braces that open nothing. -/
inductive Scans (strict : Bool) : CodeUnits → List Token → Prop where
  | done : Scans strict [] []
  | escaped {rest : CodeUnits} {tokens : List Token} (later : Scans strict rest tokens) :
      Scans strict (ESCAPED_OPEN ++ rest) (.escaped :: tokens)
  | placeholder {varName rawModifiers rest : CodeUnits} {tokens : List Token}
      (isPlaceholder : IsPlaceholder varName rawModifiers) (later : Scans strict rest tokens) :
      Scans strict (placeholderSource varName rawModifiers ++ rest)
        (.placeholder (placeholderToken varName rawModifiers) :: tokens)
  | literal {unit : UInt16} {rest : CodeUnits} {tokens : List Token}
      (noEscape : ¬ESCAPED_OPEN <+: unit :: rest)
      (noPlaceholder : ∀ varName rawModifiers, IsPlaceholder varName rawModifiers →
        ¬placeholderSource varName rawModifiers <+: unit :: rest)
      (lenient : strict = true → ¬PLACEHOLDER_OPEN <+: unit :: rest)
      (later : Scans strict rest tokens) :
      Scans strict (unit :: rest) (pushUnit unit tokens)

theorem flatMap_source_pushUnit (unit : UInt16) (tokens : List Token) :
    (pushUnit unit tokens).flatMap Token.source = unit :: tokens.flatMap Token.source := by
  match tokens with
  | [] => rfl
  | .literal text :: tokens => rfl
  | .escaped :: tokens => rfl
  | .placeholder token :: tokens => rfl

/-- Every unit of the text belongs to exactly one token. -/
theorem Scans.flatMap_source {strict : Bool} {text : CodeUnits} {tokens : List Token}
    (scans : Scans strict text tokens) : tokens.flatMap Token.source = text := by
  induction scans with
  | done => rfl
  | escaped later ih =>
    rw [List.flatMap_cons, ih, Token.source]
  | placeholder isPlaceholder later ih =>
    rw [List.flatMap_cons, ih, Token.source, wordsText_modifiers isPlaceholder.isChain]
    rfl
  | literal _ _ _ later ih =>
    rw [flatMap_source_pushUnit, ih]

/-! ### The tokenizer scans -/

/-- The pending literal text and the tokens behind it. -/
def withBuffer (literalBuffer : CodeUnits) : List Token → List Token
  | .literal text :: tokens => .literal (literalBuffer ++ text) :: tokens
  | tokens => flushLiteral literalBuffer [] ++ tokens

theorem withBuffer_nil (tokens : List Token) : withBuffer [] tokens = tokens := by
  match tokens with
  | [] => rfl
  | .literal text :: tokens => rfl
  | .escaped :: tokens => rfl
  | .placeholder token :: tokens => rfl

theorem withBuffer_unit (literalBuffer : CodeUnits) (unit : UInt16) (tokens : List Token) :
    withBuffer (literalBuffer ++ [unit]) tokens =
      withBuffer literalBuffer (pushUnit unit tokens) := by
  have nonempty : literalBuffer ++ [unit] ≠ [] := List.append_ne_nil_of_right_ne_nil _ (by simp)
  match tokens with
  | [] => simp [withBuffer, pushUnit, flushLiteral]
  | .literal text :: tokens => simp [withBuffer, pushUnit]
  | .escaped :: tokens => simp [withBuffer, pushUnit, flushLiteral]
  | .placeholder token :: tokens => simp [withBuffer, pushUnit, flushLiteral]

theorem flushLiteral_append (literalBuffer : CodeUnits) (tokens : List Token) :
    flushLiteral literalBuffer tokens = tokens ++ flushLiteral literalBuffer [] := by
  by_cases isEmpty : literalBuffer = []
  · simp [flushLiteral, isEmpty]
  · simp [flushLiteral, isEmpty]

theorem tokenizeFrom_skip (strict : Bool) (literalBuffer : CodeUnits) (tokens : List Token) :
    ∀ (skip : Nat) (text : CodeUnits), tokenizeFrom strict skip literalBuffer tokens text =
        tokenizeFrom strict 0 literalBuffer tokens (text.drop skip)
  | 0, _ => rfl
  | _ + 1, [] => rfl
  | skip + 1, _ :: text => tokenizeFrom_skip strict literalBuffer tokens skip text

/-- What is behind the cursor comes after the tokens that were pushed and the literal text
that is pending. -/
theorem scans_of_tokenizeFrom {strict : Bool} (text : CodeUnits) :
    ∀ {literalBuffer : CodeUnits} {tokens result : List Token},
      tokenizeFrom strict 0 literalBuffer tokens text = .ok result →
      ∃ later, result = tokens ++ withBuffer literalBuffer later ∧ Scans strict text later := by
  induction total : text.length using Nat.strong_induction_on generalizing text with
  | _ bound ih =>
    intro literalBuffer tokens result tokenized
    cases text with
    | nil =>
      cases tokenized
      refine ⟨[], ?_, .done⟩
      rw [flushLiteral_append]
      simp [withBuffer]
    | cons unit rest =>
      rw [List.length_cons] at total
      rw [tokenizeFrom] at tokenized
      split at tokenized
      · next isEscape =>
          obtain ⟨after, afterEq⟩ := isEscape
          have restEq : rest.drop (ESCAPED_OPEN.length - 1) = after :=
            congrArg (List.drop ESCAPED_OPEN.length) afterEq.symm
          have shorter : after.length < bound := by
            rw [← restEq, List.length_drop]
            omega
          rw [tokenizeFrom_skip, restEq] at tokenized
          obtain ⟨later, isResult, scans⟩ := ih _ shorter after rfl tokenized
          refine ⟨.escaped :: later, ?_, afterEq ▸ .escaped scans⟩
          rw [isResult, withBuffer_nil, flushLiteral_append]
          simp [withBuffer]
      · next noEscape =>
          split at tokenized
          · next varName rawModifiers matched =>
              obtain ⟨isPlaceholder, after, afterEq⟩ := matchPlaceholder_eq_some_iff.1 matched
              have sourceLength : (placeholderSource varName rawModifiers).length =
                  matchLength varName rawModifiers := by
                simp only [placeholderSource, matchLength, List.length_append]
                omega
              have positive : 0 < matchLength varName rawModifiers := by
                have opens : 0 < PLACEHOLDER_OPEN.length := by decide
                rw [matchLength]
                omega
              have restEq : rest.drop (matchLength varName rawModifiers - 1) = after := by
                have dropped := congrArg (List.drop (matchLength varName rawModifiers)) afterEq
                rw [← sourceLength, List.drop_left, sourceLength] at dropped
                obtain ⟨count, countEq⟩ := Nat.exists_eq_succ_of_ne_zero positive.ne'
                rw [countEq] at dropped ⊢
                exact dropped.symm
              have shorter : after.length < bound := by
                rw [← restEq, List.length_drop]
                omega
              rw [tokenizeFrom_skip, restEq] at tokenized
              obtain ⟨later, isResult, scans⟩ := ih _ shorter after rfl tokenized
              refine ⟨.placeholder (placeholderToken varName rawModifiers) :: later, ?_,
                afterEq ▸ .placeholder isPlaceholder scans⟩
              rw [isResult, withBuffer_nil, flushLiteral_append]
              simp [withBuffer]
          · next noMatch =>
              split at tokenized
              · cases tokenized
              next lenient =>
                obtain ⟨later, isResult, scans⟩ := ih rest.length (by omega) rest rfl tokenized
                refine ⟨pushUnit unit later, by rw [isResult, withBuffer_unit],
                  .literal noEscape ?_ ?_ scans⟩
                · intro varName rawModifiers isPlaceholder stands
                  have matched := matchPlaceholder_eq_some_iff.2 ⟨isPlaceholder, stands⟩
                  rw [noMatch] at matched
                  cases matched
                · intro isStrict opens
                  rw [isStrict, Bool.true_and, List.isPrefixOf_iff_prefix] at lenient
                  exact lenient opens

theorem scans_of_tokenizeTemplate {template : CodeUnits} {strict : Bool} {tokens : List Token}
    (tokenized : tokenizeTemplate template strict = .ok tokens) :
    Scans strict template tokens := by
  obtain ⟨later, isResult, scans⟩ := scans_of_tokenizeFrom template tokenized
  rw [withBuffer_nil, List.nil_append] at isResult
  rw [isResult]
  exact scans

/-! ### Values of placeholders -/

/-- The text is what the modifiers of the placeholder make of the answer to a read of its key. -/
def Transformed (env : TemplateEnvironment) (token : PlaceholderToken)
    (text : CodeUnits) : Prop :=
  ∃ earlier answer result, resolveEnvironment env token.varName earlier = .ok answer ∧
    applyModifiers (.string answer) token.modifiers token.varName = .ok result ∧
      text = result.toText

/-- The output for some tokens, with a text for each placeholder. -/
def assemble : List Token → List CodeUnits → CodeUnits
  | [], _ => []
  | .literal text :: tokens, texts => text ++ assemble tokens texts
  | .escaped :: tokens, texts => PLACEHOLDER_OPEN ++ assemble tokens texts
  | .placeholder _ :: tokens, texts => texts.headD [] ++ assemble tokens texts.tail

/-- A slot of the plain path holds an answer, one of the phased path what became of it. -/
def Filled (phased : Bool) (env : TemplateEnvironment) (token : PlaceholderToken)
    (slot : Option JsValue) : Prop :=
  match phased with
  | false => ∃ earlier answer, resolveEnvironment env token.varName earlier = .ok answer ∧
      slot = some (.string answer)
  | true => ∃ value, slot = some value ∧ Transformed env token value.toText

/-- A slot of a key that is still to be read is a hole. -/
def FilledUpTo (env : TemplateEnvironment) (keys : List CodeUnits)
    (token : PlaceholderToken) (slot : Option JsValue) : Prop :=
  (token.varName ∈ keys ∧ slot = none) ∨ Filled true env token slot

section Slots

variable {env : TemplateEnvironment}

theorem resolveEach_spec {tokens : List PlaceholderToken} {seen : List CodeUnits}
    {slots : List (Option JsValue)} (resolved : resolveEach env seen tokens = .ok slots) :
    List.Forall₂ (Filled false env) tokens slots := by
  induction tokens generalizing seen slots with
  | nil =>
    cases resolved
    exact .nil
  | cons token tokens ih =>
    obtain ⟨answer, read, resolved⟩ := ok_of_bind resolved
    obtain ⟨later, laterResolved, resolved⟩ := ok_of_bind resolved
    cases resolved
    exact .cons ⟨_, answer, read, rfl⟩ (ih laterResolved)

theorem renderOrdinary_spec {keys : List CodeUnits} {tokens : List PlaceholderToken}
    {seen : List CodeUnits} {slots : List (Option JsValue)}
    (rendered : renderOrdinary env keys seen tokens = .ok slots) :
    List.Forall₂ (FilledUpTo env keys) tokens slots := by
  induction tokens generalizing seen slots with
  | nil =>
    cases rendered
    exact .nil
  | cons token tokens ih =>
    rw [renderOrdinary] at rendered
    split at rendered
    · next isLate =>
        obtain ⟨later, laterRendered, rendered⟩ := ok_of_bind rendered
        cases rendered
        exact .cons (.inl ⟨isLate, rfl⟩) (ih laterRendered)
    · next isOrdinary =>
        obtain ⟨answer, read, rendered⟩ := ok_of_bind rendered
        obtain ⟨value, applied, rendered⟩ := ok_of_bind rendered
        obtain ⟨later, laterRendered, rendered⟩ := ok_of_bind rendered
        cases rendered
        exact .cons (.inr ⟨value, rfl, _, answer, value, read, applied, rfl⟩)
          (ih laterRendered)

/-- A late read fills the slots of its key and leaves the others. -/
theorem fillKey_spec {key answer : CodeUnits} {keys : List CodeUnits}
    {tokens : List PlaceholderToken} {slots filled : List (Option JsValue)} {earlier : Nat}
    (read : resolveEnvironment env key earlier = .ok answer)
    (before : List.Forall₂ (FilledUpTo env (key :: keys)) tokens slots)
    (done : fillKey key answer tokens slots = .ok filled) :
    List.Forall₂ (FilledUpTo env keys) tokens filled := by
  induction before generalizing filled with
  | nil =>
    cases done
    exact .nil
  | @cons token slot tokens slots isBefore _ ih =>
    rw [fillKey] at done
    split at done
    · next isKey =>
        obtain ⟨value, applied, done⟩ := ok_of_bind done
        obtain ⟨later, laterDone, done⟩ := ok_of_bind done
        cases done
        rw [← isKey] at read
        exact .cons (.inr ⟨value, rfl, earlier, answer, value, read, applied, rfl⟩)
          (ih laterDone)
    · next isOther =>
        obtain ⟨later, laterDone, done⟩ := ok_of_bind done
        cases done
        have kept : FilledUpTo env keys token slot := by
          rcases isBefore with ⟨isLate, isHole⟩ | isFilled
          · exact .inl ⟨(List.mem_cons.1 isLate).resolve_left isOther, isHole⟩
          · exact .inr isFilled
        exact .cons kept (ih laterDone)

theorem renderLate_spec {tokens : List PlaceholderToken} {keys : List CodeUnits}
    {slots filled : List (Option JsValue)}
    (before : List.Forall₂ (FilledUpTo env keys) tokens slots)
    (done : renderLate env tokens keys slots = .ok filled) :
    List.Forall₂ (Filled true env) tokens filled := by
  induction keys generalizing slots with
  | nil =>
    cases done
    exact before.imp fun token slot isBefore =>
      isBefore.resolve_left fun isLate => List.not_mem_nil isLate.1
  | cons key keys ih =>
    obtain ⟨answer, read, done⟩ := ok_of_bind done
    obtain ⟨later, filledKey, done⟩ := ok_of_bind done
    exact ih (fillKey_spec read before filledKey) done

theorem resolvePhasedPlaceholders_spec {tokens : List PlaceholderToken} {keys : List CodeUnits}
    {slots : List (Option JsValue)}
    (resolved : resolvePhasedPlaceholders tokens env keys = .ok slots) :
    List.Forall₂ (Filled true env) tokens slots := by
  obtain ⟨_, _, resolved⟩ := ok_of_bind resolved
  obtain ⟨ordinary, rendered, late⟩ := ok_of_bind resolved
  exact renderLate_spec (renderOrdinary_spec rendered) late

theorem resolveTemplatePlaceholders_spec {tokens : List Token} {phased : Bool}
    {slots : List (Option JsValue)}
    (resolved : resolveTemplatePlaceholders tokens env = .ok (phased, slots)) :
    List.Forall₂ (Filled phased env) (placeholderTokens tokens) slots := by
  rw [resolveTemplatePlaceholders] at resolved
  obtain ⟨values, resolvedValues, same⟩ := ok_of_bind resolved
  obtain ⟨rfl, rfl⟩ := Prod.mk.inj (Except.ok.inj same)
  split at resolvedValues
  · next isPhased =>
      rw [isPhased]
      exact resolvePhasedPlaceholders_spec resolvedValues
  · next isPlain =>
      rw [Bool.not_eq_true] at isPlain
      rw [isPlain]
      exact resolveEach_spec resolvedValues

/-- The output is the tokens in order, with the value of each placeholder. -/
theorem renderTokens_spec {phased : Bool} {tokens : List Token} {slots : List (Option JsValue)}
    {output : CodeUnits}
    (filled : List.Forall₂ (Filled phased env) (placeholderTokens tokens) slots)
    (rendered : renderTokens phased tokens slots = .ok output) :
    ∃ texts, List.Forall₂ (Transformed env) (placeholderTokens tokens) texts ∧
      output = assemble tokens texts := by
  induction tokens generalizing slots output with
  | nil =>
    cases rendered
    exact ⟨[], .nil, rfl⟩
  | cons token tokens ih =>
    cases token with
    | escaped =>
      obtain ⟨later, laterRendered, rendered⟩ := ok_of_bind rendered
      cases rendered
      obtain ⟨texts, transformed, isLater⟩ := ih filled laterRendered
      exact ⟨texts, transformed, by rw [isLater, assemble]⟩
    | literal text =>
      obtain ⟨later, laterRendered, rendered⟩ := ok_of_bind rendered
      cases rendered
      obtain ⟨texts, transformed, isLater⟩ := ih filled laterRendered
      exact ⟨texts, transformed, by rw [isLater, assemble]⟩
    | placeholder token =>
      have split : placeholderTokens (.placeholder token :: tokens) =
          token :: placeholderTokens tokens := rfl
      rw [split] at filled ⊢
      cases filled with
      | @cons _ slot _ slots isFilled filledLater =>
        obtain ⟨value, isValue, rendered⟩ := ok_of_bind rendered
        obtain ⟨later, laterRendered, rendered⟩ := ok_of_bind rendered
        cases rendered
        obtain ⟨texts, transformed, isLater⟩ := ih filledLater laterRendered
        have here : Transformed env token value.toText := by
          cases phased with
          | false =>
            obtain ⟨earlier, answer, read, rfl⟩ := isFilled
            exact ⟨earlier, answer, value, read, isValue, rfl⟩
          | true =>
            obtain ⟨filledValue, rfl, isTransformed⟩ := isFilled
            cases isValue
            exact isTransformed
        refine ⟨value.toText :: texts, .cons here transformed, ?_⟩
        rw [isLater, assemble]
        rfl

end Slots

/-! ### A single pass -/

/-- The tokens of a rendered template, and the values of its placeholders. -/
theorem renderTemplate_values {template : CodeUnits} {env : TemplateEnvironment}
    {strict : Bool} {output : CodeUnits}
    (rendered : renderTemplate template env strict = .ok output) :
    ∃ tokens texts, tokenizeTemplate template strict = .ok tokens ∧
      List.Forall₂ (Transformed env) (placeholderTokens tokens) texts ∧
        output = assemble tokens texts := by
  obtain ⟨tokens, tokenized, rendered⟩ := ok_of_bind rendered
  obtain ⟨_, _, rendered⟩ := ok_of_bind rendered
  obtain ⟨⟨phased, slots⟩, resolved, rendered⟩ := ok_of_bind rendered
  obtain ⟨texts, transformed, isOutput⟩ :=
    renderTokens_spec (resolveTemplatePlaceholders_spec resolved) rendered
  exact ⟨tokens, texts, tokenized, transformed, isOutput⟩

/-- The tokens depend on the template alone, and are a left-to-right scan of it in which every
unit belongs to one token. The output is the tokens in order: literal text, two braces for an
escape, and for a placeholder its transformed value, whatever that value looks like. -/
theorem renderTemplate_singlePass {template : CodeUnits} {env : TemplateEnvironment}
    {strict : Bool} {output : CodeUnits}
    (rendered : renderTemplate template env strict = .ok output) :
    ∃ tokens texts, tokenizeTemplate template strict = .ok tokens ∧
      Scans strict template tokens ∧ tokens.flatMap Token.source = template ∧
        List.Forall₂ (Transformed env) (placeholderTokens tokens) texts ∧
          output = assemble tokens texts := by
  obtain ⟨tokens, texts, tokenized, transformed, isOutput⟩ := renderTemplate_values rendered
  have scans := scans_of_tokenizeTemplate tokenized
  exact ⟨tokens, texts, tokenized, scans, scans.flatMap_source, transformed, isOutput⟩

/-- A value that looks like a placeholder. -/
def nestedEnvironment : TemplateEnvironment := fun key =>
  if key = codeUnits "A" then
    some { answer := fun _ => .ok (codeUnits "\x7b\x7bB|raw\x7d\x7d"), perAccess := false }
  else none

theorem renderTemplate_singlePass_nested :
    ∃ tokens texts,
      tokenizeTemplate (codeUnits "\\\x7b\x7bA\x7b\x7bA|raw\x7d\x7d") true = .ok tokens ∧
      Scans true (codeUnits "\\\x7b\x7bA\x7b\x7bA|raw\x7d\x7d") tokens ∧
        tokens.flatMap Token.source = codeUnits "\\\x7b\x7bA\x7b\x7bA|raw\x7d\x7d" ∧
          List.Forall₂ (Transformed nestedEnvironment) (placeholderTokens tokens) texts ∧
            codeUnits "\x7b\x7bA\x7b\x7bB|raw\x7d\x7d" = assemble tokens texts :=
  renderTemplate_singlePass (by rfl)

end Paratix.Template
