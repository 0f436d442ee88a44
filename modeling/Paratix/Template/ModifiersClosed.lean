/-
Module: Paratix.Template.ModifiersClosed
Purpose: Which chains of modifiers go through, inherited names included, and when only registered
  modifiers are let through.
Main exports: applyModifiers_ok_iff, modifiersClosed_iff
-/
import Paratix.Foundation.Result
import Paratix.Template.Template
import Paratix.Template.SinglePass

namespace Paratix.Template

open Foundation Masking

def RAW : CodeUnits := codeUnits "raw"
def SHELL : CodeUnits := codeUnits "shell"
def B64DECODE : CodeUnits := codeUnits "b64decode"
def CONSTRUCTOR : CodeUnits := codeUnits "constructor"
def TO_STRING : CodeUnits := codeUnits "toString"
def IS_PROTOTYPE_OF : CodeUnits := codeUnits "isPrototypeOf"

/-! ### Shapes -/

/-- What kind of value a chain has arrived at. -/
inductive Shape where
  | text
  | object
  | boolean
  | booleanObject
deriving DecidableEq, Repr

def JsValue.shape : JsValue → Shape
  | .string _ => .text
  | .stringObject _ => .object
  | .boolean _ => .boolean
  | .booleanObject _ => .booleanObject

def Shape.isTextual : Shape → Bool
  | .text => true
  | .object => true
  | .boolean => false
  | .booleanObject => false

def Shape.boxed : Shape → Shape
  | .text => .object
  | .object => .object
  | .boolean => .booleanObject
  | .booleanObject => .booleanObject

def Shape.isPrimitive : Shape → Bool
  | .text => true
  | .object => false
  | .boolean => true
  | .booleanObject => false

/-- The kind of value that a name leads to; `none` where it always fails. -/
def Shape.after (shape : Shape) (name : CodeUnits) : Option Shape :=
  if name = RAW then some shape
  else if name = SHELL ∨ name = B64DECODE then if shape.isTextual then some .text else none
  else if name = CONSTRUCTOR then some shape.boxed
  else if name = TO_STRING then some .text
  else if name = IS_PROTOTYPE_OF then if shape.isPrimitive then some .boolean else none
  else none

def Shape.through (shape : Shape) : List CodeUnits → Option Shape
  | [] => some shape
  | name :: names => (shape.after name).bind fun next => next.through names

/-- The texts that the names before the first `toString` or `isPrototypeOf` make of a value can
be decoded where they are to be; behind that name nothing can. -/
def Decodes (varName : CodeUnits) : CodeUnits → List CodeUnits → Prop
  | _, [] => True
  | text, name :: names =>
      if name = TO_STRING ∨ name = IS_PROTOTYPE_OF then B64DECODE ∉ names
      else if name = B64DECODE then
        ∃ decoded, decodeBase64 text varName = .ok decoded ∧ Decodes varName decoded names
      else if name = SHELL then Decodes varName (shellQuote text) names
      else Decodes varName text names

/-- The chain of a placeholder goes through on the value of its key. -/
structure ChainPasses (answer : CodeUnits) (token : PlaceholderToken) : Prop where
  shapes : (Shape.text.through token.modifiers).isSome = true
  decodes : Decodes token.varName answer token.modifiers

/-! ### Single steps -/

variable {varName : CodeUnits}

theorem applyModifier_raw (value : JsValue) : applyModifier value RAW varName = .ok value := rfl

theorem applyModifier_constructor (value : JsValue) :
    applyModifier value CONSTRUCTOR varName = objectConstructor value varName := rfl

theorem applyModifier_toString (value : JsValue) :
    applyModifier value TO_STRING varName = .ok (.string (codeUnits "[object Undefined]")) := rfl

theorem applyModifier_isPrototypeOf (value : JsValue) :
    applyModifier value IS_PROTOTYPE_OF varName = isPrototypeOf value varName := rfl

theorem applyModifier_shell (value : JsValue) :
    applyModifier value SHELL varName = onText (fun value _ => .ok (shellQuote value)) value
      varName := rfl

theorem applyModifier_b64decode (value : JsValue) :
    applyModifier value B64DECODE varName = onText decodeBase64 value varName := rfl

/-- No other name leads anywhere. -/
theorem applyModifier_other {name : CodeUnits} (value : JsValue)
    (others : name ∉ [RAW, SHELL, B64DECODE, CONSTRUCTOR, TO_STRING, IS_PROTOTYPE_OF]) :
    ∃ error, applyModifier value name varName = .error error := by
  rw [applyModifier]
  cases found : lookupModifier name with
  | none => exact ⟨_, rfl⟩
  | some transform =>
    have member : (name, transform) ∈ modifiers ++ inheritedMembers := by
      rw [List.mem_append]
      rcases Option.or_eq_some_iff.1 found with own | ⟨_, inherited⟩
      · obtain ⟨front, back, isOwn, _⟩ := List.lookup_eq_some_iff.1 own
        exact .inl (by rw [isOwn]; simp)
      · obtain ⟨front, back, isInherited, _⟩ := List.lookup_eq_some_iff.1 inherited
        exact .inr (by rw [isInherited]; simp)
    simp only [modifiers, inheritedMembers, List.cons_append, List.nil_append, List.mem_cons,
      Prod.mk.injEq, List.mem_map] at member
    simp only [RAW, SHELL, B64DECODE, CONSTRUCTOR, TO_STRING, IS_PROTOTYPE_OF, List.mem_cons,
      List.not_mem_nil, or_false, not_or] at others
    obtain ⟨notRaw, notShell, notDecode, notConstructor, notToString, notIsPrototypeOf⟩ := others
    rcases member with isDecode | isRaw | isShell | isConstructor | isToString |
      isPrototypeName | ⟨literal, _, _, isTransform⟩
    · exact absurd isDecode.1 notDecode
    · exact absurd isRaw.1 notRaw
    · exact absurd isShell.1 notShell
    · exact absurd isConstructor.1 notConstructor
    · exact absurd isToString.1 notToString
    · exact absurd isPrototypeName.1 notIsPrototypeOf
    · exact ⟨.typeError, by rw [← isTransform]⟩

theorem after_other {name : CodeUnits} (shape : Shape)
    (others : name ∉ [RAW, SHELL, B64DECODE, CONSTRUCTOR, TO_STRING, IS_PROTOTYPE_OF]) :
    shape.after name = none := by
  simp only [List.mem_cons, List.not_mem_nil, or_false, not_or] at others
  simp [Shape.after, others]

theorem after_shell (shape : Shape) :
    shape.after SHELL = if shape.isTextual then some .text else none := rfl

theorem after_constructor (shape : Shape) : shape.after CONSTRUCTOR = some shape.boxed := rfl

theorem after_isPrototypeOf (shape : Shape) :
    shape.after IS_PROTOTYPE_OF = if shape.isPrimitive then some .boolean else none := rfl

/-- A step that goes through passes the chain on. -/
theorem chain_of_step {value next : JsValue} {name : CodeUnits} (names : List CodeUnits)
    (step : applyModifier value name varName = .ok next)
    (after : value.shape.after name = some next.shape) :
    ((∃ result, applyModifiers value (name :: names) varName = .ok result) ↔
        ∃ result, applyModifiers next names varName = .ok result) ∧
      value.shape.through (name :: names) = next.shape.through names := by
  constructor
  · rw [applyModifiers, step]
    exact Iff.rfl
  · rw [Shape.through, after, Option.bind_some]

theorem chain_of_error {value : JsValue} {name : CodeUnits} (names : List CodeUnits)
    (step : ∃ error, applyModifier value name varName = .error error) :
    ¬∃ result, applyModifiers value (name :: names) varName = .ok result := by
  obtain ⟨error, isError⟩ := step
  rintro ⟨result, applied⟩
  rw [applyModifiers, isError] at applied
  cases applied

theorem through_of_none {shape : Shape} {name : CodeUnits} (names : List CodeUnits)
    (after : shape.after name = none) : (shape.through (name :: names)).isSome = false := by
  rw [Shape.through, after]
  rfl

/-! ### Values that cannot be decoded -/

def BRACKET : UInt16 := codeUnit '['

/-- A text with a bracket, or no text. -/
def JsValue.Undecodable : JsValue → Prop
  | .string value => BRACKET ∈ value
  | .stringObject value => BRACKET ∈ value
  | .boolean _ => True
  | .booleanObject _ => True

theorem decodeBase64_bracket {value : CodeUnits} (bracket : BRACKET ∈ value) :
    ∃ error, decodeBase64 value varName = .error error := by
  have isCompact : BRACKET ∈ value.filter fun unit => !isSpaceUnit unit :=
    List.mem_filter.2 ⟨bracket, by decide⟩
  have noMatch : matchesBase64 (value.filter fun unit => !isSpaceUnit unit) = false := by
    generalize value.filter (fun unit => !isSpaceUnit unit) = compact at isCompact
    have inPadding : BRACKET ∈ compact.dropWhile isBase64Unit := by
      rw [← @List.takeWhile_append_dropWhile _ isBase64Unit compact] at isCompact
      rcases List.mem_append.1 isCompact with inBody | inPadding
      · exact absurd (List.mem_takeWhile_imp inBody) (by decide)
      · exact inPadding
    have notAll : (compact.dropWhile isBase64Unit).all (· = PADDING) = false := by
      rw [List.all_eq_false]
      exact ⟨BRACKET, inPadding, by decide⟩
    rw [matchesBase64, notAll]
    rfl
  refine ⟨.error (placeholderLocation varName ++
    codeUnits " received a value that is not standard base64"), ?_⟩
  rw [decodeBase64, normalizeBase64, noMatch]
  rfl

theorem mem_replaceAll_of_ne {unit quote : UInt16} {marker : CodeUnits} (different : unit ≠ quote)
    {value : CodeUnits} (member : unit ∈ value) : unit ∈ replaceAll id [quote] marker value := by
  induction value with
  | nil => cases member
  | cons head value ih =>
    by_cases isQuote : head = quote
    · subst isQuote
      have hit : replaceAll id [head] marker (head :: value) =
          marker ++ replaceAll id [head] marker value :=
        replaceAll_hit (List.cons_ne_nil _ _) (List.map_id [head]) value
      rw [hit]
      rcases List.mem_cons.1 member with isHead | inValue
      · exact absurd isHead different
      · exact List.mem_append_right _ (ih inValue)
    · have miss : ¬[quote] <+: (head :: value).map id := by
        rw [List.map_id, List.cons_prefix_cons]
        exact fun found => isQuote found.1.symm
      rw [replaceAll_copy miss]
      rcases List.mem_cons.1 member with isHead | inValue
      · exact isHead ▸ List.mem_cons_self
      · exact List.mem_cons_of_mem _ (ih inValue)

theorem bracket_shellQuote {value : CodeUnits} (bracket : BRACKET ∈ value) :
    BRACKET ∈ shellQuote value := by
  have kept : BRACKET ∈ replaceAll id (codeUnits "'") (codeUnits "'\\''") value :=
    mem_replaceAll_of_ne (by decide) bracket
  exact List.mem_append_left _ (List.mem_append_right _ kept)

theorem bracket_undefined : BRACKET ∈ codeUnits "[object Undefined]" := by decide

theorem decode_undecodable {value : JsValue} (undecodable : value.Undecodable) :
    ∃ error, applyModifier value B64DECODE varName = .error error := by
  rw [applyModifier_b64decode]
  cases value with
  | string value =>
    obtain ⟨error, isError⟩ := @decodeBase64_bracket varName value undecodable
    exact ⟨error, by rw [onText, isError]; rfl⟩
  | stringObject value =>
    obtain ⟨error, isError⟩ := @decodeBase64_bracket varName value undecodable
    exact ⟨error, by rw [onText, isError]; rfl⟩
  | boolean value => exact ⟨_, rfl⟩
  | booleanObject value => exact ⟨_, rfl⟩

/-- Any other step leads to the value's next shape, and to no value that can be decoded. -/
theorem step_undecodable {value : JsValue} (undecodable : value.Undecodable) {name : CodeUnits}
    (notDecode : name ≠ B64DECODE) : match value.shape.after name with
    | none => ∃ error, applyModifier value name varName = .error error
    | some shape => ∃ next, applyModifier value name varName = .ok next ∧ next.shape = shape ∧
        next.Undecodable := by
  by_cases others : name ∉ [RAW, SHELL, B64DECODE, CONSTRUCTOR, TO_STRING, IS_PROTOTYPE_OF]
  · rw [after_other _ others]
    exact applyModifier_other value others
  · rw [not_not] at others
    simp only [List.mem_cons, List.not_mem_nil, or_false] at others
    rcases others with rfl | rfl | rfl | rfl | rfl | rfl
    · exact ⟨value, rfl, rfl, undecodable⟩
    · rw [after_shell, applyModifier_shell]
      cases value with
      | string value => exact ⟨_, rfl, rfl, bracket_shellQuote undecodable⟩
      | stringObject value => exact ⟨_, rfl, rfl, bracket_shellQuote undecodable⟩
      | boolean value => exact ⟨_, rfl⟩
      | booleanObject value => exact ⟨_, rfl⟩
    · exact absurd rfl notDecode
    · rw [after_constructor, applyModifier_constructor]
      cases value with
      | string value => exact ⟨_, rfl, rfl, undecodable⟩
      | stringObject value => exact ⟨_, rfl, rfl, undecodable⟩
      | boolean value => exact ⟨_, rfl, rfl, trivial⟩
      | booleanObject value => exact ⟨_, rfl, rfl, trivial⟩
    · exact ⟨_, applyModifier_toString value, rfl, bracket_undefined⟩
    · rw [after_isPrototypeOf, applyModifier_isPrototypeOf]
      cases value with
      | string value => exact ⟨_, rfl, rfl, trivial⟩
      | stringObject value => exact ⟨_, rfl⟩
      | boolean value => exact ⟨_, rfl, rfl, trivial⟩
      | booleanObject value => exact ⟨_, rfl⟩

theorem applyModifiers_undecodable_ok_iff {names : List CodeUnits} {value : JsValue}
    (undecodable : value.Undecodable) :
    (∃ result, applyModifiers value names varName = .ok result) ↔
      (value.shape.through names).isSome = true ∧ B64DECODE ∉ names := by
  induction names generalizing value with
  | nil => simp [applyModifiers, Shape.through]
  | cons name names ih =>
    by_cases isDecode : name = B64DECODE
    · have fails := @decode_undecodable varName value undecodable
      rw [← isDecode] at fails
      have present : B64DECODE ∈ name :: names := isDecode ▸ List.mem_cons_self
      exact iff_of_false (chain_of_error names fails) fun passes => passes.2 present
    · have step := @step_undecodable varName value undecodable name isDecode
      cases after : value.shape.after name with
      | none =>
        rw [after] at step
        rw [through_of_none names after]
        exact iff_of_false (chain_of_error names step) fun passes => by cases passes.1
      | some shape =>
        rw [after] at step
        obtain ⟨next, isNext, rfl, nextUndecodable⟩ := step
        obtain ⟨chain, through⟩ := chain_of_step names isNext after
        rw [chain, through, ih nextUndecodable, List.mem_cons, not_or]
        exact and_congr_right fun _ => (and_iff_right (Ne.symm isDecode)).symm

/-! ### Chains -/

/-- The text behind a value that strings can be made of. -/
def JsValue.Holds (text : CodeUnits) : JsValue → Prop
  | .string value => value = text
  | .stringObject value => value = text
  | .boolean _ => False
  | .booleanObject _ => False

theorem JsValue.Holds.cases {text : CodeUnits} {value : JsValue} (holds : value.Holds text) :
    value = .string text ∨ value = .stringObject text := by
  cases value with
  | string value => exact .inl (congrArg _ holds)
  | stringObject value => exact .inr (congrArg _ holds)
  | boolean value => exact holds.elim
  | booleanObject value => exact holds.elim

/-- Before the value is replaced the chain decodes and quotes its text. -/
theorem applyModifiers_holds_ok_iff {names : List CodeUnits} {text : CodeUnits} {value : JsValue}
    (holds : value.Holds text) : (∃ result, applyModifiers value names varName = .ok result) ↔
      (value.shape.through names).isSome = true ∧ Decodes varName text names := by
  induction names generalizing text value with
  | nil => simp [applyModifiers, Shape.through, Decodes]
  | cons name names ih =>
    by_cases others : name ∉ [RAW, SHELL, B64DECODE, CONSTRUCTOR, TO_STRING, IS_PROTOTYPE_OF]
    · have fails := @applyModifier_other varName name value others
      rw [through_of_none names (after_other _ others)]
      exact iff_of_false (chain_of_error names fails) fun passes => by cases passes.1
    · rw [not_not] at others
      simp only [List.mem_cons, List.not_mem_nil, or_false] at others
      rcases others with rfl | rfl | rfl | rfl | rfl | rfl
      · obtain ⟨chain, through⟩ := chain_of_step names (@applyModifier_raw varName value) rfl
        rw [chain, through]
        exact ih holds
      · have step : applyModifier value SHELL varName = .ok (.string (shellQuote text)) ∧
            value.shape.after SHELL = some .text := by
          rcases holds.cases with rfl | rfl
          · exact ⟨rfl, rfl⟩
          · exact ⟨rfl, rfl⟩
        obtain ⟨chain, through⟩ := chain_of_step names step.1 step.2
        rw [chain, through]
        exact @ih (shellQuote text) _ rfl
      · have step : applyModifier value B64DECODE varName =
            (decodeBase64 text varName).map .string ∧
              value.shape.after B64DECODE = some .text := by
          rcases holds.cases with rfl | rfl
          · exact ⟨rfl, rfl⟩
          · exact ⟨rfl, rfl⟩
        have decodes : Decodes varName text (B64DECODE :: names) ↔
            ∃ decoded, decodeBase64 text varName = .ok decoded ∧
              Decodes varName decoded names := Iff.rfl
        rw [decodes]
        cases isDecoded : decodeBase64 text varName with
        | error error =>
          rw [isDecoded] at step
          refine iff_of_false (chain_of_error names ⟨error, step.1⟩) ?_
          rintro ⟨_, decoded, impossible, _⟩
          cases impossible
        | ok decoded =>
          rw [isDecoded] at step
          obtain ⟨chain, through⟩ := chain_of_step names step.1 step.2
          rw [chain, through, @ih decoded (.string decoded) rfl]
          simp
      · have step : applyModifier value CONSTRUCTOR varName = .ok (.stringObject text) ∧
            value.shape.after CONSTRUCTOR = some .object := by
          rcases holds.cases with rfl | rfl
          · exact ⟨rfl, rfl⟩
          · exact ⟨rfl, rfl⟩
        obtain ⟨chain, through⟩ := chain_of_step names step.1 step.2
        rw [chain, through]
        exact @ih text (.stringObject text) rfl
      · obtain ⟨chain, through⟩ := chain_of_step names (@applyModifier_toString varName value) rfl
        rw [chain, through]
        exact applyModifiers_undecodable_ok_iff bracket_undefined
      · rcases holds.cases with rfl | rfl
        · have step : applyModifier (.string text) IS_PROTOTYPE_OF varName =
              .ok (.boolean false) := rfl
          obtain ⟨chain, through⟩ := chain_of_step names step rfl
          rw [chain, through]
          exact applyModifiers_undecodable_ok_iff trivial
        · have after : (JsValue.stringObject text).shape.after IS_PROTOTYPE_OF = none := rfl
          rw [through_of_none names after]
          exact iff_of_false (chain_of_error names ⟨.typeError, rfl⟩)
            fun passes => by cases passes.1

/-- When the chain of a placeholder goes through. -/
theorem applyModifiers_ok_iff {answer : CodeUnits} {token : PlaceholderToken} :
    (∃ result, applyModifiers (.string answer) token.modifiers token.varName = .ok result) ↔
      ChainPasses answer token := by
  rw [@applyModifiers_holds_ok_iff token.varName token.modifiers answer (.string answer) rfl]
  exact ⟨fun both => ⟨both.1, both.2⟩, fun passes => ⟨passes.shapes, passes.decodes⟩⟩

/-! ### The two paths -/

/-- The same answers, with these keys read late. -/
def TemplateEnvironment.marked (env : TemplateEnvironment) (late : CodeUnits → Bool) :
    TemplateEnvironment :=
  fun key => (env key).map fun binding => { binding with perAccess := late key }

/-- Every key answers as at its first read. -/
def TemplateEnvironment.steady (env : TemplateEnvironment) : TemplateEnvironment :=
  fun key => (env key).map fun binding =>
    { binding with answer := fun _ => binding.answer 0 }

def noKey : CodeUnits → Bool := fun _ => false

def AllRegistered (template : CodeUnits) (strict : Bool) : Prop :=
  ∀ tokens, tokenizeTemplate template strict = .ok tokens →
    ∀ token ∈ placeholderTokens tokens, ∀ name ∈ token.modifiers, isRegistered name = true

/-- Whichever keys are read late, only registered modifiers are let through, and the output is
that of the plain path. -/
structure ModifiersClosed (template : CodeUnits) (env : TemplateEnvironment)
    (strict : Bool) : Prop where
  registered : ∀ late output,
    renderTemplate template (env.marked late) strict = .ok output →
      AllRegistered template strict
  agree : ∀ late,
    (renderTemplate template (env.steady.marked late) strict).toOption =
      (renderTemplate template (env.steady.marked noKey) strict).toOption

/-! ### Refusals -/

/-- Each placeholder with what the read of its key gives. -/
def readsFrom (env : TemplateEnvironment) :
    List CodeUnits → List PlaceholderToken →
      List (PlaceholderToken × Except RenderError CodeUnits)
  | _, [] => []
  | seen, token :: tokens =>
      (token, resolveEnvironment env token.varName (seen.count token.varName)) ::
        readsFrom env (token.varName :: seen) tokens

/-- The read gives an answer on which the chain of its placeholder goes through. -/
def ReadPasses (read : PlaceholderToken × Except RenderError CodeUnits) : Prop :=
  ∃ answer, read.2 = .ok answer ∧ ChainPasses answer read.1

/-- The plain path refuses the template for its syntax, for a bare placeholder, for a read that
fails or for a chain that does not go through. -/
def Refused (template : CodeUnits) (env : TemplateEnvironment) (strict : Bool) : Prop :=
  ∀ tokens, tokenizeTemplate template strict = .ok tokens →
    (strict = true ∧ ∃ token ∈ placeholderTokens tokens, token.modifiers = []) ∨
      ∃ read ∈ readsFrom env [] (placeholderTokens tokens), ¬ReadPasses read

/-- Every name is registered, or the plain path refuses the template anyway: with the answers
of the environment, and with those where every key answers as at its first read. -/
def Covered (template : CodeUnits) (env : TemplateEnvironment) (strict : Bool) : Prop :=
  AllRegistered template strict ∨
    (Refused template env strict ∧ Refused template env.steady strict)

section Environments

variable (env : TemplateEnvironment)

theorem resolveEnvironment_marked (late : CodeUnits → Bool) (key : CodeUnits) (earlier : Nat) :
    resolveEnvironment (env.marked late) key earlier =
      resolveEnvironment env key earlier := by
  rw [resolveEnvironment, resolveEnvironment, TemplateEnvironment.marked]
  cases env key with
  | none => rfl
  | some binding => rfl

theorem resolveEnvironment_steady (key : CodeUnits) (earlier : Nat) :
    resolveEnvironment env.steady key earlier = resolveEnvironment env key 0 := by
  rw [resolveEnvironment, resolveEnvironment, TemplateEnvironment.steady]
  cases env key with
  | none => rfl
  | some binding => rfl

theorem readsFrom_marked (late : CodeUnits → Bool) (tokens : List PlaceholderToken) :
    ∀ seen, readsFrom (env.marked late) seen tokens =
      readsFrom env seen tokens := by
  induction tokens with
  | nil => exact fun _ => rfl
  | cons token tokens ih =>
    intro seen
    rw [readsFrom, readsFrom, resolveEnvironment_marked, ih]

theorem readsFrom_steady (tokens : List PlaceholderToken) :
    ∀ seen, readsFrom env.steady seen tokens =
      tokens.map fun token => (token, resolveEnvironment env token.varName 0) := by
  induction tokens with
  | nil => exact fun _ => rfl
  | cons token tokens ih =>
    intro seen
    rw [readsFrom, resolveEnvironment_steady, ih, List.map_cons]

theorem mem_latePlaceholderKeys {tokens : List PlaceholderToken} {key : CodeUnits} :
    key ∈ latePlaceholderKeys tokens env ↔
      key ∈ tokens.map PlaceholderToken.varName ∧
        hasPerAccessResolution env key = true := by
  have added : ∀ (keys start : List CodeUnits),
      key ∈ keys.foldl setAdd start ↔ key ∈ start ∨ key ∈ keys := by
    intro keys
    induction keys with
    | nil => simp
    | cons first keys ih =>
      intro start
      rw [List.foldl_cons, ih, mem_setAdd, List.mem_cons]
      tauto
  rw [latePlaceholderKeys, added, List.mem_filter]
  simp

theorem latePlaceholderKeys_noKey (tokens : List PlaceholderToken) :
    latePlaceholderKeys tokens (env.marked noKey) = [] := by
  apply List.eq_nil_iff_forall_not_mem.2
  intro key member
  have late := ((mem_latePlaceholderKeys _).1 member).2
  rw [hasPerAccessResolution, TemplateEnvironment.marked] at late
  cases found : env key with
  | none => simp [found] at late
  | some binding => simp [found, noKey] at late

end Environments

/-! ### The plain path -/

section Paths

variable {env : TemplateEnvironment} {template : CodeUnits} {strict : Bool}

/-- The slot holds the answer of the read. -/
def Answered (read : PlaceholderToken × Except RenderError CodeUnits) (slot : Option JsValue) :
    Prop :=
  ∃ answer, read.2 = .ok answer ∧ slot = some (.string answer)

theorem resolveEach_ok_iff {tokens : List PlaceholderToken} {seen : List CodeUnits}
    {slots : List (Option JsValue)} : resolveEach env seen tokens = .ok slots ↔
      List.Forall₂ Answered (readsFrom env seen tokens) slots := by
  induction tokens generalizing seen slots with
  | nil =>
    rw [resolveEach, readsFrom, List.forall₂_nil_left_iff]
    exact ⟨fun same => (Except.ok.inj same).symm, fun same => by rw [same]⟩
  | cons token tokens ih =>
    constructor
    · intro resolved
      obtain ⟨answer, read, resolved⟩ := ok_of_bind resolved
      obtain ⟨later, laterResolved, resolved⟩ := ok_of_bind resolved
      cases resolved
      exact .cons ⟨answer, read, rfl⟩ (ih.1 laterResolved)
    · intro answered
      rw [readsFrom] at answered
      cases answered with
      | cons isAnswered later =>
        obtain ⟨answer, read, rfl⟩ := isAnswered
        dsimp only at read
        rw [resolveEach, read, ih.2 later]
        rfl

theorem renderTokens_placeholder (phased : Bool) (token : PlaceholderToken) (tokens : List Token)
    (slot : Option JsValue) (slots : List (Option JsValue)) :
    renderTokens phased (.placeholder token :: tokens) (slot :: slots) = (do
      let rendered ← (if phased then .ok (.string (valueText slot))
        else applyModifiers (.string (valueText slot)) token.modifiers token.varName)
      let output ← renderTokens phased tokens slots
      .ok (rendered.toText ++ output)) := rfl

theorem renderTokens_ok_iff {tokens : List Token}
    {reads : List (PlaceholderToken × Except RenderError CodeUnits)}
    {slots : List (Option JsValue)} (areTokens : reads.map Prod.fst = placeholderTokens tokens)
    (answered : List.Forall₂ Answered reads slots) :
    (∃ output, renderTokens false tokens slots = .ok output) ↔ ∀ read ∈ reads, ReadPasses read := by
  induction tokens generalizing reads slots with
  | nil =>
    cases reads with
    | nil => simp [renderTokens]
    | cons read reads => cases areTokens
  | cons token tokens ih =>
    cases token with
    | escaped =>
      rw [← ih areTokens answered]
      constructor
      · rintro ⟨output, rendered⟩
        obtain ⟨later, laterRendered, _⟩ := ok_of_bind rendered
        exact ⟨later, laterRendered⟩
      · rintro ⟨later, laterRendered⟩
        exact ⟨_, by rw [renderTokens, laterRendered]; rfl⟩
    | literal text =>
      rw [← ih areTokens answered]
      constructor
      · rintro ⟨output, rendered⟩
        obtain ⟨later, laterRendered, _⟩ := ok_of_bind rendered
        exact ⟨later, laterRendered⟩
      · rintro ⟨later, laterRendered⟩
        exact ⟨_, by rw [renderTokens, laterRendered]; rfl⟩
    | placeholder token =>
      cases answered with
      | nil => cases areTokens
      | @cons read slot reads slots isAnswered laterAnswered =>
        obtain ⟨rfl, laterTokens⟩ := List.cons.inj areTokens
        obtain ⟨answer, isRead, rfl⟩ := isAnswered
        have later := ih laterTokens laterAnswered
        have here : ReadPasses read ↔
            ∃ result, applyModifiers (.string answer) read.1.modifiers read.1.varName =
              .ok result := by
          rw [applyModifiers_ok_iff, ReadPasses, isRead]
          exact ⟨fun ⟨_, same, passes⟩ => Except.ok.inj same ▸ passes,
            fun passes => ⟨answer, rfl, passes⟩⟩
        rw [List.forall_mem_cons, ← later, here]
        constructor
        · rintro ⟨output, rendered⟩
          obtain ⟨result, isResult, rendered⟩ := ok_of_bind rendered
          obtain ⟨output, laterRendered, _⟩ := ok_of_bind rendered
          exact ⟨⟨result, isResult⟩, output, laterRendered⟩
        · rintro ⟨⟨result, isResult⟩, output, laterRendered⟩
          refine ⟨result.toText ++ output, ?_⟩
          rw [renderTokens_placeholder, laterRendered]
          change (do
            let rendered ← applyModifiers (.string answer) read.1.modifiers read.1.varName
            let output ← Except.ok output
            .ok (rendered.toText ++ output)) = _
          rw [isResult]
          rfl

theorem enforceStrictModifiers_ok_iff {tokens : List Token} :
    enforceStrictModifiers tokens = .ok () ↔
      ∀ token ∈ placeholderTokens tokens, token.modifiers ≠ [] := by
  induction tokens with
  | nil => simp [enforceStrictModifiers, placeholderTokens]
  | cons token tokens ih =>
    cases token with
    | escaped => exact ih
    | literal text => exact ih
    | placeholder token =>
      have split : placeholderTokens (.placeholder token :: tokens) =
          token :: placeholderTokens tokens := rfl
      rw [split, List.forall_mem_cons, ← ih, enforceStrictModifiers]
      by_cases bare : token.modifiers = []
      · simp [bare]
      · simp [bare]

theorem map_fst_readsFrom (tokens : List PlaceholderToken) :
    ∀ seen, (readsFrom env seen tokens).map Prod.fst = tokens := by
  induction tokens with
  | nil => exact fun _ => rfl
  | cons token tokens ih =>
    intro seen
    rw [readsFrom, List.map_cons, ih]

/-- What was done for a rendered template. -/
theorem renderTemplate_ok_iff {output : CodeUnits} :
    renderTemplate template env strict = .ok output ↔
      ∃ tokens, tokenizeTemplate template strict = .ok tokens ∧
        (strict = true → ∀ token ∈ placeholderTokens tokens, token.modifiers ≠ []) ∧
          ∃ phased slots, resolveTemplatePlaceholders tokens env = .ok (phased, slots) ∧
              renderTokens phased tokens slots = .ok output := by
  have checked : ∀ tokens, (if strict then enforceStrictModifiers tokens else .ok ()) = .ok () ↔
      (strict = true → ∀ token ∈ placeholderTokens tokens, token.modifiers ≠ []) := by
    intro tokens
    cases strict with
    | false => simp
    | true => simp [enforceStrictModifiers_ok_iff]
  constructor
  · intro rendered
    obtain ⟨tokens, tokenized, rendered⟩ := ok_of_bind rendered
    obtain ⟨_, isChecked, rendered⟩ := ok_of_bind rendered
    obtain ⟨⟨phased, slots⟩, resolved, rendered⟩ := ok_of_bind rendered
    exact ⟨tokens, tokenized, (checked tokens).1 isChecked, phased, slots, resolved, rendered⟩
  · rintro ⟨tokens, tokenized, isChecked, phased, slots, resolved, rendered⟩
    rw [renderTemplate, tokenized]
    change ((if strict then enforceStrictModifiers tokens else .ok ()) >>= fun _ =>
      resolveTemplatePlaceholders tokens env >>= fun resolved =>
        renderTokens resolved.1 tokens resolved.2) = _
    rw [(checked tokens).2 isChecked, resolved]
    exact rendered

/-- Without late keys each placeholder is read for itself. -/
theorem resolveTemplatePlaceholders_plain {tokens : List Token}
    (noLate : latePlaceholderKeys (placeholderTokens tokens) env = []) :
    resolveTemplatePlaceholders tokens env =
      (resolveEach env [] (placeholderTokens tokens)).map fun slots => (false, slots) := by
  rw [resolveTemplatePlaceholders, noLate]
  rfl

theorem resolveTemplatePlaceholders_phased {tokens : List Token}
    (late : latePlaceholderKeys (placeholderTokens tokens) env ≠ []) :
    resolveTemplatePlaceholders tokens env =
      (resolvePhasedPlaceholders (placeholderTokens tokens) env
        (latePlaceholderKeys (placeholderTokens tokens) env)).map
          fun slots => (true, slots) := by
  obtain ⟨key, keys, isLate⟩ := List.exists_cons_of_ne_nil late
  rw [resolveTemplatePlaceholders, isLate]
  rfl

/-- The plain path renders exactly what it has no reason to refuse. -/
theorem renderPlain_ok_iff (noLate : ∀ tokens, tokenizeTemplate template strict = .ok tokens →
      latePlaceholderKeys (placeholderTokens tokens) env = []) :
    (∃ output, renderTemplate template env strict = .ok output) ↔
      ¬Refused template env strict := by
  constructor
  · rintro ⟨output, rendered⟩ refused
    obtain ⟨tokens, tokenized, isChecked, phased, slots, resolved, rendered⟩ :=
      renderTemplate_ok_iff.1 rendered
    rw [resolveTemplatePlaceholders_plain (noLate tokens tokenized)] at resolved
    cases isResolved : resolveEach env [] (placeholderTokens tokens) with
    | error error =>
      rw [isResolved] at resolved
      cases resolved
    | ok values =>
      rw [isResolved] at resolved
      cases resolved
      have passes := (renderTokens_ok_iff (map_fst_readsFrom _ [])
        (resolveEach_ok_iff.1 isResolved)).1 ⟨output, rendered⟩
      rcases refused tokens tokenized with ⟨isStrict, token, member, bare⟩ | ⟨read, member, fails⟩
      · exact isChecked isStrict token member bare
      · exact fails (passes read member)
  · intro notRefused
    simp only [Refused, not_forall, not_or, not_and, not_exists, not_not] at notRefused
    obtain ⟨tokens, tokenized, isChecked, passes⟩ := notRefused
    have exists_slots : ∃ slots,
        List.Forall₂ Answered (readsFrom env [] (placeholderTokens tokens)) slots := by
      generalize readsFrom env [] (placeholderTokens tokens) = reads at passes
      induction reads with
      | nil => exact ⟨[], .nil⟩
      | cons read reads ih =>
        obtain ⟨slots, answered⟩ := ih fun other member =>
          passes other (List.mem_cons_of_mem _ member)
        obtain ⟨answer, isAnswer, _⟩ := passes read List.mem_cons_self
        exact ⟨some (.string answer) :: slots, .cons ⟨answer, isAnswer, rfl⟩ answered⟩
    obtain ⟨slots, answered⟩ := exists_slots
    obtain ⟨output, rendered⟩ := (renderTokens_ok_iff (map_fst_readsFrom _ []) answered).2 passes
    refine ⟨output, renderTemplate_ok_iff.2 ⟨tokens, tokenized, isChecked, false, slots, ?_,
      rendered⟩⟩
    rw [resolveTemplatePlaceholders_plain (noLate tokens tokenized), resolveEach_ok_iff.2 answered]
    rfl

/-! ### The phased path -/

theorem validateModifiers_ok_iff {names : List CodeUnits} :
    validateModifiers names = .ok () ↔ ∀ name ∈ names, isRegistered name = true := by
  induction names with
  | nil => simp [validateModifiers]
  | cons name names ih =>
    rw [validateModifiers, List.forall_mem_cons, ← ih]
    by_cases registered : isRegistered name = true
    · simp [registered]
    · simp [registered]

theorem validatePlaceholders_ok_iff {tokens : List PlaceholderToken} :
    validatePlaceholders env tokens = .ok () ↔
      ∀ token ∈ tokens, (env token.varName).isSome = true ∧
        ∀ name ∈ token.modifiers, isRegistered name = true := by
  induction tokens with
  | nil => simp [validatePlaceholders]
  | cons token tokens ih =>
    rw [validatePlaceholders, List.forall_mem_cons, ← ih]
    cases defined : env token.varName with
    | none => simp
    | some binding =>
      cases checked : validateModifiers token.modifiers with
      | error error =>
        have some_unregistered : ¬∀ name ∈ token.modifiers, isRegistered name = true := by
          intro registered
          rw [validateModifiers_ok_iff.2 registered] at checked
          cases checked
        simp [some_unregistered, bind, Except.bind]
      | ok nothing =>
        have registered := validateModifiers_ok_iff.1 checked
        simp only [Option.isNone_some, Bool.false_eq_true, if_false, Option.isSome_some, true_and]
        exact (and_iff_right registered).symm

/-- The phased path lets registered modifiers through only. -/
theorem allRegistered_of_phased {output : CodeUnits} {tokens : List Token}
    (tokenized : tokenizeTemplate template strict = .ok tokens)
    (late : latePlaceholderKeys (placeholderTokens tokens) env ≠ [])
    (rendered : renderTemplate template env strict = .ok output) :
    AllRegistered template strict := by
  obtain ⟨otherTokens, otherTokenized, _, phased, slots, resolved, _⟩ :=
    renderTemplate_ok_iff.1 rendered
  obtain rfl := Except.ok.inj (tokenized.symm.trans otherTokenized)
  rw [resolveTemplatePlaceholders_phased late] at resolved
  cases isResolved : resolvePhasedPlaceholders (placeholderTokens tokens) env
      (latePlaceholderKeys (placeholderTokens tokens) env) with
  | error error =>
    rw [isResolved] at resolved
    cases resolved
  | ok values =>
    obtain ⟨_, validated, _⟩ := ok_of_bind isResolved
    have registered := validatePlaceholders_ok_iff.1 validated
    intro otherTokens otherTokenized token member
    obtain rfl := Except.ok.inj (tokenized.symm.trans otherTokenized)
    exact (registered token member).2

/-- Each read of the key gives the same answer, on which the chain goes through. -/
def SteadilyPasses (env : TemplateEnvironment) (token : PlaceholderToken) : Prop :=
  ∃ answer, (∀ earlier, resolveEnvironment env token.varName earlier = .ok answer) ∧
    ∃ result, applyModifiers (.string answer) token.modifiers token.varName = .ok result

theorem renderOrdinary_ok {keys : List CodeUnits} {tokens : List PlaceholderToken}
    (passes : ∀ token ∈ tokens, SteadilyPasses env token) :
    ∀ seen, ∃ slots, renderOrdinary env keys seen tokens = .ok slots := by
  induction tokens with
  | nil => exact fun _ => ⟨[], rfl⟩
  | cons token tokens ih =>
    intro seen
    obtain ⟨here, laterPasses⟩ := List.forall_mem_cons.1 passes
    rw [renderOrdinary]
    split
    · obtain ⟨slots, later⟩ := ih laterPasses seen
      exact ⟨none :: slots, by rw [later]; rfl⟩
    · obtain ⟨answer, reads, result, applied⟩ := here
      obtain ⟨slots, later⟩ := ih laterPasses (token.varName :: seen)
      exact ⟨some result :: slots, by rw [reads, later]; simp [applied, bind, Except.bind]⟩

theorem fillKey_ok {key answer : CodeUnits} {tokens : List PlaceholderToken}
    (passes : ∀ token ∈ tokens, token.varName = key →
      ∃ result, applyModifiers (.string answer) token.modifiers token.varName = .ok result) :
    ∀ slots, ∃ filled, fillKey key answer tokens slots = .ok filled := by
  induction tokens with
  | nil => exact fun slots => ⟨slots, rfl⟩
  | cons token tokens ih =>
    intro slots
    obtain ⟨here, laterPasses⟩ := List.forall_mem_cons.1 passes
    cases slots with
    | nil => exact ⟨[], rfl⟩
    | cons slot slots =>
      obtain ⟨filled, later⟩ := ih laterPasses slots
      rw [fillKey]
      split
      · next isKey =>
          obtain ⟨result, applied⟩ := here isKey
          exact ⟨some result :: filled, by rw [later]; simp [applied, bind, Except.bind]⟩
      · exact ⟨slot :: filled, by rw [later]; rfl⟩

theorem renderLate_ok {tokens : List PlaceholderToken} {keys : List CodeUnits}
    (passes : ∀ token ∈ tokens, SteadilyPasses env token)
    (areKeys : ∀ key ∈ keys, key ∈ tokens.map PlaceholderToken.varName) :
    ∀ slots, ∃ filled, renderLate env tokens keys slots = .ok filled := by
  induction keys with
  | nil => exact fun slots => ⟨slots, rfl⟩
  | cons key keys ih =>
    intro slots
    obtain ⟨isKey, laterKeys⟩ := List.forall_mem_cons.1 areKeys
    obtain ⟨token, member, rfl⟩ := List.mem_map.1 isKey
    obtain ⟨answer, reads, _⟩ := passes token member
    have chains : ∀ other ∈ tokens, other.varName = token.varName →
        ∃ result, applyModifiers (.string answer) other.modifiers other.varName = .ok result := by
      intro other otherMember same
      obtain ⟨otherAnswer, otherReads, applied⟩ := passes other otherMember
      have sameAnswer := reads 0
      rw [← same, otherReads] at sameAnswer
      exact Except.ok.inj sameAnswer ▸ applied
    obtain ⟨filled, isFilled⟩ := fillKey_ok chains slots
    obtain ⟨final, isFinal⟩ := ih laterKeys filled
    exact ⟨final, by rw [renderLate, reads]; simp [isFilled, isFinal, bind, Except.bind]⟩

theorem renderTokens_phased_ok (tokens : List Token) :
    ∀ slots, ∃ output, renderTokens true tokens slots = .ok output := by
  induction tokens with
  | nil => exact fun _ => ⟨[], rfl⟩
  | cons token tokens ih =>
    intro slots
    cases token with
    | escaped =>
      obtain ⟨output, later⟩ := ih slots
      exact ⟨PLACEHOLDER_OPEN ++ output, by rw [renderTokens, later]; rfl⟩
    | literal text =>
      obtain ⟨output, later⟩ := ih slots
      exact ⟨text ++ output, by rw [renderTokens, later]; rfl⟩
    | placeholder token =>
      obtain ⟨output, later⟩ := ih slots.tail
      exact ⟨_, by rw [renderTokens, later]; rfl⟩

end Paths

/-! ### Both paths -/

section Agreement

variable {env : TemplateEnvironment} {template : CodeUnits} {strict : Bool}

theorem refused_marked (late : CodeUnits → Bool) :
    Refused template (env.marked late) strict ↔ Refused template env strict := by
  simp only [Refused, readsFrom_marked]

/-- Without late keys a marking makes no difference. -/
theorem renderMarked_ok_iff {late : CodeUnits → Bool}
    (noLate : ∀ tokens, tokenizeTemplate template strict = .ok tokens →
      latePlaceholderKeys (placeholderTokens tokens) (env.marked late) = []) :
    (∃ output, renderTemplate template (env.marked late) strict = .ok output) ↔
      ¬Refused template env strict := by
  rw [renderPlain_ok_iff noLate, refused_marked]

theorem renderNoKey_ok_iff :
    (∃ output, renderTemplate template (env.marked noKey) strict = .ok output) ↔
      ¬Refused template env strict :=
  renderMarked_ok_iff fun tokens _ =>
    latePlaceholderKeys_noKey env (placeholderTokens tokens)

/-- A rendering without a refusal let registered modifiers through only, or took the plain
path. -/
theorem allRegistered_or_not_refused {late : CodeUnits → Bool} {output : CodeUnits}
    (rendered : renderTemplate template (env.marked late) strict = .ok output) :
    AllRegistered template strict ∨ ¬Refused template env strict := by
  by_cases noLate : ∀ tokens, tokenizeTemplate template strict = .ok tokens →
      latePlaceholderKeys (placeholderTokens tokens) (env.marked late) = []
  · exact .inr ((renderMarked_ok_iff noLate).1 ⟨output, rendered⟩)
  · rw [not_forall] at noLate
    obtain ⟨tokens, hasLate⟩ := noLate
    rw [Classical.not_imp] at hasLate
    exact .inl (allRegistered_of_phased hasLate.1 hasLate.2 rendered)

theorem exists_of_forall₂ {α β : Type} {related : α → β → Prop} {firsts : List α}
    {seconds : List β} (all : List.Forall₂ related firsts seconds) {first : α}
    (member : first ∈ firsts) : ∃ second, related first second := by
  induction all with
  | nil => cases member
  | cons isRelated _ ih =>
    rcases List.mem_cons.1 member with rfl | later
    · exact ⟨_, isRelated⟩
    · exact ih later

theorem eq_of_forall₂ {α β : Type} {related otherRelated : α → β → Prop} {firsts : List α}
    {seconds others : List β} (all : List.Forall₂ related firsts seconds)
    (otherAll : List.Forall₂ otherRelated firsts others)
    (unique : ∀ first second other, related first second → otherRelated first other →
      second = other) : seconds = others := by
  induction all generalizing others with
  | nil =>
    cases otherAll
    rfl
  | cons isRelated _ ih =>
    cases otherAll with
    | cons isOther later =>
      rw [unique _ _ _ isRelated isOther, ih later]

theorem hasPerAccessResolution_of_transformed {token : PlaceholderToken} {text : CodeUnits}
    (transformed : Transformed (env.marked fun _ => true) token text) :
    hasPerAccessResolution (env.marked fun _ => true) token.varName = true := by
  obtain ⟨earlier, answer, _, read, _⟩ := transformed
  rw [resolveEnvironment_marked, resolveEnvironment] at read
  rw [hasPerAccessResolution, TemplateEnvironment.marked]
  cases found : env token.varName with
  | none =>
    rw [found] at read
    cases read
  | some binding => rfl

/-- A key that answers steadily has one transformed value. -/
theorem transformed_unique {late otherLate : CodeUnits → Bool} {token : PlaceholderToken}
    {text otherText : CodeUnits} (transformed : Transformed (env.steady.marked late) token text)
    (otherTransformed : Transformed (env.steady.marked otherLate) token otherText) :
    text = otherText := by
  obtain ⟨_, answer, result, read, applied, rfl⟩ := transformed
  obtain ⟨_, otherAnswer, otherResult, otherRead, otherApplied, rfl⟩ := otherTransformed
  rw [resolveEnvironment_marked, resolveEnvironment_steady] at read otherRead
  obtain rfl := Except.ok.inj (read.symm.trans otherRead)
  obtain rfl := Except.ok.inj (applied.symm.trans otherApplied)
  rfl

theorem renderSteady_unique {late otherLate : CodeUnits → Bool} {output otherOutput : CodeUnits}
    (rendered : renderTemplate template (env.steady.marked late) strict = .ok output)
    (otherRendered :
      renderTemplate template (env.steady.marked otherLate) strict = .ok otherOutput) :
    output = otherOutput := by
  obtain ⟨tokens, texts, tokenized, transformed, rfl⟩ := renderTemplate_values rendered
  obtain ⟨otherTokens, otherTexts, otherTokenized, otherTransformed, rfl⟩ :=
    renderTemplate_values otherRendered
  obtain rfl := Except.ok.inj (tokenized.symm.trans otherTokenized)
  have sameTexts := eq_of_forall₂ transformed otherTransformed fun _ _ _ => transformed_unique
  rw [sameTexts]

/-- With steady answers neither path renders what the plain path refuses. -/
theorem not_refused_of_rendered {late : CodeUnits → Bool} {output : CodeUnits}
    (rendered : renderTemplate template (env.steady.marked late) strict = .ok output) :
    ¬Refused template env.steady strict := by
  intro refused
  obtain ⟨tokens, tokenized, isChecked, _⟩ := renderTemplate_ok_iff.1 rendered
  obtain ⟨otherTokens, texts, otherTokenized, transformed, _⟩ := renderTemplate_values rendered
  obtain rfl := Except.ok.inj (tokenized.symm.trans otherTokenized)
  rcases refused tokens tokenized with ⟨isStrict, token, member, bare⟩ | ⟨read, member, fails⟩
  · exact isChecked isStrict token member bare
  · rw [readsFrom_steady] at member
    obtain ⟨token, isToken, rfl⟩ := List.mem_map.1 member
    obtain ⟨_, _, answer, result, isRead, applied, _⟩ := exists_of_forall₂ transformed isToken
    rw [resolveEnvironment_marked, resolveEnvironment_steady] at isRead
    exact fails ⟨answer, isRead, applyModifiers_ok_iff.1 ⟨result, applied⟩⟩

/-- With steady answers and registered names both paths render what is not refused. -/
theorem rendered_of_not_refused (registered : AllRegistered template strict)
    (notRefused : ¬Refused template env.steady strict) (late : CodeUnits → Bool) :
    ∃ output, renderTemplate template (env.steady.marked late) strict = .ok output := by
  by_cases noLate : ∀ tokens, tokenizeTemplate template strict = .ok tokens →
      latePlaceholderKeys (placeholderTokens tokens) (env.steady.marked late) = []
  · exact (renderMarked_ok_iff noLate).2 notRefused
  · rw [not_forall] at noLate
    obtain ⟨tokens, hasLate⟩ := noLate
    rw [Classical.not_imp] at hasLate
    obtain ⟨tokenized, hasLate⟩ := hasLate
    simp only [Refused, not_forall, not_or, not_and, not_exists, not_not] at notRefused
    obtain ⟨otherTokens, otherTokenized, isChecked, passes⟩ := notRefused
    obtain rfl := Except.ok.inj (tokenized.symm.trans otherTokenized)
    have steadily : ∀ token ∈ placeholderTokens tokens,
        SteadilyPasses (env.steady.marked late) token := by
      intro token member
      have isRead : (token, resolveEnvironment env token.varName 0) ∈
          readsFrom env.steady [] (placeholderTokens tokens) := by
        rw [readsFrom_steady]
        exact List.mem_map_of_mem member
      obtain ⟨answer, isAnswer, chain⟩ := passes _ isRead
      refine ⟨answer, fun earlier => ?_, applyModifiers_ok_iff.2 chain⟩
      rw [resolveEnvironment_marked, resolveEnvironment_steady]
      exact isAnswer
    have defined : ∀ token ∈ placeholderTokens tokens,
        ((env.steady.marked late) token.varName).isSome = true := by
      intro token member
      obtain ⟨answer, reads, _⟩ := steadily token member
      have isRead := reads 0
      rw [resolveEnvironment] at isRead
      cases found : (env.steady.marked late) token.varName with
      | none =>
        rw [found] at isRead
        cases isRead
      | some binding => rfl
    have validated := validatePlaceholders_ok_iff.2 fun token member =>
      ⟨defined token member, registered tokens tokenized token member⟩
    have areKeys : ∀ key ∈ latePlaceholderKeys (placeholderTokens tokens)
        (env.steady.marked late), key ∈ (placeholderTokens tokens).map PlaceholderToken.varName :=
      fun key isKey => ((mem_latePlaceholderKeys _).1 isKey).1
    obtain ⟨slots, ordinary⟩ := @renderOrdinary_ok _
      (latePlaceholderKeys (placeholderTokens tokens) (env.steady.marked late)) _ steadily []
    obtain ⟨filled, isFilled⟩ := renderLate_ok steadily areKeys slots
    obtain ⟨output, rendered⟩ := renderTokens_phased_ok tokens filled
    refine ⟨output, renderTemplate_ok_iff.2 ⟨tokens, tokenized, isChecked, true, filled, ?_,
      rendered⟩⟩
    rw [resolveTemplatePlaceholders_phased hasLate, resolvePhasedPlaceholders, validated]
    simp [ordinary, isFilled, bind, Except.bind, Except.map]

theorem toOption_eq_iff_of_unique {first second : Except RenderError CodeUnits}
    (unique : ∀ output otherOutput, first = .ok output → second = .ok otherOutput →
      output = otherOutput) :
    first.toOption = second.toOption ↔
      ((∃ output, first = .ok output) ↔ ∃ output, second = .ok output) := by
  cases first with
  | error error =>
    cases second with
    | error otherError => simp [Except.toOption]
    | ok otherOutput => simp [Except.toOption]
  | ok output =>
    cases second with
    | error otherError => simp [Except.toOption]
    | ok otherOutput =>
      have same := unique output otherOutput rfl rfl
      simp [Except.toOption, same]

/-- Only registered modifiers are let through, and both paths agree, exactly where every name
is registered or the plain path refuses the template anyway. -/
theorem modifiersClosed_iff (template : CodeUnits) (env : TemplateEnvironment)
    (strict : Bool) :
    ModifiersClosed template env strict ↔ Covered template env strict := by
  constructor
  · intro closed
    by_cases registered : AllRegistered template strict
    · exact .inl registered
    · refine .inr ⟨?_, ?_⟩
      · by_contra notRefused
        obtain ⟨output, rendered⟩ := renderNoKey_ok_iff.mpr notRefused
        exact registered (closed.registered noKey output rendered)
      · by_contra notRefused
        have agree := (toOption_eq_iff_of_unique fun _ _ => renderSteady_unique).mp
          (closed.agree fun _ => true)
        obtain ⟨output, rendered⟩ := agree.mpr (renderNoKey_ok_iff.mpr notRefused)
        -- the placeholder with the unknown name has a key, and so is read late
        simp only [AllRegistered, not_forall] at registered
        obtain ⟨tokens, tokenized, token, member, name, isName, unknown⟩ := registered
        obtain ⟨otherTokens, texts, otherTokenized, transformed, _⟩ :=
          renderTemplate_values rendered
        obtain rfl := Except.ok.inj (tokenized.symm.trans otherTokenized)
        have isLate : token.varName ∈ latePlaceholderKeys (placeholderTokens tokens)
            (env.steady.marked fun _ => true) := by
          refine (mem_latePlaceholderKeys _).mpr ⟨List.mem_map_of_mem member, ?_⟩
          obtain ⟨text, isTransformed⟩ := exists_of_forall₂ transformed member
          exact hasPerAccessResolution_of_transformed isTransformed
        have onlyRegistered := allRegistered_of_phased tokenized
          (List.ne_nil_of_mem isLate) rendered
        exact unknown (onlyRegistered tokens tokenized token member name isName)
  · rintro covered
    refine ⟨fun late output rendered => ?_, fun late => ?_⟩
    · rcases covered with registered | ⟨refused, _⟩
      · exact registered
      · exact (allRegistered_or_not_refused rendered).resolve_right (not_not_intro refused)
    · rw [toOption_eq_iff_of_unique fun _ _ => renderSteady_unique]
      rcases covered with registered | ⟨_, refused⟩
      · constructor
        · rintro ⟨output, rendered⟩
          exact rendered_of_not_refused registered (not_refused_of_rendered rendered) noKey
        · rintro ⟨output, rendered⟩
          exact rendered_of_not_refused registered (not_refused_of_rendered rendered) late
      · exact iff_of_false (fun ⟨_, rendered⟩ => not_refused_of_rendered rendered refused)
          fun ⟨_, rendered⟩ => not_refused_of_rendered rendered refused

/-- `Object` is found in the registry, and hands the value on. -/
theorem constructor_let_through :
    ¬ModifiersClosed (codeUnits "\x7b\x7bA|constructor\x7d\x7d") nestedEnvironment true := by
  intro closed
  have rendered : renderTemplate (codeUnits "\x7b\x7bA|constructor\x7d\x7d")
      (nestedEnvironment.marked noKey) true = .ok (codeUnits "\x7b\x7bB|raw\x7d\x7d") := by rfl
  have registered := closed.registered noKey _ rendered
    [.placeholder { modifiers := [CONSTRUCTOR], varName := codeUnits "A" }] (by rfl)
    _ List.mem_cons_self CONSTRUCTOR List.mem_cons_self
  exact absurd registered (by decide)

end Agreement

end Paratix.Template
