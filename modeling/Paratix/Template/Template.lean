/-
Module: Paratix.Template.Template
Purpose: Templates: their placeholders, the modifiers of these, and their rendering.
Main exports: applyModifiers, renderTemplate
-/
import Paratix.Foundation.Base64
import Paratix.Foundation.Columns
import Paratix.Foundation.Utf8
import Paratix.Masking.Secrets
import Paratix.Foundation.AssocList
import Paratix.Foundation.Separator

namespace Paratix.Template

open Foundation Masking

/-! ### Code units -/

/-- The character of a code unit that stands for one. -/
def unitChar (unit : UInt16) : Char := Char.ofNat unit.toNat

/-- `\w` -/
def isWordUnit (unit : UInt16) : Bool := (unitChar unit).isAlphanum || unitChar unit = '_'

/-- `\s` -/
def isSpaceUnit (unit : UInt16) : Bool := isJsSpace (unitChar unit)

def isBase64Unit (unit : UInt16) : Bool := unitChar unit ∈ base64Alphabet

/-- The UTF-16 spelling of a character. -/
def charUnits (char : Char) : CodeUnits :=
  let code := char.toNat
  if code < 0x10000 then [UInt16.ofNat code]
  else
    [UInt16.ofNat (0xd800 + (code - 0x10000) / 0x400),
      UInt16.ofNat (0xdc00 + (code - 0x10000) % 0x400)]

def utf16Units (value : List Char) : CodeUnits := value.flatMap charUnits

/-! ### Errors and values -/

/-- An error with a text of the source, a `TypeError` of the runtime, or what a resolver was
rejected with. -/
inductive RenderError where
  | error (message : CodeUnits)
  | typeError
  | rejected (reason : CodeUnits)
deriving DecidableEq, Repr

/-- What a modifier can be handed: the registered ones answer with strings, the members of
`Object.prototype` with other values too. -/
inductive JsValue where
  | string (value : CodeUnits)
  | stringObject (value : CodeUnits)
  | boolean (value : Bool)
  | booleanObject (value : Bool)
deriving DecidableEq, Repr

/-- `String(value)` -/
def JsValue.toText : JsValue → CodeUnits
  | .string value => value
  | .stringObject value => value
  | .boolean value => codeUnits (if value then "true" else "false")
  | .booleanObject value => codeUnits (if value then "true" else "false")

/-! ### Base64 -/

def BASE64_GROUP_LENGTH : Nat := 4

def PADDING : UInt16 := codeUnit '='

/-- `BASE64_PATTERN.test(compact)` -/
def matchesBase64 (compact : CodeUnits) : Bool :=
  let padding := compact.dropWhile isBase64Unit
  padding.all (· = PADDING) && padding.length ≤ 2

/-- `compact.replace(/={1,2}$/v, "")` -/
def stripPadding (compact : CodeUnits) : CodeUnits :=
  if [PADDING, PADDING] <:+ compact then compact.dropLast.dropLast
  else if [PADDING] <:+ compact then compact.dropLast
  else compact

def normalizeBase64 (value location : CodeUnits) : Except RenderError CodeUnits :=
  let compact := value.filter fun unit => !isSpaceUnit unit
  if !matchesBase64 compact then
    .error (.error (location ++ codeUnits " received a value that is not standard base64"))
  else
    let stripped := stripPadding compact
    if stripped.length % BASE64_GROUP_LENGTH = 1 then
      .error (.error (location ++ codeUnits " received a value of invalid base64 length"))
    else
      let groups := (stripped.length + (BASE64_GROUP_LENGTH - 1)) / BASE64_GROUP_LENGTH
      .ok (stripped ++
        List.replicate (groups * BASE64_GROUP_LENGTH - stripped.length) PADDING)

def BYTE_ORDER_MARK : Char := '\ufeff'

/-- `utf8Decoder.decode(bytes)`: the decoder drops a byte order mark at the start. -/
def decodeStrictUtf8 (bytes : List UInt8) : Option (List Char) :=
  (decodeUtf8 bytes).map fun value =>
    if value.head? = some BYTE_ORDER_MARK then value.tail else value

def placeholderLocation (varName : CodeUnits) : CodeUnits :=
  codeUnits "Template modifier \"b64decode\" on placeholder \"\x7b\x7b" ++ varName ++
    codeUnits "\x7d\x7d\""

def decodeBase64 (value varName : CodeUnits) : Except RenderError CodeUnits := do
  let location := placeholderLocation varName
  let padded ← normalizeBase64 value location
  if padded = [] then .ok []
  else
    let bytes := Foundation.decodeBase64 (padded.map unitChar)
    if (encodeBase64 bytes).map codeUnit ≠ padded then
      .error (.error (location ++ codeUnits " received a value that is not canonical base64"))
    else
      match decodeStrictUtf8 bytes with
      | some decoded => .ok (utf16Units decoded)
      | none =>
          .error (.error (location ++ codeUnits " decoded to bytes that are not valid UTF-8"))

/-! ### The registry -/

/-- A modifier as it is called: with the value and the name of the placeholder. -/
abbrev Modifier := JsValue → CodeUnits → Except RenderError JsValue

/-- A modifier that calls a method of strings: a boolean has no such method. -/
def onText (transform : CodeUnits → CodeUnits → Except RenderError CodeUnits) : Modifier
  | .string value, varName => (transform value varName).map .string
  | .stringObject value, varName => (transform value varName).map .string
  | .boolean _, _ => .error .typeError
  | .booleanObject _, _ => .error .typeError

/-- The own properties of the registry. -/
def modifiers : List (CodeUnits × Modifier) :=
  [(codeUnits "b64decode", onText decodeBase64),
    (codeUnits "raw", fun value _ => .ok value),
    (codeUnits "shell", onText fun value _ => .ok (shellQuote value))]

/-- `Object(value)` -/
def objectConstructor : Modifier
  | .string value, _ => .ok (.stringObject value)
  | .boolean value, _ => .ok (.booleanObject value)
  | boxed, _ => .ok boxed

/-- `Object.prototype.isPrototypeOf` without a receiver. -/
def isPrototypeOf : Modifier
  | .string _, _ => .ok (.boolean false)
  | .boolean _, _ => .ok (.boolean false)
  | _, _ => .error .typeError

/-- The members that the registry inherits, called without a receiver. Most need one. The
last is no function. -/
def inheritedMembers : List (CodeUnits × Modifier) :=
  [(codeUnits "constructor", objectConstructor),
    (codeUnits "toString", fun _ _ => .ok (.string (codeUnits "[object Undefined]"))),
    (codeUnits "isPrototypeOf", isPrototypeOf)] ++
  ["valueOf", "hasOwnProperty", "propertyIsEnumerable", "toLocaleString", "__defineGetter__",
    "__defineSetter__", "__lookupGetter__", "__lookupSetter__", "__proto__"].map fun name =>
      (codeUnits name, fun _ _ => .error .typeError)

/-- `modifiers[name]` -/
def lookupModifier (name : CodeUnits) : Option Modifier :=
  (modifiers.lookup name).or (inheritedMembers.lookup name)

def unknownModifier (name : CodeUnits) : RenderError :=
  .error (codeUnits "Unknown template modifier \"" ++ name ++ codeUnits "\"")

def applyModifier (value : JsValue) (name varName : CodeUnits) : Except RenderError JsValue :=
  match lookupModifier name with
  | none => .error (unknownModifier name)
  | some transform => transform value varName

def applyModifiers (value : JsValue) : List CodeUnits → CodeUnits → Except RenderError JsValue
  | [], _ => .ok value
  | name :: names, varName => do
      let current ← applyModifier value name varName
      applyModifiers current names varName

/-- `Object.hasOwn(modifiers, name)` -/
def isRegistered (name : CodeUnits) : Bool := (modifiers.lookup name).isSome

/-! ### Placeholders -/

structure PlaceholderToken where
  modifiers : List CodeUnits
  varName : CodeUnits
deriving DecidableEq, Repr

inductive Token where
  | escaped
  | literal (text : CodeUnits)
  | placeholder (token : PlaceholderToken)
deriving DecidableEq, Repr

def PLACEHOLDER_OPEN : CodeUnits := codeUnits "\x7b\x7b"
def PLACEHOLDER_CLOSE : CodeUnits := codeUnits "\x7d\x7d"
def ESCAPED_OPEN : CodeUnits := codeUnits "\\\x7b\x7b"
def PIPE : UInt16 := codeUnit '|'
def DOT : UInt16 := codeUnit '.'

def startsWord (text : CodeUnits) : Bool := text.head?.any isWordUnit

/-- Words behind separators, as many as there are; `inWord` is whether the text goes on in a
word. The second component is what follows. -/
def readWords (separator : UInt16) : Bool → CodeUnits → CodeUnits × CodeUnits
  | _, [] => ([], [])
  | inWord, unit :: rest =>
      if (inWord && isWordUnit unit) || (unit = separator && startsWord rest) then
        let (words, after) := readWords separator true rest
        (unit :: words, after)
      else ([], unit :: rest)

/-- `(?<modifiers>\||(?:\|\w+)*)\}\}` -/
def matchModifiers (text : CodeUnits) : Option CodeUnits :=
  if PIPE :: PLACEHOLDER_CLOSE <+: text then some [PIPE]
  else
    let (chain, rest) := readWords PIPE false text
    if PLACEHOLDER_CLOSE <+: rest then some chain else none

/-- The two groups of `placeholderPattern` at the start of a text. -/
def matchPlaceholder (text : CodeUnits) : Option (CodeUnits × CodeUnits) :=
  if PLACEHOLDER_OPEN <+: text then
    let inner := text.drop PLACEHOLDER_OPEN.length
    if startsWord inner then
      let (varName, rest) := readWords DOT true inner
      (matchModifiers rest).map fun rawModifiers => (varName, rawModifiers)
    else none
  else none

/-- `match[0].length` -/
def matchLength (varName rawModifiers : CodeUnits) : Nat :=
  PLACEHOLDER_OPEN.length + varName.length + rawModifiers.length + PLACEHOLDER_CLOSE.length

def placeholderToken (varName rawModifiers : CodeUnits) : PlaceholderToken where
  modifiers := if rawModifiers = [] then [] else rawModifiers.tail.splitOn PIPE
  varName := varName

/-! ### The tokenizer -/

def MALFORMED_PLACEHOLDER_SNIPPET_LIMIT : Nat := 40

/-- The message for what stands at the cursor. -/
def formatMalformedPlaceholderError (remaining : CodeUnits) : RenderError :=
  let closing := cutFirst PLACEHOLDER_CLOSE (remaining.drop PLACEHOLDER_OPEN.length)
  let endIndex := match closing with
    | none => min remaining.length MALFORMED_PLACEHOLDER_SNIPPET_LIMIT
    | some (before, _) =>
        PLACEHOLDER_OPEN.length + before.length + PLACEHOLDER_CLOSE.length
  let suffix :=
    if endIndex < remaining.length ∧ closing = none then codeUnits "..." else []
  .error (codeUnits "Malformed template placeholder near \"" ++ remaining.take endIndex ++
    suffix ++ codeUnits "\"")

def flushLiteral (literalBuffer : CodeUnits) (tokens : List Token) : List Token :=
  if literalBuffer = [] then tokens else tokens ++ [.literal literalBuffer]

/-- The text from the cursor on; `skip` units of it belong to a token that was pushed. -/
def tokenizeFrom (strict : Bool) :
    Nat → CodeUnits → List Token → CodeUnits → Except RenderError (List Token)
  | _, literalBuffer, tokens, [] => .ok (flushLiteral literalBuffer tokens)
  | skip + 1, literalBuffer, tokens, _ :: rest =>
      tokenizeFrom strict skip literalBuffer tokens rest
  | 0, literalBuffer, tokens, unit :: rest =>
      if ESCAPED_OPEN <+: unit :: rest then
        tokenizeFrom strict (ESCAPED_OPEN.length - 1) []
          (flushLiteral literalBuffer tokens ++ [.escaped]) rest
      else
        match matchPlaceholder (unit :: rest) with
        | some (varName, rawModifiers) =>
            tokenizeFrom strict (matchLength varName rawModifiers - 1) []
              (flushLiteral literalBuffer tokens ++
                [.placeholder (placeholderToken varName rawModifiers)]) rest
        | none =>
            if strict && PLACEHOLDER_OPEN.isPrefixOf (unit :: rest) then
              .error (formatMalformedPlaceholderError (unit :: rest))
            else tokenizeFrom strict 0 (literalBuffer ++ [unit]) tokens rest

def tokenizeTemplate (template : CodeUnits) (strict : Bool) : Except RenderError (List Token) :=
  tokenizeFrom strict 0 [] [] template

def enforceStrictModifiers : List Token → Except RenderError Unit
  | [] => .ok ()
  | .placeholder token :: tokens =>
      if token.modifiers = [] then
        .error (.error (codeUnits "Strict mode: placeholder \"\x7b\x7b" ++ token.varName ++
          codeUnits "\x7d\x7d\" requires an explicit modifier (e.g. |shell or |raw)"))
      else enforceStrictModifiers tokens
  | _ :: tokens => enforceStrictModifiers tokens

def placeholderTokens : List Token → List PlaceholderToken :=
  List.filterMap fun token => match token with
    | .placeholder token => some token
    | _ => none

/-! ### Values -/

/-- What a key stands for: `answer` is the text that `String` gives of the value, at each of
the reads of the key during a rendering. -/
structure EnvironmentBinding where
  answer : Nat → Except RenderError CodeUnits
  perAccess : Bool

abbrev TemplateEnvironment := CodeUnits → Option EnvironmentBinding

/-- `resolveEnvironment`, for a key that was read `earlier` times. -/
def resolveEnvironment (environment : TemplateEnvironment) (key : CodeUnits) (earlier : Nat) :
    Except RenderError CodeUnits :=
  match environment key with
  | none => .error (.error (codeUnits "Env key \"" ++ key ++ codeUnits "\" is not defined"))
  | some binding => binding.answer earlier

def hasPerAccessResolution (environment : TemplateEnvironment) (key : CodeUnits) : Bool :=
  (environment key).any EnvironmentBinding.perAccess

/-- The plain path: one read for each placeholder. `seen` are the keys read so far. -/
def resolveEach (environment : TemplateEnvironment) :
    List CodeUnits → List PlaceholderToken → Except RenderError (List (Option JsValue))
  | _, [] => .ok []
  | seen, token :: tokens => do
      let value ← resolveEnvironment environment token.varName (seen.count token.varName)
      let values ← resolveEach environment (token.varName :: seen) tokens
      .ok (some (.string value) :: values)

def validateModifiers : List CodeUnits → Except RenderError Unit
  | [] => .ok ()
  | name :: names => if isRegistered name then validateModifiers names else
      .error (unknownModifier name)

def validatePlaceholders (environment : TemplateEnvironment) :
    List PlaceholderToken → Except RenderError Unit
  | [] => .ok ()
  | token :: tokens => do
      if (environment token.varName).isNone then
        .error (.error (codeUnits "Env key \"" ++ token.varName ++
          codeUnits "\" is not defined"))
      else do
        validateModifiers token.modifiers
        validatePlaceholders environment tokens

/-- The ordinary values with their transforms; a per-access key leaves a hole. -/
def renderOrdinary (environment : TemplateEnvironment) (perAccessKeys : List CodeUnits) :
    List CodeUnits → List PlaceholderToken → Except RenderError (List (Option JsValue))
  | _, [] => .ok []
  | seen, token :: tokens =>
      if token.varName ∈ perAccessKeys then do
        let values ← renderOrdinary environment perAccessKeys seen tokens
        .ok (none :: values)
      else do
        let value ← resolveEnvironment environment token.varName (seen.count token.varName)
        let rendered ← applyModifiers (.string value) token.modifiers token.varName
        let values ← renderOrdinary environment perAccessKeys (token.varName :: seen) tokens
        .ok (some rendered :: values)

/-- A late value goes to every placeholder of its key. -/
def fillKey (key value : CodeUnits) :
    List PlaceholderToken → List (Option JsValue) → Except RenderError (List (Option JsValue))
  | token :: tokens, slot :: slots =>
      if token.varName = key then do
        let rendered ← applyModifiers (.string value) token.modifiers token.varName
        let filled ← fillKey key value tokens slots
        .ok (some rendered :: filled)
      else do
        let filled ← fillKey key value tokens slots
        .ok (slot :: filled)
  | _, slots => .ok slots

def renderLate (environment : TemplateEnvironment) (tokens : List PlaceholderToken) :
    List CodeUnits → List (Option JsValue) → Except RenderError (List (Option JsValue))
  | [], renderedValues => .ok renderedValues
  | key :: keys, renderedValues => do
      let value ← resolveEnvironment environment key 0
      let filled ← fillKey key value tokens renderedValues
      renderLate environment tokens keys filled

def resolvePhasedPlaceholders (tokens : List PlaceholderToken)
    (environment : TemplateEnvironment) (perAccessKeys : List CodeUnits) :
    Except RenderError (List (Option JsValue)) := do
  validatePlaceholders environment tokens
  let renderedValues ← renderOrdinary environment perAccessKeys [] tokens
  renderLate environment tokens perAccessKeys renderedValues

/-- The keys that are read late, in the order of their first appearance. -/
def latePlaceholderKeys (tokens : List PlaceholderToken) (environment : TemplateEnvironment) :
    List CodeUnits :=
  ((tokens.map PlaceholderToken.varName).filter (hasPerAccessResolution environment)).foldl
    setAdd []

def resolveTemplatePlaceholders (tokens : List Token) (environment : TemplateEnvironment) :
    Except RenderError (Bool × List (Option JsValue)) := do
  let placeholders := placeholderTokens tokens
  let perAccessKeys := latePlaceholderKeys placeholders environment
  let phased := !perAccessKeys.isEmpty
  let resolvedValues ←
    (if phased then resolvePhasedPlaceholders placeholders environment perAccessKeys
      else resolveEach environment [] placeholders)
  .ok (phased, resolvedValues)

/-! ### Rendering -/

/-- `String(resolvedValues[placeholderIndex])` -/
def valueText : Option JsValue → CodeUnits
  | none => codeUnits "undefined"
  | some value => value.toText

/-- The segments in order, over the values that are left. -/
def renderTokens (phased : Bool) :
    List Token → List (Option JsValue) → Except RenderError CodeUnits
  | [], _ => .ok []
  | .literal text :: tokens, values => do
      let output ← renderTokens phased tokens values
      .ok (text ++ output)
  | .escaped :: tokens, values => do
      let output ← renderTokens phased tokens values
      .ok (PLACEHOLDER_OPEN ++ output)
  | .placeholder token :: tokens, values => do
      let resolved := valueText values.head?.join
      let rendered ←
        (if phased then .ok (.string resolved)
          else applyModifiers (.string resolved) token.modifiers token.varName)
      let output ← renderTokens phased tokens values.tail
      .ok (rendered.toText ++ output)

def renderTemplate (template : CodeUnits) (environment : TemplateEnvironment) (strict : Bool) :
    Except RenderError CodeUnits := do
  let tokens ← tokenizeTemplate template strict
  let _ ← (if strict then enforceStrictModifiers tokens else .ok ())
  let (phased, resolvedValues) ← resolveTemplatePlaceholders tokens environment
  renderTokens phased tokens resolvedValues

end Paratix.Template
