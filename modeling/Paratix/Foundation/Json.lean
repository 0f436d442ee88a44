/-
Module: Paratix.Foundation.Json
Purpose: JSON values as `JSON.parse` reads them, by a machine with a stack over the tokens of a text,
  and as `JSON.stringify` writes them, which are read as they were.
Main exports: Json.induction, parseJson_stringifyJson
-/
import Paratix.Foundation.AssocList

namespace Foundation

/-! ### Code units -/

def utf16 (char : Char) : List UInt16 :=
  let code := char.toNat
  if code < 0x10000 then [UInt16.ofNat code]
  else
    [UInt16.ofNat (0xd800 + (code - 0x10000) / 0x400),
      UInt16.ofNat (0xdc00 + (code - 0x10000) % 0x400)]

def isLeadUnit (unit : UInt16) : Bool := 0xd800 ≤ unit.toNat && unit.toNat < 0xdc00

def isTrailUnit (unit : UInt16) : Bool := 0xdc00 ≤ unit.toNat && unit.toNat < 0xe000

def charOfPair (lead trail : UInt16) : Char :=
  Char.ofNat (0x10000 + (lead.toNat - 0xd800) * 0x400 + (trail.toNat - 0xdc00))

/-! ### Values and tokens -/

/-- Numbers are kept as they are written; the keys of an object are distinct. -/
inductive Json where
  | null
  | bool (value : Bool)
  | number (literal : List Char)
  | string (units : List UInt16)
  | array (items : List Json)
  | object (members : List (List UInt16 × Json))

inductive JsonToken where
  | openBrace
  | closeBrace
  | openBracket
  | closeBracket
  | colon
  | comma
  | string (units : List UInt16)
  | null
  | bool (value : Bool)
  | number (literal : List Char)
deriving DecidableEq

/-! ### Texts into tokens -/

def isJsonBlank (char : Char) : Bool :=
  char = ' ' || char = '\t' || char = '\n' || char = '\r'

def jsonPunctuation (char : Char) : Option JsonToken :=
  if char = '\x7b' then some .openBrace
  else if char = '\x7d' then some .closeBrace
  else if char = '[' then some .openBracket
  else if char = ']' then some .closeBracket
  else if char = ':' then some .colon
  else if char = ',' then some .comma
  else none

/-- A character of a number or of a literal name. -/
def isJsonWordChar (char : Char) : Bool :=
  !isJsonBlank char && (jsonPunctuation char).isNone && char ≠ '"'

/-- `[eE][+-]?[0-9]+` or nothing -/
def isJsonExponent : List Char → Bool
  | [] => true
  | mark :: rest =>
      let digits := match rest with
        | sign :: behind => if sign = '+' || sign = '-' then behind else rest
        | [] => []
      (mark = 'e' || mark = 'E') && digits ≠ [] && digits.all Char.isDigit

/-- `-?(0|[1-9][0-9]*)(\.[0-9]+)?([eE][+-]?[0-9]+)?` -/
def isJsonNumber (word : List Char) : Bool :=
  let unsigned := if word.head? = some '-' then word.drop 1 else word
  let digits := unsigned.takeWhile Char.isDigit
  let behind := unsigned.dropWhile Char.isDigit
  digits ≠ [] && (digits.length = 1 || digits.head? ≠ some '0') &&
    if behind.head? = some '.' then
      let fraction := (behind.drop 1).takeWhile Char.isDigit
      fraction ≠ [] && isJsonExponent ((behind.drop 1).dropWhile Char.isDigit)
    else isJsonExponent behind

def jsonWord (word : List Char) : Option JsonToken :=
  if word = "null".toList then some .null
  else if word = "true".toList then some (.bool true)
  else if word = "false".toList then some (.bool false)
  else if isJsonNumber word then some (.number word)
  else none

/-- The escapes of one letter. -/
def jsonEscapeUnit (char : Char) : Option UInt16 :=
  if char = '"' then some 0x22
  else if char = '\\' then some 0x5c
  else if char = '/' then some 0x2f
  else if char = 'b' then some 0x08
  else if char = 'f' then some 0x0c
  else if char = 'n' then some 0x0a
  else if char = 'r' then some 0x0d
  else if char = 't' then some 0x09
  else none

def hexDigitValue (char : Char) : Option Nat :=
  let code := char.toNat
  if 0x30 ≤ code && code ≤ 0x39 then some (code - 0x30)
  else if 0x61 ≤ code && code ≤ 0x66 then some (code - 0x57)
  else if 0x41 ≤ code && code ≤ 0x46 then some (code - 0x37)
  else none

/-- Where the scan is: between tokens, in a word, in a string, behind a backslash, or behind some
digits of a `\u` escape. -/
inductive LexMode where
  | between
  | word (read : List Char)
  | string (read : List UInt16)
  | escape (read : List UInt16)
  | unicode (read : List UInt16) (count value : Nat)

/-- A word ends where the next character is none of a word. -/
def lexJson : LexMode → List Char → Option (List JsonToken)
  | .between, [] => some []
  | _, [] => none
  | .string read, char :: rest =>
      if char = '"' then (lexJson .between rest).map (.string read :: ·)
      else if char = '\\' then lexJson (.escape read) rest
      else if char.toNat < 0x20 then none
      else lexJson (.string (read ++ utf16 char)) rest
  | .escape read, char :: rest =>
      if char = 'u' then lexJson (.unicode read 0 0) rest
      else
        match jsonEscapeUnit char with
        | none => none
        | some unit => lexJson (.string (read ++ [unit])) rest
  | .unicode read count value, char :: rest =>
      match hexDigitValue char with
      | none => none
      | some digit =>
          if count = 3 then lexJson (.string (read ++ [UInt16.ofNat (value * 16 + digit)])) rest
          else lexJson (.unicode read (count + 1) (value * 16 + digit)) rest
  | .word read, char :: rest =>
      if rest.head?.any isJsonWordChar then lexJson (.word (read ++ [char])) rest
      else
        match jsonWord (read ++ [char]) with
        | none => none
        | some token => (lexJson .between rest).map (token :: ·)
  | .between, char :: rest =>
      if isJsonBlank char then lexJson .between rest
      else if char = '"' then lexJson (.string []) rest
      else
        match jsonPunctuation char with
        | some token => (lexJson .between rest).map (token :: ·)
        | none =>
            if rest.head?.any isJsonWordChar then lexJson (.word [char]) rest
            else
              match jsonWord [char] with
              | none => none
              | some token => (lexJson .between rest).map (token :: ·)

/-! ### Tokens into values -/

/-- An array or an object that is open, with what was read of it. -/
inductive JsonFrame where
  | array (items : List Json)
  | object (members : List (List UInt16 × Json))
  | member (members : List (List UInt16 × Json)) (key : List UInt16)

/-- What comes next: a value, a first item or a closing bracket, a key, a first key or a closing
brace, a colon, or what follows a value. -/
inductive JsonMode where
  | value
  | firstItem
  | key
  | firstKey
  | colon (key : List UInt16)
  | after (value : Json)

abbrev JsonState := List JsonFrame × JsonMode

/-- A token where a value is due. -/
def jsonValueStep (frames : List JsonFrame) : JsonToken → Option JsonState
  | .null => some (frames, .after .null)
  | .bool value => some (frames, .after (.bool value))
  | .number literal => some (frames, .after (.number literal))
  | .string units => some (frames, .after (.string units))
  | .openBracket => some (.array [] :: frames, .firstItem)
  | .openBrace => some (.object [] :: frames, .firstKey)
  | .closeBracket | .closeBrace | .colon | .comma => none

/-- A key that was read already keeps its place and takes the new value. -/
def jsonStep : JsonState → JsonToken → Option JsonState
  | (frames, .value), token => jsonValueStep frames token
  | (.array [] :: frames, .firstItem), .closeBracket => some (frames, .after (.array []))
  | (frames, .firstItem), token => jsonValueStep frames token
  | (.object members :: frames, .firstKey), .closeBrace =>
      some (frames, .after (.object members))
  | (frames, .firstKey), .string units | (frames, .key), .string units =>
      some (frames, .colon units)
  | (.object members :: frames, .colon key), .colon =>
      some (.member members key :: frames, .value)
  | (.array items :: frames, .after value), .comma =>
      some (.array (items ++ [value]) :: frames, .value)
  | (.array items :: frames, .after value), .closeBracket =>
      some (frames, .after (.array (items ++ [value])))
  | (.member members key :: frames, .after value), .comma =>
      some (.object (mapSet members key value) :: frames, .key)
  | (.member members key :: frames, .after value), .closeBrace =>
      some (frames, .after (.object (mapSet members key value)))
  | _, _ => none

def jsonResult : JsonState → Option Json
  | ([], .after value) => some value
  | _ => none

/-- `JSON.parse`; nothing for a text it throws on. -/
def parseJson (text : List Char) : Option Json := do
  let tokens ← lexJson .between text
  let state ← tokens.foldlM jsonStep ([], .value)
  jsonResult state

/-! ### Values into texts -/

def lowerHexChar (digit : Nat) : Char :=
  Char.ofNat (if digit < 10 then 0x30 + digit else 0x57 + digit)

/-- `\uXXXX` -/
def unicodeEscapeChars (unit : UInt16) : List Char :=
  let code := unit.toNat
  ['\\', 'u', lowerHexChar (code / 0x1000), lowerHexChar (code / 0x100 % 0x10),
    lowerHexChar (code / 0x10 % 0x10), lowerHexChar (code % 0x10)]

/-- A code unit that is no part of a pair. -/
def jsonUnitChars (unit : UInt16) : List Char :=
  if unit = 0x08 then ['\\', 'b']
  else if unit = 0x09 then ['\\', 't']
  else if unit = 0x0a then ['\\', 'n']
  else if unit = 0x0c then ['\\', 'f']
  else if unit = 0x0d then ['\\', 'r']
  else if unit = 0x22 then ['\\', '"']
  else if unit = 0x5c then ['\\', '\\']
  else if unit.toNat < 0x20 || isLeadUnit unit || isTrailUnit unit then unicodeEscapeChars unit
  else [Char.ofNat unit.toNat]

/-- What stands between the quotes of a string. -/
def jsonStringChars : List UInt16 → List Char
  | [] => []
  | [unit] => jsonUnitChars unit
  | unit :: next :: rest =>
      if isLeadUnit unit && isTrailUnit next then charOfPair unit next :: jsonStringChars rest
      else jsonUnitChars unit ++ jsonStringChars (next :: rest)

def JsonToken.chars : JsonToken → List Char
  | .openBrace => ['\x7b']
  | .closeBrace => ['\x7d']
  | .openBracket => ['[']
  | .closeBracket => [']']
  | .colon => [':']
  | .comma => [',']
  | .string units => '"' :: (jsonStringChars units ++ ['"'])
  | .null => "null".toList
  | .bool value => if value then "true".toList else "false".toList
  | .number literal => literal

mutual

def Json.tokens : Json → List JsonToken
  | .null => [.null]
  | .bool value => [.bool value]
  | .number literal => [.number literal]
  | .string units => [.string units]
  | .array items => .openBracket :: (itemTokens items ++ [.closeBracket])
  | .object members => .openBrace :: (memberTokens members ++ [.closeBrace])

def itemTokens : List Json → List JsonToken
  | [] => []
  | [item] => item.tokens
  | item :: next :: items => item.tokens ++ .comma :: itemTokens (next :: items)

def memberTokens : List (List UInt16 × Json) → List JsonToken
  | [] => []
  | [(key, value)] => .string key :: .colon :: value.tokens
  | (key, value) :: next :: members =>
      .string key :: .colon :: (value.tokens ++ .comma :: memberTokens (next :: members))

end

/-- `JSON.stringify` -/
def stringifyJson (value : Json) : List Char := value.tokens.flatMap JsonToken.chars

/-! ### Values -/

theorem Json.induction {holds : Json → Prop} (null : holds .null)
    (bool : ∀ value, holds (.bool value)) (number : ∀ literal, holds (.number literal))
    (string : ∀ units, holds (.string units))
    (array : ∀ items, (∀ item ∈ items, holds item) → holds (.array items))
    (object : ∀ members, (∀ member ∈ members, holds member.2) → holds (.object members))
    (value : Json) : holds value := by
  apply @Json.rec holds (fun items => ∀ item ∈ items, holds item)
    (fun members => ∀ member ∈ members, holds member.2) (fun member => holds member.2)
  · exact null
  · exact bool
  · exact number
  · exact string
  · exact array
  · exact object
  · exact fun _ mem => absurd mem List.not_mem_nil
  · intro item items here below
    exact List.forall_mem_cons.2 ⟨here, below⟩
  · exact fun _ mem => absurd mem List.not_mem_nil
  · intro member members here below
    exact List.forall_mem_cons.2 ⟨here, below⟩
  · intro key value here
    exact here

/-- The word is read as the token. -/
structure IsJsonWord (word : List Char) (token : JsonToken) : Prop where
  reads : jsonWord word = some token
  nonempty : word ≠ []
  wordChars : word.all isJsonWordChar = true

instance (word : List Char) (token : JsonToken) : Decidable (IsJsonWord word token) :=
  decidable_of_iff (jsonWord word = some token ∧ word ≠ [] ∧ word.all isJsonWordChar = true)
    ⟨fun isWord => ⟨isWord.1, isWord.2.1, isWord.2.2⟩,
      fun isWord => ⟨isWord.reads, isWord.nonempty, isWord.wordChars⟩⟩

/-- Numbers are written as numbers and the keys of objects are distinct. -/
inductive Json.Proper : Json → Prop where
  | null : Proper .null
  | bool (value : Bool) : Proper (.bool value)
  | number {literal : List Char} (isWord : IsJsonWord literal (.number literal)) :
      Proper (.number literal)
  | string (units : List UInt16) : Proper (.string units)
  | array {items : List Json} (each : ∀ item ∈ items, item.Proper) : Proper (.array items)
  | object {members : List (List UInt16 × Json)} (nodup : (members.map Prod.fst).Nodup)
      (each : ∀ member ∈ members, member.2.Proper) : Proper (.object members)

/-! ### Strings -/

theorem hexDigitValue_lowerHexChar {digit : Nat} (small : digit < 16) :
    hexDigitValue (lowerHexChar digit) = some digit := by
  have all : ∀ digit : Fin 16, hexDigitValue (lowerHexChar digit) = some digit.val := by decide
  exact all ⟨digit, small⟩

theorem lexJson_unicodeEscape (read : List UInt16) (unit : UInt16) (rest : List Char) :
    lexJson (.string read) (unicodeEscapeChars unit ++ rest) =
      lexJson (.string (read ++ [unit])) rest := by
  have bound := unit.toNat_lt
  have first := @hexDigitValue_lowerHexChar (unit.toNat / 0x1000) (by omega)
  have second := @hexDigitValue_lowerHexChar (unit.toNat / 0x100 % 0x10) (by omega)
  have third := @hexDigitValue_lowerHexChar (unit.toNat / 0x10 % 0x10) (by omega)
  have fourth := @hexDigitValue_lowerHexChar (unit.toNat % 0x10) (by omega)
  have value : ((unit.toNat / 0x1000 * 16 + unit.toNat / 0x100 % 0x10) * 16 +
      unit.toNat / 0x10 % 0x10) * 16 + unit.toNat % 0x10 = unit.toNat := by omega
  have isUnit : UInt16.ofNat unit.toNat = unit := UInt16.ofNat_toNat
  have opened : ∀ more, lexJson (.string read) ('\\' :: 'u' :: more) =
      lexJson (.unicode read 0 0) more := fun _ => rfl
  rw [unicodeEscapeChars]
  simp only [List.cons_append, List.nil_append, opened]
  rw [lexJson, first]
  simp only [Nat.zero_mul, Nat.zero_add, show (0 : Nat) ≠ 3 by decide, if_false]
  rw [lexJson, second]
  simp only [show (1 : Nat) ≠ 3 by decide, if_false]
  rw [lexJson, third]
  simp only [show (1 + 1 : Nat) ≠ 3 by decide, if_false]
  rw [lexJson, fourth]
  simp only [show (1 + 1 + 1 : Nat) = 3 by decide, if_true, value, isUnit]

/-- A character that stands for itself in a string. -/
theorem lexJson_plain (read : List UInt16) {char : Char} (noQuote : char ≠ '"')
    (noBackslash : char ≠ '\\') (noControl : 0x20 ≤ char.toNat) (rest : List Char) :
    lexJson (.string read) (char :: rest) = lexJson (.string (read ++ utf16 char)) rest := by
  rw [lexJson, if_neg noQuote, if_neg noBackslash, if_neg (Nat.not_lt.2 noControl)]

theorem toNat_ofNat_of_valid {code : Nat} (valid : code.isValidChar) :
    (Char.ofNat code).toNat = code := by
  rw [Char.ofNat, dif_pos valid]
  rfl

theorem lexJson_unit (read : List UInt16) (unit : UInt16) (rest : List Char) :
    lexJson (.string read) (jsonUnitChars unit ++ rest) =
      lexJson (.string (read ++ [unit])) rest := by
  rw [jsonUnitChars]
  split
  · next same => rw [same]; rfl
  split
  · next same => rw [same]; rfl
  split
  · next same => rw [same]; rfl
  split
  · next same => rw [same]; rfl
  split
  · next same => rw [same]; rfl
  split
  · next same => rw [same]; rfl
  split
  · next same => rw [same]; rfl
  split
  · exact lexJson_unicodeEscape read unit rest
  · next noQuote noBackslash noEscape =>
    have bound := unit.toNat_lt
    simp only [isLeadUnit, isTrailUnit, Bool.or_eq_true, Bool.and_eq_true, decide_eq_true_eq,
      not_or, not_and_or, Nat.not_lt, Nat.not_le] at noEscape
    have valid : unit.toNat.isValidChar := by
      rw [Nat.isValidChar]
      omega
    have toNat := toNat_ofNat_of_valid valid
    have units : utf16 (Char.ofNat unit.toNat) = [unit] := by
      rw [utf16, toNat, if_pos (by omega), UInt16.ofNat_toNat]
    have ofCode : ∀ char : Char, Char.ofNat unit.toNat = char → unit.toNat = char.toNat := by
      rintro _ rfl
      exact toNat.symm
    rw [List.singleton_append, lexJson_plain, units]
    · intro same
      exact noQuote (UInt16.toNat_inj.1 (ofCode _ same))
    · intro same
      exact noBackslash (UInt16.toNat_inj.1 (ofCode _ same))
    · rw [toNat]
      exact noEscape.1.1

theorem lexJson_pair (read : List UInt16) {lead trail : UInt16} (isLead : isLeadUnit lead = true)
    (isTrail : isTrailUnit trail = true) (rest : List Char) :
    lexJson (.string read) (charOfPair lead trail :: rest) =
      lexJson (.string (read ++ [lead, trail])) rest := by
  simp only [isLeadUnit, isTrailUnit, Bool.and_eq_true, decide_eq_true_eq] at isLead isTrail
  have valid : (0x10000 + (lead.toNat - 0xd800) * 0x400 +
      (trail.toNat - 0xdc00)).isValidChar := by
    rw [Nat.isValidChar]
    omega
  have toNat : (charOfPair lead trail).toNat =
      0x10000 + (lead.toNat - 0xd800) * 0x400 + (trail.toNat - 0xdc00) :=
    toNat_ofNat_of_valid valid
  have large : ∀ char : Char, char.toNat < 0x10000 → charOfPair lead trail ≠ char := by
    rintro _ small rfl
    omega
  have units : utf16 (charOfPair lead trail) = [lead, trail] := by
    have leadCode : 0xd800 + ((charOfPair lead trail).toNat - 0x10000) / 0x400 = lead.toNat := by
      omega
    have trailCode : 0xdc00 + ((charOfPair lead trail).toNat - 0x10000) % 0x400 = trail.toNat := by
      omega
    rw [utf16, if_neg (by omega), leadCode, trailCode, UInt16.ofNat_toNat, UInt16.ofNat_toNat]
  rw [lexJson_plain, units]
  · exact large _ (by decide)
  · exact large _ (by decide)
  · omega

theorem lexJson_stringChars (read units : List UInt16) (rest : List Char) :
    lexJson (.string read) (jsonStringChars units ++ rest) =
      lexJson (.string (read ++ units)) rest := by
  induction units using jsonStringChars.induct generalizing read with
  | case1 => rw [jsonStringChars, List.nil_append, List.append_nil]
  | case2 unit => rw [jsonStringChars, lexJson_unit]
  | case3 unit next units isPair ih =>
    rw [Bool.and_eq_true] at isPair
    rw [jsonStringChars, if_pos (by rw [isPair.1, isPair.2]; rfl), List.cons_append,
      lexJson_pair read isPair.1 isPair.2, ih, List.append_assoc]
    rfl
  | case4 unit next units noPair ih =>
    rw [jsonStringChars, if_neg noPair, List.append_assoc, lexJson_unit, ih, List.append_assoc]
    rfl

theorem lexJson_string (units : List UInt16) (rest : List Char) :
    lexJson .between ((JsonToken.string units).chars ++ rest) =
      (lexJson .between rest).map (.string units :: ·) := by
  have opened : ∀ more, lexJson .between ('"' :: more) = lexJson (.string []) more := fun _ => rfl
  rw [JsonToken.chars, List.cons_append, opened, List.append_assoc, lexJson_stringChars,
    List.nil_append, List.singleton_append, lexJson, if_pos rfl]

theorem length_jsonUnitChars_le (unit : UInt16) : (jsonUnitChars unit).length ≤ 6 := by
  simp only [jsonUnitChars, apply_ite List.length, unicodeEscapeChars, List.length_cons,
    List.length_nil]
  split_ifs
  all_goals omega

theorem length_jsonStringChars_le (units : List UInt16) :
    (jsonStringChars units).length ≤ 6 * units.length := by
  fun_induction jsonStringChars units with
  | case1 => exact Nat.le_refl 0
  | case2 unit => exact length_jsonUnitChars_le unit
  | case3 unit next rest paired ih =>
    simp only [List.length_cons]
    omega
  | case4 unit next rest apart ih =>
    have one := length_jsonUnitChars_le unit
    simp only [List.length_cons, List.length_append] at ih ⊢
    omega

/-! ### Words -/

/-- No word goes on at the start of the text. -/
def EndsJsonWord (rest : List Char) : Prop := rest.head?.any isJsonWordChar = false

theorem lexJson_wordMode {word rest : List Char} {token : JsonToken} (read : List Char)
    (nonempty : word ≠ []) (areWord : word.all isJsonWordChar = true)
    (reads : jsonWord (read ++ word) = some token) (ends : EndsJsonWord rest) :
    lexJson (.word read) (word ++ rest) = (lexJson .between rest).map (token :: ·) := by
  induction word generalizing read with
  | nil => exact absurd rfl nonempty
  | cons char word ih =>
    rw [List.all_cons, Bool.and_eq_true] at areWord
    cases word with
    | nil =>
      have stop : ¬rest.head?.any isJsonWordChar = true := by
        rw [ends]
        exact Bool.noConfusion
      rw [List.singleton_append, lexJson, if_neg stop, reads]
    | cons next word =>
      have goes : ((next :: word) ++ rest).head?.any isJsonWordChar = true := by
        have isNext := areWord.2
        rw [List.all_cons, Bool.and_eq_true] at isNext
        exact isNext.1
      rw [List.cons_append, lexJson, if_pos goes]
      apply ih (read ++ [char]) (List.cons_ne_nil _ _) areWord.2
      rw [List.append_assoc]
      exact reads

theorem lexJson_word {word rest : List Char} {token : JsonToken} (isWord : IsJsonWord word token)
    (ends : EndsJsonWord rest) :
    lexJson .between (word ++ rest) = (lexJson .between rest).map (token :: ·) := by
  obtain ⟨reads, nonempty, areWord⟩ := isWord
  obtain ⟨char, word, rfl⟩ := List.exists_cons_of_ne_nil nonempty
  rw [List.all_cons, Bool.and_eq_true] at areWord
  have isChar := areWord.1
  simp only [isJsonWordChar, Bool.and_eq_true, Bool.not_eq_true', Option.isNone_iff_eq_none,
    decide_eq_true_eq] at isChar
  obtain ⟨⟨notBlank, noPunctuation⟩, noQuote⟩ := isChar
  rw [List.cons_append, lexJson, if_neg (by rw [notBlank]; exact Bool.noConfusion),
    if_neg noQuote, noPunctuation]
  dsimp only
  cases word with
  | nil =>
    have stop : ¬rest.head?.any isJsonWordChar = true := by
      rw [ends]
      exact Bool.noConfusion
    rw [List.nil_append, if_neg stop, reads]
  | cons next word =>
    have goes : ((next :: word) ++ rest).head?.any isJsonWordChar = true := by
      have isNext := areWord.2
      rw [List.all_cons, Bool.and_eq_true] at isNext
      exact isNext.1
    rw [if_pos goes]
    exact lexJson_wordMode [char] (List.cons_ne_nil _ _) areWord.2 reads ends

theorem lexJson_punctuation {char : Char} {token : JsonToken}
    (isToken : jsonPunctuation char = some token) (notBlank : isJsonBlank char = false)
    (noQuote : char ≠ '"') (rest : List Char) :
    lexJson .between (char :: rest) = (lexJson .between rest).map (token :: ·) := by
  rw [lexJson, if_neg (by rw [notBlank]; exact Bool.noConfusion), if_neg noQuote, isToken]

/-! ### The tokens of a value -/

/-- The tokens are read back before any text that does not go on with a word. -/
def LexesBack (tokens : List JsonToken) : Prop :=
  ∀ rest, EndsJsonWord rest → lexJson .between (tokens.flatMap JsonToken.chars ++ rest) =
    (lexJson .between rest).map (tokens ++ ·)

theorem LexesBack.nil : LexesBack [] := by
  intro rest _
  exact (congrFun Option.map_id _).symm

theorem LexesBack.one {token : JsonToken}
    (reads : ∀ rest, EndsJsonWord rest → lexJson .between (token.chars ++ rest) =
      (lexJson .between rest).map (token :: ·)) : LexesBack [token] := by
  intro rest ends
  rw [List.flatMap_singleton, reads rest ends]
  rfl

theorem LexesBack.word {word : List Char} {token : JsonToken} (isWord : IsJsonWord word token)
    (chars : token.chars = word) : LexesBack [token] := by
  apply LexesBack.one
  intro rest ends
  rw [chars, lexJson_word isWord ends]

/-- What is read back with any text behind it can be followed by anything. -/
theorem LexesBack.append {front back : List JsonToken}
    (reads : LexesBack front) (more : LexesBack back)
    (ends : ∀ rest, EndsJsonWord rest → EndsJsonWord (back.flatMap JsonToken.chars ++ rest)) :
    LexesBack (front ++ back) := by
  intro rest isEnd
  rw [List.flatMap_append, List.append_assoc, reads _ (ends rest isEnd), more rest isEnd,
    Option.map_map]
  congr 1
  funext tokens
  exact (List.append_assoc _ _ _).symm

/-- A token that needs no end is followed by anything. -/
theorem LexesBack.mark {token : JsonToken} {tokens : List JsonToken}
    (reads : ∀ rest, lexJson .between (token.chars ++ rest) =
      (lexJson .between rest).map (token :: ·)) (more : LexesBack tokens) :
    LexesBack (token :: tokens) := by
  intro rest ends
  rw [List.flatMap_cons, List.append_assoc, reads, more rest ends, Option.map_map]
  rfl

theorem LexesBack.punctuation (char : Char) {token : JsonToken} {tokens : List JsonToken}
    (chars : token.chars = [char]) (isToken : jsonPunctuation char = some token)
    (notBlank : isJsonBlank char = false) (noQuote : char ≠ '"') (more : LexesBack tokens) :
    LexesBack (token :: tokens) := by
  apply LexesBack.mark ?_ more
  intro rest
  rw [chars]
  exact lexJson_punctuation isToken notBlank noQuote rest

theorem endsJsonWord_comma (tokens : List JsonToken) (rest : List Char) :
    EndsJsonWord ((JsonToken.comma :: tokens).flatMap JsonToken.chars ++ rest) := rfl

theorem lexesBack_itemTokens {items : List Json} (each : ∀ item ∈ items, LexesBack item.tokens) :
    LexesBack (itemTokens items) := by
  induction items with
  | nil =>
    rw [itemTokens]
    exact LexesBack.nil
  | cons item items ih =>
    rw [List.forall_mem_cons] at each
    cases items with
    | nil =>
      rw [itemTokens]
      exact each.1
    | cons next items =>
      rw [itemTokens.eq_def]
      apply each.1.append (LexesBack.punctuation ',' rfl rfl rfl (by decide)
        (ih each.2))
      exact fun rest _ => endsJsonWord_comma _ rest

theorem lexesBack_memberTokens {members : List (List UInt16 × Json)}
    (each : ∀ member ∈ members, LexesBack member.2.tokens) : LexesBack (memberTokens members) := by
  induction members with
  | nil =>
    rw [memberTokens]
    exact LexesBack.nil
  | cons member members ih =>
    rw [List.forall_mem_cons] at each
    obtain ⟨key, value⟩ := member
    cases members with
    | nil =>
      rw [memberTokens]
      exact LexesBack.mark (lexJson_string key)
        (LexesBack.punctuation ':' rfl rfl rfl (by decide) each.1)
    | cons next members =>
      rw [memberTokens.eq_def]
      apply LexesBack.mark (lexJson_string key)
      apply LexesBack.punctuation ':' rfl rfl rfl (by decide)
      apply each.1.append (LexesBack.punctuation ',' rfl rfl rfl (by decide)
        (ih each.2))
      exact fun rest _ => endsJsonWord_comma _ rest

theorem lexesBack_tokens {value : Json} (proper : value.Proper) : LexesBack value.tokens := by
  induction value using Json.induction with
  | null =>
    rw [Json.tokens]
    exact LexesBack.word (by decide : IsJsonWord "null".toList .null) rfl
  | bool value =>
    rw [Json.tokens]
    cases value with
    | false => exact LexesBack.word (by decide : IsJsonWord "false".toList (.bool false)) rfl
    | true => exact LexesBack.word (by decide : IsJsonWord "true".toList (.bool true)) rfl
  | number literal =>
    rw [Json.tokens]
    cases proper with
    | number isWord => exact LexesBack.word isWord rfl
  | string units =>
    rw [Json.tokens]
    exact LexesBack.mark (lexJson_string units) LexesBack.nil
  | array items ih =>
    rw [Json.tokens]
    cases proper with
    | array each =>
      have inner := lexesBack_itemTokens fun item mem => ih item mem (each item mem)
      apply LexesBack.punctuation '[' rfl rfl rfl (by decide)
      apply inner.append (LexesBack.punctuation ']' rfl rfl rfl (by decide) LexesBack.nil)
      exact fun rest _ => rfl
  | object members ih =>
    rw [Json.tokens]
    cases proper with
    | object nodup each =>
      have inner := lexesBack_memberTokens fun member mem =>
        ih member mem (each member mem)
      apply LexesBack.punctuation '\x7b' rfl rfl rfl (by decide)
      apply inner.append (LexesBack.punctuation '\x7d' rfl rfl rfl (by decide) LexesBack.nil)
      exact fun rest _ => rfl

/-! ### The machine -/

/-- A value is due. -/
def ValueDue (mode : JsonMode) : Prop := mode = .value ∨ mode = .firstItem

/-- From every state in which a value is due the tokens lead to that behind the value. -/
def RunsTo (tokens : List JsonToken) (value : Json) : Prop :=
  ∀ frames mode, ValueDue mode →
    tokens.foldlM jsonStep (frames, mode) = some (frames, .after value)

theorem jsonStep_due {mode : JsonMode} (due : ValueDue mode) (frames : List JsonFrame)
    {token : JsonToken} (noEnd : token ≠ .closeBracket) :
    jsonStep (frames, mode) token = jsonValueStep frames token := by
  rcases due with rfl | rfl
  · rw [jsonStep]
  · rw [jsonStep]
    intro _ isEnd _
    exact noEnd isEnd

theorem RunsTo.one {token : JsonToken} {value : Json} (noEnd : token ≠ .closeBracket)
    (step : ∀ frames, jsonValueStep frames token = some (frames, .after value)) :
    RunsTo [token] value := by
  intro frames mode due
  rw [List.foldlM_cons, jsonStep_due due frames noEnd, step]
  rfl

/-- The items of an array and its end. -/
theorem run_items {items : List Json} (nonempty : items ≠ [])
    (each : ∀ item ∈ items, RunsTo item.tokens item) (done : List Json)
    (frames : List JsonFrame) {mode : JsonMode} (due : ValueDue mode) :
    (itemTokens items ++ [JsonToken.closeBracket]).foldlM jsonStep (.array done :: frames, mode) =
      some (frames, .after (.array (done ++ items))) := by
  induction items generalizing done mode with
  | nil => exact absurd rfl nonempty
  | cons item items ih =>
    rw [List.forall_mem_cons] at each
    cases items with
    | nil =>
      rw [itemTokens, List.foldlM_append, each.1 _ mode due]
      rfl
    | cons next items =>
      rw [itemTokens.eq_def]
      dsimp only
      rw [List.append_assoc, List.foldlM_append, each.1 _ mode due]
      have rest := ih (List.cons_ne_nil _ _) each.2 (done ++ [item])
        (.inl rfl : ValueDue .value)
      rw [List.append_assoc, List.singleton_append] at rest
      exact rest

/-- A key is due. -/
def KeyDue (mode : JsonMode) : Prop := mode = .key ∨ mode = .firstKey

theorem jsonStep_key {mode : JsonMode} (due : KeyDue mode) (members : List (List UInt16 × Json))
    (frames : List JsonFrame) (key : List UInt16) :
    jsonStep (.object members :: frames, mode) (.string key) =
      some (.object members :: frames, .colon key) := by
  rcases due with rfl | rfl
  · rfl
  · rfl

/-- The members of an object and its end. -/
theorem run_members {members : List (List UInt16 × Json)} (nonempty : members ≠ [])
    (each : ∀ member ∈ members, RunsTo member.2.tokens member.2)
    (done : List (List UInt16 × Json)) (frames : List JsonFrame) {mode : JsonMode}
    (due : KeyDue mode) :
    (memberTokens members ++ [JsonToken.closeBrace]).foldlM jsonStep (.object done :: frames, mode) =
      some (frames, .after (.object
        (members.foldl (fun result entry => mapSet result entry.1 entry.2) done))) := by
  induction members generalizing done mode with
  | nil => exact absurd rfl nonempty
  | cons member members ih =>
    rw [List.forall_mem_cons] at each
    obtain ⟨key, value⟩ := member
    have runs := each.1 (.member done key :: frames) .value (.inl rfl)
    have opened : ∀ more : List JsonToken,
        (JsonToken.string key :: .colon :: more).foldlM jsonStep (.object done :: frames, mode) =
          more.foldlM jsonStep (.member done key :: frames, .value) := by
      intro more
      rw [List.foldlM_cons, jsonStep_key due]
      rfl
    cases members with
    | nil =>
      rw [memberTokens, List.cons_append, List.cons_append, opened, List.foldlM_append, runs]
      rfl
    | cons next members =>
      rw [memberTokens.eq_def]
      dsimp only
      rw [List.cons_append, List.cons_append, opened, List.append_assoc, List.foldlM_append, runs]
      exact ih (List.cons_ne_nil _ _) each.2 (mapSet done key value)
        (.inl rfl : KeyDue .key)

/-- Keys that are distinct are set in order. -/
theorem mapSetAll_of_nodup {members done : List (List UInt16 × Json)}
    (nodup : ((done ++ members).map Prod.fst).Nodup) :
    members.foldl (fun result entry => mapSet result entry.1 entry.2) done = done ++ members := by
  induction members generalizing done with
  | nil => rw [List.foldl_nil, List.append_nil]
  | cons member members ih =>
    have fresh : (done.lookup member.1).isSome = false := by
      rw [Bool.eq_false_iff]
      intro known
      obtain ⟨value, found⟩ := Option.isSome_iff_exists.1 known
      rw [List.map_append, List.nodup_append'] at nodup
      exact nodup.2.2 (mem_keys_of_lookup found) List.mem_cons_self
    have appended : mapSet done member.1 member.2 = done ++ [member] := by
      rw [mapSet, fresh]
      rfl
    rw [List.foldl_cons, appended, ih, List.append_assoc, List.singleton_append]
    rw [List.append_assoc, List.singleton_append]
    exact nodup

theorem run_tokens {value : Json} (proper : value.Proper) : RunsTo value.tokens value := by
  induction value using Json.induction with
  | null =>
    rw [Json.tokens]
    exact RunsTo.one (by decide) fun _ => rfl
  | bool value =>
    rw [Json.tokens]
    exact RunsTo.one JsonToken.noConfusion fun _ => rfl
  | number literal =>
    rw [Json.tokens]
    exact RunsTo.one JsonToken.noConfusion fun _ => rfl
  | string units =>
    rw [Json.tokens]
    exact RunsTo.one JsonToken.noConfusion fun _ => rfl
  | array items ih =>
    rw [Json.tokens]
    cases proper with
    | array each =>
      intro frames mode due
      rw [List.foldlM_cons, jsonStep_due due frames (by decide)]
      by_cases empty : items = []
      · rw [empty]
        rfl
      · exact run_items empty (fun item mem => ih item mem (each item mem)) []
          frames (.inr rfl : ValueDue .firstItem)
  | object members ih =>
    rw [Json.tokens]
    cases proper with
    | object nodup each =>
      intro frames mode due
      rw [List.foldlM_cons, jsonStep_due due frames (by decide)]
      by_cases empty : members = []
      · rw [empty]
        rfl
      · have run := run_members empty
          (fun member mem => ih member mem (each member mem)) [] frames
          (.inr rfl : KeyDue .firstKey)
        rw [@mapSetAll_of_nodup members [] nodup] at run
        exact run

/-! ### Texts -/

theorem lexJson_blank {blank : List Char} (areBlank : blank.all isJsonBlank = true) :
    lexJson .between blank = some [] := by
  induction blank with
  | nil => rfl
  | cons char blank ih =>
    rw [List.all_cons, Bool.and_eq_true] at areBlank
    rw [lexJson, if_pos areBlank.1, ih areBlank.2]

/-- What is written is read as it was, also with blanks behind it. -/
theorem parseJson_stringifyJson {value : Json} (proper : value.Proper) {blank : List Char}
    (areBlank : blank.all isJsonBlank = true) :
    parseJson (stringifyJson value ++ blank) = some value := by
  have ends : EndsJsonWord blank := by
    cases blank with
    | nil => rfl
    | cons char blank =>
      rw [List.all_cons, Bool.and_eq_true] at areBlank
      show isJsonWordChar char = false
      rw [isJsonWordChar, areBlank.1]
      rfl
  have lexed := lexesBack_tokens proper blank ends
  rw [lexJson_blank areBlank, Option.map_some, List.append_nil] at lexed
  rw [parseJson, stringifyJson, lexed]
  show (value.tokens.foldlM jsonStep ([], .value) >>= jsonResult) = some value
  rw [run_tokens proper [] .value (.inl rfl)]
  rfl

end Foundation
