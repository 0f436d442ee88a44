/-
Module: Paratix.Dotenv.DotEnvironment
Purpose: Environment files: their lines, their keys and the quoting of their values; what is
  loaded is well formed, and what is written in escapes is loaded as it was.
Main exports: loadDotEnvironment, loadDotEnvironment_rendered
-/
import Mathlib
import Paratix.Archive.Member
import Paratix.Foundation.AssocList
import Paratix.Foundation.LinePattern
import Paratix.Foundation.ReplaceAll
import Paratix.Foundation.Result
import Paratix.Foundation.Words
import Paratix.Orchestration.Environment

namespace Paratix.Dotenv

open Foundation Archive Orchestration

/-! ### The loader -/

def NUL : Char := '\x00'
def CARRIAGE_RETURN : Char := '\r'
def BACKSLASH : Char := '\\'

/-- `value.replaceAll(pattern, marker)` -/
def replaceText (pattern marker value : Text) : Text := replaceAll id pattern marker value

/-- The four replacements of the double-quoted branch: a `\\` becomes a NUL, so that the
escapes after it are not read across it. -/
def unescapeDoubleQuoted (value : Text) : Text :=
  replaceText [NUL] [BACKSLASH]
    (replaceText [BACKSLASH, '"'] ['"']
      (replaceText [BACKSLASH, 'n'] ['\n']
        (replaceText [BACKSLASH, BACKSLASH] [NUL] value)))

/-- `value.length >= 2 && value.startsWith(quote) && value.endsWith(quote)` -/
def isQuoted (quote : Char) (raw : Text) : Bool :=
  2 ≤ raw.length && raw.head? = some quote && raw.getLast? = some quote

/-- `value.slice(1, -1)` -/
def stripQuotes (raw : Text) : Text := raw.tail.dropLast

/-- `raw.search(/\s#/v)` -/
def searchComment : Text → Option Nat
  | char :: next :: rest =>
      if isJsSpace char && next = '#' then some 0
      else (searchComment (next :: rest)).map (· + 1)
  | _ => none

def trimEnd (value : Text) : Text := value.rdropWhile isJsSpace

def invalidValue (filePath : Text) (lineNumber : Nat) (reason : String) : Text :=
  "Invalid env value in ".toList ++ filePath ++ " line ".toList ++ decimal lineNumber ++
    ": ".toList ++ reason.toList

def processValue (raw filePath : Text) (lineNumber : Nat) : Except Text Text :=
  if NUL ∈ raw then .error (invalidValue filePath lineNumber "contains a NUL byte")
  else if CARRIAGE_RETURN ∈ raw then
    .error (invalidValue filePath lineNumber "contains a carriage return")
  else if isQuoted '"' raw then .ok (unescapeDoubleQuoted (stripQuotes raw))
  else if isQuoted '\'' raw then .ok (stripQuotes raw)
  else
    match searchComment raw with
    | none => .ok raw
    | some commentIndex => .ok (trimEnd (raw.take commentIndex))

def ENVIRONMENT_FILE_BYTE_LIMIT : Nat := 1 * (1024 * 1024)
def ENVIRONMENT_VALUE_BYTE_LIMIT : Nat := 64 * 1024

/-- `Buffer.byteLength(value, "utf8")` -/
def byteLength (value : Text) : Nat := (value.map Char.utf8Size).sum

/-- `ENVIRONMENT_KEY_PATTERN` -/
def matchesEnvironmentKey (key : Text) : Bool := isMetaEnvironmentSegment key

def validateDotEnvironmentKey (filePath : Text) (lineNumber : Nat) (key : Text) :
    Except Text Unit :=
  if !matchesEnvironmentKey key then
    .error ("Invalid env key in ".toList ++ filePath ++ " line ".toList ++
      decimal lineNumber ++ ": ".toList ++
      (if key = [] then "(empty)".toList else jsonStringify key) ++
      " (expected [A-Za-z_][A-Za-z0-9_]*)".toList)
  else if key ∈ ENVIRONMENT_FORBIDDEN_KEYS then
    .error ("Forbidden env key in ".toList ++ filePath ++ " line ".toList ++
      decimal lineNumber ++ ": ".toList ++ jsonStringify key ++
      " (reserved JavaScript identifier)".toList)
  else .ok ()

/-- `FORBIDDEN_CONTROL_CHARACTER_PATTERN` -/
def isForbiddenControlCharacter (char : Char) : Bool :=
  let code := char.toNat
  code ≤ 0x08 || code = 0x0b || code = 0x0c || (0x0e ≤ code && code ≤ 0x1f) || code = 0x7f

def validateDotEnvironmentValue (filePath : Text) (lineNumber : Nat) (value : Text) :
    Except Text Unit :=
  if byteLength value > ENVIRONMENT_VALUE_BYTE_LIMIT then
    .error (invalidValue filePath lineNumber "value exceeds the 65536-byte cap")
  else if value.any isForbiddenControlCharacter then
    .error (invalidValue filePath lineNumber "contains a forbidden control byte")
  else .ok ()

def assertDotEnvironmentFileByteLength (filePath : Text) (fileByteLength : Nat) :
    Except Text Unit :=
  if fileByteLength > ENVIRONMENT_FILE_BYTE_LIMIT then
    .error ("Refusing to load env file ".toList ++ filePath ++ ": size ".toList ++
      decimal fileByteLength ++ " bytes exceeds the 1048576-byte cap".toList)
  else .ok ()

/-- One line of the file: `none` where it assigns nothing. -/
def readDotEnvironmentLine (filePath : Text) (lineNumber : Nat) (line : Text) :
    Except Text (Option (Text × Text)) :=
  let trimmed := trim line
  if trimmed = [] || trimmed.head? = some '#' then .ok none
  else
    match trimmed.idxOf? '=' with
    | none => .ok none
    | some eqIndex => do
        let key := trim (trimmed.take eqIndex)
        validateDotEnvironmentKey filePath lineNumber key
        let value ← processValue (trim (trimmed.drop (eqIndex + 1))) filePath lineNumber
        validateDotEnvironmentValue filePath lineNumber value
        .ok (some (key, value))

/-- The lines from `index` on, over the map read so far. -/
def readDotEnvironmentLines (filePath : Text) :
    Nat → List Text → List (Text × Text) → Except Text (List (Text × Text))
  | _, [], environment => .ok environment
  | index, line :: lines, environment =>
      match readDotEnvironmentLine filePath (index + 1) line with
      | .error message => .error message
      | .ok none => readDotEnvironmentLines filePath (index + 1) lines environment
      | .ok (some (key, value)) =>
          readDotEnvironmentLines filePath (index + 1) lines (mapSet environment key value)

/-- The size that `stat` reports is checked before the file is read. -/
def loadDotEnvironment (filePath : Text) (statSize : Nat) (content : Text) :
    Except Text (List (Text × Text)) := do
  assertDotEnvironmentFileByteLength filePath statSize
  assertDotEnvironmentFileByteLength filePath (byteLength content)
  readDotEnvironmentLines filePath 0 (content.splitOn '\n') []

/-! ### A single scan -/

/-- The value read from left to right, one escape or one character at a time. -/
def scanEscapes : Text → Text
  | '\\' :: '\\' :: rest => '\\' :: scanEscapes rest
  | '\\' :: 'n' :: rest => '\n' :: scanEscapes rest
  | '\\' :: '"' :: rest => '"' :: scanEscapes rest
  | char :: rest => char :: scanEscapes rest
  | [] => []

section ReplaceText

variable {pattern marker : Text}

/-- A character that does not begin the pattern is copied. -/
theorem replaceText_other {first char : Char} (other : char ≠ first) (more value : Text) :
    replaceText (first :: more) marker (char :: value) =
      char :: replaceText (first :: more) marker value := by
  apply replaceAll_copy
  rw [List.map_id, List.cons_prefix_cons]
  exact fun found => other found.1.symm

theorem replaceText_hit (first second : Char) (value : Text) :
    replaceText [first, second] marker (first :: second :: value) =
      marker ++ replaceText [first, second] marker value :=
  replaceAll_hit (List.cons_ne_nil _ _) (List.map_id [first, second]) value

/-- The first character of a pair is copied where the second one does not follow. -/
theorem replaceText_miss {first second : Char} {value : Text} (miss : value.head? ≠ some second) :
    replaceText [first, second] marker (first :: value) =
      first :: replaceText [first, second] marker value := by
  apply replaceAll_copy
  rw [List.map_id, List.cons_prefix_cons]
  rintro ⟨_, rest, restEq⟩
  rw [← restEq] at miss
  exact miss rfl

theorem head?_ne {next second : Char} (different : next ≠ second) (rest : Text) :
    (next :: rest).head? ≠ some second := by
  intro same
  exact different (Option.some.inj same)

theorem replaceText_one (char : Char) (value : Text) :
    replaceText [char] marker (char :: value) = marker ++ replaceText [char] marker value :=
  replaceAll_hit (List.cons_ne_nil _ _) (List.map_id [char]) value

end ReplaceText

/-! ### What each escape becomes -/

theorem unescapeDoubleQuoted_copy {char : Char} (notBackslash : char ≠ BACKSLASH)
    (notNul : char ≠ NUL) (value : Text) :
    unescapeDoubleQuoted (char :: value) = char :: unescapeDoubleQuoted value := by
  simp only [unescapeDoubleQuoted, replaceText_other notBackslash, replaceText_other notNul]

theorem unescapeDoubleQuoted_backslash (value : Text) :
    unescapeDoubleQuoted (BACKSLASH :: BACKSLASH :: value) =
      BACKSLASH :: unescapeDoubleQuoted value := by
  have notBackslash : NUL ≠ BACKSLASH := by decide
  rw [unescapeDoubleQuoted, replaceText_hit, List.singleton_append,
    replaceText_other notBackslash, replaceText_other notBackslash, replaceText_one]
  rfl

theorem unescapeDoubleQuoted_newline (value : Text) :
    unescapeDoubleQuoted (BACKSLASH :: 'n' :: value) = '\n' :: unescapeDoubleQuoted value := by
  have copied : 'n' ≠ BACKSLASH := by decide
  have notBackslash : '\n' ≠ BACKSLASH := by decide
  have notNul : '\n' ≠ NUL := by decide
  rw [unescapeDoubleQuoted, replaceText_miss (head?_ne copied _), replaceText_other copied,
    replaceText_hit, List.singleton_append, replaceText_other notBackslash,
    replaceText_other notNul]
  rfl

theorem unescapeDoubleQuoted_quote (value : Text) :
    unescapeDoubleQuoted (BACKSLASH :: '"' :: value) = '"' :: unescapeDoubleQuoted value := by
  have copied : '"' ≠ BACKSLASH := by decide
  have notLetter : '"' ≠ 'n' := by decide
  have notNul : '"' ≠ NUL := by decide
  rw [unescapeDoubleQuoted, replaceText_miss (head?_ne copied _), replaceText_other copied,
    replaceText_miss (head?_ne notLetter _), replaceText_other copied, replaceText_hit,
    List.singleton_append, replaceText_other notNul]
  rfl

/-- A backslash at the end stays. -/
theorem unescapeDoubleQuoted_last :
    unescapeDoubleQuoted [BACKSLASH] = [BACKSLASH] := by decide

/-- A backslash before any other character stays. The character is copied by every step, so
that no step sees an escape where the value has none. -/
theorem unescapeDoubleQuoted_lone {next : Char} (notBackslash : next ≠ BACKSLASH)
    (notNewline : next ≠ 'n') (notQuote : next ≠ '"') (notNul : next ≠ NUL) (value : Text) :
    unescapeDoubleQuoted (BACKSLASH :: next :: value) =
      BACKSLASH :: next :: unescapeDoubleQuoted value := by
  have kept : BACKSLASH ≠ NUL := by decide
  rw [unescapeDoubleQuoted, replaceText_miss (head?_ne notBackslash _),
    replaceText_other notBackslash, replaceText_miss (head?_ne notNewline _),
    replaceText_other notBackslash, replaceText_miss (head?_ne notQuote _),
    replaceText_other notBackslash, replaceText_other kept, replaceText_other notNul]
  rfl

/-- The four replacements are a single scan. -/
theorem unescapeDoubleQuoted_eq {value : Text} (nulFree : NUL ∉ value) :
    unescapeDoubleQuoted value = scanEscapes value := by
  induction value using scanEscapes.induct with
  | case1 rest ih =>
    rw [scanEscapes, ← ih fun member => nulFree (by simp [member])]
    exact unescapeDoubleQuoted_backslash rest
  | case2 rest ih =>
    rw [scanEscapes, ← ih fun member => nulFree (by simp [member])]
    exact unescapeDoubleQuoted_newline rest
  | case3 rest ih =>
    rw [scanEscapes, ← ih fun member => nulFree (by simp [member])]
    exact unescapeDoubleQuoted_quote rest
  | case4 char rest noBackslash noNewline noQuote ih =>
    have scanned : scanEscapes (char :: rest) = char :: scanEscapes rest := by
      rw [scanEscapes] <;> assumption
    have restFree : NUL ∉ rest := fun member => nulFree (List.mem_cons_of_mem _ member)
    rw [scanned, ← ih restFree]
    by_cases isBackslash : char = BACKSLASH
    · subst isBackslash
      cases rest with
      | nil => exact unescapeDoubleQuoted_last
      | cons next rest =>
        have notBackslash : next ≠ BACKSLASH := by
          intro same
          exact noBackslash rest rfl (by rw [same]; rfl)
        have notNewline : next ≠ 'n' := by
          intro same
          exact noNewline rest rfl (by rw [same])
        have notQuote : next ≠ '"' := by
          intro same
          exact noQuote rest rfl (by rw [same])
        have notNul : next ≠ NUL := by
          intro same
          exact restFree (by rw [same]; exact List.mem_cons_self)
        rw [unescapeDoubleQuoted_lone notBackslash notNewline notQuote notNul,
          unescapeDoubleQuoted_copy notBackslash notNul]
    · have notNul : char ≠ NUL := by
        intro same
        exact nulFree (by rw [same]; exact List.mem_cons_self)
      exact unescapeDoubleQuoted_copy isBackslash notNul rest
  | case5 => rfl

/-! ### Double-quoted values -/

theorem isQuoted_quoted (quote : Char) (value : Text) :
    isQuoted quote (quote :: value ++ [quote]) = true := by
  simp [isQuoted, List.getLast?_cons]

theorem stripQuotes_quoted (quote : Char) (value : Text) :
    stripQuotes (quote :: value ++ [quote]) = value := by
  rw [stripQuotes, List.cons_append, List.tail_cons, List.dropLast_concat]

theorem notMem_quoted {char quote : Char} (different : char ≠ quote) {value : Text}
    (outside : char ∉ value) : char ∉ quote :: value ++ [quote] := by
  simp [outside, different]

/-- A double-quoted value without NUL is refused for a carriage return, and is read by a
single scan otherwise. -/
theorem processValue_doubleQuoted {value : Text} (nulFree : NUL ∉ value) (filePath : Text)
    (lineNumber : Nat) :
    unescapeDoubleQuoted value = scanEscapes value ∧
      processValue ('"' :: value ++ ['"']) filePath lineNumber =
        if CARRIAGE_RETURN ∈ value then
          .error (invalidValue filePath lineNumber "contains a carriage return")
        else .ok (scanEscapes value) := by
  have scanned := unescapeDoubleQuoted_eq nulFree
  have notNul : NUL ≠ '"' := by decide
  have carriage : CARRIAGE_RETURN ∈ '"' :: value ++ ['"'] ↔ CARRIAGE_RETURN ∈ value := by
    simp [CARRIAGE_RETURN]
  refine ⟨scanned, ?_⟩
  rw [processValue, if_neg (notMem_quoted notNul nulFree), isQuoted_quoted, if_pos rfl,
    stripQuotes_quoted, scanned]
  simp only [carriage]

/-- A run of three backslashes before a letter, and an escaped quote at the end. -/
theorem processValue_doubleQuoted_run :
    processValue "\"C:\\\\\\n\\\"\"".toList "a.env".toList 1 = .ok "C:\\\n\"".toList :=
  (@processValue_doubleQuoted "C:\\\\\\n\\\"".toList (by decide) "a.env".toList 1).2.trans
    (by decide)

/-! ### Assignments that a file can hold -/

structure Representable (assignment : Text × Text) : Prop where
  key : matchesEnvironmentKey assignment.1 = true
  allowed : assignment.1 ∉ ENVIRONMENT_FORBIDDEN_KEYS
  short : byteLength assignment.2 ≤ ENVIRONMENT_VALUE_BYTE_LIMIT
  plain : ∀ char ∈ assignment.2, isForbiddenControlCharacter char = false
  oneLine : CARRIAGE_RETURN ∉ assignment.2

/-- A scan writes only what it reads, and newlines. -/
theorem mem_scanEscapes {char : Char} {value : Text} (member : char ∈ scanEscapes value) :
    char ∈ value ∨ char = '\n' := by
  induction value using scanEscapes.induct <;> grind [scanEscapes]

/-- No value that is read holds a carriage return. -/
theorem carriageReturn_notMem_of_processValue {raw filePath value : Text} {lineNumber : Nat}
    (processed : processValue raw filePath lineNumber = .ok value) : CARRIAGE_RETURN ∉ value := by
  have clean : NUL ∉ raw ∧ CARRIAGE_RETURN ∉ raw := by grind [processValue]
  have stripped : ∀ char, char ∉ raw → char ∉ stripQuotes raw := fun _ notIn member =>
    notIn (List.mem_of_mem_tail (List.mem_of_mem_dropLast member))
  rw [processValue, if_neg clean.1, if_neg clean.2,
    unescapeDoubleQuoted_eq (stripped _ clean.1)] at processed
  intro member
  split at processed
  · cases processed
    rcases mem_scanEscapes member with member | isNewline
    · exact stripped _ clean.2 member
    · exact absurd isNewline (by decide)
  · split at processed
    · cases processed
      exact stripped _ clean.2 member
    · split at processed <;> cases processed
      · exact clean.2 member
      · exact clean.2 (List.mem_of_mem_take ((List.rdropWhile_prefix isJsSpace _).subset member))

theorem validateDotEnvironmentKey_ok_iff {filePath key : Text} {lineNumber : Nat} :
    validateDotEnvironmentKey filePath lineNumber key = .ok () ↔
      matchesEnvironmentKey key = true ∧ key ∉ ENVIRONMENT_FORBIDDEN_KEYS := by
  rw [validateDotEnvironmentKey]
  split <;> [skip; split] <;> simp_all

theorem validateDotEnvironmentValue_ok_iff {filePath value : Text} {lineNumber : Nat} :
    validateDotEnvironmentValue filePath lineNumber value = .ok () ↔
      byteLength value ≤ ENVIRONMENT_VALUE_BYTE_LIMIT ∧
        ∀ char ∈ value, isForbiddenControlCharacter char = false := by
  rw [validateDotEnvironmentValue]
  split <;> [skip; split] <;> simp_all

/-- A line that assigns gives an assignment that a file can hold. -/
theorem representable_of_readDotEnvironmentLine {filePath line : Text} {lineNumber : Nat}
    {assignment : Text × Text}
    (read : readDotEnvironmentLine filePath lineNumber line = .ok (some assignment)) :
    Representable assignment := by
  unfold readDotEnvironmentLine at read
  dsimp only at read
  split at read
  · cases read
  · split at read
    · cases read
    · obtain ⟨_, keyValid, read⟩ := ok_of_bind read
      obtain ⟨value, processed, read⟩ := ok_of_bind read
      obtain ⟨_, valueValid, read⟩ := ok_of_bind read
      cases read
      obtain ⟨key, allowed⟩ := validateDotEnvironmentKey_ok_iff.1 keyValid
      obtain ⟨short, plain⟩ := validateDotEnvironmentValue_ok_iff.1 valueValid
      exact ⟨key, allowed, short, plain, carriageReturn_notMem_of_processValue processed⟩

theorem readDotEnvironmentLines_representable {filePath : Text} {lines : List Text} {index : Nat}
    {before environment : List (Text × Text)}
    (read : readDotEnvironmentLines filePath index lines before = .ok environment)
    (nodup : (before.map Prod.fst).Nodup)
    (representable : ∀ assignment ∈ before, Representable assignment) :
    (environment.map Prod.fst).Nodup ∧ ∀ assignment ∈ environment, Representable assignment := by
  induction lines generalizing index before with
  | nil =>
    cases read
    exact ⟨nodup, representable⟩
  | cons line lines ih =>
    unfold readDotEnvironmentLines at read
    split at read
    · cases read
    · exact ih read nodup representable
    · next key value isAssignment =>
      refine ih read (nodup_keys_mapSet nodup key value) fun assignment member => ?_
      rcases mem_of_mem_mapSet member with rfl | member
      · exact representable_of_readDotEnvironmentLine isAssignment
      · exact representable assignment member

/-- Whatever the file holds, an environment that is loaded has no key twice, and holds only
assignments that a file can hold. -/
theorem loadDotEnvironment_representable {filePath content : Text} {statSize : Nat}
    {environment : List (Text × Text)}
    (loaded : loadDotEnvironment filePath statSize content = .ok environment) :
    (environment.map Prod.fst).Nodup ∧ ∀ assignment ∈ environment, Representable assignment := by
  obtain ⟨_, _, loaded⟩ := ok_of_bind loaded
  obtain ⟨_, _, loaded⟩ := ok_of_bind loaded
  exact readDotEnvironmentLines_representable loaded List.nodup_nil nofun

theorem loadDotEnvironment_representable_twice : ([("A".toList, "\n".toList)].map Prod.fst).Nodup ∧
      ∀ assignment ∈ [("A".toList, "\n".toList)], Representable assignment :=
  @loadDotEnvironment_representable "e".toList " A = 1 # x\n#\nA=\"\\n\"".toList 20 _ (by decide)

/-! ### Rendered environments -/

def escapeCharacter (char : Char) : Text :=
  if char = '\n' then [BACKSLASH, 'n']
  else if char = BACKSLASH ∨ char = '"' then [BACKSLASH, char] else [char]

/-- The line `KEY="value"` with the escapes that the loader reads. -/
def renderAssignment (assignment : Text × Text) : Text :=
  assignment.1 ++ '=' :: ('"' :: assignment.2.flatMap escapeCharacter ++ ['"'])

def renderEnvironment (assignments : List (Text × Text)) : Text :=
  fileText '\n' (assignments.map renderAssignment)

theorem scanEscapes_flatMap (value : Text) :
    scanEscapes (value.flatMap escapeCharacter) = value := by
  induction value with
  | nil => rfl
  | cons char rest ih =>
    rw [List.flatMap_cons, escapeCharacter]
    split
    · simp_all [scanEscapes, BACKSLASH]
    · split
      · next isEscaped => rcases isEscaped with rfl | rfl <;> simp [scanEscapes, ih, BACKSLASH]
      · next other =>
        rw [List.singleton_append, scanEscapes, ih] <;>
          exact fun _ same => absurd (.inl same) other

theorem mem_flatMap_escape {char : Char} {value : Text}
    (member : char ∈ value.flatMap escapeCharacter) :
    (char ∈ value ∧ char ≠ '\n') ∨ char = BACKSLASH ∨ char = 'n' := by
  obtain ⟨origin, isOrigin, member⟩ := List.mem_flatMap.1 member
  grind [escapeCharacter]

theorem isJsSpace_of_isWordCharacter {char : Char} (isWord : isWordCharacter char = true) :
    isJsSpace char = false := by
  have bounds : 48 ≤ char.toNat ∧ char.toNat ≤ 122 := by
    by_cases isLow : char = '_'
    · subst isLow
      decide
    · grind [isWordCharacter, Char.isAlphanum, Char.isAlpha, Char.isUpper, Char.isLower,
        Char.isDigit, UInt32.le_iff_toNat_le, Char.toNat]
  simp [isJsSpace]
  omega

section Rendered

variable {assignment : Text × Text}

theorem Representable.key_chars (representable : Representable assignment) :
    ∃ head rest, assignment.1 = head :: rest ∧
      ∀ char ∈ assignment.1, isWordCharacter char = true := by
  have isKey := representable.key
  rw [matchesEnvironmentKey] at isKey
  cases keyEq : assignment.1 with
  | nil => simp [keyEq, isMetaEnvironmentSegment] at isKey
  | cons head rest =>
    refine ⟨head, rest, rfl, ?_⟩
    grind [isMetaEnvironmentSegment, isWordCharacter, Char.isAlphanum]

/-- The value between its quotes is read back. -/
theorem Representable.processValue (representable : Representable assignment) (filePath : Text)
    (lineNumber : Nat) :
    processValue ('"' :: assignment.2.flatMap escapeCharacter ++ ['"']) filePath lineNumber =
      .ok assignment.2 := by
  have outside : ∀ char, char ∉ assignment.2 → char ≠ BACKSLASH → char ≠ 'n' →
      char ∉ assignment.2.flatMap escapeCharacter := fun char _ _ _ member => by
    grind [mem_flatMap_escape member]
  have nulFree := outside NUL (fun member => absurd (representable.plain NUL member) (by decide))
    (by decide) (by decide)
  have returnFree := outside _ representable.oneLine (by decide) (by decide)
  rw [Dotenv.processValue, if_neg (notMem_quoted (by decide) nulFree),
    if_neg (notMem_quoted (by decide) returnFree), isQuoted_quoted, if_pos rfl,
    stripQuotes_quoted, unescapeDoubleQuoted_eq nulFree, scanEscapes_flatMap]

theorem trim_quoted {head : Char} (starts : isJsSpace head = false) (text : Text) :
    trim (head :: text ++ ['"']) = head :: text ++ ['"'] := by
  refine trim_eq_self (fun char isChar => ?_) fun char isChar => ?_
  · cases isChar
    exact starts
  · rw [List.getLast?_concat] at isChar
    cases isChar
    decide

/-- A rendered line assigns what it was rendered from. -/
theorem Representable.read (representable : Representable assignment) (filePath : Text)
    (lineNumber : Nat) : readDotEnvironmentLine filePath lineNumber (renderAssignment assignment) =
      .ok (some assignment) := by
  obtain ⟨head, rest, keyEq, isWord⟩ := representable.key_chars
  have notSpace : ∀ char ∈ assignment.1, isJsSpace char = false := fun char member =>
    isJsSpace_of_isWordCharacter (isWord char member)
  have starts : head ∈ assignment.1 := keyEq ▸ List.mem_cons_self
  have lineEq : renderAssignment assignment =
      head :: (rest ++ '=' :: '"' :: assignment.2.flatMap escapeCharacter) ++ ['"'] := by
    simp [renderAssignment, keyEq]
  have trimmed : trim (renderAssignment assignment) = renderAssignment assignment := by
    rw [lineEq]
    exact trim_quoted (notSpace head starts) _
  have trimmedKey : trim assignment.1 = assignment.1 :=
    trim_eq_self (fun char isChar => notSpace char (List.mem_of_mem_head? isChar))
      fun char isChar => notSpace char (List.mem_of_mem_getLast? isChar)
  have found : (renderAssignment assignment).idxOf? '=' = some assignment.1.length := by
    rw [renderAssignment, List.idxOf?_eq_some_iff]
    refine ⟨by simp, by simp, fun index isIn same => ?_⟩
    rw [List.getElem_append_left isIn] at same
    exact absurd (isWord '=' (same ▸ List.getElem_mem isIn)) (by decide)
  have assigns : (decide (renderAssignment assignment = []) ||
      decide ((renderAssignment assignment).head? = some '#')) = false := by
    have notComment : head ≠ '#' := by
      rintro rfl
      exact absurd (isWord _ starts) (by decide)
    simp [lineEq, notComment]
  have behind : (renderAssignment assignment).drop (assignment.1.length + 1) =
      '"' :: assignment.2.flatMap escapeCharacter ++ ['"'] := by
    simp [renderAssignment]
  have before : (renderAssignment assignment).take assignment.1.length = assignment.1 := by
    simp [renderAssignment]
  have keyValid := (@validateDotEnvironmentKey_ok_iff filePath _ lineNumber).2
    ⟨representable.key, representable.allowed⟩
  have valueValid := (@validateDotEnvironmentValue_ok_iff filePath _ lineNumber).2
    ⟨representable.short, representable.plain⟩
  unfold readDotEnvironmentLine
  simp only [trimmed, assigns, found, behind, before, trimmedKey, keyValid,
    trim_quoted (by decide : isJsSpace '"' = false), representable.processValue]
  exact congrArg (· >>= fun _ => .ok (some assignment)) valueValid

theorem newline_notMem_renderAssignment (representable : Representable assignment) :
    '\n' ∉ renderAssignment assignment := by
  obtain ⟨_, _, _, isWord⟩ := representable.key_chars
  have noNewline : '\n' ∉ assignment.2.flatMap escapeCharacter := fun member => by
    grind [mem_flatMap_escape member, BACKSLASH]
  simp only [renderAssignment, List.mem_append, List.mem_cons]
  grind [isWord '\n', isWordCharacter]

end Rendered

theorem readDotEnvironmentLines_rendered {filePath : Text} {assignments : List (Text × Text)}
    (representable : ∀ assignment ∈ assignments, Representable assignment) {index : Nat}
    {environment : List (Text × Text)} :
    readDotEnvironmentLines filePath index (assignments.map renderAssignment ++ [[]]) environment =
      .ok (assignments.foldl (fun result entry => mapSet result entry.1 entry.2) environment) := by
  induction assignments generalizing index environment with
  | nil => rfl
  | cons assignment assignments ih =>
    obtain ⟨first, others⟩ := List.forall_mem_cons.1 representable
    rw [List.map_cons, List.cons_append, readDotEnvironmentLines, first.read, List.foldl_cons]
    exact ih others

/-- An environment that is written with escaped values, and is no larger than the cap, is loaded
as it was; of a key that is written twice the last value counts. -/
theorem loadDotEnvironment_rendered (filePath : Text) {assignments : List (Text × Text)}
    (representable : ∀ assignment ∈ assignments, Representable assignment)
    (small : byteLength (renderEnvironment assignments) ≤ ENVIRONMENT_FILE_BYTE_LIMIT) :
    loadDotEnvironment filePath (byteLength (renderEnvironment assignments))
      (renderEnvironment assignments) = .ok (mapSetAll assignments) := by
  have oneLine : ∀ line ∈ assignments.map renderAssignment, '\n' ∉ line := by
    intro line member
    obtain ⟨assignment, isIn, rfl⟩ := List.mem_map.1 member
    exact newline_notMem_renderAssignment (representable assignment isIn)
  have sized : assertDotEnvironmentFileByteLength filePath
      (byteLength (renderEnvironment assignments)) = .ok () := if_neg (not_lt.2 small)
  have lines := splitOn_fileText_append oneLine []
  rw [List.append_nil] at lines
  rw [loadDotEnvironment, sized, renderEnvironment, lines]
  exact readDotEnvironmentLines_rendered representable

theorem loadDotEnvironment_rendered_twice :
    let written := [("A".toList, "1".toList), ("A".toList, "\"\n".toList)]
    loadDotEnvironment "e".toList (byteLength (renderEnvironment written))
      (renderEnvironment written) = .ok [("A".toList, "\"\n".toList)] :=
  have first : Representable ("A".toList, "1".toList) :=
    ⟨by decide, by decide, by decide, forall_mem_of_all (by decide), by decide⟩
  have second : Representable ("A".toList, "\"\n".toList) :=
    ⟨by decide, by decide, by decide, forall_mem_of_all (by decide), by decide⟩
  loadDotEnvironment_rendered "e".toList (List.forall_mem_cons.2
    ⟨first, List.forall_mem_singleton.2 second⟩) (by decide)

end Paratix.Dotenv
