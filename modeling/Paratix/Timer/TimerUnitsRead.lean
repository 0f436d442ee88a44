/-
Module: Paratix.Timer.TimerUnitsRead
Purpose: The options of a scheduled timer, the units that are rendered from them, and when these
  are read back as they were meant.
Main exports: serviceUnit, timer_units_iff
-/
import Paratix.Archive.Member
import Paratix.Foundation.LinePattern
import Paratix.Foundation.Lines
import Paratix.Foundation.ReplaceAll
import Paratix.Foundation.Words
import Paratix.Foundation.UnitFile
import Paratix.Foundation.Result

namespace Paratix.Timer

open Foundation Archive

/-! ### Options -/

/-- `string | string[]` -/
inductive OneOrMany where
  | one (entry : Text)
  | many (entries : List Text)

def OneOrMany.entries : OneOrMany → List Text
  | .one entry => [entry]
  | .many entries => entries

/-- Delays are the texts `String` makes of them; the environment lists the entries of the record. -/
structure TimerScheduledOptions where
  accuracySec : Option Text
  description : Option Text
  environment : Option (List (Text × Text))
  exec : Text
  group : Option Text
  onCalendar : OneOrMany
  onFailure : Option OneOrMany
  persistent : Option Bool
  randomizedDelaySec : Option Text
  user : Option Text
  workingDirectory : Option Text

/-! ### Patterns -/

/-- `/^[A-Za-z0-9_\-]+$/` -/
def isTimerName (name : Text) : Bool :=
  name ≠ [] && name.all fun char => char.isAlphanum || char = '_' || char = '-'

/-- `/^[A-Za-z_]\w*$/` -/
def isEnvironmentKey (key : Text) : Bool :=
  key.head?.any (fun char => char.isAlpha || char = '_') && key.all isJsWordCharacter

def isPosixNameCharacter (char : Char) : Bool :=
  char.isLower || char.isDigit || char = '_' || char = '-'

/-- `/^[a-z_][a-z0-9_\-]*\$?$/` -/
def isPosixUserGroup (value : Text) : Bool :=
  let name := if value.getLast? = some '$' then value.dropLast else value
  name.head?.any (fun char => char.isLower || char = '_') && name.all isPosixNameCharacter

/-- `/^\/[^\n\r#]*$/` -/
def isAbsolutePath (value : Text) : Bool :=
  value.head? = some '/' && value.all fun char => char ≠ '\n' && char ≠ '\r' && char ≠ '#'

/-- `/^\/[^\n\r#]*$/` -/
def isExecValue (value : Text) : Bool :=
  value.head? = some '/' && value.all fun char => char ≠ '\n' && char ≠ '\r' && char ≠ '#'

/-- `[A-Za-z0-9_\-.\/]` -/
def isSafeUnquotedCharacter (char : Char) : Bool :=
  char.isAlphanum || char = '_' || char = '-' || char = '.' || char = '/'

def isSafeUnquoted (value : Text) : Bool := value ≠ [] && value.all isSafeUnquotedCharacter

/-- `/^[A-Za-z0-9_\-.:@%\\]+$/` -/
def isOnFailureValue (value : Text) : Bool :=
  value ≠ [] && value.all fun char => char.isAlphanum || char = '_' || char = '-' ||
    char = '.' || char = ':' || char = '@' || char = '%' || char = '\\'

/-! ### Validation -/

/-- What is wrong with which field. -/
inductive TimerError where
  | newlines (field : Text)
  | empty (field : Text)
  | noEntry (field : Text)
  | mismatch (field : Text)
  | leadingDash
deriving DecidableEq

def assertNoNewline (field value : Text) : Except TimerError Unit :=
  if '\n' ∈ value ∨ '\r' ∈ value then .error (.newlines field) else .ok ()

def assertNotBlank (field value : Text) : Except TimerError Unit :=
  if trim value = [] then .error (.empty field) else .ok ()

def assertMatches (pattern : Text → Bool) (field value : Text) : Except TimerError Unit :=
  if pattern value then .ok () else .error (.mismatch field)

def assertPosixUserGroup : Text → Text → Except TimerError Unit := assertMatches isPosixUserGroup

def assertAbsolutePath : Text → Text → Except TimerError Unit := assertMatches isAbsolutePath

def assertExecValue (value : Text) : Except TimerError Unit :=
  assertMatches isExecValue (text "exec") value

def assertOnFailureValue (value : Text) : Except TimerError Unit :=
  assertMatches isOnFailureValue (text "onFailure entry") value

/-- The entries of a field that takes one or many. -/
def normalizeEntries (field : Text) (check : Text → Except TimerError Unit)
    (given : OneOrMany) : Except TimerError (List Text) := do
  if given.entries = [] then .error (.noEntry field)
  given.entries.forM fun entry => do
    assertNoNewline (field ++ text " entry") entry
    assertNotBlank (field ++ text " entries") entry
    check entry
  .ok given.entries

def normalizeOnCalendar : OneOrMany → Except TimerError (List Text) :=
  normalizeEntries (text "onCalendar") fun _ => .ok ()

def normalizeOnFailure : OneOrMany → Except TimerError (List Text) :=
  normalizeEntries (text "onFailure") assertOnFailureValue

/-- A check of a field that may be missing. -/
def whenGiven {α : Type} (given : Option α) (check : α → Except TimerError Unit) :
    Except TimerError Unit :=
  match given with
  | none => .ok ()
  | some value => check value

def validateEnvironment (environment : List (Text × Text)) : Except TimerError Unit :=
  environment.forM fun entry => do
    assertMatches isEnvironmentKey (text "environment key") entry.1
    assertNoNewline (text "environment[" ++ entry.1 ++ text "]") entry.2

def validateServiceDirectiveValues (options : TimerScheduledOptions) :
    Except TimerError Unit := do
  whenGiven options.user (assertPosixUserGroup (text "user"))
  whenGiven options.group (assertPosixUserGroup (text "group"))
  whenGiven options.workingDirectory (assertAbsolutePath (text "workingDirectory"))
  whenGiven options.onFailure fun onFailure => do
    let _ ← normalizeOnFailure onFailure
    .ok ()

def validatePresentOptions (options : TimerScheduledOptions) : Except TimerError Unit := do
  assertNoNewline (text "exec") options.exec
  assertNotBlank (text "exec") options.exec
  assertExecValue options.exec
  [(text "description", options.description), (text "user", options.user),
    (text "group", options.group), (text "workingDirectory", options.workingDirectory)].forM
      fun entry => whenGiven entry.2 fun value => do
        assertNoNewline entry.1 value
        assertNotBlank entry.1 value
  validateServiceDirectiveValues options
  whenGiven options.randomizedDelaySec (assertNoNewline (text "randomizedDelaySec"))
  whenGiven options.accuracySec (assertNoNewline (text "accuracySec"))
  whenGiven options.environment validateEnvironment
  let _ ← normalizeOnCalendar options.onCalendar
  .ok ()

def assertTimerName (name : Text) : Except TimerError Unit :=
  if name.head? = some '-' then .error .leadingDash
  else assertMatches isTimerName (text "name") name

/-! ### Rendering -/

def quoteEnvironmentValue (value : Text) : Text :=
  if isSafeUnquoted value then value
  else
    let escaped := replaceAll id ['"'] ['\\', '"'] (replaceAll id ['\\'] ['\\', '\\'] value)
    '"' :: (escaped ++ ['"'])

/-- `options.description`, or the text that stands for it. -/
def timerDescription (name : Text) (options : TimerScheduledOptions) : Text :=
  options.description.getD (text "Paratix scheduled task: " ++ name)

def serviceUnitLines (name : Text) (options : TimerScheduledOptions) (onFailure : List Text) :
    List Text :=
  [text "[Unit]", text "Description=" ++ timerDescription name options] ++
  onFailure.map (text "OnFailure=" ++ ·) ++
  [text "", text "[Service]", text "Type=oneshot"] ++
  options.user.toList.map (text "User=" ++ ·) ++
  options.group.toList.map (text "Group=" ++ ·) ++
  options.workingDirectory.toList.map (text "WorkingDirectory=" ++ ·) ++
  (options.environment.getD []).map (fun entry =>
    text "Environment=" ++ (entry.1 ++ text "=" ++ quoteEnvironmentValue entry.2)) ++
  [text "ExecStart=" ++ options.exec]

/-- The lines are joined by newlines, with one at the end. -/
def renderServiceUnit (name : Text) (options : TimerScheduledOptions) :
    Except TimerError Text :=
  match options.onFailure with
  | none => .ok (fileText '\n' (serviceUnitLines name options []))
  | some given => do
      let onFailure ← normalizeOnFailure given
      .ok (fileText '\n' (serviceUnitLines name options onFailure))

def timerUnitLines (name : Text) (options : TimerScheduledOptions) (onCalendar : List Text) :
    List Text :=
  [text "[Unit]", text "Description=" ++ (timerDescription name options ++ text " (timer)"),
    text "", text "[Timer]"] ++
  onCalendar.map (text "OnCalendar=" ++ ·) ++
  (if options.persistent.getD true then [text "Persistent=true"] else []) ++
  options.randomizedDelaySec.toList.map (text "RandomizedDelaySec=" ++ ·) ++
  options.accuracySec.toList.map (text "AccuracySec=" ++ ·) ++
  [text "Unit=" ++ (name ++ text ".service"), text "", text "[Install]",
    text "WantedBy=timers.target"]

def renderTimerUnit (name : Text) (options : TimerScheduledOptions) :
    Except TimerError Text := do
  let onCalendar ← normalizeOnCalendar options.onCalendar
  .ok (fileText '\n' (timerUnitLines name options onCalendar))

/-! ### Meanings -/

/-- A setting, or the variables an `Environment=` line assigns. -/
inductive UnitMeaning where
  | setting (sectionName key value : Text)
  | assignments (sectionName : Text) (entries : List (Text × Text))
deriving DecidableEq

def ENVIRONMENT : Text := text "Environment"

section Specifiers

variable (resolve : Char → Option Text)

/-- Each word is an assignment after its specifiers are expanded; other words are skipped, and so is
a value that cannot be split. -/
def readEnvironment (value : Text) : List (Text × Text) :=
  ((unitWords none none value).getD []).filterMap fun word =>
    cutFirst ['='] (expandSpecifiers resolve word)

def meaningOf (directive : UnitDirective) : UnitMeaning :=
  if directive.key = ENVIRONMENT then
    .assignments directive.sectionName (readEnvironment resolve directive.value)
  else .setting directive.sectionName directive.key directive.value

theorem meaningOf_setting {directive : UnitDirective} (isPlain : directive.key ≠ ENVIRONMENT) :
    meaningOf resolve directive = .setting directive.sectionName directive.key directive.value :=
  if_neg isPlain

theorem meaningOf_environment {directive : UnitDirective} (isKey : directive.key = ENVIRONMENT) :
    meaningOf resolve directive =
      .assignments directive.sectionName (readEnvironment resolve directive.value) :=
  if_pos isKey

end Specifiers

/-! ### Units as they are meant -/

/-- A setting, or one variable. -/
inductive UnitSetting where
  | plain (key value : Text)
  | assigned (key value : Text)

/-- A unit: sections with their settings. -/
abbrev TimerUnit := List (Text × List UnitSetting)

namespace UnitSetting

def key : UnitSetting → Text
  | .plain key _ => key
  | .assigned _ _ => ENVIRONMENT

/-- The value as it is written. -/
def written : UnitSetting → Text
  | .plain _ value => value
  | .assigned key value => key ++ '=' :: quoteEnvironmentValue value

def meaning (sectionName : Text) : UnitSetting → UnitMeaning
  | .plain key value => .setting sectionName key value
  | .assigned key value => .assignments sectionName [(key, value)]

/-- Keys are names and no key of a plain setting is that of variables; variables are named by word
characters; every value is on one line. -/
def Proper : UnitSetting → Prop
  | .plain key value => IsUnitName key ∧ key ≠ ENVIRONMENT ∧ '\n' ∉ value
  | .assigned key value => isEnvironmentKey key = true ∧ '\n' ∉ value

/-- The setting is read as it was meant. -/
def ReadsBack (resolve : Char → Option Text) : UnitSetting → Prop
  | .plain _ value => StandsAsWritten value
  | .assigned _ value => expandSpecifiers resolve value = value

end UnitSetting

/-- The lines of a unit: sections with an empty line between them. -/
def unitLinesOf : TimerUnit → List UnitLine
  | [] => []
  | [(sectionName, settings)] =>
      .header sectionName :: settings.map fun setting => .entry setting.key setting.written
  | (sectionName, settings) :: rest =>
      .header sectionName :: (settings.map fun setting => .entry setting.key setting.written) ++
        .blank :: unitLinesOf rest

/-- The settings of all sections in order. -/
def settingsOf (unit : TimerUnit) : List (Text × UnitSetting) :=
  unit.flatMap fun one => one.2.map fun setting => (one.1, setting)

def intended (unit : TimerUnit) : List UnitMeaning :=
  (settingsOf unit).map fun entry => entry.2.meaning entry.1

def directiveOf (entry : Text × UnitSetting) : UnitDirective :=
  ⟨entry.1, entry.2.key, entry.2.written⟩

/-! ### Variables -/

/-- Backslashes are doubled first, then quotes are escaped. -/
theorem replaceAll_escapes (value : Text) :
    replaceAll id ['"'] ['\\', '"'] (replaceAll id ['\\'] ['\\', '\\'] value) =
      value.flatMap escapeUnitChar := by
  rw [replaceAll_singleton, replaceAll_singleton, List.flatMap_assoc]
  apply List.flatMap_congr
  intro char _
  rw [escapeUnitChar]
  by_cases isBackslash : char = '\\'
  · rw [isBackslash]
    rfl
  · by_cases isQuote : char = '"'
    · rw [isQuote]
      rfl
    · simp [isBackslash, isQuote]

theorem quoteEnvironmentValue_eq (value : Text) :
    quoteEnvironmentValue value = if isSafeUnquoted value then value
      else '"' :: (value.flatMap escapeUnitChar ++ ['"']) := by
  rw [quoteEnvironmentValue]
  split
  · rfl
  · rw [replaceAll_escapes]

/-- A letter or digit is a plain character of a word. -/
theorem isPlainUnitChar_of_alphanum {char : Char} (isAlphanum : char.isAlphanum = true) :
    isPlainUnitChar char = true := by
  by_contra notPlain
  simp only [isPlainUnitChar, isUnitBlank, Bool.and_eq_true, Bool.not_eq_true',
    decide_eq_true_eq, Bool.or_eq_false_iff, decide_eq_false_iff_not, not_and_or, not_not]
    at notPlain
  rcases notPlain with (((((rfl | rfl) | rfl) | rfl) | rfl) | rfl) | rfl
  all_goals exact absurd isAlphanum (by decide)

theorem isPlainUnitChar_of_word {char : Char} (isWord : isJsWordCharacter char = true) :
    isPlainUnitChar char = true := by
  rw [isJsWordCharacter, Bool.or_eq_true, decide_eq_true_eq] at isWord
  rcases isWord with isAlphanum | rfl
  · exact isPlainUnitChar_of_alphanum isAlphanum
  · decide

theorem isPlainUnitChar_of_safe {char : Char} (isSafe : isSafeUnquotedCharacter char = true) :
    isPlainUnitChar char = true := by
  simp only [isSafeUnquotedCharacter, Bool.or_eq_true, decide_eq_true_eq] at isSafe
  rcases isSafe with (((isAlphanum | rfl) | rfl) | rfl) | rfl
  · exact isPlainUnitChar_of_alphanum isAlphanum
  · decide
  · decide
  · decide
  · decide

theorem plain_ends {char : Char} (isPlain : isPlainUnitChar char = true) :
    isUnitBlank char = false ∧ char ≠ '\\' := by
  simp only [isPlainUnitChar, Bool.and_eq_true, Bool.not_eq_true', decide_eq_true_eq] at isPlain
  exact ⟨isPlain.1.1.1, isPlain.1.1.2⟩

section Variables

variable {key value : Text}

theorem environmentKey_cons (isKey : isEnvironmentKey key = true) :
    ∃ head rest, key = head :: rest ∧ ∀ char ∈ head :: rest, isJsWordCharacter char = true := by
  rw [isEnvironmentKey, Bool.and_eq_true, List.all_eq_true] at isKey
  obtain ⟨starts, areWord⟩ := isKey
  cases key with
  | nil => cases starts
  | cons head rest => exact ⟨head, rest, rfl, areWord⟩

theorem environmentKey_notMem (isKey : isEnvironmentKey key = true) {char : Char}
    (noWord : isJsWordCharacter char = false) : char ∉ key := by
  obtain ⟨head, rest, rfl, areWord⟩ := environmentKey_cons isKey
  intro mem
  rw [areWord char mem] at noWord
  cases noWord

/-- The written value of a variable stands. -/
theorem standsAsWritten_variable (isKey : isEnvironmentKey key = true) :
    StandsAsWritten (key ++ '=' :: quoteEnvironmentValue value) := by
  obtain ⟨head, rest, rfl, areWord⟩ := environmentKey_cons isKey
  apply standsAsWritten_of_ends
  · intro first isFirst
    obtain rfl := Option.some.inj isFirst
    exact (plain_ends (isPlainUnitChar_of_word (areWord _ List.mem_cons_self))).1
  · intro last isLast
    rw [quoteEnvironmentValue_eq] at isLast
    split at isLast
    · next isSafe =>
      rw [isSafeUnquoted, Bool.and_eq_true, List.all_eq_true, decide_eq_true_eq] at isSafe
      rw [getLast?_setting, List.getLast?_eq_some_getLast isSafe.1, Option.getD_some,
        Option.some.injEq] at isLast
      rw [← isLast]
      exact plain_ends (isPlainUnitChar_of_safe (isSafe.2 _ (List.getLast_mem isSafe.1)))
    · rw [getLast?_setting, ← List.cons_append, List.getLast?_concat, Option.getD_some,
        Option.some.injEq] at isLast
      rw [← isLast]
      decide

theorem oneLine_variable (isKey : isEnvironmentKey key = true) (oneLine : '\n' ∉ value) :
    '\n' ∉ key ++ '=' :: quoteEnvironmentValue value := by
  have notInKey := environmentKey_notMem isKey (by decide : isJsWordCharacter '\n' = false)
  rw [List.mem_append, List.mem_cons, quoteEnvironmentValue_eq]
  rintro (inKey | same | inValue)
  · exact notInKey inKey
  · cases same
  · split at inValue
    · exact oneLine inValue
    · rw [List.mem_cons, List.mem_append, List.mem_singleton, List.mem_flatMap] at inValue
      rcases inValue with same | ⟨char, mem, inEscape⟩ | same
      · cases same
      · rw [escapeUnitChar] at inEscape
        split at inEscape
        · rw [List.mem_cons, List.mem_singleton] at inEscape
          rcases inEscape with same | rfl
          · cases same
          · exact oneLine mem
        · rw [List.mem_singleton] at inEscape
          rw [inEscape] at oneLine
          exact oneLine mem
      · cases same

/-- The quoted value is one word. -/
theorem unitWords_variable (isKey : isEnvironmentKey key = true) :
    unitWords none none (key ++ '=' :: quoteEnvironmentValue value) =
      some [key ++ '=' :: value] := by
  obtain ⟨head, rest, rfl, areWord⟩ := environmentKey_cons isKey
  have plain : ∀ char ∈ rest ++ ['='], isPlainUnitChar char = true := by
    intro char mem
    rcases List.mem_append.1 mem with inKey | isEqual
    · exact isPlainUnitChar_of_word (areWord char (List.mem_cons_of_mem _ inKey))
    · rw [List.mem_singleton.1 isEqual]
      decide
  have begun := unitWords_begin (isPlainUnitChar_of_word (areWord head List.mem_cons_self))
    (rest ++ '=' :: quoteEnvironmentValue value)
  have named := unitWords_plain plain [head] (quoteEnvironmentValue value)
  rw [List.append_assoc, List.singleton_append] at named
  rw [List.cons_append, begun, named, quoteEnvironmentValue_eq]
  split
  · next isSafe =>
    rw [isSafeUnquoted, Bool.and_eq_true, List.all_eq_true] at isSafe
    have read := unitWords_plain (fun char mem => isPlainUnitChar_of_safe (isSafe.2 char mem))
      ([head] ++ (rest ++ ['='])) []
    rw [List.append_nil] at read
    rw [read, unitWords]
    simp
  · rw [unitWords_quoted]
    simp

theorem readEnvironment_variable (resolve : Char → Option Text)
    (isKey : isEnvironmentKey key = true) :
    readEnvironment resolve (key ++ '=' :: quoteEnvironmentValue value) =
      [(key, expandSpecifiers resolve value)] := by
  have noPercent := environmentKey_notMem isKey (by decide : isJsWordCharacter '%' = false)
  have noEqual := environmentKey_notMem isKey (by decide : isJsWordCharacter '=' = false)
  have expanded : expandSpecifiers resolve ('=' :: value) = '=' :: expandSpecifiers resolve value :=
    expandSpecifiers_append resolve (by decide : '%' ∉ ['=']) value
  rw [readEnvironment, unitWords_variable isKey, Option.getD_some, List.filterMap_cons,
    expandSpecifiers_append resolve noPercent, expanded, cutFirst_singleton noEqual]
  rfl

end Variables

/-! ### Settings of a unit -/

theorem unitSetting_oneLine {setting : UnitSetting} (proper : setting.Proper) :
    (UnitLine.entry setting.key setting.written).Proper := by
  cases setting with
  | plain key value => exact ⟨proper.1, proper.2.2⟩
  | assigned key value =>
    have isName : IsUnitName ENVIRONMENT := ⟨by decide, forall_mem_of_all (by decide)⟩
    exact ⟨isName, oneLine_variable proper.1 proper.2⟩

theorem unitLinesOf_eq (unit : TimerUnit) :
    unitLinesOf unit = sectionLines UnitSetting.key UnitSetting.written unit := by
  induction unit with
  | nil => rfl
  | cons one unit ih =>
    obtain ⟨sectionName, settings⟩ := one
    cases unit with
    | nil => rfl
    | cons next unit =>
      show _ ++ UnitLine.blank :: unitLinesOf (next :: unit) = _
      rw [ih]
      rfl

/-- Sections are named and their settings are proper. -/
def ProperUnit (unit : TimerUnit) : Prop :=
  (∀ one ∈ unit, IsUnitName one.1) ∧ ∀ entry ∈ settingsOf unit, entry.2.Proper

section Reading

variable {unit : TimerUnit} (proper : ProperUnit unit)

include proper

theorem properSections : ProperSections UnitSetting.key UnitSetting.written unit :=
  ⟨proper.1, fun entry mem => unitSetting_oneLine (proper.2 entry mem)⟩

/-- If a value does not stand, the unit is read otherwise. -/
theorem readUnit_unit_differs (resolve : Char → Option Text)
    (standsNot : ¬∀ entry ∈ settingsOf unit, StandsAsWritten entry.2.written) :
    (readUnit (unitText (unitLinesOf unit))).map (·.map (meaningOf resolve)) ≠
      some (intended unit) := by
  intro same
  rw [unitLinesOf_eq] at same
  obtain ⟨result, reads, isIntended⟩ := Option.map_eq_some_iff.1 same
  obtain ⟨before, entry, behind, other, rest, isSettings, _, differs, otherValue, isResult⟩ :=
    readUnit_sectionLines_differs (properSections proper) standsNot reads
  have isUnit : settingsOf unit = before ++ entry :: behind := isSettings
  rw [isResult, intended, isUnit, List.map_append, List.map_append, List.map_cons,
    List.map_cons, List.map_map] at isIntended
  have sameEntry := (List.append_inj isIntended (by simp)).2
  have isMeaning := (List.cons.inj sameEntry).1
  have entryProper : entry.2.Proper := by
    apply proper.2
    rw [isUnit]
    exact List.mem_append_right _ List.mem_cons_self
  obtain ⟨entrySection, setting⟩ := entry
  cases setting with
  | plain entryKey entryValue =>
    rw [meaningOf_setting resolve (by exact entryProper.2.1)] at isMeaning
    exact otherValue (UnitMeaning.setting.inj isMeaning).2.2
  | assigned entryKey entryValue => exact differs (standsAsWritten_variable entryProper.1)

omit proper in
/-- What the directive of a proper setting means. -/
theorem meaningOf_directiveOf (resolve : Char → Option Text) {entry : Text × UnitSetting}
    (isProper : entry.2.Proper) (stands : StandsAsWritten entry.2.written) :
    meaningOf resolve (directiveOf entry) = entry.2.meaning entry.1 ↔
      entry.2.ReadsBack resolve := by
  obtain ⟨sectionName, setting⟩ := entry
  cases setting with
  | plain key value =>
    rw [meaningOf_setting resolve (by exact isProper.2.1)]
    exact iff_of_true rfl stands
  | assigned key value =>
    have read := @readEnvironment_variable key value resolve isProper.1
    rw [meaningOf_environment resolve rfl]
    show UnitMeaning.assignments sectionName
        (readEnvironment resolve (key ++ '=' :: quoteEnvironmentValue value)) =
      .assignments sectionName [(key, value)] ↔ _
    rw [read, UnitMeaning.assignments.injEq, List.cons.injEq, Prod.mk.injEq]
    simp only [true_and, and_true]
    rfl

/-- The unit is read as it was meant exactly if every plain value stands and every variable's value
is unchanged by specifiers. -/
theorem readsBack_iff (resolve : Char → Option Text) :
    (readUnit (unitText (unitLinesOf unit))).map (·.map (meaningOf resolve)) =
        some (intended unit) ↔
      ∀ entry ∈ settingsOf unit, entry.2.ReadsBack resolve := by
  by_cases allStand : ∀ entry ∈ settingsOf unit, StandsAsWritten entry.2.written
  · have reads := readUnit_sectionLines (properSections proper) allStand
    rw [← unitLinesOf_eq] at reads
    rw [reads, Option.map_some, Option.some.injEq, List.map_map, intended]
    exact List.map_inj_left.trans (forall_congr' fun entry => forall_congr' fun mem =>
      meaningOf_directiveOf resolve (proper.2 entry mem) (allStand entry mem))
  · apply iff_of_false
    · exact readUnit_unit_differs proper resolve allStand
    · intro readsBack
      apply allStand
      intro entry mem
      have isProper := proper.2 entry mem
      have reads := readsBack entry mem
      obtain ⟨sectionName, setting⟩ := entry
      cases setting with
      | plain key value => exact reads
      | assigned key value => exact standsAsWritten_variable isProper.1

end Reading

/-! ### The units that are meant -/

section Units

variable (name : Text) (options : TimerScheduledOptions)

def serviceUnit : TimerUnit :=
  [(text "Unit",
      UnitSetting.plain (text "Description") (timerDescription name options) ::
        ((options.onFailure.map OneOrMany.entries).getD []).map
          (UnitSetting.plain (text "OnFailure"))),
    (text "Service",
      UnitSetting.plain (text "Type") (text "oneshot") ::
        (options.user.toList.map (UnitSetting.plain (text "User")) ++
          options.group.toList.map (UnitSetting.plain (text "Group")) ++
          options.workingDirectory.toList.map (UnitSetting.plain (text "WorkingDirectory")) ++
          (options.environment.getD []).map (fun entry => UnitSetting.assigned entry.1 entry.2) ++
          [UnitSetting.plain (text "ExecStart") options.exec]))]

def timerUnit : TimerUnit :=
  [(text "Unit",
      [UnitSetting.plain (text "Description")
        (timerDescription name options ++ text " (timer)")]),
    (text "Timer",
      options.onCalendar.entries.map (UnitSetting.plain (text "OnCalendar")) ++
        (if options.persistent.getD true then
          [UnitSetting.plain (text "Persistent") (text "true")] else []) ++
        options.randomizedDelaySec.toList.map (UnitSetting.plain (text "RandomizedDelaySec")) ++
        options.accuracySec.toList.map (UnitSetting.plain (text "AccuracySec")) ++
        [UnitSetting.plain (text "Unit") (name ++ text ".service")]),
    (text "Install", [UnitSetting.plain (text "WantedBy") (text "timers.target")])]

/-- Both units are rendered and read back as they were meant. -/
structure UnitsReadBack (resolve : Char → Option Text) : Prop where
  service : ∃ content, renderServiceUnit name options = .ok content ∧
    (readUnit content).map (·.map (meaningOf resolve)) = some (intended (serviceUnit name options))
  timer : ∃ content, renderTimerUnit name options = .ok content ∧
    (readUnit content).map (·.map (meaningOf resolve)) = some (intended (timerUnit name options))

/-- The values that are written without quotes. -/
def inlineValues : List Text :=
  options.description.toList ++ (options.onFailure.map OneOrMany.entries).getD [] ++
    options.workingDirectory.toList ++ [options.exec] ++ options.onCalendar.entries ++
    options.randomizedDelaySec.toList ++ options.accuracySec.toList

/-- No blanks around a value and no backslash at its end; no specifier in a variable's value. -/
structure PlainTimerValues (resolve : Char → Option Text) : Prop where
  inline : ∀ value ∈ inlineValues options, StandsAsWritten value
  environment : ∀ entry ∈ options.environment.getD [],
    expandSpecifiers resolve entry.2 = entry.2

end Units

/-! ### What the validation ensures -/

structure ValidTimerFields (options : TimerScheduledOptions) : Prop where
  exec : '\n' ∉ options.exec
  description : ∀ value ∈ options.description.toList, '\n' ∉ value ∧ value ≠ []
  user : ∀ value ∈ options.user.toList, isPosixUserGroup value = true
  group : ∀ value ∈ options.group.toList, isPosixUserGroup value = true
  workingDirectory : ∀ value ∈ options.workingDirectory.toList, '\n' ∉ value
  onFailure : ∀ given ∈ options.onFailure.toList,
    normalizeOnFailure given = .ok given.entries ∧ ∀ entry ∈ given.entries, '\n' ∉ entry
  onCalendar : normalizeOnCalendar options.onCalendar = .ok options.onCalendar.entries ∧
    ∀ entry ∈ options.onCalendar.entries, '\n' ∉ entry
  delays : ∀ value ∈ options.randomizedDelaySec.toList ++ options.accuracySec.toList,
    '\n' ∉ value
  environment : ∀ entry ∈ options.environment.getD [],
    isEnvironmentKey entry.1 = true ∧ '\n' ∉ entry.2

theorem oneLine_of_assertNoNewline {field value : Text}
    (valid : assertNoNewline field value = .ok ()) : '\n' ∉ value := by
  intro mem
  rw [assertNoNewline, if_pos (.inl mem)] at valid
  cases valid

theorem trim_ne_nil_of_assertNotBlank {field value : Text}
    (valid : assertNotBlank field value = .ok ()) : trim value ≠ [] := by
  intro empty
  rw [assertNotBlank, if_pos empty] at valid
  cases valid

theorem matches_of_assertMatches {pattern : Text → Bool} {field value : Text}
    (valid : assertMatches pattern field value = .ok ()) : pattern value = true := by
  by_contra mismatch
  rw [assertMatches, if_neg mismatch] at valid
  cases valid

theorem whenGiven_ok {α : Type} {given : Option α} {check : α → Except TimerError Unit}
    (valid : whenGiven given check = .ok ()) : ∀ value ∈ given.toList, check value = .ok () := by
  cases given with
  | none => exact fun _ mem => absurd mem List.not_mem_nil
  | some value =>
    intro other mem
    rw [List.mem_singleton.1 mem]
    exact valid

theorem normalizeEntries_ok {field : Text} {check : Text → Except TimerError Unit}
    {given : OneOrMany} {entries : List Text}
    (valid : normalizeEntries field check given = .ok entries) :
    entries = given.entries ∧ ∀ entry ∈ given.entries, '\n' ∉ entry := by
  rw [normalizeEntries] at valid
  split at valid
  · cases valid
  · obtain ⟨_, allValid, isResult⟩ := ok_of_bind valid
    refine ⟨(Except.ok.inj isResult).symm, ?_⟩
    intro entry mem
    obtain ⟨_, noNewline, _⟩ := ok_of_bind (ok_of_forM allValid entry mem)
    exact oneLine_of_assertNoNewline noNewline

theorem validTimerFields {options : TimerScheduledOptions}
    (valid : validatePresentOptions options = .ok ()) : ValidTimerFields options := by
  obtain ⟨_, execLine, valid⟩ := ok_of_bind valid
  obtain ⟨_, _, valid⟩ := ok_of_bind valid
  obtain ⟨_, _, valid⟩ := ok_of_bind valid
  obtain ⟨_, strings, valid⟩ := ok_of_bind valid
  obtain ⟨_, service, valid⟩ := ok_of_bind valid
  obtain ⟨_, randomized, valid⟩ := ok_of_bind valid
  obtain ⟨_, accuracy, valid⟩ := ok_of_bind valid
  obtain ⟨_, environment, valid⟩ := ok_of_bind valid
  obtain ⟨calendar, onCalendar, _⟩ := ok_of_bind valid
  obtain ⟨_, user, service⟩ := ok_of_bind service
  obtain ⟨_, group, service⟩ := ok_of_bind service
  obtain ⟨_, workingDirectory, onFailure⟩ := ok_of_bind service
  have given : ∀ item ∈ [(text "description", options.description), (text "user", options.user),
      (text "group", options.group), (text "workingDirectory", options.workingDirectory)],
      ∀ value ∈ item.2.toList, '\n' ∉ value ∧ value ≠ [] := by
    intro item mem value isValue
    obtain ⟨_, noNewline, notBlank⟩ := ok_of_bind (whenGiven_ok (ok_of_forM strings item mem)
      value isValue)
    refine ⟨oneLine_of_assertNoNewline noNewline, ?_⟩
    rintro rfl
    exact trim_ne_nil_of_assertNotBlank notBlank rfl
  rw [List.forall_mem_cons, List.forall_mem_cons, List.forall_mem_cons,
    List.forall_mem_singleton] at given
  obtain ⟨isCalendar, calendarLines⟩ := normalizeEntries_ok onCalendar
  constructor
  · exact oneLine_of_assertNoNewline execLine
  · exact given.1
  · exact fun value mem => matches_of_assertMatches (whenGiven_ok user value mem)
  · exact fun value mem => matches_of_assertMatches (whenGiven_ok group value mem)
  · exact fun value mem => (given.2.2.2 value mem).1
  · intro failure mem
    obtain ⟨entries, isEntries, _⟩ := ok_of_bind (whenGiven_ok onFailure failure mem)
    obtain ⟨rfl, oneLine⟩ := normalizeEntries_ok isEntries
    exact ⟨isEntries, oneLine⟩
  · rw [isCalendar] at onCalendar
    exact ⟨onCalendar, calendarLines⟩
  · intro value mem
    rcases List.mem_append.1 mem with isRandomized | isAccuracy
    · exact oneLine_of_assertNoNewline (whenGiven_ok randomized value isRandomized)
    · exact oneLine_of_assertNoNewline (whenGiven_ok accuracy value isAccuracy)
  · intro entry mem
    cases isGiven : options.environment with
    | none =>
      rw [isGiven] at mem
      exact absurd mem List.not_mem_nil
    | some entries =>
      rw [isGiven] at mem environment
      obtain ⟨_, isKey, noNewline⟩ := ok_of_bind
        (ok_of_forM (whenGiven_ok environment entries List.mem_cons_self) entry mem)
      exact ⟨matches_of_assertMatches isKey, oneLine_of_assertNoNewline noNewline⟩

/-! ### Values that always stand -/

theorem standsAsWritten_of_plain {value : Text}
    (isPlain : ∀ char ∈ value, isPlainUnitChar char = true) : StandsAsWritten value := by
  apply standsAsWritten_of_ends
  · intro head isHead
    exact (plain_ends (isPlain head (List.mem_of_head? isHead))).1
  · intro last isLast
    exact plain_ends (isPlain last (List.mem_of_getLast? isLast))

theorem posixUserGroup_plain {value : Text} (valid : isPosixUserGroup value = true) :
    ∀ char ∈ value, isPlainUnitChar char = true := by
  have ofName : ∀ name : Text, name.all isPosixNameCharacter = true →
      ∀ char ∈ name, isPlainUnitChar char = true := by
    intro name all char mem
    have isName := List.all_eq_true.1 all char mem
    simp only [isPosixNameCharacter, Bool.or_eq_true, decide_eq_true_eq] at isName
    rcases isName with ((isLower | isDigit) | rfl) | rfl
    · apply isPlainUnitChar_of_alphanum
      change ((char.isUpper || char.isLower) || char.isDigit) = true
      rw [isLower, Bool.or_true, Bool.true_or]
    · apply isPlainUnitChar_of_alphanum
      rw [Char.isAlphanum, isDigit, Bool.or_true]
    · decide
    · decide
  rw [isPosixUserGroup, Bool.and_eq_true] at valid
  have all := valid.2
  split at all
  · next endsInDollar =>
    obtain ⟨front, rfl⟩ := List.getLast?_eq_some_iff.1 endsInDollar
    rw [List.dropLast_concat] at all
    intro char mem
    rcases List.mem_append.1 mem with inFront | isDollar
    · exact ofName front all char inFront
    · rw [List.mem_singleton.1 isDollar]
      decide
  · exact ofName value all

theorem isTimerName_of_assertTimerName {name : Text} (valid : assertTimerName name = .ok ()) :
    isTimerName name = true := by
  rw [assertTimerName] at valid
  split at valid
  · cases valid
  · exact matches_of_assertMatches valid

section Names

variable {name : Text} (isName : isTimerName name = true)

include isName

theorem timerName_plain : name ≠ [] ∧ ∀ char ∈ name, isPlainUnitChar char = true := by
  rw [isTimerName, Bool.and_eq_true, decide_eq_true_eq, List.all_eq_true] at isName
  refine ⟨isName.1, fun char mem => ?_⟩
  have isCharacter := isName.2 char mem
  simp only [Bool.or_eq_true, decide_eq_true_eq] at isCharacter
  rcases isCharacter with (isAlphanum | rfl) | rfl
  · exact isPlainUnitChar_of_alphanum isAlphanum
  · decide
  · decide

theorem standsAsWritten_unitName : StandsAsWritten (name ++ text ".service") := by
  have suffix : ∀ char ∈ text ".service", isPlainUnitChar char = true :=
    forall_mem_of_all (by decide)
  apply standsAsWritten_of_plain
  intro char mem
  rcases List.mem_append.1 mem with inName | inSuffix
  · exact (timerName_plain isName).2 char inName
  · exact suffix char inSuffix

theorem standsAsWritten_default : StandsAsWritten (text "Paratix scheduled task: " ++ name) := by
  obtain ⟨nonempty, isPlain⟩ := timerName_plain isName
  apply standsAsWritten_of_ends
  · intro head isHead
    have isP : some 'P' = some head := isHead
    rw [← Option.some.inj isP]
    decide
  · intro last isLast
    rw [List.getLast?_append_of_ne_nil _ nonempty] at isLast
    exact plain_ends (isPlain last (List.mem_of_getLast? isLast))

end Names

theorem standsAsWritten_timerDescription {description : Text} (nonempty : description ≠ [])
    (stands : StandsAsWritten description) :
    StandsAsWritten (description ++ text " (timer)") := by
  apply standsAsWritten_of_ends
  · intro head isHead
    rw [List.head?_append_of_ne_nil _ nonempty] at isHead
    exact stands.head isHead
  · intro last isLast
    have isParenthesis : some ')' = some last := by
      rw [← isLast, List.getLast?_append]
      rfl
    rw [← Option.some.inj isParenthesis]
    decide

/-! ### The rendered units -/

theorem serviceUnitLines_eq (name : Text) (options : TimerScheduledOptions) :
    serviceUnitLines name options ((options.onFailure.map OneOrMany.entries).getD []) =
      (unitLinesOf (serviceUnit name options)).map UnitLine.text := by
  simp only [serviceUnitLines, serviceUnit, unitLinesOf, List.map_append, List.map_cons,
    List.map_map, List.map_nil, List.cons_append, List.nil_append, List.append_assoc]
  rfl

theorem timerUnitLines_eq (name : Text) (options : TimerScheduledOptions) :
    timerUnitLines name options options.onCalendar.entries =
      (unitLinesOf (timerUnit name options)).map UnitLine.text := by
  simp only [timerUnitLines, timerUnit, unitLinesOf, List.map_append, List.map_cons,
    List.map_map, List.map_nil, List.cons_append, List.nil_append, List.append_assoc]
  cases options.persistent.getD true with
  | false => rfl
  | true => rfl

theorem renderServiceUnit_eq (name : Text) {options : TimerScheduledOptions}
    (fields : ValidTimerFields options) :
    renderServiceUnit name options = .ok (unitText (unitLinesOf (serviceUnit name options))) := by
  have lines := serviceUnitLines_eq name options
  have valid := fields.onFailure
  rw [renderServiceUnit, unitText, ← lines]
  cases isGiven : options.onFailure with
  | none => rfl
  | some given =>
    rw [isGiven] at valid
    dsimp only
    rw [(valid given List.mem_cons_self).1]
    rfl

theorem renderTimerUnit_eq (name : Text) {options : TimerScheduledOptions}
    (fields : ValidTimerFields options) :
    renderTimerUnit name options = .ok (unitText (unitLinesOf (timerUnit name options))) := by
  rw [renderTimerUnit, fields.onCalendar.1, unitText, ← timerUnitLines_eq]
  rfl

/-! ### The settings that are meant -/

/-- All settings of the service unit have a property. -/
theorem forall_serviceSettings {name : Text} {options : TimerScheduledOptions}
    {holds : UnitSetting → Prop} :
    (∀ entry ∈ settingsOf (serviceUnit name options), holds entry.2) ↔
      holds (.plain (text "Description") (timerDescription name options)) ∧
      (∀ value ∈ (options.onFailure.map OneOrMany.entries).getD [],
        holds (.plain (text "OnFailure") value)) ∧
      holds (.plain (text "Type") (text "oneshot")) ∧
      (∀ value ∈ options.user.toList, holds (.plain (text "User") value)) ∧
      (∀ value ∈ options.group.toList, holds (.plain (text "Group") value)) ∧
      (∀ value ∈ options.workingDirectory.toList, holds (.plain (text "WorkingDirectory") value)) ∧
      (∀ entry ∈ options.environment.getD [], holds (.assigned entry.1 entry.2)) ∧
      holds (.plain (text "ExecStart") options.exec) := by
  simp only [settingsOf, serviceUnit, List.flatMap_cons, List.flatMap_nil, List.append_nil,
    List.forall_mem_append, List.forall_mem_map, List.forall_mem_cons, List.not_mem_nil,
    IsEmpty.forall_iff, implies_true, and_true, and_assoc]

theorem forall_timerSettings {name : Text} {options : TimerScheduledOptions}
    {holds : UnitSetting → Prop} : (∀ entry ∈ settingsOf (timerUnit name options), holds entry.2) ↔
      holds (.plain (text "Description") (timerDescription name options ++ text " (timer)")) ∧
      (∀ value ∈ options.onCalendar.entries, holds (.plain (text "OnCalendar") value)) ∧
      (options.persistent.getD true = true → holds (.plain (text "Persistent") (text "true"))) ∧
      (∀ value ∈ options.randomizedDelaySec.toList,
        holds (.plain (text "RandomizedDelaySec") value)) ∧
      (∀ value ∈ options.accuracySec.toList, holds (.plain (text "AccuracySec") value)) ∧
      holds (.plain (text "Unit") (name ++ text ".service")) ∧
      holds (.plain (text "WantedBy") (text "timers.target")) := by
  simp only [settingsOf, timerUnit, List.flatMap_cons, List.flatMap_nil, List.append_nil,
    List.forall_mem_append, List.forall_mem_map, List.forall_mem_cons, List.not_mem_nil,
    IsEmpty.forall_iff, implies_true, and_true, and_assoc]
  cases options.persistent.getD true with
  | false => simp
  | true => simp

/-- The key is a name and not that of variables. -/
def IsPlainKey (key : Text) : Prop :=
  key ≠ [] ∧ key.all Char.isAlpha = true ∧ key ≠ ENVIRONMENT

instance (key : Text) : Decidable (IsPlainKey key) := inferInstanceAs (Decidable (_ ∧ _ ∧ _))

theorem IsPlainKey.proper {key value : Text} (isPlain : IsPlainKey key) (oneLine : '\n' ∉ value) :
    (UnitSetting.plain key value).Proper := by
  refine ⟨⟨isPlain.1, fun char mem => ?_⟩, isPlain.2.2, oneLine⟩
  rw [Char.isAlphanum, List.all_eq_true.1 isPlain.2.1 char mem, Bool.true_or]

theorem newline_notMem_of_plain {value : Text}
    (isPlain : ∀ char ∈ value, isPlainUnitChar char = true) : '\n' ∉ value := by
  intro mem
  exact absurd (isPlain _ mem) (by decide)

section Valid

variable {name : Text} {options : TimerScheduledOptions} (isName : isTimerName name = true)
  (fields : ValidTimerFields options)

include isName fields

theorem timerDescription_oneLine : '\n' ∉ timerDescription name options := by
  have given := fields.description
  rw [timerDescription]
  cases isGiven : options.description with
  | none =>
    rw [Option.getD_none, List.mem_append]
    rintro (inText | inName)
    · revert inText
      decide
    · exact newline_notMem_of_plain (timerName_plain isName).2 inName
  | some description =>
    rw [isGiven] at given
    exact (given description List.mem_cons_self).1

omit isName in
theorem timerDescription_ne_nil : timerDescription name options ≠ [] := by
  have given := fields.description
  rw [timerDescription]
  cases isGiven : options.description with
  | none => exact List.append_ne_nil_of_left_ne_nil (by decide) _
  | some description =>
    rw [isGiven] at given
    exact (given description List.mem_cons_self).2

theorem serviceUnit_proper : ProperUnit (serviceUnit name options) := by
  refine ⟨?_, forall_serviceSettings.2 ⟨?_, ?_, ?_, ?_, ?_, ?_, ?_, ?_⟩⟩
  · have unit : IsUnitName (text "Unit") := ⟨by decide, forall_mem_of_all (by decide)⟩
    have service : IsUnitName (text "Service") := ⟨by decide, forall_mem_of_all (by decide)⟩
    rw [serviceUnit, List.forall_mem_cons, List.forall_mem_singleton]
    exact ⟨unit, service⟩
  · exact IsPlainKey.proper (by decide) (timerDescription_oneLine isName fields)
  · intro value mem
    have given := fields.onFailure
    cases isGiven : options.onFailure with
    | none =>
      rw [isGiven] at mem
      exact absurd mem List.not_mem_nil
    | some failure =>
      rw [isGiven] at mem given
      exact IsPlainKey.proper (by decide) ((given failure List.mem_cons_self).2 value mem)
  · exact IsPlainKey.proper (by decide) (by decide)
  · intro value mem
    exact IsPlainKey.proper (by decide)
      (newline_notMem_of_plain (posixUserGroup_plain (fields.user value mem)))
  · intro value mem
    exact IsPlainKey.proper (by decide)
      (newline_notMem_of_plain (posixUserGroup_plain (fields.group value mem)))
  · intro value mem
    exact IsPlainKey.proper (by decide) (fields.workingDirectory value mem)
  · exact fields.environment
  · exact IsPlainKey.proper (by decide) fields.exec

theorem timerUnit_proper : ProperUnit (timerUnit name options) := by
  refine ⟨?_, forall_timerSettings.2 ⟨?_, ?_, ?_, ?_, ?_, ?_, ?_⟩⟩
  · have unit : IsUnitName (text "Unit") := ⟨by decide, forall_mem_of_all (by decide)⟩
    have timer : IsUnitName (text "Timer") := ⟨by decide, forall_mem_of_all (by decide)⟩
    have install : IsUnitName (text "Install") := ⟨by decide, forall_mem_of_all (by decide)⟩
    rw [timerUnit, List.forall_mem_cons, List.forall_mem_cons, List.forall_mem_singleton]
    exact ⟨unit, timer, install⟩
  · apply IsPlainKey.proper (by decide)
    rw [List.mem_append]
    rintro (inDescription | inSuffix)
    · exact timerDescription_oneLine isName fields inDescription
    · revert inSuffix
      decide
  · intro value mem
    exact IsPlainKey.proper (by decide) (fields.onCalendar.2 value mem)
  · intro _
    exact IsPlainKey.proper (by decide) (by decide)
  · intro value mem
    exact IsPlainKey.proper (by decide) (fields.delays value (List.mem_append_left _ mem))
  · intro value mem
    exact IsPlainKey.proper (by decide) (fields.delays value (List.mem_append_right _ mem))
  · apply IsPlainKey.proper (by decide)
    rw [List.mem_append]
    rintro (inName | inSuffix)
    · exact newline_notMem_of_plain (timerName_plain isName).2 inName
    · revert inSuffix
      decide
  · exact IsPlainKey.proper (by decide) (by decide)

end Valid

/-- For every name and all options that are accepted: both units are read back as they were meant
exactly if no unquoted value has blanks around it or a backslash at its end and no value of a
variable has a specifier. -/
theorem timer_units_iff {name : Text} {options : TimerScheduledOptions}
    (validName : assertTimerName name = .ok ()) (valid : validatePresentOptions options = .ok ())
    (resolve : Char → Option Text) :
    UnitsReadBack name options resolve ↔ PlainTimerValues options resolve := by
  have isName := isTimerName_of_assertTimerName validName
  have fields := validTimerFields valid
  have service := readsBack_iff (serviceUnit_proper isName fields) resolve
  have timer := readsBack_iff (timerUnit_proper isName fields) resolve
  rw [forall_serviceSettings] at service
  rw [forall_timerSettings] at timer
  constructor
  · rintro ⟨⟨serviceText, isService, readService⟩, timerText, isTimer, readTimer⟩
    rw [renderServiceUnit_eq name fields, Except.ok.injEq] at isService
    rw [renderTimerUnit_eq name fields, Except.ok.injEq] at isTimer
    obtain ⟨description, onFailure, _, _, _, workingDirectory, environment, exec⟩ :=
      service.1 (by rw [isService]; exact readService)
    obtain ⟨_, onCalendar, _, randomized, accuracy, _, _⟩ :=
      timer.1 (by rw [isTimer]; exact readTimer)
    refine ⟨?_, environment⟩
    simp only [inlineValues, List.forall_mem_append, List.forall_mem_singleton]
    refine ⟨⟨⟨⟨⟨⟨?_, onFailure⟩, workingDirectory⟩, exec⟩, onCalendar⟩, randomized⟩, accuracy⟩
    intro given mem
    rw [Option.mem_toList] at mem
    rw [timerDescription, mem] at description
    exact description
  · rintro ⟨inline, environment⟩
    simp only [inlineValues, List.forall_mem_append, List.forall_mem_singleton] at inline
    obtain ⟨⟨⟨⟨⟨⟨given, onFailure⟩, workingDirectory⟩, exec⟩, onCalendar⟩, randomized⟩, accuracy⟩ :=
      inline
    have description : StandsAsWritten (timerDescription name options) := by
      rw [timerDescription]
      cases isGiven : options.description with
      | none => exact standsAsWritten_default isName
      | some description => exact given description (Option.mem_toList.2 isGiven)
    constructor
    · refine ⟨_, renderServiceUnit_eq name fields, service.2 ⟨description, onFailure, ?_, ?_, ?_,
        workingDirectory, environment, exec⟩⟩
      · show StandsAsWritten (text "oneshot")
        decide
      · exact fun value mem =>
          standsAsWritten_of_plain (posixUserGroup_plain (fields.user value mem))
      · exact fun value mem =>
          standsAsWritten_of_plain (posixUserGroup_plain (fields.group value mem))
    · refine ⟨_, renderTimerUnit_eq name fields, timer.2 ⟨?_, onCalendar, ?_, randomized, accuracy,
        standsAsWritten_unitName isName, ?_⟩⟩
      · exact standsAsWritten_timerDescription (timerDescription_ne_nil fields) description
      · intro _
        show StandsAsWritten (text "true")
        decide
      · show StandsAsWritten (text "timers.target")
        decide

/-! ### Timers that are read back and others -/

def sampleOptions (description : String) (value : String) : TimerScheduledOptions :=
  { accuracySec := none, description := some (text description),
    environment := some [(text "KEY", text value)], exec := text "/bin/backup", group := none,
    onCalendar := .one (text "daily"), onFailure := some (.one (text "alert@%n.service")),
    persistent := none, randomizedDelaySec := none, user := none, workingDirectory := none }

/-- `%n` is the name of the unit. -/
def sampleResolve (specifier : Char) : Option Text :=
  if specifier = 'n' then some (text "backup.service") else none

theorem quoted_variable_reads_back :
    UnitsReadBack (text "backup") (sampleOptions "Nightly" "a \"b\" \\c 100%") sampleResolve := by
  apply (timer_units_iff (by decide +kernel) (by decide +kernel) sampleResolve).2
  refine ⟨?_, ?_⟩
  · exact forall_mem_of_all (by decide +kernel)
  · exact forall_mem_of_all (by decide +kernel)

/-- A doubled percent sign in a variable is read as one; a description that ends in a backslash
takes the next line with it. -/
theorem percent_and_backslash_differ :
    assertTimerName (text "backup") = .ok () ∧
      validatePresentOptions (sampleOptions "Nightly" "50%%") = .ok () ∧
      (∃ content, renderServiceUnit (text "backup") (sampleOptions "Nightly" "50%%") =
          .ok content ∧
        (readUnit content).map (·.map (meaningOf sampleResolve)) =
          some [.setting (text "Unit") (text "Description") (text "Nightly"),
            .setting (text "Unit") (text "OnFailure") (text "alert@%n.service"),
            .setting (text "Service") (text "Type") (text "oneshot"),
            .assignments (text "Service") [(text "KEY", text "50%")],
            .setting (text "Service") (text "ExecStart") (text "/bin/backup")]) ∧
      validatePresentOptions (sampleOptions "C:\\" "x") = .ok () ∧
      ∃ content, renderServiceUnit (text "backup") (sampleOptions "C:\\" "x") = .ok content ∧
        (readUnit content).map (·.map (meaningOf sampleResolve)) =
          some [.setting (text "Unit") (text "Description") (text "C: OnFailure=alert@%n.service"),
            .setting (text "Service") (text "Type") (text "oneshot"),
            .assignments (text "Service") [(text "KEY", text "x")],
            .setting (text "Service") (text "ExecStart") (text "/bin/backup")] := by
  refine ⟨by decide +kernel, by decide +kernel, ⟨_, rfl, by decide +kernel⟩, by decide +kernel,
    _, rfl, by decide +kernel⟩

end Paratix.Timer
