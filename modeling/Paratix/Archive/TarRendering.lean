/-
Module: Paratix.Archive.TarRendering
Purpose: The parser of tar listings with the decoding of escaped names, and what GNU tar prints for
  a member.
Main exports: parseTarListing, escapeQuote_cut
-/
import Paratix.Archive.Member
import Paratix.Foundation.Columns
import Paratix.Foundation.Separator
import Paratix.Foundation.Utf8

namespace Paratix.Archive

open Foundation

/-- The `tar` implementation the listing script detected. -/
inductive TarListingFlavor where
  | bsd
  | gnu
  | other
deriving DecidableEq, Repr

/-- The `LC_ALL` value the listing script ran `tar` under. -/
inductive TarListingLocale where
  | cUTF8
  | cutf8
  | c
deriving DecidableEq, Repr

/-- How the listing was produced, as reported by its first line. -/
structure TarListingMode where
  flavor : TarListingFlavor
  locale : TarListingLocale
deriving DecidableEq, Repr

def TarListingFlavor.text : TarListingFlavor → Text
  | .bsd => Archive.text "bsd"
  | .gnu => Archive.text "gnu"
  | .other => Archive.text "other"

def TarListingLocale.text : TarListingLocale → Text
  | .cUTF8 => Archive.text "C.UTF-8"
  | .cutf8 => Archive.text "C.utf8"
  | .c => Archive.text "C"

def TAR_LISTING_FLAVORS : List TarListingFlavor := [.bsd, .gnu, .other]

def TAR_LISTING_LOCALES : List TarListingLocale := [.cUTF8, .cutf8, .c]

def TAR_LISTING_MODE_PREFIX : Text := text "paratix-tar-listing"

def modeLine (flavor : TarListingFlavor) (locale : TarListingLocale) : Text :=
  TAR_LISTING_MODE_PREFIX ++ text " " ++ flavor.text ++ text " " ++ locale.text

/-- The escape `JSON.stringify` gives the first half of a surrogate pair that
stands alone. -/
def loneHighSurrogate (char : Char) : Text :=
  let unit := 0xd800 + (char.toNat - 0x10000) / 0x400
  text "\\u" ++ [hexDigit (unit / 0x1000), hexDigit (unit / 0x100 % 16),
    hexDigit (unit / 16 % 16), hexDigit (unit % 16)]

/-- The first `limit` code units of a text, each as it stands in a JSON string. -/
def jsonCodeUnits : Nat → Text → Text
  | 0, _ => []
  | _, [] => []
  | 1, char :: _ => if char.toNat < 0x10000 then jsonChar char else loneHighSurrogate char
  | limit + 2, char :: rest =>
      if char.toNat < 0x10000 then jsonChar char ++ jsonCodeUnits (limit + 1) rest
      else char :: jsonCodeUnits limit rest

/-- `JSON.stringify` of the first `limit` code units of a text. -/
def jsonStringifyStart (limit : Nat) (value : Text) : Text :=
  text "\"" ++ jsonCodeUnits limit value ++ text "\""

def MODE_LINE_QUOTE_LIMIT : Nat := 200

/-- Split the mode line off a listing: its mode and the output of `tar`, or why
the listing is refused. -/
def splitTarListingModeLine (stdout : Text) : Except Text (TarListingMode × Text) :=
  let cut := cutFirst ['\n'] stdout
  let firstLine := (cut.map Prod.fst).getD stdout
  let body := (cut.map Prod.snd).getD []
  let modes := TAR_LISTING_FLAVORS.flatMap fun flavor =>
    TAR_LISTING_LOCALES.map fun locale => TarListingMode.mk flavor locale
  match modes.find? fun mode => modeLine mode.flavor mode.locale = firstLine with
  | some mode => .ok (mode, body)
  | none => .error
      (text "tar listing does not start with the expected listing mode line: " ++
        jsonStringifyStart MODE_LINE_QUOTE_LIMIT firstLine)

/-- Whether member names of this listing are decoded. -/
def tarListingDecodesNames (mode : TarListingMode) : Bool := mode.flavor ≠ .other

/-! ### Decoding of names -/

/-- The single-letter escapes and the characters they stand for. -/
def TAR_LETTER_ESCAPES : List (Char × Char) := [
  ('\\', '\\'), ('a', '\x07'), ('b', '\x08'), ('f', '\x0c'), ('n', '\n'), ('r', '\r'),
  ('t', '\t'), ('v', '\x0b')]

def isOctalDigit (char : Char) : Bool := '0' ≤ char && char ≤ '7'

/-- `[0-3][0-7]{2}` -/
def isOctalByte (first second third : Char) : Bool :=
  '0' ≤ first && first ≤ '3' && isOctalDigit second && isOctalDigit third

/-- A character of unescaped text before the parts of the rest. -/
def consPart (char : Char) (parts : Text × List (Text × Text)) : Text × List (Text × Text) :=
  (char :: parts.1, parts.2)

/-- An escape sequence before the parts of the rest. -/
def escapePart (escape : Text) (parts : Text × List (Text × Text)) :
    Text × List (Text × Text) :=
  ([], (escape, parts.1) :: parts.2)

/-- A listed name split at its escape sequences, from left to right: the text
before the first one, then each with the text after it. -/
def splitTarEscapes : Text → Text × List (Text × Text)
  | [] => ([], [])
  | [char] => ([char], [])
  | char :: letter :: rest =>
      if char = '\\' ∧ (TAR_LETTER_ESCAPES.lookup letter).isSome then
        escapePart [char, letter] (splitTarEscapes rest)
      else
        match rest with
        | second :: third :: more =>
            if char = '\\' ∧ isOctalByte letter second third then
              escapePart [char, letter, second, third] (splitTarEscapes more)
            else consPart char (splitTarEscapes (letter :: second :: third :: more))
        | [second] => consPart char (splitTarEscapes [letter, second])
        | [] => consPart char (splitTarEscapes [letter])

def octalValue (digits : Text) : Nat :=
  digits.foldl (fun value digit => 8 * value + (digit.toNat - '0'.toNat)) 0

/-- The byte an escape sequence stands for. -/
def tarEscapeBytes (escape : Text) : List UInt8 :=
  let body := escape.drop 1
  match body with
  | [letter] =>
      match TAR_LETTER_ESCAPES.lookup letter with
      | some char => [UInt8.ofNat char.toNat]
      | none => [UInt8.ofNat (octalValue body)]
  | _ => [UInt8.ofNat (octalValue body)]

def TAR_LONGEST_ESCAPE_LENGTH : Nat := 4

/-- The bytes of a listed name, or why a backslash in it starts no escape. -/
def tarListingNameBytes (listed : Text) : Except Text (List UInt8) :=
  let (first, escapes) := splitTarEscapes listed
  match (first :: escapes.map Prod.snd).find? fun part => part.contains '\\' with
  | some stray => .error (text "invalid escape sequence " ++
      jsonStringifyStart TAR_LONGEST_ESCAPE_LENGTH (stray.dropWhile fun char => char ≠ '\\'))
  | none => .ok (utf8Bytes first ++
      escapes.flatMap fun part => tarEscapeBytes part.1 ++ utf8Bytes part.2)

/-- Decode a listed name back to the name stored in the archive, or say why it
cannot be mapped. -/
def decodeTarListingName (listed : Text) : Except Text Text :=
  if ¬ listed.contains '\\' then .ok listed
  else
    match tarListingNameBytes listed with
    | .error failureReason => .error failureReason
    | .ok bytes =>
        match decodeUtf8 bytes with
        | some name => .ok name
        | none => .error (text "the decoded bytes are not valid UTF-8")

/-! ### Lines -/

/-- The result of parsing one archive listing line. -/
inductive ArchiveMemberParseResult where
  | invalid (failureReason : Text)
  | parsed (member : ArchiveMember)
  | ignored
deriving DecidableEq, Repr

def TAR_LINK_ARROW : Text := text " -> "

def TAR_HARDLINK_TARGET : Text := text " link to "

/-- `[\-bcdhlps][\-rwxStTs]{9}` -/
def isTarMode (mode : Text) : Bool :=
  mode.length = 10 && (text "-bcdhlps").contains (mode.headD ' ') &&
    mode.tail.all fun char => (text "-rwxStTs").contains char

/-- The mode and the remainder of a line that has `count` columns between
them. -/
def matchVerboseLine (count : Nat) (line : Text) : Option (Text × Text) :=
  let mode := line.take 10
  if isTarMode mode then
    match dropColumns isJsSpace count (line.drop 10) with
    | some rest => if rest.any isLineTerminator then none else some (mode, rest)
    | none => none
  else none

/-- Infer the member kind from the first character of a symbolic mode string. -/
def archiveMemberKindFromMode (mode : Text) : MemberKind :=
  if ['d'].isPrefixOf mode then .directory
  else if ['l'].isPrefixOf mode then .symlink
  else if ['h'].isPrefixOf mode then .hardlink
  else if ['-'].isPrefixOf mode then .file
  else .special

/-- The member kind of a listing line, from its mode character and, where the
listing flavor requires it, from its link separator. -/
def tarListingMemberKind (mode rest : Text) (flavor : TarListingFlavor) : MemberKind :=
  let kind := archiveMemberKindFromMode mode
  if flavor = .bsd ∧ kind ≠ .special ∧ TAR_HARDLINK_TARGET <:+: rest then .hardlink
  else
    let hasSeparator := TAR_LINK_ARROW <:+: rest ∨ TAR_HARDLINK_TARGET <:+: rest
    if flavor = .other ∧ kind = .file ∧ hasSeparator then .hardlink else kind

def ambiguousTarLinkLine (line detail : Text) : ArchiveMemberParseResult :=
  .invalid (text "ambiguous tar listing line (" ++ detail ++ text "): " ++
    jsonStringify line)

/-- Split a remainder into member path and link target at the separator;
nothing when it does not occur. -/
def parseTarLinkMember (kind : MemberKind) (line mode rest separator : Text) :
    Option ArchiveMemberParseResult :=
  match cutFirst separator rest with
  | none => none
  | some (path, linkTarget) =>
      if separator <:+: linkTarget then
        some (ambiguousTarLinkLine line (text "link separator " ++
          jsonStringify separator ++ text " occurs more than once"))
      else some (.parsed ⟨.tar, kind, some linkTarget, mode, path⟩)

/-- Split the remainder of a link member according to its kind. -/
def parseTarLinkRemainder (kind : MemberKind) (line mode rest : Text) :
    Option ArchiveMemberParseResult :=
  if kind = .file then none
  else if kind ≠ .hardlink then parseTarLinkMember kind line mode rest TAR_LINK_ARROW
  else if TAR_LINK_ARROW <:+: rest ∧ TAR_HARDLINK_TARGET <:+: rest then
    some (ambiguousTarLinkLine line (text "hardlink contains both " ++
      jsonStringify TAR_LINK_ARROW ++ text " and " ++ jsonStringify TAR_HARDLINK_TARGET))
  else
    parseTarLinkMember kind line mode rest TAR_LINK_ARROW <|>
      parseTarLinkMember kind line mode rest TAR_HARDLINK_TARGET

def unmappableTarName (listed detail : Text) : ArchiveMemberParseResult :=
  .invalid (text "member name " ++ jsonStringify listed ++
    text " in the tar listing cannot be mapped to the extracted name (" ++ detail ++
    text ")")

/-- Decode the path and link target of a parsed member. -/
def decodeTarMemberNames : ArchiveMemberParseResult → ArchiveMemberParseResult
  | .parsed member =>
      match decodeTarListingName member.path with
      | .error failureReason => unmappableTarName member.path failureReason
      | .ok path =>
          match member.linkTarget with
          | none => .parsed { member with path := path }
          | some linkTarget =>
              match decodeTarListingName linkTarget with
              | .error failureReason => unmappableTarName linkTarget failureReason
              | .ok target => .parsed { member with linkTarget := some target, path := path }
  | parsed => parsed

/-- Parse one tar listing line with the names as listed. -/
def parseListedTarVerboseLine (line : Text) (listingMode : TarListingMode) :
    ArchiveMemberParseResult :=
  let trimmed := if line.getLast? = some '\r' then line.dropLast else line
  if trimmed = [] then .ignored
  else
    match matchVerboseLine (if listingMode.flavor = .bsd then 7 else 4) trimmed with
    | none => .invalid (text "could not parse tar listing line: " ++ jsonStringify trimmed)
    | some (mode, rest) =>
        let kind := tarListingMemberKind mode rest listingMode.flavor
        match parseTarLinkRemainder kind trimmed mode rest with
        | some linkMember => linkMember
        | none => .parsed ⟨.tar, kind, none, mode, rest⟩

/-- Parse one tar listing line and, for GNU tar and bsdtar, decode its names. -/
def parseTarVerboseLine (line : Text) (listingMode : TarListingMode) :
    ArchiveMemberParseResult :=
  let parsed := parseListedTarVerboseLine line listingMode
  if tarListingDecodesNames listingMode then decodeTarMemberNames parsed else parsed

/-- The members of the lines, up to the first one that is refused. -/
def parseTarLines (listingMode : TarListingMode) :
    List Text → Except Text (List ArchiveMember)
  | [] => .ok []
  | line :: lines =>
      match parseTarVerboseLine line listingMode with
      | .invalid failureReason => .error failureReason
      | .ignored => parseTarLines listingMode lines
      | .parsed member => (parseTarLines listingMode lines).map (member :: ·)

/-- Parse the full listing of a tar archive. -/
def parseTarListing (stdout : Text) : Except Text (List ArchiveMember) :=
  match splitTarListingModeLine stdout with
  | .error failureReason => .error failureReason
  | .ok (listingMode, body) => parseTarLines listingMode (body.splitOn '\n')

/-- A name is read as characters and as bytes that belong to no character. -/
inductive NameUnit where
  | char (char : Char)
  | byte (byte : UInt8)
deriving DecidableEq, Repr

def NameUnit.bytes : NameUnit → List UInt8
  | .char value => String.utf8EncodeChar value
  | .byte value => [value]

/-- A member name or link target as the archive stores it. -/
abbrev TarName := List NameUnit

def nameBytes (name : TarName) : List UInt8 := name.flatMap NameUnit.bytes

/-- The characters `tar` takes for printable under the locale it runs in. -/
structure TarLocale where
  printable : Char → Bool
  ascii : ∀ char, 0x20 ≤ char.toNat → char.toNat < 0x7f → printable char = true
  noControl : ∀ char, char.toNat < 0x20 → printable char = false
  noLineSeparator : ∀ char, char.toNat = 0x2028 ∨ char.toNat = 0x2029 →
    printable char = false

/-- A byte as `\NNN`. -/
def octalByte (byte : UInt8) : Text :=
  let digit (value : Nat) := Char.ofNat (0x30 + value)
  ['\\', digit (byte.toNat / 64), digit (byte.toNat / 8 % 8), digit (byte.toNat % 8)]

/-- The characters printed as a backslash and a letter. -/
def GNU_LETTERS : List (Char × Char) := [
  ('\\', '\\'), ('\x07', 'a'), ('\x08', 'b'), ('\x0c', 'f'), ('\n', 'n'), ('\r', 'r'),
  ('\t', 't'), ('\x0b', 'v')]

def escapeUnit (locale : TarLocale) : NameUnit → Text
  | .byte byte => octalByte byte
  | .char char =>
      match GNU_LETTERS.lookup char with
      | some letter => ['\\', letter]
      | none =>
          if locale.printable char then [char]
          else (String.utf8EncodeChar char).flatMap octalByte

/-- A name in quoting style `escape`. -/
def escapeQuote (locale : TarLocale) (name : TarName) : Text :=
  name.flatMap (escapeUnit locale)

@[simp] theorem nameBytes_append (first second : TarName) :
    nameBytes (first ++ second) = nameBytes first ++ nameBytes second :=
  List.flatMap_append

@[simp] theorem nameBytes_cons (unit : NameUnit) (name : TarName) :
    nameBytes (unit :: name) = unit.bytes ++ nameBytes name := rfl

@[simp] theorem escapeQuote_append (locale : TarLocale) (first second : TarName) :
    escapeQuote locale (first ++ second) = escapeQuote locale first ++ escapeQuote locale second :=
  List.flatMap_append

@[simp] theorem escapeQuote_cons (locale : TarLocale) (unit : NameUnit) (name : TarName) :
    escapeQuote locale (unit :: name) = escapeUnit locale unit ++ escapeQuote locale name :=
  rfl

/-! ### Splitting at the escape sequences -/

theorem splitTarEscapes_char {char : Char} (notBackslash : char ≠ '\\') (rest : Text) :
    splitTarEscapes (char :: rest) = consPart char (splitTarEscapes rest) := by
  match rest with
  | [] => rfl
  | [letter] => simp [splitTarEscapes, notBackslash]
  | [letter, second] => simp [splitTarEscapes, notBackslash]
  | letter :: second :: third :: more =>
    rw [splitTarEscapes, if_neg fun both => notBackslash both.1]
    simp only [notBackslash, false_and, if_false]

theorem splitTarEscapes_letter {letter : Char}
    (isLetter : (TAR_LETTER_ESCAPES.lookup letter).isSome) (rest : Text) :
    splitTarEscapes ('\\' :: letter :: rest) =
      escapePart ['\\', letter] (splitTarEscapes rest) := by
  match rest with
  | [] => simp [splitTarEscapes, isLetter]
  | [second] => simp [splitTarEscapes, isLetter]
  | second :: third :: more => rw [splitTarEscapes, if_pos ⟨rfl, isLetter⟩]

theorem octalByte_spec (byte : UInt8) :
    ∃ first second third, octalByte byte = ['\\', first, second, third] ∧
      isOctalByte first second third = true ∧
      (TAR_LETTER_ESCAPES.lookup first).isSome = false ∧
      tarEscapeBytes (octalByte byte) = [byte] := by
  have every : (List.range 256).all (fun value =>
      let byte := UInt8.ofNat value
      isOctalByte (octalByte byte)[1]! (octalByte byte)[2]! (octalByte byte)[3]! &&
        !(TAR_LETTER_ESCAPES.lookup (octalByte byte)[1]!).isSome &&
        tarEscapeBytes (octalByte byte) == [byte]) = true := by
    decide +kernel
  have here := List.all_eq_true.1 every byte.toNat (List.mem_range.2 byte.toNat_lt)
  simp only [UInt8.ofNat_toNat, Bool.and_eq_true, Bool.not_eq_true', beq_iff_eq] at here
  exact ⟨_, _, _, rfl, here.1.1, here.1.2, here.2⟩

theorem splitTarEscapes_octal (byte : UInt8) (rest : Text) :
    splitTarEscapes (octalByte byte ++ rest) =
      escapePart (octalByte byte) (splitTarEscapes rest) := by
  obtain ⟨first, second, third, escapeEq, isOctal, noLetter, _⟩ := octalByte_spec byte
  rw [escapeEq]
  simp only [List.cons_append, List.nil_append]
  rw [splitTarEscapes, if_neg (by simp [noLetter])]
  simp only [isOctal, and_self, if_true]

/-- The bytes the parts of a listed name stand for. -/
def partsBytes (parts : Text × List (Text × Text)) : List UInt8 :=
  utf8Bytes parts.1 ++ parts.2.flatMap fun part => tarEscapeBytes part.1 ++ utf8Bytes part.2

/-- No text between the escapes holds a backslash. -/
def NoStray (parts : Text × List (Text × Text)) : Prop :=
  '\\' ∉ parts.1 ∧ ∀ part ∈ parts.2, '\\' ∉ part.2

theorem partsBytes_consPart (char : Char) (parts : Text × List (Text × Text)) :
    partsBytes (consPart char parts) = String.utf8EncodeChar char ++ partsBytes parts := by
  simp [partsBytes, consPart]

theorem partsBytes_escapePart (escape : Text) (parts : Text × List (Text × Text)) :
    partsBytes (escapePart escape parts) = tarEscapeBytes escape ++ partsBytes parts := by
  simp [partsBytes, escapePart]

theorem NoStray.consPart {char : Char} (notBackslash : char ≠ '\\')
    {parts : Text × List (Text × Text)} (noStray : NoStray parts) :
    NoStray (consPart char parts) := by
  constructor
  · intro member
    rcases List.mem_cons.1 member with here | inFirst
    · exact notBackslash here.symm
    · exact noStray.1 inFirst
  · exact noStray.2

theorem NoStray.escapePart (escape : Text) {parts : Text × List (Text × Text)}
    (noStray : NoStray parts) : NoStray (escapePart escape parts) := by
  constructor
  · exact List.not_mem_nil
  · intro part member
    rcases List.mem_cons.1 member with rfl | inRest
    · exact noStray.1
    · exact noStray.2 part inRest

/-- Each octal escape adds its byte. -/
theorem splitTarEscapes_octals (bytes : List UInt8) {rest : Text}
    (noStray : NoStray (splitTarEscapes rest)) :
    NoStray (splitTarEscapes (bytes.flatMap octalByte ++ rest)) ∧
      partsBytes (splitTarEscapes (bytes.flatMap octalByte ++ rest)) =
        bytes ++ partsBytes (splitTarEscapes rest) := by
  induction bytes with
  | nil => exact ⟨noStray, rfl⟩
  | cons byte bytes ih =>
    obtain ⟨restNoStray, restBytes⟩ := ih
    obtain ⟨_, _, _, _, _, _, isByte⟩ := octalByte_spec byte
    rw [List.flatMap_cons, List.append_assoc, splitTarEscapes_octal,
      partsBytes_escapePart, restBytes, isByte]
    exact ⟨restNoStray.escapePart _, rfl⟩

/-- The letter printed for a character stands for that character, which is one
byte. -/
theorem letter_spec {char letter : Char} (isLetter : GNU_LETTERS.lookup char = some letter) :
    (TAR_LETTER_ESCAPES.lookup letter).isSome = true ∧
      tarEscapeBytes ['\\', letter] = String.utf8EncodeChar char := by
  have every : ∀ pair ∈ GNU_LETTERS, (TAR_LETTER_ESCAPES.lookup pair.2).isSome = true ∧
      tarEscapeBytes ['\\', pair.2] = String.utf8EncodeChar pair.1 := by
    decide
  obtain ⟨front, back, lettersEq, _⟩ := List.lookup_eq_some_iff.1 isLetter
  exact every (char, letter) (by rw [lettersEq]; simp)

theorem splitTarEscapes_unit (locale : TarLocale) (unit : NameUnit) {rest : Text}
    (noStray : NoStray (splitTarEscapes rest)) :
    NoStray (splitTarEscapes (escapeUnit locale unit ++ rest)) ∧
      partsBytes (splitTarEscapes (escapeUnit locale unit ++ rest)) =
        unit.bytes ++ partsBytes (splitTarEscapes rest) := by
  cases unit with
  | byte byte =>
    have octals := splitTarEscapes_octals [byte] noStray
    simpa [escapeUnit, NameUnit.bytes] using octals
  | char char =>
    rw [escapeUnit, NameUnit.bytes]
    cases isLetter : GNU_LETTERS.lookup char with
    | some letter =>
      obtain ⟨known, isChar⟩ := letter_spec isLetter
      simp only [List.cons_append, List.nil_append]
      rw [splitTarEscapes_letter known, partsBytes_escapePart, isChar]
      exact ⟨noStray.escapePart _, rfl⟩
    | none =>
      by_cases printable : locale.printable char = true
      · have notBackslash : char ≠ '\\' := by
          rintro rfl
          cases isLetter
        simp only [printable, if_true, List.cons_append, List.nil_append]
        rw [splitTarEscapes_char notBackslash, partsBytes_consPart]
        exact ⟨noStray.consPart notBackslash, rfl⟩
      · simp only [printable]
        exact splitTarEscapes_octals _ noStray

theorem splitTarEscapes_escapeQuote (locale : TarLocale) (name : TarName) :
    NoStray (splitTarEscapes (escapeQuote locale name)) ∧
      partsBytes (splitTarEscapes (escapeQuote locale name)) = nameBytes name := by
  induction name with
  | nil => exact ⟨⟨List.not_mem_nil, fun _ member => absurd member List.not_mem_nil⟩, rfl⟩
  | cons unit name ih =>
    obtain ⟨noStray, bytesEq⟩ := ih
    obtain ⟨unitNoStray, unitBytes⟩ := splitTarEscapes_unit locale unit noStray
    exact ⟨unitNoStray, by rw [escapeQuote_cons, unitBytes, bytesEq, nameBytes_cons]⟩

theorem splitTarEscapes_of_not_mem {listed : Text} (noBackslash : '\\' ∉ listed) :
    splitTarEscapes listed = (listed, []) := by
  induction listed with
  | nil => rfl
  | cons char listed ih =>
    obtain ⟨notHere, notRest⟩ := not_or.1 (mt List.mem_cons.2 noBackslash)
    rw [splitTarEscapes_char (Ne.symm notHere), ih notRest]
    rfl

theorem tarListingNameBytes_of_noStray {listed : Text}
    (noStray : NoStray (splitTarEscapes listed)) :
    tarListingNameBytes listed = .ok (partsBytes (splitTarEscapes listed)) := by
  have none : ((splitTarEscapes listed).1 ::
      (splitTarEscapes listed).2.map Prod.snd).find? (fun part => part.contains '\\') = none := by
    rw [List.find?_eq_none]
    intro part member
    have absent : '\\' ∉ part := by
      rcases List.mem_cons.1 member with rfl | inRest
      · exact noStray.1
      · obtain ⟨escape, escapeMember, rfl⟩ := List.mem_map.1 inRest
        exact noStray.2 escape escapeMember
    simpa using absent
  simp only [tarListingNameBytes, none]
  rfl

/-- A printed name decodes to the text with the bytes of the name, and to
nothing when no text has them. -/
theorem decodeTarListingName_escapeQuote {locale : TarLocale} {name : TarName} {decoded : Text} :
    decodeTarListingName (escapeQuote locale name) = .ok decoded ↔
      utf8Bytes decoded = nameBytes name := by
  obtain ⟨noStray, bytesEq⟩ := splitTarEscapes_escapeQuote locale name
  rw [decodeTarListingName]
  by_cases backslash : '\\' ∈ escapeQuote locale name
  · have contains : (escapeQuote locale name).contains '\\' = true :=
      List.contains_iff_mem.2 backslash
    simp only [contains, not_true_eq_false, if_false]
    rw [tarListingNameBytes_of_noStray noStray, bytesEq]
    cases valid : decodeUtf8 (nameBytes name) with
    | some chars =>
      simp only [Except.ok.injEq, ← decodeUtf8_eq_some_iff, valid, Option.some.injEq]
    | none => simp [← decodeUtf8_eq_some_iff, valid]
  · have contains : (escapeQuote locale name).contains '\\' = false := by
      simpa using backslash
    rw [splitTarEscapes_of_not_mem backslash] at bytesEq
    have listedBytes : utf8Bytes (escapeQuote locale name) = nameBytes name := by
      simpa [partsBytes] using bytesEq
    simp only [contains, Bool.false_eq_true, not_false_eq_true, if_true, Except.ok.injEq]
    constructor
    · intro same
      rw [← same, listedBytes]
    · intro same
      exact utf8Bytes_injective (listedBytes.trans same.symm)

/-! ### Cutting a printed name -/

/-- The characters of which escape sequences are made. -/
def escapeCharacters : Text := text "\\abfnrtv01234567"

theorem octalByte_characters (byte : UInt8) :
    ∃ digits, octalByte byte = '\\' :: digits ∧ ∀ char ∈ digits, char ∈ escapeCharacters := by
  have every : (List.range 256).all (fun value =>
      (octalByte (UInt8.ofNat value)).tail.all fun char =>
        escapeCharacters.contains char) = true := by
    decide +kernel
  have here := List.all_eq_true.1 every byte.toNat (List.mem_range.2 byte.toNat_lt)
  rw [UInt8.ofNat_toNat] at here
  exact ⟨_, rfl, fun char member =>
    List.contains_iff_mem.1 (List.all_eq_true.1 here char member)⟩

theorem letter_characters {char letter : Char}
    (isLetter : GNU_LETTERS.lookup char = some letter) : letter ∈ escapeCharacters := by
  have every : ∀ pair ∈ GNU_LETTERS, pair.2 ∈ escapeCharacters := by decide
  obtain ⟨front, back, lettersEq, _⟩ := List.lookup_eq_some_iff.1 isLetter
  exact every (char, letter) (by rw [lettersEq]; simp)

/-- A unit is printed as its own character, or as escapes. -/
theorem escapeUnit_cases (locale : TarLocale) (unit : NameUnit) :
    (∃ char, unit = .char char ∧ char ≠ '\\' ∧ locale.printable char = true ∧
        escapeUnit locale unit = [char]) ∨
      ∃ escapes, escapeUnit locale unit = '\\' :: escapes ∧
        ∀ char ∈ escapes, char ∈ escapeCharacters := by
  cases unit with
  | byte byte =>
    right
    exact octalByte_characters byte
  | char char =>
    rw [escapeUnit]
    cases isLetter : GNU_LETTERS.lookup char with
    | some letter =>
      right
      refine ⟨[letter], rfl, fun other member => ?_⟩
      obtain rfl := List.mem_singleton.1 member
      exact letter_characters isLetter
    | none =>
      by_cases printable : locale.printable char = true
      · left
        refine ⟨char, rfl, ?_, printable, by simp only [printable, if_true]⟩
        rintro rfl
        cases isLetter
      · right
        obtain ⟨first, others, encoded⟩ := List.exists_cons_of_ne_nil
          (@String.utf8EncodeChar_ne_nil char)
        obtain ⟨digits, octalEq, inEscape⟩ := octalByte_characters first
        simp only [printable, encoded, List.flatMap_cons, octalEq, List.cons_append]
        refine ⟨_, rfl, fun other member => ?_⟩
        rcases List.mem_append.1 member with inFirst | inOthers
        · exact inEscape other inFirst
        · obtain ⟨byte, _, inByte⟩ := List.mem_flatMap.1 inOthers
          obtain ⟨byteDigits, byteEq, byteEscape⟩ := octalByte_characters byte
          rw [byteEq] at inByte
          rcases List.mem_cons.1 inByte with rfl | inDigits
          · decide
          · exact byteEscape other inDigits

/-- A printed name that starts with no escape starts with a character of the
name. -/
theorem escapeQuote_uncons {locale : TarLocale} {name : TarName} {char : Char} {rest : Text}
    (notBackslash : char ≠ '\\') (listed : escapeQuote locale name = char :: rest) :
    ∃ after, name = .char char :: after ∧ rest = escapeQuote locale after ∧
      locale.printable char = true := by
  cases name with
  | nil => cases listed
  | cons unit name =>
    rw [escapeQuote_cons] at listed
    rcases escapeUnit_cases locale unit with
      ⟨raw, rfl, _, printable, unitEq⟩ | ⟨escapes, unitEq, _⟩
    · rw [unitEq] at listed
      obtain ⟨rfl, rfl⟩ := List.cons_eq_cons.1 listed
      exact ⟨name, rfl, rfl, printable⟩
    · rw [unitEq] at listed
      exact absurd (List.cons_eq_cons.1 listed).1.symm notBackslash

/-- A character that stands in no escape was printed for a character of the
name. -/
theorem escapeQuote_cut {locale : TarLocale} {name : TarName} {char : Char}
    {front rest : Text} (notEscape : char ∉ '\\' :: escapeCharacters)
    (listed : escapeQuote locale name = front ++ char :: rest) :
    ∃ before after, name = before ++ .char char :: after ∧
      front = escapeQuote locale before ∧ rest = escapeQuote locale after := by
  obtain ⟨notBackslash, notInEscape⟩ := not_or.1 (mt List.mem_cons.2 notEscape)
  induction name generalizing front with
  | nil => simp [escapeQuote] at listed
  | cons unit name ih =>
    cases front with
    | nil =>
      obtain ⟨after, nameEq, restEq, _⟩ := escapeQuote_uncons notBackslash listed
      exact ⟨[], after, nameEq, rfl, restEq⟩
    | cons head front =>
      rw [escapeQuote_cons] at listed
      have below : ∃ inner, head :: front = escapeUnit locale unit ++ inner ∧
          escapeQuote locale name = inner ++ char :: rest := by
        rcases List.append_eq_append_iff.1 listed with
          ⟨inner, frontEq, nameEq⟩ | ⟨shared, unitEq, tailEq⟩
        · exact ⟨inner, frontEq, nameEq⟩
        · cases shared with
          | nil => exact ⟨[], by simpa using unitEq.symm, by simpa using tailEq.symm⟩
          | cons first others =>
            -- the character would stand inside the print of one unit
            obtain ⟨rfl, _⟩ := List.cons_eq_cons.1 tailEq
            rcases escapeUnit_cases locale unit with
              ⟨raw, _, _, _, rawEq⟩ | ⟨escapes, escapeEq, inEscape⟩
            · rw [rawEq] at unitEq
              simp at unitEq
            · rw [escapeEq, List.cons_append] at unitEq
              obtain ⟨_, escapesEq⟩ := List.cons_eq_cons.1 unitEq
              exact absurd (inEscape char (by rw [escapesEq]; simp)) notInEscape
      obtain ⟨inner, frontEq, nameEq⟩ := below
      obtain ⟨before, after, rfl, rfl, restEq⟩ := ih nameEq
      exact ⟨unit :: before, after, rfl, by rw [frontEq, escapeQuote_cons], restEq⟩

/-- A word without a backslash at the start of a printed name stands there in
the name. -/
theorem escapeQuote_prefix {locale : TarLocale} {name : TarName} {word rest : Text}
    (noBackslash : '\\' ∉ word) (listed : escapeQuote locale name = word ++ rest) :
    ∃ after, name = word.map .char ++ after ∧ rest = escapeQuote locale after := by
  induction word generalizing name with
  | nil => exact ⟨name, rfl, listed.symm⟩
  | cons char word ih =>
    obtain ⟨notHere, notInWord⟩ := not_or.1 (mt List.mem_cons.2 noBackslash)
    obtain ⟨middle, rfl, restEq, _⟩ := escapeQuote_uncons (Ne.symm notHere) listed
    obtain ⟨after, rfl, rfl⟩ := ih notInWord restEq.symm
    exact ⟨after, rfl, rfl⟩

/-- A word that starts with a blank and holds no backslash was printed for that
word in the name. -/
theorem escapeQuote_cut_word {locale : TarLocale} {name : TarName} {word front back : Text}
    (blank : ∃ tail, word = ' ' :: tail) (noBackslash : '\\' ∉ word)
    (listed : escapeQuote locale name = front ++ (word ++ back)) :
    ∃ before after, name = before ++ (word.map .char ++ after) ∧
      front = escapeQuote locale before ∧ back = escapeQuote locale after := by
  obtain ⟨tail, rfl⟩ := blank
  obtain ⟨before, middle, rfl, frontEq, middleEq⟩ := escapeQuote_cut (by decide) listed
  have notInTail : '\\' ∉ tail := fun member => noBackslash (List.mem_cons_of_mem _ member)
  obtain ⟨after, rfl, backEq⟩ := escapeQuote_prefix notInTail middleEq.symm
  exact ⟨before, after, rfl, frontEq, backEq⟩

/-- White space in front of a printed name is printed for characters of the
name. -/
theorem escapeQuote_dropWhile {locale : TarLocale} (name : TarName) :
    ∃ blanks rest, name = blanks.map .char ++ rest ∧
      (∀ char ∈ blanks, isJsSpace char = true ∧ locale.printable char = true) ∧
      (escapeQuote locale name).takeWhile isJsSpace = blanks ∧
      (escapeQuote locale name).dropWhile isJsSpace = escapeQuote locale rest := by
  induction name with
  | nil => exact ⟨[], [], rfl, fun _ member => absurd member List.not_mem_nil, rfl, rfl⟩
  | cons unit name ih =>
    rw [escapeQuote_cons]
    rcases escapeUnit_cases locale unit with
      ⟨raw, rfl, _, printable, unitEq⟩ | ⟨escapes, unitEq, _⟩
    · rw [unitEq, List.singleton_append]
      cases isSpace : isJsSpace raw with
      | true =>
        obtain ⟨blanks, rest, nameEq, areBlank, taken, dropped⟩ := ih
        refine ⟨raw :: blanks, rest, by rw [nameEq]; rfl, fun char member => ?_, ?_, ?_⟩
        · rcases List.mem_cons.1 member with rfl | inBlanks
          · exact ⟨isSpace, printable⟩
          · exact areBlank char inBlanks
        · rw [List.takeWhile_cons_of_pos isSpace, taken]
        · rw [List.dropWhile_cons_of_pos isSpace, dropped]
      | false =>
        have negative : ¬ isJsSpace raw = true := by simp [isSpace]
        refine ⟨[], .char raw :: name, rfl, fun _ member => absurd member List.not_mem_nil, ?_, ?_⟩
        · rw [List.takeWhile_cons_of_neg negative]
        · rw [List.dropWhile_cons_of_neg negative, escapeQuote_cons, unitEq, List.singleton_append]
    · rw [unitEq, List.cons_append]
      have negative : ¬ isJsSpace '\\' = true := by decide
      refine ⟨[], unit :: name, rfl, fun _ member => absurd member List.not_mem_nil, ?_, ?_⟩
      · rw [List.takeWhile_cons_of_neg negative]
      · rw [List.dropWhile_cons_of_neg negative, escapeQuote_cons, unitEq, List.cons_append]

/-- Printed names hold no control character and no line terminator. -/
theorem escapeQuote_clean {locale : TarLocale} {name : TarName} {char : Char}
    (member : char ∈ escapeQuote locale name) :
    0x20 ≤ char.toNat ∧ isLineTerminator char = false := by
  obtain ⟨unit, _, inUnit⟩ := List.mem_flatMap.1 member
  rcases escapeUnit_cases locale unit with
    ⟨raw, _, _, printable, unitEq⟩ | ⟨escapes, unitEq, inEscape⟩
  · rw [unitEq] at inUnit
    obtain rfl := List.mem_singleton.1 inUnit
    have noControl : ¬ char.toNat < 0x20 := by
      intro control
      rw [locale.noControl char control] at printable
      cases printable
    have noSeparator : ¬ (char.toNat = 0x2028 ∨ char.toNat = 0x2029) := by
      intro separator
      rw [locale.noLineSeparator char separator] at printable
      cases printable
    constructor
    · exact Nat.le_of_not_lt noControl
    · simp only [isLineTerminator, Bool.or_eq_false_iff, decide_eq_false_iff_not]
      omega
  · have everyEscape : ('\\' :: escapeCharacters).all (fun char =>
        0x20 ≤ char.toNat && !isLineTerminator char) = true := by
      decide
    rw [unitEq] at inUnit
    have here := List.all_eq_true.1 everyEscape char
    simp only [Bool.and_eq_true, decide_eq_true_eq, Bool.not_eq_true'] at here
    apply here
    rcases List.mem_cons.1 inUnit with rfl | inEscapes
    · exact List.mem_cons_self
    · exact List.mem_cons_of_mem _ (inEscape char inEscapes)

/-- Printable ASCII without the backslash is printed as it is. -/
theorem escapeUnit_plain (locale : TarLocale) {char : Char}
    (plain : 0x20 ≤ char.toNat ∧ char.toNat < 0x7f ∧ char ≠ '\\') :
    escapeUnit locale (.char char) = [char] := by
  obtain ⟨low, high, notBackslash⟩ := plain
  have noLetter : GNU_LETTERS.lookup char = none := by
    rw [List.lookup_eq_none_iff]
    intro pair member
    rw [bne_iff_ne]
    have others : ∀ pair ∈ GNU_LETTERS, pair.1 = '\\' ∨ pair.1.toNat < 0x20 := by
      decide
    rintro rfl
    rcases others pair member with isBackslash | control
    · exact notBackslash isBackslash
    · omega
  simp only [escapeUnit, noLetter, locale.ascii char low high, if_true]

theorem escapeQuote_word (locale : TarLocale) {word : Text}
    (plain : ∀ char ∈ word, 0x20 ≤ char.toNat ∧ char.toNat < 0x7f ∧ char ≠ '\\') :
    escapeQuote locale (word.map .char) = word := by
  induction word with
  | nil => rfl
  | cons char word ih =>
    rw [List.map_cons, escapeQuote_cons,
      escapeUnit_plain locale (plain char List.mem_cons_self),
      ih fun other member => plain other (List.mem_cons_of_mem _ member),
      List.singleton_append]

/-! ### Names that are texts -/

/-- The bytes of the name are valid UTF-8. -/
def IsText (name : TarName) : Prop := ∃ decoded, utf8Bytes decoded = nameBytes name

theorem decodeTarListingName_isText {locale : TarLocale} {name : TarName} :
    (∃ decoded, decodeTarListingName (escapeQuote locale name) = .ok decoded) ↔
      IsText name := by
  simp only [decodeTarListingName_escapeQuote, IsText]

theorem IsText.append {first second : TarName} (firstText : IsText first)
    (secondText : IsText second) : IsText (first ++ second) := by
  obtain ⟨firstDecoded, firstEq⟩ := firstText
  obtain ⟨secondDecoded, secondEq⟩ := secondText
  exact ⟨firstDecoded ++ secondDecoded, by simp [firstEq, secondEq]⟩

theorem nameBytes_chars (word : Text) : nameBytes (word.map .char) = utf8Bytes word := by
  rw [nameBytes, List.flatMap_map]
  rfl

theorem isText_chars (word : Text) : IsText (word.map .char) := ⟨word, (nameBytes_chars word).symm⟩

theorem IsText.cut_char {before after : TarName} {char : Char} (ascii : char.toNat < 0x7f)
    (isText : IsText (before ++ .char char :: after)) : IsText before ∧ IsText after := by
  obtain ⟨decoded, bytesEq⟩ := isText
  rw [nameBytes_append, nameBytes_cons, NameUnit.bytes,
    utf8EncodeChar_of_ascii (by omega), List.singleton_append] at bytesEq
  have small : (UInt8.ofNat char.toNat).toNat < 0x80 := by
    rw [UInt8.toNat_ofNat']
    omega
  obtain ⟨front, _, back, _, frontEq, _, backEq⟩ := utf8Bytes_cut small bytesEq
  exact ⟨⟨front, frontEq⟩, ⟨back, backEq⟩⟩

/-- A text can be cut at a word of ASCII characters. -/
theorem IsText.cut_word {before after : TarName} {word : Text} (nonempty : word ≠ [])
    (ascii : ∀ char ∈ word, char.toNat < 0x7f)
    (isText : IsText (before ++ (word.map .char ++ after))) :
    IsText before ∧ IsText after := by
  induction word generalizing before with
  | nil => exact absurd rfl nonempty
  | cons char word ih =>
    obtain ⟨beforeText, restText⟩ := isText.cut_char (ascii char List.mem_cons_self)
    refine ⟨beforeText, ?_⟩
    by_cases wordNil : word = []
    · simpa [wordNil] using restText
    · have wordText : IsText ([] ++ (word.map .char ++ after)) := restText
      exact (ih wordNil
        (fun other member => ascii other (List.mem_cons_of_mem _ member)) wordText).2

/-- Characters in front of a text are followed by a text. -/
theorem IsText.of_chars {chars : Text} {rest : TarName}
    (isText : IsText (chars.map .char ++ rest)) : IsText rest := by
  obtain ⟨decoded, bytesEq⟩ := isText
  rw [nameBytes_append, nameBytes_chars] at bytesEq
  obtain ⟨back, _, backEq⟩ := utf8Bytes_drop bytesEq
  exact ⟨back, backEq⟩

end Paratix.Archive
