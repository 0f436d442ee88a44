/-
Module: Paratix.Firewall.UfwRuleAgreement
Purpose: The two checks of a rule for a port, and when the check over an inactive firewall promises
  what the check over the active one finds.
Main exports: hasAddedUfwRule, inactive_promises_active_iff
-/
import Paratix.Firewall.Lockout
import Paratix.Foundation.AssocList
import Paratix.Foundation.LinePattern
import Mathlib

namespace Paratix.Firewall

open Foundation

/-! ### The checks -/

inductive UfwRuleAction where
  | allow
  | deny
deriving DecidableEq, Repr

def UfwRuleAction.text : UfwRuleAction → List Char
  | .allow => "allow".toList
  | .deny => "deny".toList

/-- `expectedAction` -/
def UfwRuleAction.expected : UfwRuleAction → Keyword
  | .allow => .ALLOW
  | .deny => .DENY

/-- `oppositeKeyword` -/
def UfwRuleAction.opposite : UfwRuleAction → Keyword
  | .allow => .DENY
  | .deny => .ALLOW

inductive CheckVerdict where
  | needsApply
  | ok
deriving DecidableEq, Repr

/-- `/\b${action}\s+${port}(?:\b|\/)/.test(output)` -/
def hasAddedUfwRule (output : List Char) (action : UfwRuleAction) (port : Nat) : Option Bool := do
  assertTcpPortForRegex port
  let command (ending : Piece) : List Piece :=
    [.literal action.text, .spaces, .literal (decimal port), ending]
  pure (wordTest (command .wordEnd) false output ||
    wordTest (command (.literal ['/'])) false output)

/-- What `readUfwShowAddedDetailed` returns; the detail of an unreadable list is only
shown to the operator. -/
inductive UfwShowAddedReadResult where
  | missing
  | unreadable
  | ok (output : List Char)

/-- `null | string | UfwShowAddedReadResult` -/
inductive AddedOutput where
  | null
  | raw (output : List Char)
  | tagged (result : UfwShowAddedReadResult)

def checkInactiveUfwRulePort (action : UfwRuleAction) (addedOutput : AddedOutput) (port : Nat) :
    Option CheckVerdict :=
  let verdict (output : List Char) : Option CheckVerdict :=
    (hasAddedUfwRule output action port).map fun added => if added then .ok else .needsApply
  match addedOutput with
  | .null => some .needsApply
  | .raw output => verdict output
  | .tagged .missing => some .needsApply
  | .tagged .unreadable => some .needsApply
  | .tagged (.ok output) => verdict output

/-- `if (condition) rulePorts.add(rulePort)` -/
def addIf (condition : Bool) (rulePort : List Char) (rulePorts : List (List Char)) :
    List (List Char) :=
  if condition then setAdd rulePorts rulePort else rulePorts

/-- The rules that `ufw delete` is asked to delete. -/
def tcpRelevantRuleDeletePorts (action : Keyword) (includeIpv6 : Bool) (port : Nat)
    (status : List Char) : Option (List (List Char)) := do
  let agnostic ← hasProtocolAgnosticRule status port action
  let agnosticIpv6 ← hasProtocolAgnosticIpv6Rule status port action
  let tcp ← hasTcpRule status port action
  let tcpIpv6 ← hasTcpIpv6Rule status port action
  pure <| addIf (includeIpv6 && tcpIpv6) (decimal port ++ TCP_SUFFIX) <|
    addIf tcp (decimal port ++ TCP_SUFFIX) <|
    addIf (includeIpv6 && agnosticIpv6) (decimal port) <| addIf agnostic (decimal port) []

def checkUfwRulePort (expectedAction oppositeKeyword : Keyword) (port : Nat)
    (requireIpv6Rule : Bool) (status : List Char) : Option CheckVerdict := do
  let agnostic ← hasProtocolAgnosticRule status port expectedAction
  if !agnostic then pure .needsApply
  else
    let agnosticIpv6 ← hasProtocolAgnosticIpv6Rule status port expectedAction
    if requireIpv6Rule && !agnosticIpv6 then pure .needsApply
    else
      let deletePorts ← tcpRelevantRuleDeletePorts oppositeKeyword requireIpv6Rule port status
      pure (if deletePorts.length > 0 then .needsApply else .ok)

/-! ### The rules of the user -/

inductive PortItem where
  | single (port : Nat)
  | range (first last : Nat)
deriving DecidableEq, Repr

/-- A port, a range, or a list of both. -/
structure PortList where
  first : PortItem
  others : List PortItem
deriving DecidableEq, Repr

/-- ufw prints a comment on the line of its rule. -/
structure Comment where
  text : List Char
  oneLine : ∀ char ∈ text, isLineTerminator char = false
deriving DecidableEq

/-- A rule for incoming connections from anywhere. -/
structure UserRule where
  action : RuleAction
  ports : PortList
  protocol : Option Protocol
  comment : Option Comment
deriving DecidableEq

def PortItem.text : PortItem → List Char
  | .single port => decimal port
  | .range first last => decimal first ++ ':' :: decimal last

def PortList.text (ports : PortList) : List Char :=
  ports.first.text ++ ports.others.flatMap fun item => ',' :: item.text

/-! ### What `ufw show added` prints -/

def RuleAction.command : RuleAction → List Char
  | .allow => "allow".toList
  | .deny => "deny".toList
  | .reject => "reject".toList
  | .limit => "limit".toList

def commentOption : Option Comment → List Char
  | none => []
  | some comment => " comment '".toList ++ (comment.text ++ ['\''])

/-- The command that adds the rule. -/
def addedLine (rule : UserRule) : Line :=
  "ufw ".toList ++ (rule.action.command ++ (' ' :: (rule.ports.text ++
    (protocolText rule.protocol ++ commentOption rule.comment))))

def ADDED_HEADER : Line := "Added user rules (see 'ufw status' for running firewall):".toList

def addedText (rules : List UserRule) : List Char :=
  joinLines (ADDED_HEADER :: if rules = [] then ["(None)".toList] else rules.map addedLine)

/-! ### What `ufw status` prints -/

/-- The rule of one address family. -/
def familyRule (ipv6 : Bool) (rule : UserRule) : Rule where
  action := rule.action
  direction := .incoming
  port := 0
  protocol := rule.protocol
  source := if ipv6 then .ipv6 none else .ipv4 none

def userToColumn (ipv6 : Bool) (rule : UserRule) : List Char :=
  rule.ports.text ++ (protocolText rule.protocol ++ ipv6MarkOf ipv6)

def userFromColumn (ipv6 : Bool) : List Char :=
  if ipv6 then "Anywhere (v6)".toList else "Anywhere".toList

def FROM_COLUMN_WIDTH : Nat := 26

def commentColumn (ipv6 : Bool) : Option Comment → List Char
  | none => []
  | some comment =>
      columnGap FROM_COLUMN_WIDTH (userFromColumn ipv6) ++ ('#' :: ' ' :: comment.text)

def userRuleLine (ipv6 : Bool) (rule : UserRule) : Line :=
  userToColumn ipv6 rule ++ (columnGap TO_COLUMN_WIDTH (userToColumn ipv6 rule) ++
    (rule.action.text ++ (columnGap ACTION_COLUMN_WIDTH rule.action.text ++
      (userFromColumn ipv6 ++ commentColumn ipv6 rule.comment))))

/-- The status of an active firewall, with or without IPv6. -/
def userStatusText (ipv6 : Bool) (rules : List UserRule) : List Char :=
  joinLines <|
    if rules = [] then [ACTIVE_MARK]
    else headerLines ++ (rules.map (userRuleLine false) ++
      if ipv6 then rules.map (userRuleLine true) else [])

variable {rules : List UserRule} {rule : UserRule} {action : UfwRuleAction} {port : Nat}

def UfwRuleAction.ruleAction : UfwRuleAction → RuleAction
  | .allow => .allow
  | .deny => .deny

/-- The number that the text of the ports starts with. -/
def PortItem.start : PortItem → Nat
  | .single port => port
  | .range first _ => first

/-- The text of a comment reads like the command. -/
def Comment.quotes (action : UfwRuleAction) (port : Nat) (comment : Comment) : Bool :=
  wordTest (pairPattern action.text port) false comment.text

/-- The rule has the action and its ports start with the port, or its comment says so. -/
def UserRule.names (action : UfwRuleAction) (port : Nat) (rule : UserRule) : Bool :=
  (decide (rule.action = action.ruleAction) && decide (rule.ports.first.start = port)) ||
    rule.comment.any (Comment.quotes action port)

/-! ### The commands -/

theorem text_isWord (action : UfwRuleAction) :
    ∀ char ∈ action.text, isJsWordCharacter char = true := by
  cases action <;> exact forall_mem_of_all (by decide)

theorem text_ne_nil (action : UfwRuleAction) : action.text ≠ [] := by
  cases action <;> exact List.cons_ne_nil _ _

/-- The text of the ports is one number, or a number before a colon or a comma. -/
theorem portsText_split (ports : PortList) :
    ∃ rest, ports.text = decimal ports.first.start ++ rest ∧
      (rest = [] ∧ ports = ⟨.single ports.first.start, []⟩ ∨
        ∃ head more, rest = head :: more ∧ (head = ':' ∨ head = ',') ∧
          ∀ port, ports ≠ ⟨.single port, []⟩) := by
  obtain ⟨first, others⟩ := ports
  cases first with
  | single port =>
    refine ⟨others.flatMap fun item => ',' :: item.text, rfl, ?_⟩
    cases others with
    | nil => exact .inl ⟨rfl, rfl⟩
    | cons item others => exact .inr ⟨',', _, rfl, .inr rfl, fun _ same => by cases same⟩
  | range first last =>
    refine ⟨':' :: (decimal last ++ others.flatMap fun item => ',' :: item.text), ?_,
      .inr ⟨':', _, rfl, .inl rfl, fun _ same => by cases same⟩⟩
    simp only [PortList.text, PortItem.text, PortItem.start, List.append_assoc, List.cons_append]

theorem portsText_characters (ports : PortList) :
    ∀ char ∈ ports.text, char.isDigit = true ∨ char = ':' ∨ char = ',' := by
  have item (item : PortItem) :
      ∀ char ∈ item.text, char.isDigit = true ∨ char = ':' ∨ char = ',' := by
    intro char mem
    cases item with
    | single port => exact .inl (isDigit_of_mem_decimal mem)
    | range first last =>
      rcases List.mem_append.1 mem with inFirst | inLast
      · exact .inl (isDigit_of_mem_decimal inFirst)
      · rcases List.mem_cons.1 inLast with rfl | inLast
        · exact .inr (.inl rfl)
        · exact .inl (isDigit_of_mem_decimal inLast)
  intro char mem
  rcases List.mem_append.1 mem with inFirst | inOthers
  · exact item _ char inFirst
  · obtain ⟨other, _, inOther⟩ := List.mem_flatMap.1 inOthers
    rcases List.mem_cons.1 inOther with rfl | inItem
    · exact .inr (.inr rfl)
    · exact item _ char inItem

/-- What follows the ports in a command, up to the comment. -/
def commandTail (commented : Bool) : List Char := if commented then " comment ".toList else []

/-- Behind the action there is no other one. -/
theorem wordTest_ports (action : UfwRuleAction) (port : Nat) (afterWord : Bool) (rule : UserRule)
    (commented : Bool) : wordTest (pairPattern action.text port) afterWord
      (rule.ports.text ++ (protocolText rule.protocol ++ commandTail commented)) = false := by
  have others : ∀ char ∈ rule.ports.text, action.text.head? ≠ some char := by
    intro char mem isHead
    rcases portsText_characters rule.ports char mem with isDigit | rfl | rfl
    · cases action <;> cases isHead <;> cases isDigit
    · cases action <;> cases isHead
    · cases action <;> cases isHead
  obtain ⟨later, same⟩ := @wordTest_skip _ port (text_ne_nil action) _ others afterWord
    (protocolText rule.protocol ++ commandTail commented)
  rw [same]
  generalize rule.protocol = protocol
  cases later <;> cases commented <;> cases action <;> rcases protocol with _ | _ | _ <;> rfl

theorem matchHere_ports (rule : UserRule) (commented : Bool) :
    matchHere [.spaces, .literal (decimal port), .wordEnd]
        (' ' :: (rule.ports.text ++ (protocolText rule.protocol ++ commandTail commented))) =
      decide (rule.ports.first.start = port) := by
  obtain ⟨rest, isText, ending⟩ := portsText_split rule.ports
  have ends : endsWord (rest ++ (protocolText rule.protocol ++ commandTail commented)) = true := by
    rcases ending with ⟨rfl, _⟩ | ⟨head, more, rfl, rfl | rfl, _⟩
    · generalize rule.protocol = protocol
      rcases protocol with _ | _ | _ <;> cases commented <;> rfl
    · rfl
    · rfl
  obtain ⟨digit, digits, isDecimal, isDigit⟩ := exists_digit_of_decimal rule.ports.first.start
  have number := @matchHere_number port rule.ports.first.start _ ends
  rw [isText, List.append_assoc]
  rw [isDecimal, List.cons_append] at number ⊢
  have blank : ∀ char ∈ [' '], isJsSpace char = true := List.forall_mem_singleton.2 rfl
  have gap := @matchHere_spaces [.literal (decimal port), .wordEnd] [' ']
    (digits ++ (rest ++ (protocolText rule.protocol ++ commandTail commented))) digit
    (List.cons_ne_nil _ _) blank (isJsSpace_of_isDigit isDigit)
  have refuses (char : Char) (others : List Char) (isSpace : isJsSpace char = true) :
      matchHere [.literal (decimal port), .wordEnd] (char :: others) = false := by
    obtain ⟨first, more, isPort, isFirst⟩ := exists_digit_of_decimal port
    have different : first ≠ char := by
      rintro rfl
      rw [isJsSpace_of_isDigit isFirst] at isSpace
      cases isSpace
    simp [matchHere, isPort, List.isPrefixOf, different]
  have matched := (gap refuses).trans number
  rw [List.singleton_append] at matched
  rw [matched, decide_eq_decide]
  exact eq_comm

/-- Up to its comment a command has one action. -/
theorem wordTest_command (action : UfwRuleAction) (port : Nat) (rule : UserRule)
    (commented : Bool) : wordTest (pairPattern action.text port) false
        ("ufw ".toList ++ (rule.action.command ++ (' ' :: (rule.ports.text ++
          (protocolText rule.protocol ++ commandTail commented))))) =
      (decide (rule.action = action.ruleAction) && decide (rule.ports.first.start = port)) := by
  have ports := wordTest_ports action port false rule commented
  have here := @matchHere_ports port rule commented
  generalize rule.ports.text ++ (protocolText rule.protocol ++ commandTail commented) = text
    at ports here ⊢
  have steps : wordTest (pairPattern action.text port) false
      ("ufw ".toList ++ (rule.action.command ++ (' ' :: text))) =
      ((decide (rule.action = action.ruleAction) &&
        matchHere [.spaces, .literal (decimal port), .wordEnd] (' ' :: text)) ||
          wordTest (pairPattern action.text port) false text) := by
    cases action <;> cases rule.action <;> rfl
  rw [steps, ports, here, Bool.or_false]

/-- A command is found exactly if its rule names the action and the port. -/
theorem wordTest_addedLine (action : UfwRuleAction) (port : Nat) (rule : UserRule) :
    wordTest (pairPattern action.text port) false (addedLine rule) =
      rule.names action port := by
  rw [UserRule.names, addedLine]
  cases isComment : rule.comment with
  | none =>
    rw [Option.any_none, Bool.or_false, ← wordTest_command action port rule false]
    rfl
  | some comment =>
    have quote (back : List Char) : Cuts '\'' back := ⟨rfl, nofun⟩
    have opened : "ufw ".toList ++ (rule.action.command ++ (' ' :: (rule.ports.text ++
          (protocolText rule.protocol ++ commentOption (some comment))))) =
        "ufw ".toList ++ (rule.action.command ++ (' ' :: (rule.ports.text ++
          (protocolText rule.protocol ++ commandTail true)))) ++
          '\'' :: (comment.text ++ '\'' :: []) := by
      have option : commentOption (some comment) =
        commandTail true ++ '\'' :: (comment.text ++ ['\'']) := rfl
      rw [option]
      simp only [List.append_assoc, List.cons_append]
    rw [opened, wordTest_cut (text_isWord action) (quote _), wordTest_command,
      wordTest_cut (text_isWord action) (quote _), Option.any_some]
    have nothing : wordTest (pairPattern action.text port) false [] = false :=
      matchHere_empty (text_ne_nil action)
    rw [nothing, Bool.or_false]
    rfl

/-- The list of the added rules is searched line by line. -/
theorem wordTest_addedText (action : UfwRuleAction) (port : Nat) (rules : List UserRule) :
    wordTest (pairPattern action.text port) false (addedText rules) =
      rules.any (UserRule.names action port) := by
  have header : wordTest (pairPattern action.text port) false ADDED_HEADER = false := by
    cases action <;> rfl
  have none_ : wordTest (pairPattern action.text port) false "(None)".toList = false := by
    cases action <;> rfl
  have starts : ∀ line ∈ ADDED_HEADER :: if rules = [] then ["(None)".toList]
      else rules.map addedLine, LineStarts line := by
    rw [List.forall_mem_cons]
    refine ⟨⟨'A', _, rfl, rfl, rfl⟩, ?_⟩
    split
    · exact List.forall_mem_singleton.2 ⟨'(', _, rfl, rfl, rfl⟩
    · intro line mem
      obtain ⟨rule, _, rfl⟩ := List.mem_map.1 mem
      exact ⟨'u', _, rfl, rfl, rfl⟩
  rw [addedText, wordTest_joinLines (text_isWord action) (text_ne_nil action) starts,
    List.any_cons, header, Bool.false_or]
  split
  · next noRules => rw [noRules, List.any_cons, none_]; rfl
  · rw [List.any_map]
    congr 1
    funext rule
    exact wordTest_addedLine action port rule

theorem hasAddedUfwRule_eq (valid : assertTcpPortForRegex port = some ()) (output : List Char)
    (action : UfwRuleAction) : hasAddedUfwRule output action port =
      some (wordTest (pairPattern action.text port) false output) := by
  have slash : wordTest [.literal action.text, .spaces, .literal (decimal port), .literal ['/']]
      false output = true → wordTest (pairPattern action.text port) false output = true := by
    apply wordTest_mono
    intro text matched
    obtain ⟨behindKeyword, rfl, gapped⟩ := matchHere_literal_iff.1 matched
    obtain ⟨gap, behindGap, rfl, nonempty, spaces, numbered⟩ := matchSpaces_iff.1 gapped
    obtain ⟨behindNumber, rfl, slashed⟩ := matchHere_literal_iff.1 numbered
    obtain ⟨rest, rfl, _⟩ := matchHere_literal_iff.1 slashed
    exact matchHere_pair_iff.2 ⟨gap, _, rfl, nonempty, spaces, rfl⟩
  have either : (wordTest (pairPattern action.text port) false output || wordTest
      [.literal action.text, .spaces, .literal (decimal port), .literal ['/']] false output) =
      wordTest (pairPattern action.text port) false output := by
    rw [Bool.eq_iff_iff, Bool.or_eq_true, or_iff_left_of_imp slash]
  simp only [hasAddedUfwRule, valid, Option.bind_eq_bind, Option.bind_some, Option.pure_def]
  rw [← either]
  rfl

theorem checkInactiveUfwRulePort_addedText (valid : assertTcpPortForRegex port = some ()) :
    checkInactiveUfwRulePort action (.tagged (.ok (addedText rules))) port = some .ok ↔
      ∃ rule ∈ rules, rule.names action port = true := by
  change (hasAddedUfwRule (addedText rules) action port).map _ = _ ↔ _
  rw [hasAddedUfwRule_eq valid, wordTest_addedText, ← List.any_eq_true]
  cases rules.any (UserRule.names action port) <;> decide

/-! ### The lines of the status -/

/-- The rule is one for exactly this port, with the protocol of the suffix. -/
def UserRule.isFor (suffix : List Char) (port : Nat) (action : Keyword) (rule : UserRule) :
    Bool :=
  decide (rule.ports = ⟨.single port, []⟩) &&
    (decide (protocolText rule.protocol = suffix) && decide (rule.action = action.ruleAction))

/-- Ranges and lists are not matched. -/
theorem matchHere_suffix_refuses {suffix : List Char}
    (isSuffix : suffix = [] ∨ suffix = TCP_SUFFIX) (pieces : List Piece) {head : Char}
    (separates : head = ':' ∨ head = ',') (rest : List Char) :
    matchHere (.literal suffix :: .spaces :: pieces) (head :: rest) = false := by
  rcases isSuffix with rfl | rfl
  · rcases separates with rfl | rfl <;> rfl
  · rcases separates with rfl | rfl <;> rfl

/-- A pattern matches exactly the line of a rule that it describes. -/
theorem matchHere_userRuleLine {suffix : List Char}
    (isSuffix : suffix = [] ∨ suffix = TCP_SUFFIX) (family ipv6 : Bool) (action : Keyword)
    (port : Nat) (rule : UserRule) (tail : List Char) :
    matchHere (rulePattern suffix family port action) (userRuleLine ipv6 rule ++ tail) =
      (rule.isFor suffix port action && decide (ipv6 = family)) := by
  let lastGap := List.replicate (ACTION_COLUMN_WIDTH - rule.action.text.length) ' '
  let rest := lastGap ++ (userFromColumn ipv6 ++ (commentColumn ipv6 rule.comment ++ tail))
  let marked := ipv6MarkOf ipv6 ++ (columnGap TO_COLUMN_WIDTH (userToColumn ipv6 rule) ++
    (rule.action.text ++ ' ' :: rest))
  obtain ⟨ending, isText, shape⟩ := portsText_split rule.ports
  have split : userRuleLine ipv6 rule ++ tail =
      decimal rule.ports.first.start ++ (ending ++ (protocolText rule.protocol ++ marked)) := by
    have gap : columnGap ACTION_COLUMN_WIDTH rule.action.text = ' ' :: lastGap := rfl
    simp only [userRuleLine, gap, marked, rest, userToColumn, isText, List.append_assoc,
      List.cons_append]
  have blank : marked.head? = some ' ' := by
    change (ipv6MarkOf ipv6 ++ _).head? = some ' '
    cases ipv6 <;> rfl
  have pattern : rulePattern suffix family port action =
      .literal (decimal port ++ suffix) :: .spaces :: afterPort family action := rfl
  have refuses := matchHere_suffix_refuses_digit isSuffix (afterPort family action)
  rw [split, pattern, matchHere_literal_append, UserRule.isFor]
  rcases shape with ⟨rfl, isSingle⟩ | ⟨head, more, rfl, separates, notSingle⟩
  · have starts : ∃ head more, protocolText rule.protocol ++ marked = head :: more ∧
        head.isDigit = false := by
      obtain ⟨more, isMarked⟩ := List.head?_eq_some_iff.1 blank
      rw [isMarked]
      rcases rule.protocol with _ | _ | _ <;> exact ⟨_, _, rfl, rfl⟩
    obtain ⟨head, more, isRest, notDigit⟩ := starts
    have isSource : (familyRule ipv6 rule).source.isIpv6 = ipv6 := by cases ipv6 <;> rfl
    have isAction : actionColumn (familyRule ipv6 rule) = rule.action.text := List.append_nil _
    have afterMark := matchHere_afterPort family action (familyRule ipv6 rule)
      (columnGap_ne_nil TO_COLUMN_WIDTH (userToColumn ipv6 rule)) columnGap_space rest
    rw [isSource, isAction] at afterMark
    have samePort : decide (rule.ports = ⟨.single port, []⟩) =
        decide (port = rule.ports.first.start) := by
      rw [decide_eq_decide]
      constructor
      · intro same
        rw [same]
        rfl
      · intro same
        rw [isSingle, ← same]
    rw [List.nil_append, isRest, matchHere_decimal notDigit refuses, ← isRest,
      matchHere_suffix isSuffix _ _ blank, samePort, afterMark, Bool.and_assoc, Bool.and_assoc]
    congr 2
    exact Bool.and_comm _ _
  · have notDigit : head.isDigit = false := by
      rcases separates with rfl | rfl <;> rfl
    rw [List.cons_append, matchHere_decimal notDigit refuses,
      matchHere_suffix_refuses isSuffix _ separates, Bool.and_false,
      decide_eq_false (notSingle port), Bool.false_and, Bool.false_and]

theorem userRuleLine_oneLine (ipv6 : Bool) (rule : UserRule) :
    ∀ char ∈ userRuleLine ipv6 rule, isLineTerminator char = false := by
  have blank {width : Nat} {text : List Char} {char : Char}
      (mem : char ∈ columnGap width text) : isLineTerminator char = false := by
    rw [(List.mem_replicate.1 mem).2]
    rfl
  have digit {char : Char} (isDigit : char.isDigit = true) : isLineTerminator char = false := by
    cases isEnd : isLineTerminator char with
    | false => rfl
    | true =>
      have bounds : 48 ≤ char.toNat ∧ char.toNat ≤ 57 := by
        simpa [Char.isDigit, UInt32.le_iff_toNat_le] using isDigit
      simp only [isLineTerminator, Bool.or_eq_true, decide_eq_true_eq] at isEnd
      omega
  have fromColumn : ∀ char ∈ userFromColumn ipv6, isLineTerminator char = false := by
    cases ipv6 <;> exact forall_mem_of_all (by decide)
  intro char mem
  simp only [userRuleLine, userToColumn, List.mem_append] at mem
  rcases mem with (inPorts | inProtocol | inMark) | inGap | inAction | inGap | inFrom | inComment
  · rcases portsText_characters rule.ports char inPorts with isDigit | rfl | rfl
    · exact digit isDigit
    · rfl
    · rfl
  · revert char
    generalize rule.protocol = protocol
    rcases protocol with _ | _ | _ <;> exact forall_mem_of_all (by decide)
  · revert char
    cases ipv6 <;> exact forall_mem_of_all (by decide)
  · exact blank inGap
  · revert char
    cases rule.action <;> exact forall_mem_of_all (by decide)
  · exact blank inGap
  · exact fromColumn char inFrom
  · cases isComment : rule.comment with
    | none =>
      rw [isComment] at inComment
      cases inComment
    | some comment =>
      rw [isComment, commentColumn, List.mem_append, List.mem_cons, List.mem_cons] at inComment
      rcases inComment with inGap | rfl | rfl | inText
      · exact blank inGap
      · rfl
      · rfl
      · exact comment.oneLine char inText

/-- A pattern finds a line exactly if a rule is the one it describes, and for the lines of
IPv6 if there are any. -/
theorem multilineTest_userStatusText {suffix : List Char}
    (isSuffix : suffix = [] ∨ suffix = TCP_SUFFIX) (family ipv6 : Bool) (action : Keyword)
    (port : Nat) (rules : List UserRule) :
    multilineTest (rulePattern suffix family port action) (userStatusText ipv6 rules) =
      ((!family || ipv6) && rules.any (UserRule.isFor suffix port action)) := by
  rw [userStatusText]
  by_cases noRules : rules = []
  · subst noRules
    rw [if_pos rfl, multilineTest_active, List.any_nil, Bool.and_false]
  · have alone (ipv6 : Bool) (rule : UserRule) (tail : List Char) :=
      matchHere_userRuleLine isSuffix family ipv6 action port rule tail
    have isRule {line : Line} (mem : line ∈ rules.map (userRuleLine false) ++
        if ipv6 then rules.map (userRuleLine true) else []) :
        ∃ ipv6 rule, line = userRuleLine ipv6 rule := by
      rcases List.mem_append.1 mem with inFirst | inSecond
      · obtain ⟨rule, _, rfl⟩ := List.mem_map.1 inFirst
        exact ⟨false, rule, rfl⟩
      · cases ipv6 with
        | false => cases inSecond
        | true =>
          obtain ⟨rule, _, rfl⟩ := List.mem_map.1 inSecond
          exact ⟨true, rule, rfl⟩
    have rows (ipv6 : Bool) : (rules.map (userRuleLine ipv6)).any
        (matchHere (rulePattern suffix family port action)) =
        (decide (ipv6 = family) && rules.any (UserRule.isFor suffix port action)) := by
      rw [List.any_map]
      have each : matchHere (rulePattern suffix family port action) ∘ userRuleLine ipv6 =
          fun rule => rule.isFor suffix port action && decide (ipv6 = family) := by
        funext rule
        have matched := alone ipv6 rule []
        rwa [List.append_nil] at matched
      rw [each]
      cases decide (ipv6 = family) with
      | false => simp
      | true => simp
    rw [if_neg noRules, multilineTest_table suffix family action _
      (matchHere (rulePattern suffix family port action)), List.any_append, rows]
    · cases ipv6 with
      | false => cases family <;> simp
      | true =>
        rw [if_pos rfl, rows]
        cases family <;> simp
    · intro line mem tail _
      obtain ⟨ipv6, rule, rfl⟩ := isRule mem
      have matched := alone ipv6 rule []
      rw [List.append_nil] at matched
      rw [alone, matched]
    · intro line mem
      obtain ⟨ipv6, rule, rfl⟩ := isRule mem
      exact userRuleLine_oneLine ipv6 rule

/-! ### The mark of IPv6 -/

/-- The comment holds the text that marks rules for IPv6. -/
def UserRule.QuotesIpv6 (rule : UserRule) : Prop :=
  ∃ comment, rule.comment = some comment ∧ IPV6_MARK <:+: comment.text

theorem ipv6Mark_userRuleLine_true (rule : UserRule) : IPV6_MARK <:+: userRuleLine true rule := by
  have ends : IPV6_MARK <:+ userToColumn true rule :=
    ((List.suffix_cons _ _).trans (List.suffix_append _ _)).trans (List.suffix_append _ _)
  exact ends.isInfix.trans (List.prefix_append _ _).isInfix

/-- On a line of IPv4 only the comment can hold the mark. -/
theorem ipv6Mark_userRuleLine_false (rule : UserRule) :
    IPV6_MARK <:+: userRuleLine false rule ↔ rule.QuotesIpv6 := by
  have notDigit {char : Char} (isDigit : char.isDigit = true) : char ≠ '(' := by
    rintro rfl
    cases isDigit
  have blank {width : Nat} {text : List Char} : '(' ∉ columnGap width text := fun mem =>
    absurd (List.mem_replicate.1 mem).2 (by decide)
  have inPorts : '(' ∉ rule.ports.text := by
    intro mem
    rcases portsText_characters rule.ports _ mem with isDigit | isColon | isComma
    · exact notDigit isDigit rfl
    · cases isColon
    · cases isComma
  have inProtocol : '(' ∉ protocolText rule.protocol := by
    generalize rule.protocol = protocol
    rcases protocol with _ | _ | _ <;> decide
  have inAction : '(' ∉ rule.action.text := by
    cases rule.action <;> decide
  have inFrom : '(' ∉ userFromColumn false := by decide
  have behind : IPV6_MARK <:+: userRuleLine false rule ↔
      IPV6_MARK <:+: commentColumn false rule.comment := by
    have front : userRuleLine false rule = (userToColumn false rule ++
        (columnGap TO_COLUMN_WIDTH (userToColumn false rule) ++ (rule.action.text ++
          (columnGap ACTION_COLUMN_WIDTH rule.action.text ++ userFromColumn false)))) ++
        commentColumn false rule.comment := by
      simp only [userRuleLine, List.append_assoc]
    rw [front]
    apply infix_append_of_notMem
    simp only [userToColumn, List.mem_append, not_or]
    exact ⟨⟨inPorts, inProtocol, List.not_mem_nil⟩, blank, inAction, blank, inFrom⟩
  rw [behind]
  constructor
  · intro included
    cases isComment : rule.comment with
    | none =>
      rw [isComment] at included
      cases List.infix_nil.1 included
    | some comment =>
      rw [isComment, commentColumn] at included
      refine ⟨comment, isComment, ?_⟩
      have sharp : '(' ∉ columnGap FROM_COLUMN_WIDTH (userFromColumn false) ++ "# ".toList := by
        rw [List.mem_append, not_or]
        exact ⟨blank, by decide⟩
      apply (infix_append_of_notMem sharp).1
      rw [List.append_assoc]
      exact included
  · rintro ⟨comment, isComment, included⟩
    rw [isComment, commentColumn]
    exact included.trans (((List.suffix_cons _ _).trans (List.suffix_cons _ _)).trans
      (List.suffix_append _ _)).isInfix

/-- The status shows IPv6 exactly if there are such rules, or a comment looks like one. -/
theorem statusIncludesIpv6Rules_userStatusText (ipv6 : Bool) (rules : List UserRule) :
    statusIncludesIpv6Rules (userStatusText ipv6 rules) = true ↔
      (ipv6 = true ∧ rules ≠ []) ∨ ∃ rule ∈ rules, rule.QuotesIpv6 := by
  have noNewline : '\n' ∉ IPV6_MARK := by decide
  have noHeader : ∀ line ∈ headerLines, ¬IPV6_MARK <:+: line := by
    have noOpen : ∀ line ∈ headerLines, '(' ∉ line := by decide
    intro line mem included
    exact noOpen line mem (included.subset List.mem_cons_self)
  rw [statusIncludesIpv6Rules, decide_eq_true_iff, userStatusText]
  by_cases noRules : rules = []
  · subst noRules
    rw [if_pos rfl, joinLines]
    refine iff_of_false (noHeader _ List.mem_cons_self) ?_
    rintro (⟨_, some_⟩ | ⟨rule, mem, _⟩)
    · exact some_ rfl
    · cases mem
  · have someLine : headerLines ++ (rules.map (userRuleLine false) ++
        if ipv6 then rules.map (userRuleLine true) else []) ≠ [] := List.cons_ne_nil _ _
    rw [if_neg noRules, infix_joinLines_iff noNewline someLine]
    constructor
    · rintro ⟨line, mem, included⟩
      rcases List.mem_append.1 mem with isHeader | isRow
      · exact absurd included (noHeader line isHeader)
      · rcases List.mem_append.1 isRow with inFirst | inSecond
        · obtain ⟨rule, isRule, rfl⟩ := List.mem_map.1 inFirst
          exact .inr ⟨rule, isRule, (ipv6Mark_userRuleLine_false rule).1 included⟩
        · cases ipv6 with
          | false => cases inSecond
          | true => exact .inl ⟨rfl, noRules⟩
    · rintro (⟨rfl, someRule⟩ | ⟨rule, isRule, quotes⟩)
      · obtain ⟨rule, others, rfl⟩ := List.exists_cons_of_ne_nil someRule
        refine ⟨userRuleLine true rule, ?_, ipv6Mark_userRuleLine_true rule⟩
        apply List.mem_append_right
        apply List.mem_append_right
        exact List.mem_cons_self
      · refine ⟨userRuleLine false rule, ?_, (ipv6Mark_userRuleLine_false rule).2 quotes⟩
        apply List.mem_append_right
        apply List.mem_append_left
        exact List.mem_map_of_mem isRule

/-! ### The check over an active firewall -/

/-- A rule for exactly the port, whatever the protocol. -/
def UserRule.Agnostic (rule : UserRule) (action : UfwRuleAction) (port : Nat) : Prop :=
  rule.ports = ⟨.single port, []⟩ ∧ rule.protocol = none ∧ rule.action = action.ruleAction

/-- A rule for TCP to exactly the port that says the opposite. -/
def UserRule.Contradicts (rule : UserRule) (action : UfwRuleAction) (port : Nat) : Prop :=
  rule.ports = ⟨.single port, []⟩ ∧ rule.protocol ≠ some .udp ∧
    rule.action = action.opposite.ruleAction

theorem any_agnostic_iff : rules.any (UserRule.isFor [] port action.expected) = true ↔
      ∃ rule ∈ rules, rule.Agnostic action port := by
  have isAction : action.expected.ruleAction = action.ruleAction := by cases action <;> rfl
  have isNone (protocol : Option Protocol) : protocolText protocol = [] ↔ protocol = none := by
    rcases protocol with _ | _ | _ <;> decide
  simp only [List.any_eq_true, UserRule.isFor, UserRule.Agnostic, Bool.and_eq_true,
    decide_eq_true_eq, isAction, isNone]

theorem any_contradicts_iff : (rules.any (UserRule.isFor [] port action.opposite) = true ∨
        rules.any (UserRule.isFor TCP_SUFFIX port action.opposite) = true) ↔
      ∃ rule ∈ rules, rule.Contradicts action port := by
  have isTcp (protocol : Option Protocol) : protocol ≠ some .udp ↔
      protocolText protocol = [] ∨ protocolText protocol = TCP_SUFFIX := by
    rcases protocol with _ | _ | _ <;> decide
  simp only [List.any_eq_true, UserRule.isFor, UserRule.Contradicts, Bool.and_eq_true,
    decide_eq_true_eq, isTcp]
  constructor
  · rintro (⟨rule, mem, isPort, agnostic, acts⟩ | ⟨rule, mem, isPort, tcp, acts⟩)
    · exact ⟨rule, mem, isPort, .inl agnostic, acts⟩
    · exact ⟨rule, mem, isPort, .inr tcp, acts⟩
  · rintro ⟨rule, mem, isPort, agnostic | tcp, acts⟩
    · exact .inl ⟨rule, mem, isPort, agnostic, acts⟩
    · exact .inr ⟨rule, mem, isPort, tcp, acts⟩

theorem length_addIf_pos_iff {condition : Bool} {rulePort : List Char}
    {rulePorts : List (List Char)} : 0 < (addIf condition rulePort rulePorts).length ↔
      condition = true ∨ 0 < rulePorts.length := by
  rw [addIf]
  cases condition with
  | false => simp
  | true =>
    have added : rulePort ∈ setAdd rulePorts rulePort := mem_setAdd.2 (.inr rfl)
    exact iff_of_true (List.length_pos_of_mem added) (.inl rfl)

section ValidPort

variable (valid : assertTcpPortForRegex port = some ())
include valid

theorem hasRule_userStatusText {suffix : List Char}
    (isSuffix : suffix = [] ∨ suffix = TCP_SUFFIX) (family ipv6 : Bool) (action : Keyword)
    (rules : List UserRule) : hasRule suffix family (userStatusText ipv6 rules) port action =
      some ((!family || ipv6) && rules.any (UserRule.isFor suffix port action)) := by
  simp only [hasRule, valid, multilineTest_userStatusText isSuffix, Option.bind_eq_bind,
    Option.bind_some, Option.pure_def]

/-- The rules that contradict are deleted in both families. -/
theorem deletePorts_userStatusText (includeIpv6 ipv6 : Bool) (action : UfwRuleAction)
    (rules : List UserRule) :
    ∃ rulePorts, tcpRelevantRuleDeletePorts action.opposite includeIpv6 port
        (userStatusText ipv6 rules) = some rulePorts ∧
      (0 < rulePorts.length ↔ ∃ rule ∈ rules, rule.Contradicts action port) := by
  let agnostic := rules.any (UserRule.isFor [] port action.opposite)
  let tcp := rules.any (UserRule.isFor TCP_SUFFIX port action.opposite)
  refine ⟨addIf (includeIpv6 && (ipv6 && tcp)) (decimal port ++ TCP_SUFFIX) <|
    addIf tcp (decimal port ++ TCP_SUFFIX) <| addIf (includeIpv6 && (ipv6 && agnostic))
      (decimal port) <| addIf agnostic (decimal port) [], ?_, ?_⟩
  · simp only [tcpRelevantRuleDeletePorts, hasProtocolAgnosticRule, hasProtocolAgnosticIpv6Rule,
      hasTcpRule, hasTcpIpv6Rule, hasRule_userStatusText valid (.inl rfl),
      hasRule_userStatusText valid (.inr rfl), Option.bind_eq_bind, Option.bind_some,
      Option.pure_def]
    rfl
  · rw [length_addIf_pos_iff, length_addIf_pos_iff, length_addIf_pos_iff, length_addIf_pos_iff,
      ← any_contradicts_iff]
    change _ ↔ agnostic = true ∨ tcp = true
    cases agnostic <;> cases tcp <;> simp

/-- The active firewall is as it should be exactly with a protocol-agnostic rule for the port,
none that contradicts it, and no comment that is taken for a rule of IPv6. -/
theorem checkUfwRulePort_userStatusText (ipv6 : Bool) :
    checkUfwRulePort action.expected action.opposite port
        (statusIncludesIpv6Rules (userStatusText ipv6 rules)) (userStatusText ipv6 rules) =
          some .ok ↔
      (∃ rule ∈ rules, rule.Agnostic action port) ∧
        (¬∃ rule ∈ rules, rule.Contradicts action port) ∧
        (ipv6 = true ∨ ¬∃ rule ∈ rules, rule.QuotesIpv6) := by
  obtain ⟨rulePorts, isPorts, contradicts⟩ := deletePorts_userStatusText valid
    (statusIncludesIpv6Rules (userStatusText ipv6 rules)) ipv6 action rules
  have marked := statusIncludesIpv6Rules_userStatusText ipv6 rules
  rw [← any_agnostic_iff, ← contradicts]
  simp only [checkUfwRulePort, hasProtocolAgnosticRule, hasProtocolAgnosticIpv6Rule, isPorts,
    hasRule_userStatusText valid (.inl rfl), Option.bind_eq_bind, Option.bind_some,
    Option.pure_def]
  cases agnostic : rules.any (UserRule.isFor [] port action.expected) with
  | false => simp
  | true =>
    cases ipv6 with
    | true => simp
    | false =>
      have onlyQuotes : statusIncludesIpv6Rules (userStatusText false rules) = true ↔
          ∃ rule ∈ rules, rule.QuotesIpv6 := by
        rw [marked]
        exact or_iff_right fun family => Bool.false_ne_true family.1
      rw [← onlyQuotes]
      cases statusIncludesIpv6Rules (userStatusText false rules) <;> simp

end ValidPort

/-! ### Main result -/

/-- The check over the inactive firewall promises what the check over the active one finds
exactly if, where a rule or a comment names the port, there is a protocol-agnostic rule for it,
none that contradicts it, and no comment that is taken for a rule of IPv6. -/
theorem inactive_promises_active_iff (ipv6 : Bool) (rules : List UserRule)
    (action : UfwRuleAction) (port : Nat) :
    (checkInactiveUfwRulePort action (.tagged (.ok (addedText rules))) port = some .ok →
        checkUfwRulePort action.expected action.opposite port
          (statusIncludesIpv6Rules (userStatusText ipv6 rules)) (userStatusText ipv6 rules) =
            some .ok) ↔
      (assertTcpPortForRegex port = some () →
        (∃ rule ∈ rules, rule.names action port = true) →
          (∃ rule ∈ rules, rule.Agnostic action port) ∧
          (¬∃ rule ∈ rules, rule.Contradicts action port) ∧
          (ipv6 = true ∨ ¬∃ rule ∈ rules, rule.QuotesIpv6)) := by
  by_cases valid : assertTcpPortForRegex port = some ()
  · rw [checkInactiveUfwRulePort_addedText valid, checkUfwRulePort_userStatusText valid]
    constructor
    · exact fun promises _ => promises
    · exact fun condition => condition valid
  · have throws :
        checkInactiveUfwRulePort action (.tagged (.ok (addedText rules))) port = none := by
      have invalid : assertTcpPortForRegex port = none := by
        cases isValid : assertTcpPortForRegex port with
        | none => rfl
        | some _ => exact absurd isValid valid
      change (hasAddedUfwRule (addedText rules) action port).map _ = none
      simp only [hasAddedUfwRule, invalid, Option.bind_eq_bind, Option.bind_none, Option.map_none]
    rw [throws]
    exact iff_of_true (fun ok => by cases ok) fun isValid => absurd isValid valid

/-- `ufw allow 22/tcp` -/
def tcpOnly : List UserRule :=
  [{ action := .allow, ports := ⟨.single 22, []⟩, protocol := some .tcp, comment := none }]

/-- The rule for TCP is enough while ufw is inactive, and drift as soon as it is active. -/
theorem tcp_rule_turns_into_drift :
    ¬∀ (ipv6 : Bool) (rules : List UserRule) (action : UfwRuleAction) (port : Nat),
      checkInactiveUfwRulePort action (.tagged (.ok (addedText rules))) port = some .ok →
        checkUfwRulePort action.expected action.opposite port
          (statusIncludesIpv6Rules (userStatusText ipv6 rules)) (userStatusText ipv6 rules) =
            some .ok := by
  intro agrees
  have active := agrees true tcpOnly .allow 22 (by decide +kernel)
  revert active
  decide +kernel

end Paratix.Firewall
