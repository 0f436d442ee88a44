/-
Module: Paratix.Firewall.Lockout
Purpose: The classification of a captured `ufw status`, and when the answer `allowed` means that ufw
  lets every connection to the port in.
Main exports: classifyUfwStatusTcpAccess, allowed_lets_everyone_in_iff
-/
import Mathlib.Data.BitVec
import Paratix.Foundation.LinePattern
import Mathlib

namespace Paratix.Firewall

open Foundation

/-! ### Rule lines -/

def TCP_PORT_MIN : Nat := 1

def TCP_PORT_MAX : Nat := 65535

/-- `none` is a throw. -/
def assertTcpPortForRegex (port : Nat) : Option Unit :=
  if port < TCP_PORT_MIN ∨ TCP_PORT_MAX < port then none else some ()

/-- The action keywords that the patterns are built for. -/
inductive Keyword where
  | ALLOW
  | DENY
deriving DecidableEq, Repr

def Keyword.text : Keyword → List Char
  | .ALLOW => "ALLOW".toList
  | .DENY => "DENY".toList

/-- `^${port}${suffix}\s+ACTION\b`, with `\(v6\)\s+` before the action if `ipv6` -/
def rulePattern (suffix : List Char) (ipv6 : Bool) (port : Nat) (action : Keyword) : List Piece :=
  let afterPort : List Piece := if ipv6 then [.literal "(v6)".toList, .spaces] else []
  .literal (decimal port ++ suffix) :: .spaces ::
    (afterPort ++ [.literal action.text, .wordEnd])

def hasRule (suffix : List Char) (ipv6 : Bool) (status : List Char) (port : Nat)
    (action : Keyword) : Option Bool := do
  assertTcpPortForRegex port
  pure (multilineTest (rulePattern suffix ipv6 port action) status)

def TCP_SUFFIX : List Char := "/tcp".toList

def hasProtocolAgnosticRule (status : List Char) (port : Nat) (action : Keyword) : Option Bool :=
  hasRule [] false status port action

def hasProtocolAgnosticIpv6Rule (status : List Char) (port : Nat) (action : Keyword) :
    Option Bool :=
  hasRule [] true status port action

def hasTcpRule (status : List Char) (port : Nat) (action : Keyword) : Option Bool :=
  hasRule TCP_SUFFIX false status port action

def hasTcpIpv6Rule (status : List Char) (port : Nat) (action : Keyword) : Option Bool :=
  hasRule TCP_SUFFIX true status port action

def IPV6_MARK : List Char := "(v6)".toList

def ACTIVE_MARK : List Char := "Status: active".toList

def statusIncludesIpv6Rules (status : List Char) : Bool := decide (IPV6_MARK <:+: status)

def statusReportsActive (status : List Char) : Bool := decide (ACTIVE_MARK <:+: status)

/-! ### The classification -/

inductive UfwAccess where
  | allowed
  | blocked
  | inactive
deriving DecidableEq, Repr

inductive UfwAccessProbe where
  | unknown
  | access (access : UfwAccess)
deriving DecidableEq, Repr

def hasTcpRelevantDenyRule (status : List Char) (targetPort : Nat) : Option Bool := do
  let ipv6Rules := statusIncludesIpv6Rules status
  let agnostic ← hasProtocolAgnosticRule status targetPort .DENY
  let tcp ← hasTcpRule status targetPort .DENY
  let agnosticIpv6 ← hasProtocolAgnosticIpv6Rule status targetPort .DENY
  let tcpIpv6 ← hasTcpIpv6Rule status targetPort .DENY
  pure (agnostic || tcp || (ipv6Rules && (agnosticIpv6 || tcpIpv6)))

def hasTcpRelevantAllowRule (status : List Char) (targetPort : Nat) : Option Bool := do
  let agnostic ← hasProtocolAgnosticRule status targetPort .ALLOW
  let tcp ← hasTcpRule status targetPort .ALLOW
  pure (agnostic || tcp)

def hasTcpRelevantIpv6AllowRule (status : List Char) (targetPort : Nat) : Option Bool := do
  let agnostic ← hasProtocolAgnosticIpv6Rule status targetPort .ALLOW
  let tcp ← hasTcpIpv6Rule status targetPort .ALLOW
  pure (agnostic || tcp)

def classifyUfwStatusTcpAccess (status : List Char) (targetPort : Nat) : Option UfwAccess :=
  if statusReportsActive status = false then some .inactive
  else do
    let denied ← hasTcpRelevantDenyRule status targetPort
    let allowed ← hasTcpRelevantAllowRule status targetPort
    let allowedIpv6 ← hasTcpRelevantIpv6AllowRule status targetPort
    pure <|
      if denied then .blocked
      else if !allowed then .blocked
      else if statusIncludesIpv6Rules status && !allowedIpv6 then .blocked
      else .allowed

/-- What `readUfwStatusDetailed` returns; the detail of an unreadable status is only
shown to the operator. -/
inductive UfwStatusReadResult where
  | missing
  | unreadable
  | ok (status : List Char)

def classifyUfwAccessOrUnknown (statusRead : UfwStatusReadResult) (targetPort : Nat) :
    Option UfwAccessProbe :=
  match statusRead with
  | .missing => some (.access .inactive)
  | .unreadable => some .unknown
  | .ok status => (classifyUfwStatusTcpAccess status targetPort).map .access

/-! ### The rules of ufw -/

inductive RuleAction where
  | allow
  | deny
  | reject
  | limit
deriving DecidableEq, Repr

inductive Direction where
  | incoming
  | outgoing
deriving DecidableEq, Repr

inductive Protocol where
  | tcp
  | udp
deriving DecidableEq, Repr

/-- The addresses that share the first `prefixLength` bits with `address`. -/
structure Network (bits : Nat) where
  address : BitVec bits
  prefixLength : Fin (bits + 1)
deriving DecidableEq

def Network.covers {bits : Nat} (network : Network bits) (address : BitVec bits) : Bool :=
  address >>> (bits - network.prefixLength) = network.address >>> (bits - network.prefixLength)

/-- The source of a rule, which also decides its address family; `none` is anywhere. -/
inductive Source where
  | ipv4 (network : Option (Network 32))
  | ipv6 (network : Option (Network 128))
deriving DecidableEq

inductive Address where
  | ipv4 (bits : BitVec 32)
  | ipv6 (bits : BitVec 128)

def Source.isIpv6 : Source → Bool
  | .ipv4 _ => false
  | .ipv6 _ => true

def Source.covers : Source → Address → Bool
  | .ipv4 none, .ipv4 _ => true
  | .ipv4 (some network), .ipv4 bits => network.covers bits
  | .ipv6 none, .ipv6 _ => true
  | .ipv6 (some network), .ipv6 bits => network.covers bits
  | _, _ => false

structure Rule where
  action : RuleAction
  direction : Direction
  port : Nat
  protocol : Option Protocol
  source : Source
deriving DecidableEq

/-- The rule is asked about a connection over TCP from `address` to `port`. -/
def Rule.applies (rule : Rule) (port : Nat) (address : Address) : Bool :=
  rule.direction = .incoming && rule.port = port && rule.protocol ≠ some .udp &&
    rule.source.covers address

/-- The first rule that applies decides; if none does, the policy denies. A limit
lets a connection in that is not one too many. -/
def letsIn (rules : List Rule) (port : Nat) (address : Address) : Bool :=
  match rules.find? (·.applies port address) with
  | none => false
  | some rule => rule.action = .allow || rule.action = .limit

/-! ### What `ufw status` prints -/

def RuleAction.text : RuleAction → List Char
  | .allow => "ALLOW".toList
  | .deny => "DENY".toList
  | .reject => "REJECT".toList
  | .limit => "LIMIT".toList

def Direction.text : Direction → List Char
  | .incoming => []
  | .outgoing => " OUT".toList

def protocolText : Option Protocol → List Char
  | none => []
  | some .tcp => "/tcp".toList
  | some .udp => "/udp".toList

/-- The characters of a rendered network. -/
def isNetworkCharacter (char : Char) : Bool := char.isAlphanum || char = '.' || char = ':' || char = '/'

/-- How ufw writes networks. -/
structure NetworkText where
  ipv4 : Network 32 → List Char
  ipv6 : Network 128 → List Char
  ipv4Characters : ∀ network, ∀ char ∈ ipv4 network, isNetworkCharacter char = true
  ipv6Characters : ∀ network, ∀ char ∈ ipv6 network, isNetworkCharacter char = true

def ipv6MarkOf (ipv6 : Bool) : List Char := if ipv6 then ' ' :: IPV6_MARK else []

def toColumn (rule : Rule) : List Char :=
  decimal rule.port ++ (protocolText rule.protocol ++ ipv6MarkOf rule.source.isIpv6)

def actionColumn (rule : Rule) : List Char := rule.action.text ++ rule.direction.text

def fromColumn (networkText : NetworkText) : Source → List Char
  | .ipv4 none => "Anywhere".toList
  | .ipv4 (some network) => networkText.ipv4 network
  | .ipv6 none => "Anywhere (v6)".toList
  | .ipv6 (some network) => networkText.ipv6 network

/-- Blanks after a column: up to its width, and one more. -/
def columnGap (width : Nat) (text : List Char) : List Char :=
  List.replicate (width - text.length + 1) ' '

def TO_COLUMN_WIDTH : Nat := 26

def ACTION_COLUMN_WIDTH : Nat := 11

def ruleLine (networkText : NetworkText) (rule : Rule) : Line :=
  toColumn rule ++ (columnGap TO_COLUMN_WIDTH (toColumn rule) ++
    (actionColumn rule ++ (columnGap ACTION_COLUMN_WIDTH (actionColumn rule) ++
      fromColumn networkText rule.source)))

def headerLines : List Line :=
  [ACTIVE_MARK, [], "To                         Action      From".toList,
    "--                         ------      ----".toList]

/-- The status of an active firewall, trimmed. -/
def statusText (networkText : NetworkText) (rules : List Rule) : List Char :=
  joinLines <|
    if rules = [] then [ACTIVE_MARK] else headerLines ++ rules.map (ruleLine networkText)

variable {networkText : NetworkText} {rules : List Rule} {rule : Rule} {port : Nat}

/-! ### One rule line -/

def Keyword.ruleAction : Keyword → RuleAction
  | .ALLOW => .allow
  | .DENY => .deny

/-- The rule is the one that a pattern describes. -/
def Rule.listed (suffix : List Char) (ipv6 : Bool) (port : Nat) (action : Keyword)
    (rule : Rule) : Bool :=
  decide (port = rule.port) && (decide (protocolText rule.protocol = suffix) &&
    (decide (rule.source.isIpv6 = ipv6) && decide (rule.action = action.ruleAction)))

theorem columnGap_ne_nil (width : Nat) (text : List Char) : columnGap width text ≠ [] :=
  List.cons_ne_nil _ _

theorem columnGap_space {width : Nat} {text : List Char} :
    ∀ char ∈ columnGap width text, isJsSpace char = true := by
  intro char mem
  rw [(List.mem_replicate.1 mem).2]
  rfl

/-- The action of a rule is matched as a whole word. -/
theorem matchHere_action (action : Keyword) (rule : Rule) (rest : List Char) :
    matchHere [.literal action.text, .wordEnd] (actionColumn rule ++ ' ' :: rest) =
      decide (rule.action = action.ruleAction) := by
  unfold actionColumn
  cases action <;> cases rule.action <;> cases rule.direction <;> rfl

theorem actionColumn_starts (rule : Rule) :
    ∃ head rest, actionColumn rule = head :: rest ∧ isJsSpace head = false ∧ head ≠ '(' := by
  unfold actionColumn
  cases rule.action <;> exact ⟨_, _, rfl, rfl, by decide⟩

/-- What the pattern says after the white space behind the port -/
def afterPort (ipv6 : Bool) (action : Keyword) : List Piece :=
  (if ipv6 then [.literal IPV6_MARK, .spaces] else []) ++ [.literal action.text, .wordEnd]

theorem afterPort_refuses_space (ipv6 : Bool) (action : Keyword) (char : Char) (rest : List Char)
    (isSpace : isJsSpace char = true) : matchHere (afterPort ipv6 action) (char :: rest) = false := by
  have refuses {head : Char} {text : List Char} {pieces : List Piece}
      (starts : isJsSpace head = false) :
      matchHere (.literal (head :: text) :: pieces) (char :: rest) = false := by
    have different : head ≠ char := fun same => by
      rw [same, isSpace] at starts
      cases starts
    simp [matchHere, List.isPrefixOf, different]
  cases ipv6 with
  | true => exact refuses rfl
  | false => cases action <;> exact refuses rfl

/-- The mark of an IPv6 rule and its action, after the white space behind the port -/
theorem matchHere_afterPort (ipv6 : Bool) (action : Keyword) (rule : Rule) {gap : List Char}
    (gapNonempty : gap ≠ []) (gapSpace : ∀ char ∈ gap, isJsSpace char = true) (rest : List Char) :
    matchHere (.spaces :: afterPort ipv6 action)
        (ipv6MarkOf rule.source.isIpv6 ++ (gap ++ (actionColumn rule ++ ' ' :: rest))) =
      (decide (rule.source.isIpv6 = ipv6) && decide (rule.action = action.ruleAction)) := by
  obtain ⟨head, column, isColumn, starts, notMark⟩ := actionColumn_starts rule
  have acts := matchHere_action action rule rest
  rw [isColumn, List.cons_append] at acts ⊢
  have refuses := afterPort_refuses_space ipv6 action
  cases isIpv6 : rule.source.isIpv6 with
  | false =>
    rw [ipv6MarkOf, if_neg nofun, List.nil_append,
      matchHere_spaces gapNonempty gapSpace starts refuses]
    cases ipv6 with
    | false => exact acts
    | true =>
      have noMark : matchHere (.literal IPV6_MARK :: .spaces ::
          [.literal action.text, .wordEnd]) (head :: (column ++ ' ' :: rest)) = false := by
        have different : '(' ≠ head := notMark.symm
        simp [matchHere, IPV6_MARK, List.isPrefixOf, different]
      exact noMark
  | true =>
    have split : ipv6MarkOf true ++ (gap ++ head :: (column ++ ' ' :: rest)) =
        [' '] ++ '(' :: ("v6)".toList ++ (gap ++ head :: (column ++ ' ' :: rest))) := rfl
    have blank : ∀ char ∈ [' '], isJsSpace char = true := List.forall_mem_singleton.2 rfl
    rw [split, matchHere_spaces (List.cons_ne_nil _ _) blank rfl refuses]
    cases ipv6 with
    | false => cases action <;> rfl
    | true =>
      have mark := matchHere_literal IPV6_MARK [.spaces, .literal action.text, .wordEnd]
        (gap ++ head :: (column ++ ' ' :: rest))
      have noSpace (char : Char) (rest : List Char) :=
        afterPort_refuses_space false action char rest
      have gapped : matchHere (.spaces :: afterPort false action)
          (gap ++ head :: (column ++ ' ' :: rest)) =
          matchHere (afterPort false action) (head :: (column ++ ' ' :: rest)) :=
        matchHere_spaces gapNonempty gapSpace starts noSpace
      exact (mark.trans gapped).trans acts

/-- The protocol of a rule line against the suffix of a pattern -/
theorem matchHere_suffix {suffix : List Char} (isSuffix : suffix = [] ∨ suffix = TCP_SUFFIX)
    (protocol : Option Protocol) (pieces : List Piece) {rest : List Char}
    (blank : rest.head? = some ' ') :
    matchHere (.literal suffix :: .spaces :: pieces) (protocolText protocol ++ rest) =
      (decide (protocolText protocol = suffix) && matchHere (.spaces :: pieces) rest) := by
  obtain ⟨head, more, rfl⟩ := List.exists_cons_of_ne_nil
    (fun missing : rest = [] => by rw [missing] at blank; cases blank)
  cases blank
  rcases isSuffix with rfl | rfl
  · rcases protocol with _ | _ | _ <;> rfl
  · rcases protocol with _ | _ | _ <;> rfl

theorem matchHere_suffix_refuses_digit {suffix : List Char}
    (isSuffix : suffix = [] ∨ suffix = TCP_SUFFIX) (pieces : List Piece) (char : Char)
    (rest : List Char) (isDigit : char.isDigit = true) :
    matchHere (.literal suffix :: .spaces :: pieces) (char :: rest) = false := by
  rcases isSuffix with rfl | rfl
  · have noSpace := isJsSpace_of_isDigit isDigit
    simp [matchHere, matchSpaces, noSpace]
  · have different : '/' ≠ char := fun same => by
      subst same
      cases isDigit
    simp [matchHere, TCP_SUFFIX, List.isPrefixOf, different]

/-- A pattern matches exactly the line of a rule that it describes. -/
theorem matchHere_ruleLine {suffix : List Char} (isSuffix : suffix = [] ∨ suffix = TCP_SUFFIX)
    (ipv6 : Bool) (action : Keyword) (tail : List Char) :
    matchHere (rulePattern suffix ipv6 port action) (ruleLine networkText rule ++ tail) =
      rule.listed suffix ipv6 port action := by
  let lastGap := List.replicate (ACTION_COLUMN_WIDTH - (actionColumn rule).length) ' '
  let rest := lastGap ++ (fromColumn networkText rule.source ++ tail)
  let marked := ipv6MarkOf rule.source.isIpv6 ++
    (columnGap TO_COLUMN_WIDTH (toColumn rule) ++ (actionColumn rule ++ ' ' :: rest))
  have split : ruleLine networkText rule ++ tail =
      decimal rule.port ++ (protocolText rule.protocol ++ marked) := by
    have gap : columnGap ACTION_COLUMN_WIDTH (actionColumn rule) = ' ' :: lastGap := rfl
    simp only [ruleLine, gap, marked, rest, toColumn, List.append_assoc, List.cons_append]
  have blank : marked.head? = some ' ' := by
    change (ipv6MarkOf rule.source.isIpv6 ++ _).head? = some ' '
    cases rule.source.isIpv6 <;> rfl
  have starts : ∃ head more, protocolText rule.protocol ++ marked = head :: more ∧
      head.isDigit = false := by
    obtain ⟨more, isMarked⟩ := List.head?_eq_some_iff.1 blank
    rw [isMarked]
    rcases rule.protocol with _ | _ | _ <;> exact ⟨_, _, rfl, rfl⟩
  obtain ⟨head, more, isRest, notDigit⟩ := starts
  have pattern : rulePattern suffix ipv6 port action =
      .literal (decimal port ++ suffix) :: .spaces :: afterPort ipv6 action := rfl
  rw [split, pattern, matchHere_literal_append, isRest, matchHere_decimal notDigit
    (matchHere_suffix_refuses_digit isSuffix _), ← isRest, matchHere_suffix isSuffix _ _ blank,
    matchHere_afterPort ipv6 action rule (columnGap_ne_nil _ _) columnGap_space]
  rfl

/-! ### The whole status -/

theorem matchHere_header (suffix : List Char) (ipv6 : Bool) (action : Keyword) {line : Line}
    (isHeader : line ∈ headerLines) (tail : List Char)
    (isTail : tail = [] ∨ tail.head? = some '\n') :
    matchHere (rulePattern suffix ipv6 port action) (line ++ tail) = false := by
  obtain ⟨digit, digits, isDecimal⟩ := List.exists_cons_of_ne_nil
    (Nat.toDigits_ne_nil : Nat.toDigits 10 port ≠ [])
  have isDigit : digit.isDigit = true := by
    have mem : digit ∈ decimal port := by
      rw [decimal, isDecimal]
      exact List.mem_cons_self
    exact isDigit_of_mem_decimal mem
  have refuses {head : Char} (rest : List Char) (notDigit : head.isDigit = false) :
      matchHere (rulePattern suffix ipv6 port action) (head :: rest) = false := by
    have different : digit ≠ head := fun same => by
      rw [same, notDigit] at isDigit
      cases isDigit
    simp [rulePattern, matchHere, decimal, isDecimal, List.isPrefixOf, different]
  have empty : matchHere (rulePattern suffix ipv6 port action) [] = false := by
    simp [rulePattern, matchHere, decimal, isDecimal, List.isPrefixOf]
  simp only [headerLines, List.mem_cons, List.not_mem_nil, or_false] at isHeader
  rcases isHeader with rfl | rfl | rfl | rfl
  · exact refuses _ rfl
  · rcases isTail with rfl | newline
    · exact empty
    · obtain ⟨more, rfl⟩ := List.head?_eq_some_iff.1 newline
      exact refuses _ rfl
  · exact refuses _ rfl
  · exact refuses _ rfl

theorem toNat_of_isNetworkCharacter {char : Char} (isNetwork : isNetworkCharacter char = true) :
    46 ≤ char.toNat ∧ char.toNat ≤ 122 := by
  simp only [isNetworkCharacter, Bool.or_eq_true, decide_eq_true_eq] at isNetwork
  rcases isNetwork with ((isAlphanum | rfl) | rfl) | rfl
  · change ((char.isUpper || char.isLower) || char.isDigit) = true at isAlphanum
    simp only [Char.isUpper, Char.isLower, Char.isDigit, ge_iff_le, UInt32.le_iff_toNat_le,
      Bool.or_eq_true, Bool.and_eq_true, decide_eq_true_eq] at isAlphanum
    change 46 ≤ char.val.toNat ∧ char.val.toNat ≤ 122
    have letters : ('A'.val.toNat = 65 ∧ 'Z'.val.toNat = 90) ∧
        'a'.val.toNat = 97 ∧ 'z'.val.toNat = 122 := by decide
    have digits : '0'.val.toNat = 48 ∧ '9'.val.toNat = 57 := by decide
    omega
  · decide
  · decide
  · decide

/-- The characters of a rule line -/
def Rule.MayPrint (rule : Rule) (char : Char) : Prop :=
  isNetworkCharacter char = true ∨ char = ' ' ∨
    rule.source.isIpv6 = true ∧ (char = '(' ∨ char = ')')

theorem Rule.MayPrint.toNat {char : Char} (printed : rule.MayPrint char) :
    32 ≤ char.toNat ∧ char.toNat ≤ 122 := by
  rcases printed with isNetwork | rfl | ⟨_, rfl | rfl⟩
  · have bounds := toNat_of_isNetworkCharacter isNetwork
    omega
  · decide
  · decide
  · decide

theorem isNetworkCharacter_of_isDigit {char : Char} (isDigit : char.isDigit = true) :
    isNetworkCharacter char = true := by
  simp [isNetworkCharacter, Char.isAlphanum, isDigit]

theorem mayPrint_fromColumn (char : Char) (mem : char ∈ fromColumn networkText rule.source) :
    rule.MayPrint char := by
  unfold Rule.MayPrint
  generalize rule.source = source at mem ⊢
  rcases source with (_ | network) | (_ | network)
  · have isAnywhere : "Anywhere".toList.all isNetworkCharacter = true := rfl
    exact .inl (List.all_eq_true.1 isAnywhere char mem)
  · exact .inl (networkText.ipv4Characters network char mem)
  · have isAnywhere : ∀ own ∈ "Anywhere (v6)".toList, isNetworkCharacter own = true ∨ own = ' ' ∨
        (own = '(' ∨ own = ')') := forall_mem_of_all (by decide)
    exact (isAnywhere char mem).imp_right (Or.imp_right fun mark => ⟨rfl, mark⟩)
  · exact .inl (networkText.ipv6Characters network char mem)

theorem mayPrint_toColumn (char : Char) (mem : char ∈ toColumn rule) : rule.MayPrint char := by
  have word {text : List Char} (isWord : text.all isNetworkCharacter = true) (own : char ∈ text) :
      rule.MayPrint char := .inl (List.all_eq_true.1 isWord char own)
  rcases List.mem_append.1 mem with isPort | isRest
  · exact .inl (isNetworkCharacter_of_isDigit (isDigit_of_mem_decimal isPort))
  rcases List.mem_append.1 isRest with isProtocol | isMark
  · generalize rule.protocol = protocol at isProtocol
    rcases protocol with _ | _ | _
    · cases isProtocol
    · exact word rfl isProtocol
    · exact word rfl isProtocol
  · cases isIpv6 : rule.source.isIpv6 with
    | false =>
      rw [isIpv6] at isMark
      cases isMark
    | true =>
      have isText : ∀ own ∈ ' ' :: IPV6_MARK, isNetworkCharacter own = true ∨ own = ' ' ∨
          (own = '(' ∨ own = ')') := forall_mem_of_all (by decide)
      rw [isIpv6] at isMark
      exact (isText char isMark).imp_right (Or.imp_right fun mark => ⟨isIpv6, mark⟩)

theorem mayPrint_actionColumn (char : Char) (mem : char ∈ actionColumn rule) :
    rule.MayPrint char := by
  have isColumn : ∀ own ∈ actionColumn rule, isNetworkCharacter own = true ∨ own = ' ' := by
    unfold actionColumn
    cases rule.action <;> cases rule.direction <;> exact forall_mem_of_all (by decide)
  exact (isColumn char mem).imp_right Or.inl

theorem mayPrint_ruleLine (char : Char) (mem : char ∈ ruleLine networkText rule) :
    rule.MayPrint char := by
  have blank {width : Nat} {text : List Char} (own : char ∈ columnGap width text) :
      rule.MayPrint char := .inr (.inl (List.mem_replicate.1 own).2)
  simp only [ruleLine, List.mem_append] at mem
  rcases mem with isTo | isGap | isAction | isGap | isFrom
  · exact mayPrint_toColumn char isTo
  · exact blank isGap
  · exact mayPrint_actionColumn char isAction
  · exact blank isGap
  · exact mayPrint_fromColumn char isFrom

theorem ruleLine_oneLine (char : Char) (mem : char ∈ ruleLine networkText rule) :
    isLineTerminator char = false := by
  have bounds := (mayPrint_ruleLine char mem).toNat
  simp only [isLineTerminator, Bool.or_eq_false_iff, decide_eq_false_iff_not]
  omega

theorem headerLines_oneLine :
    ∀ line ∈ headerLines, ∀ char ∈ line, isLineTerminator char = false := by
  have all : headerLines.all (fun line => line.all fun char => isLineTerminator char == false) =
      true := by decide
  intro line isHeader char mem
  exact beq_iff_eq.1 (List.all_eq_true.1 (List.all_eq_true.1 all line isHeader) char mem)

/-- Behind the header a pattern looks for a line that it matches. -/
theorem multilineTest_table (suffix : List Char) (ipv6 : Bool) (action : Keyword)
    {table : List Line} (oneLine : ∀ line ∈ table, ∀ char ∈ line, isLineTerminator char = false)
    (matched : Line → Bool) (alone : ∀ line ∈ table, ∀ tail, tail = [] ∨ tail.head? = some '\n' →
      matchHere (rulePattern suffix ipv6 port action) (line ++ tail) = matched line) :
    multilineTest (rulePattern suffix ipv6 port action) (joinLines (headerLines ++ table)) =
      table.any matched := by
  let pattern := rulePattern suffix ipv6 port action
  have header {line : Line} (isHeader : line ∈ headerLines) : matchHere pattern line = false := by
    simpa only [List.append_nil] using matchHere_header suffix ipv6 action isHeader [] (.inl rfl)
  have someLine : headerLines ++ table ≠ [] := List.cons_ne_nil _ _
  rw [multilineTest_joinLines someLine _ (matchHere pattern)]
  · rw [List.any_append, List.any_eq_false.2 fun line mem => by simp [header mem], Bool.false_or]
    rw [Bool.eq_iff_iff, List.any_eq_true, List.any_eq_true]
    have same (line : Line) (mem : line ∈ table) : matchHere pattern line = matched line := by
      have matches_ := alone line mem [] (.inl rfl)
      rwa [List.append_nil] at matches_
    constructor
    · rintro ⟨line, mem, matched⟩
      exact ⟨line, mem, by rw [← same line mem]; exact matched⟩
    · rintro ⟨line, mem, matched⟩
      exact ⟨line, mem, by rw [same line mem]; exact matched⟩
  · intro line mem tail isTail
    rcases List.mem_append.1 mem with isHeader | isRow
    · rw [header isHeader, matchHere_header suffix ipv6 action isHeader tail isTail]
    · have matches_ := alone line isRow [] (.inl rfl)
      rw [List.append_nil] at matches_
      rw [alone line isRow tail isTail, matches_]
  · intro line mem
    rcases List.mem_append.1 mem with isHeader | isRow
    · exact headerLines_oneLine line isHeader
    · exact oneLine line isRow

/-- A firewall without rules prints no line that a pattern matches. -/
theorem multilineTest_active (suffix : List Char) (ipv6 : Bool) (action : Keyword) :
    multilineTest (rulePattern suffix ipv6 port action) (joinLines [ACTIVE_MARK]) = false := by
  have active : ACTIVE_MARK ∈ headerLines := List.mem_cons_self
  have header := @matchHere_header port suffix ipv6 action _ active [] (.inl rfl)
  rw [List.append_nil] at header
  rw [joinLines, multilineTest_line (headerLines_oneLine _ active), header]

/-- A pattern finds a line exactly if a rule is the one it describes. -/
theorem multilineTest_statusText {suffix : List Char}
    (isSuffix : suffix = [] ∨ suffix = TCP_SUFFIX) (ipv6 : Bool) (action : Keyword) :
    multilineTest (rulePattern suffix ipv6 port action) (statusText networkText rules) =
      rules.any (·.listed suffix ipv6 port action) := by
  unfold statusText
  by_cases noRules : rules = []
  · subst noRules
    rw [if_pos rfl]
    exact multilineTest_active suffix ipv6 action
  · have alone (rule : Rule) (tail : List Char) :=
      @matchHere_ruleLine networkText rule port suffix isSuffix ipv6 action tail
    rw [if_neg noRules, multilineTest_table suffix ipv6 action _
      (matchHere (rulePattern suffix ipv6 port action)), List.any_map]
    · congr 1
      funext rule
      have matches_ := alone rule []
      rwa [List.append_nil] at matches_
    · intro line mem tail _
      obtain ⟨rule, _, rfl⟩ := List.mem_map.1 mem
      have matches_ := alone rule []
      rw [List.append_nil] at matches_
      rw [alone, matches_]
    · intro line mem
      obtain ⟨rule, _, rfl⟩ := List.mem_map.1 mem
      exact ruleLine_oneLine

theorem statusText_eq_joinLines (networkText : NetworkText) (rules : List Rule) :
    ∃ lines, statusText networkText rules = joinLines (ACTIVE_MARK :: lines) ∧
      (∀ line ∈ lines, line ∈ headerLines ∨ ∃ rule ∈ rules, line = ruleLine networkText rule) ∧
      ∀ rule ∈ rules, ruleLine networkText rule ∈ lines := by
  unfold statusText
  by_cases noRules : rules = []
  · subst noRules
    exact ⟨[], rfl, nofun, nofun⟩
  · rw [if_neg noRules]
    refine ⟨headerLines.tail ++ rules.map (ruleLine networkText), rfl, fun line mem => ?_,
      fun rule mem => ?_⟩
    · rcases List.mem_append.1 mem with isHeader | isRule
      · exact .inl (List.mem_of_mem_tail isHeader)
      · obtain ⟨rule, isMember, isLine⟩ := List.mem_map.1 isRule
        exact .inr ⟨rule, isMember, isLine.symm⟩
    · exact List.mem_append_right _ (List.mem_map_of_mem mem)

theorem statusReportsActive_statusText :
    statusReportsActive (statusText networkText rules) = true := by
  obtain ⟨lines, isText, -, -⟩ := statusText_eq_joinLines networkText rules
  rw [statusReportsActive, decide_eq_true_eq, isText]
  exact infix_joinLines List.mem_cons_self

theorem statusIncludesIpv6Rules_statusText :
    statusIncludesIpv6Rules (statusText networkText rules) = rules.any (·.source.isIpv6) := by
  obtain ⟨lines, isText, onlyLines, allRules⟩ := statusText_eq_joinLines networkText rules
  rw [Bool.eq_iff_iff, statusIncludesIpv6Rules, decide_eq_true_eq, isText, List.any_eq_true]
  constructor
  · intro included
    have isOpen : '(' ∈ joinLines (ACTIVE_MARK :: lines) := included.subset List.mem_cons_self
    have notHeader : ∀ line ∈ headerLines, '(' ∉ line := by decide
    rcases mem_joinLines isOpen with newline | ⟨line, isLine, inLine⟩
    · cases newline
    have isKnown : line ∈ headerLines ∨ ∃ rule ∈ rules, line = ruleLine networkText rule := by
      rcases List.mem_cons.1 isLine with rfl | isLater
      · exact .inl List.mem_cons_self
      · exact onlyLines line isLater
    rcases isKnown with isHeader | ⟨rule, isRule, rfl⟩
    · exact absurd inLine (notHeader line isHeader)
    · rcases mayPrint_ruleLine _ inLine with isNetwork | blank | ⟨isIpv6, _⟩
      · cases isNetwork
      · cases blank
      · exact ⟨rule, isRule, isIpv6⟩
  · rintro ⟨rule, isRule, isIpv6⟩
    have ends : IPV6_MARK <:+ toColumn rule := by
      rw [toColumn, isIpv6]
      have own : IPV6_MARK <:+ ipv6MarkOf true := List.suffix_cons _ _
      exact (own.trans (List.suffix_append _ _)).trans (List.suffix_append _ _)
    have marked : IPV6_MARK <:+: ruleLine networkText rule :=
      ends.isInfix.trans (List.prefix_append _ _).isInfix
    exact marked.trans (infix_joinLines (List.mem_cons_of_mem _ (allRules rule isRule)))

/-! ### The answer -/

/-- The rule is one for TCP to the port with this action. -/
def Rule.Names (rule : Rule) (port : Nat) (action : RuleAction) : Prop :=
  rule.port = port ∧ rule.protocol ≠ some .udp ∧ rule.action = action

/-- ufw lists a rule for IPv6. -/
def ListsIpv6 (rules : List Rule) : Prop := ∃ rule ∈ rules, rule.source.isIpv6 = true

theorem names_iff_listed (ipv6 : Bool) (action : Keyword) :
    rule.Names port action.ruleAction ∧ rule.source.isIpv6 = ipv6 ↔
      (rule.listed [] ipv6 port action || rule.listed TCP_SUFFIX ipv6 port action) = true := by
  have isTcp : rule.protocol ≠ some .udp ↔
      protocolText rule.protocol = [] ∨ protocolText rule.protocol = TCP_SUFFIX := by
    generalize rule.protocol = protocol
    rcases protocol with _ | _ | _ <;> decide
  simp only [Rule.Names, isTcp, Rule.listed, Bool.or_eq_true, Bool.and_eq_true, decide_eq_true_eq]
  constructor
  · rintro ⟨⟨rfl, agnostic | tcp, acts⟩, family⟩
    · exact .inl ⟨rfl, agnostic, family, acts⟩
    · exact .inr ⟨rfl, tcp, family, acts⟩
  · rintro (⟨rfl, agnostic, family, acts⟩ | ⟨rfl, tcp, family, acts⟩)
    · exact ⟨⟨rfl, .inl agnostic, acts⟩, family⟩
    · exact ⟨⟨rfl, .inr tcp, acts⟩, family⟩

/-- The two patterns of one family find the rules for TCP to the port. -/
theorem listed_or_listed_iff (ipv6 : Bool) (action : Keyword) :
    (rules.any (·.listed [] ipv6 port action) ||
        rules.any (·.listed TCP_SUFFIX ipv6 port action)) = true ↔
      ∃ rule ∈ rules, rule.Names port action.ruleAction ∧ rule.source.isIpv6 = ipv6 := by
  simp only [names_iff_listed, Bool.or_eq_true, List.any_eq_true]
  constructor
  · rintro (⟨rule, mem, listed⟩ | ⟨rule, mem, listed⟩)
    · exact ⟨rule, mem, .inl listed⟩
    · exact ⟨rule, mem, .inr listed⟩
  · rintro ⟨rule, mem, listed | listed⟩
    · exact .inl ⟨rule, mem, listed⟩
    · exact .inr ⟨rule, mem, listed⟩

section ValidPort

variable (valid : assertTcpPortForRegex port = some ())
include valid

theorem hasRule_statusText {suffix : List Char} (isSuffix : suffix = [] ∨ suffix = TCP_SUFFIX)
    (ipv6 : Bool) (action : Keyword) :
    hasRule suffix ipv6 (statusText networkText rules) port action =
      some (rules.any (·.listed suffix ipv6 port action)) := by
  simp only [hasRule, valid, multilineTest_statusText isSuffix, Option.bind_eq_bind,
    Option.bind_some, Option.pure_def]

theorem hasTcpRelevantAllowRule_statusText :
    ∃ allowed, hasTcpRelevantAllowRule (statusText networkText rules) port = some allowed ∧
      (allowed = true ↔
        ∃ rule ∈ rules, rule.Names port .allow ∧ rule.source.isIpv6 = false) := by
  refine ⟨_, ?_, listed_or_listed_iff false .ALLOW⟩
  simp only [hasTcpRelevantAllowRule, hasProtocolAgnosticRule, hasTcpRule,
    hasRule_statusText valid (.inl rfl), hasRule_statusText valid (.inr rfl),
    Option.bind_eq_bind, Option.bind_some, Option.pure_def]

theorem hasTcpRelevantIpv6AllowRule_statusText :
    ∃ allowed, hasTcpRelevantIpv6AllowRule (statusText networkText rules) port = some allowed ∧
      (allowed = true ↔
        ∃ rule ∈ rules, rule.Names port .allow ∧ rule.source.isIpv6 = true) := by
  refine ⟨_, ?_, listed_or_listed_iff true .ALLOW⟩
  simp only [hasTcpRelevantIpv6AllowRule, hasProtocolAgnosticIpv6Rule, hasTcpIpv6Rule,
    hasRule_statusText valid (.inl rfl), hasRule_statusText valid (.inr rfl),
    Option.bind_eq_bind, Option.bind_some, Option.pure_def]

theorem hasTcpRelevantDenyRule_statusText :
    ∃ denied, hasTcpRelevantDenyRule (statusText networkText rules) port = some denied ∧
      (denied = true ↔ ∃ rule ∈ rules, rule.Names port .deny) := by
  let named (ipv6 : Bool) : Bool := rules.any (·.listed [] ipv6 port .DENY) ||
    rules.any (·.listed TCP_SUFFIX ipv6 port .DENY)
  have inFamily (ipv6 : Bool) : named ipv6 = true ↔
      ∃ rule ∈ rules, rule.Names port .deny ∧ rule.source.isIpv6 = ipv6 :=
    listed_or_listed_iff ipv6 .DENY
  refine ⟨named false || (rules.any (·.source.isIpv6) && named true), ?_, ?_⟩
  · simp only [hasTcpRelevantDenyRule, hasProtocolAgnosticRule, hasTcpRule,
      hasProtocolAgnosticIpv6Rule, hasTcpIpv6Rule, hasRule_statusText valid (.inl rfl),
      hasRule_statusText valid (.inr rfl), statusIncludesIpv6Rules_statusText,
      Option.bind_eq_bind, Option.bind_some, Option.pure_def]
    rfl
  · rw [Bool.or_eq_true, inFamily false, Bool.and_eq_true, inFamily true, List.any_eq_true]
    constructor
    · rintro (⟨rule, mem, denies, _⟩ | ⟨_, rule, mem, denies, _⟩)
      · exact ⟨rule, mem, denies⟩
      · exact ⟨rule, mem, denies⟩
    · rintro ⟨rule, mem, denies⟩
      cases family : rule.source.isIpv6 with
      | false => exact .inl ⟨rule, mem, denies, family⟩
      | true => exact .inr ⟨⟨rule, mem, family⟩, rule, mem, denies, family⟩

/-- When the answer is `allowed` -/
theorem classify_allowed_iff :
    classifyUfwStatusTcpAccess (statusText networkText rules) port = some .allowed ↔
      (¬∃ rule ∈ rules, rule.Names port .deny) ∧
        (∃ rule ∈ rules, rule.Names port .allow ∧ rule.source.isIpv6 = false) ∧
        (ListsIpv6 rules → ∃ rule ∈ rules, rule.Names port .allow ∧ rule.source.isIpv6 = true) := by
  obtain ⟨denied, isDenied, deniedIff⟩ := @hasTcpRelevantDenyRule_statusText networkText
    rules port valid
  obtain ⟨allowed, isAllowed, allowedIff⟩ := @hasTcpRelevantAllowRule_statusText
    networkText rules port valid
  obtain ⟨allowedIpv6, isAllowedIpv6, allowedIpv6Iff⟩ := @hasTcpRelevantIpv6AllowRule_statusText
    networkText rules port valid
  have active := @statusReportsActive_statusText networkText rules
  have listsIpv6 : rules.any (·.source.isIpv6) = true ↔ ListsIpv6 rules := List.any_eq_true
  rw [← deniedIff, ← allowedIff, ← allowedIpv6Iff, ← listsIpv6]
  simp only [classifyUfwStatusTcpAccess, active, isDenied, isAllowed, isAllowedIpv6,
    statusIncludesIpv6Rules_statusText, Option.bind_eq_bind, Option.bind_some, Option.pure_def]
  cases denied <;> cases allowed <;> cases rules.any (·.source.isIpv6) <;> cases allowedIpv6 <;>
    decide

end ValidPort

theorem classify_invalid (invalid : assertTcpPortForRegex port = none) :
    classifyUfwStatusTcpAccess (statusText networkText rules) port = none := by
  have active := @statusReportsActive_statusText networkText rules
  simp only [classifyUfwStatusTcpAccess, active, hasTcpRelevantDenyRule, hasProtocolAgnosticRule,
    hasRule, invalid, Option.bind_eq_bind, Option.bind_none]
  rfl

/-! ### What ufw lets in -/

/-- ufw lets a TCP connection to the port in from everywhere. -/
def LetsEveryoneIn (rules : List Rule) (port : Nat) : Prop :=
  (∀ bits, letsIn rules port (.ipv4 bits) = true) ∧
    (ListsIpv6 rules → ∀ bits, letsIn rules port (.ipv6 bits) = true)

/-- An incoming rule lets the address in, and none before it rejects the address. -/
def Admitted (rules : List Rule) (port : Nat) (address : Address) : Prop :=
  ∃ before rule after, rules = before ++ rule :: after ∧ rule.applies port address = true ∧
    (rule.action = .allow ∨ rule.action = .limit) ∧
    ∀ earlier ∈ before, earlier.action = .reject → earlier.applies port address = false

/-- The admitted addresses of every family that ufw lists -/
def AdmitsEveryone (rules : List Rule) (port : Nat) : Prop :=
  (∀ bits, Admitted rules port (.ipv4 bits)) ∧
    (ListsIpv6 rules → ∀ bits, Admitted rules port (.ipv6 bits))

theorem Rule.names_of_applies {address : Address} (applies : rule.applies port address = true) :
    rule.Names port rule.action := by
  simp only [Rule.applies, Bool.and_eq_true, decide_eq_true_eq] at applies
  exact ⟨applies.1.1.2, applies.1.2, rfl⟩

theorem letsIn_iff_admitted (neverDenied : ¬∃ rule ∈ rules, rule.Names port .deny)
    (address : Address) : letsIn rules port address = true ↔ Admitted rules port address := by
  have notDenied (rule : Rule) (mem : rule ∈ rules) (applies : rule.applies port address = true) :
      rule.action ≠ .deny := fun denies =>
    neverDenied ⟨rule, mem, denies ▸ rule.names_of_applies applies⟩
  unfold letsIn
  constructor
  · intro lets
    cases first : rules.find? (·.applies port address) with
    | none =>
      rw [first] at lets
      cases lets
    | some rule =>
      obtain ⟨applies, before, after, isSplit, noneBefore⟩ := List.find?_eq_some_iff_append.1 first
      rw [first] at lets
      simp only [Bool.or_eq_true, decide_eq_true_eq] at lets
      refine ⟨before, rule, after, isSplit, applies, lets, fun earlier mem _ => ?_⟩
      simpa using noneBefore earlier mem
  · rintro ⟨before, rule, after, rfl, applies, lets, noReject⟩
    have finds : (rule :: after).find? (·.applies port address) = some rule :=
      List.find?_cons_of_pos applies
    rw [List.find?_append, finds]
    cases first : before.find? (·.applies port address) with
    | none =>
      rw [Option.none_or]
      simpa only [Bool.or_eq_true, decide_eq_true_eq] using lets
    | some earlier =>
      have mem : earlier ∈ before := List.mem_of_find?_eq_some first
      have alsoApplies : earlier.applies port address = true := by
        have found := List.find?_some first
        exact found
      have denies := notDenied earlier (List.mem_append_left _ mem) alsoApplies
      have rejects := noReject earlier mem
      rw [alsoApplies] at rejects
      rw [Option.some_or]
      cases acts : earlier.action with
      | allow => simp [acts]
      | limit => simp [acts]
      | deny => exact absurd acts denies
      | reject => cases rejects acts

theorem letsEveryoneIn_iff (neverDenied : ¬∃ rule ∈ rules, rule.Names port .deny) :
    LetsEveryoneIn rules port ↔ AdmitsEveryone rules port := by
  simp only [LetsEveryoneIn, AdmitsEveryone, letsIn_iff_admitted neverDenied]

/-- The answer `allowed` is right exactly for these rules: one denies the port, a listed
family has none that allows it, or the incoming ones that let it in do so for every address
before another rejects it. -/
theorem allowed_lets_everyone_in_iff (networkText : NetworkText) (rules : List Rule) (port : Nat) :
    (classifyUfwStatusTcpAccess (statusText networkText rules) port = some .allowed →
        LetsEveryoneIn rules port) ↔
      assertTcpPortForRegex port = none ∨
      (∃ rule ∈ rules, rule.Names port .deny) ∨
      (¬∃ rule ∈ rules, rule.Names port .allow ∧ rule.source.isIpv6 = false) ∨
      (ListsIpv6 rules ∧ ¬∃ rule ∈ rules, rule.Names port .allow ∧ rule.source.isIpv6 = true) ∨
      AdmitsEveryone rules port := by
  by_cases valid : assertTcpPortForRegex port = some ()
  · have notInvalid : assertTcpPortForRegex port ≠ none := by
      rw [valid]
      exact nofun
    rw [classify_allowed_iff valid, or_iff_right notInvalid]
    constructor
    · intro right
      by_contra! none_
      obtain ⟨neverDenied, allowed, allowedIpv6, obstructed⟩ := none_
      have lets := right ⟨fun ⟨rule, mem, denies⟩ => neverDenied rule mem denies, allowed, allowedIpv6⟩
      exact obstructed ((letsEveryoneIn_iff fun ⟨rule, mem, denies⟩ =>
        neverDenied rule mem denies).1 lets)
    · rintro (denied | notAllowed | ⟨listed, notAllowed⟩ | admits) ⟨neverDenied, allowed, allowedIpv6⟩
      · exact absurd denied neverDenied
      · exact absurd allowed notAllowed
      · exact absurd (allowedIpv6 listed) notAllowed
      · exact (letsEveryoneIn_iff neverDenied).2 admits
  · have invalid : assertTcpPortForRegex port = none := by
      cases isValid : assertTcpPortForRegex port with
      | none => rfl
      | some _ => exact absurd isValid valid
    have throws := @classify_invalid networkText rules port invalid
    simp [throws, invalid]

/-- The text of a network in dotted decimals or in groups of four hexadecimal digits -/
def dottedText : NetworkText where
  ipv4 network :=
    let octet (start : Nat) := decimal (network.address.extractLsb' start 8).toNat
    octet 24 ++ '.' :: (octet 16 ++ '.' :: (octet 8 ++ '.' :: (octet 0 ++
      '/' :: decimal network.prefixLength)))
  ipv6 network :=
    let nibble (place : Nat) := (network.address.extractLsb' (124 - 4 * place) 4).toNat.digitChar
    (List.range 32).flatMap (fun place =>
      if place % 4 = 0 ∧ 0 < place then [':', nibble place] else [nibble place]) ++
        '/' :: decimal network.prefixLength
  ipv4Characters network char mem := by
    have digits {value : Nat} (own : char ∈ decimal value) : isNetworkCharacter char = true :=
      isNetworkCharacter_of_isDigit (isDigit_of_mem_decimal own)
    simp only [List.mem_append, List.mem_cons] at mem
    rcases mem with own | rfl | own | rfl | own | rfl | own | rfl | own
    all_goals first | exact digits own | rfl
  ipv6Characters network char mem := by
    have hexadecimal : ∀ nibble : BitVec 4, isNetworkCharacter nibble.toNat.digitChar = true := by
      decide
    rcases List.mem_append.1 mem with inGroups | isLength
    · obtain ⟨place, _, own⟩ := List.mem_flatMap.1 inGroups
      split at own
      · rcases List.mem_cons.1 own with rfl | isNibble
        · rfl
        · rw [List.mem_singleton.1 isNibble]
          exact hexadecimal _
      · rw [List.mem_singleton.1 own]
        exact hexadecimal _
    · rcases List.mem_cons.1 isLength with rfl | isDecimal
      · rfl
      · exact isNetworkCharacter_of_isDigit (isDigit_of_mem_decimal isDecimal)

/-- `22/tcp ALLOW 10.0.0.0/8` -/
def officeOnly : List Rule :=
  [{ action := .allow, direction := .incoming, port := 22, protocol := some .tcp,
     source := .ipv4 (some { address := 0x0a000000#32, prefixLength := 8 }) }]

/-- Port 22 is said to be open, but is closed outside one network. -/
theorem office_only_locks_out :
    classifyUfwStatusTcpAccess (statusText dottedText officeOnly) 22 = some .allowed ∧
      letsIn officeOnly 22 (.ipv4 0xc0000201#32) = false ∧
      ¬∀ (networkText : NetworkText) (rules : List Rule) (port : Nat),
        classifyUfwStatusTcpAccess (statusText networkText rules) port = some .allowed →
          LetsEveryoneIn rules port := by
  have answered :
      classifyUfwStatusTcpAccess (statusText dottedText officeOnly) 22 = some .allowed := by
    decide +kernel
  have outside : letsIn officeOnly 22 (.ipv4 0xc0000201#32) = false := by decide +kernel
  refine ⟨answered, outside, fun sound => ?_⟩
  have lets := (sound dottedText officeOnly 22 answered).1 0xc0000201#32
  rw [outside] at lets
  cases lets

end Paratix.Firewall
