/-
Module: Paratix.Keys.AuthorizedKeys
Purpose: `ssh.authorizedKeys`: check and apply on the home directory of a user, with
  the scripts that they run there.
Main exports: Account, Account.lines
-/
import Paratix.Foundation.Lines
import Paratix.Foundation.Utf8
import Paratix.Keys.PublicKey

namespace Paratix.Keys

open Foundation Archive

/-! ### The home directory -/

inductive KeysState where
  | absent
  | present
deriving DecidableEq, Repr

def KeysState.text : KeysState → Text
  | .absent => Archive.text "absent"
  | .present => Archive.text "present"

/-- What `stat -c '%a %U %G'` prints. -/
structure Attributes where
  mode : Text
  owner : Text
  group : Text
deriving DecidableEq

/-- What stands at `authorized_keys`. -/
inductive KeysEntry where
  | missing
  /-- `reaches`: the link is not dangling -/
  | symlink (reaches : Bool)
  /-- There is something that is no regular file. -/
  | special (attributes : Attributes) (kind : Text)
  | file (attributes : Attributes) (content : Buffer)
deriving DecidableEq

/-- What stands at `.ssh`, with `authorized_keys` in it. -/
inductive SshDirectory where
  | missing
  | special
  | symlink (reaches : Bool) (keys : KeysEntry)
  | directory (attributes : Attributes) (keys : KeysEntry)
deriving DecidableEq

structure Account where
  /-- The home directory that `getent` prints. -/
  home : Text
  /-- What `id -gn` prints, if it succeeds. -/
  primaryGroup : Option Text
  sshDirectory : SshDirectory
deriving DecidableEq

def Account.keys (account : Account) : KeysEntry :=
  match account.sshDirectory with
  | .missing => .missing
  | .special => .missing
  | .symlink _ keys => keys
  | .directory _ keys => keys

/-- `[ -e path ]` -/
def KeysEntry.exists : KeysEntry → Bool
  | .missing => false
  | .symlink reaches => reaches
  | .special .. => true
  | .file .. => true

def KeysEntry.isSymlink : KeysEntry → Bool
  | .symlink _ => true
  | _ => false

def SshDirectory.exists : SshDirectory → Bool
  | .missing => false
  | .symlink reaches _ => reaches
  | .special => true
  | .directory .. => true

def DIRECTORY_KIND : Text := text "directory"

def REGULAR_FILE_KIND : Text := text "regular file"

/-- `stat` has a kind of its own for files without content. -/
def fileKind (content : Buffer) : Text :=
  if content = [] then text "regular empty file" else REGULAR_FILE_KIND

/-- `stat -c '%a %U %G %F'` -/
def statText (attributes : Attributes) (kind : Text) : Text :=
  attributes.mode ++ ' ' :: (attributes.owner ++ ' ' :: (attributes.group ++ ' ' :: kind))

/-! ### Lines -/

def NEWLINE : UInt8 := 0x0a

/-- `grep -qxF -- key` -/
def grepLine (key : Buffer) (content : Buffer) : Bool := key ∈ fileLines NEWLINE content

/-- `grep -vxF -- key` -/
def grepOtherLines (key : Buffer) (content : Buffer) : Buffer :=
  fileText NEWLINE ((fileLines NEWLINE content).filter (· ≠ key))

/-- `printf '%s\n' key` -/
def printLine (key : Buffer) : Buffer := key ++ [NEWLINE]

/-! ### Results -/

inductive ModuleResult where
  | ok
  | changed
  | failed (error : Text)
deriving DecidableEq

def ModuleResult.succeeded : ModuleResult → Bool
  | .failed _ => false
  | _ => true

inductive CheckResult where
  | needsApply
  | ok
deriving DecidableEq, Repr

/-- The guards of the scripts print one line and exit with 1. -/
def failedCommand (message stderr : Text) : ModuleResult :=
  .failed (message ++ text " (exit code 1)\n" ++ stderr)

structure Parameters where
  key : Text
  state : KeysState
  user : Text
deriving DecidableEq

def Parameters.label (parameters : Parameters) : Text :=
  text "[ssh.authorizedKeys: " ++ parameters.user ++ text " (" ++ parameters.state.text ++ text ")]"

/-! ### Home and group -/

def isSafeAuthorizedKeysHome (home : Text) : Bool :=
  home ≠ [] && home.head? = some '/' && home ≠ ['/'] && ':' ∉ home && '\r' ∉ home && '\n' ∉ home

/-- `none` is the error of an unsafe home directory. -/
def resolveHome (account : Account) : Option Text :=
  if isSafeAuthorizedKeysHome account.home then some account.home else none

def unsafeHomeMessage (user : Text) : Text :=
  text "[ssh.authorizedKeys: " ++ user ++ text "] failed to resolve a safe home directory"

def resolvePrimaryGroup (account : Account) (user : Text) : Text :=
  match account.primaryGroup with
  | none => user
  | some stdout => if trim stdout = [] then user else trim stdout

/-! ### The scripts -/

def KEYS_SYMLINK : Text := text "authorized_keys must not be a symlink"

def KEYS_NOT_REGULAR : Text := text "authorized_keys must be a regular file"

/-- `chmod 700` and `chown` -/
def ownedDirectory (user primaryGroup : Text) : Attributes :=
  { mode := text "700", owner := user, group := primaryGroup }

/-- `chmod 600` and `chown` -/
def ownedFile (user primaryGroup : Text) : Attributes :=
  { mode := text "600", owner := user, group := primaryGroup }

/-- The account after the script and, if a guard failed, what it printed. -/
def prepareScript (user primaryGroup : Text) (account : Account) : Account × Option Text :=
  let attributes := ownedDirectory user primaryGroup
  match account.sshDirectory with
  | .symlink .. => (account, some (text ".ssh must not be a symlink"))
  | .special => (account, some (text ".ssh must be a directory"))
  | .missing => ({ account with sshDirectory := .directory attributes .missing }, none)
  | .directory _ keys =>
      ({ account with sshDirectory := .directory attributes keys },
        if keys.isSymlink then some KEYS_SYMLINK else none)

def ensureSshDirectoryAndAuthorizedKeysAreNotSymlinks (parameters : Parameters)
    (primaryGroup : Text) (account : Account) : Account × Option ModuleResult :=
  match prepareScript parameters.user primaryGroup account with
  | (prepared, none) => (prepared, none)
  | (prepared, some stderr) =>
      let label := if KEYS_SYMLINK <:+: stderr then text " authorized_keys symlink check failed"
        else text " failed to prepare .ssh directory"
      (prepared, some (failedCommand (parameters.label ++ label) stderr))

/-- The content of the temporary file, or what a guard printed. -/
def stageScript (parameters : Parameters) (keys : KeysEntry) : Except Text Buffer :=
  let key := utf8Bytes parameters.key
  match keys with
  | .symlink true => .error KEYS_SYMLINK
  | .special .. => .error KEYS_NOT_REGULAR
  | .file _ content =>
      .ok <| match parameters.state with
        | .present => if grepLine key content then content else content ++ printLine key
        | .absent => grepOtherLines key content
  | .missing | .symlink false =>
      .ok <| match parameters.state with
        | .present => printLine key
        | .absent => []

def stageAuthorizedKeysContent (parameters : Parameters) (account : Account) :
    Except ModuleResult Buffer :=
  (stageScript parameters account.keys).mapError
    (failedCommand (parameters.label ++ text " failed to stage authorized_keys rewrite"))

def expectedDirectoryState (user primaryGroup : Text) : Text :=
  statText (ownedDirectory user primaryGroup) DIRECTORY_KIND

def expectedKeysState (user primaryGroup : Text) : Text :=
  statText (ownedFile user primaryGroup) REGULAR_FILE_KIND

def replaceScript (user primaryGroup : Text) (temporary : Buffer) (account : Account) :
    Account × Option Text :=
  match account.sshDirectory with
  | .symlink .. => (account, some (text ".ssh must not be a symlink"))
  | .missing => (account, some (text ".ssh must be a directory"))
  | .special => (account, some (text ".ssh must be a directory"))
  | .directory attributes keys =>
      if statText attributes DIRECTORY_KIND ≠ expectedDirectoryState user primaryGroup then
        (account, some (text ".ssh ownership changed before authorized_keys replace"))
      else
        match keys with
        | .symlink _ => (account, some KEYS_SYMLINK)
        | .special .. => (account, some KEYS_NOT_REGULAR)
        | .missing | .file .. =>
            let written := ownedFile user primaryGroup
            -- the rename comes before the check of what it left
            ({ account with sshDirectory := .directory attributes (.file written temporary) },
              if statText written (fileKind temporary) ≠ expectedKeysState user primaryGroup
              then some (text "authorized_keys metadata changed during replace")
              else none)

def replaceAuthorizedKeysAtomically (parameters : Parameters) (primaryGroup : Text)
    (temporary : Buffer) (account : Account) : Account × Option ModuleResult :=
  match replaceScript parameters.user primaryGroup temporary account with
  | (replaced, none) => (replaced, none)
  | (replaced, some stderr) =>
      (replaced, some (failedCommand
        (parameters.label ++ text " failed to replace authorized_keys") stderr))

/-! ### Apply -/

def finalizeAuthorizedKeysCheck (state : KeysState) (keyExists securityStateIsValid : Bool) :
    CheckResult :=
  match state with
  | .present => if keyExists && securityStateIsValid then .ok else .needsApply
  | .absent => if keyExists || !securityStateIsValid then .needsApply else .ok

/-- Asked only where both paths exist. -/
def authorizedKeysSecurityStateIsValid (user primaryGroup : Text) (account : Account) : Bool :=
  match account.sshDirectory with
  | .directory attributes keys =>
      trim (statText attributes DIRECTORY_KIND) = expectedDirectoryState user primaryGroup &&
        match keys with
        | .file fileAttributes content =>
            trim (statText fileAttributes (fileKind content)) = expectedKeysState user primaryGroup
        | .special fileAttributes kind =>
            trim (statText fileAttributes kind) = expectedKeysState user primaryGroup
        | _ => false
  | _ => false

def KeysEntry.grepLine (key : Buffer) : KeysEntry → Bool
  | .file _ content => Keys.grepLine key content
  | _ => false

def authorizedKeysApplyIsConverged (parameters : Parameters) (primaryGroup : Text)
    (account : Account) : Bool :=
  if !account.keys.exists then parameters.state = .absent
  else
    let keyExists := account.keys.grepLine (utf8Bytes parameters.key)
    if parameters.state = .present && !keyExists then false
    else if parameters.state = .absent && keyExists then false
    else
      let securityStateIsValid :=
        authorizedKeysSecurityStateIsValid parameters.user primaryGroup account
      finalizeAuthorizedKeysCheck parameters.state keyExists securityStateIsValid = .ok

def rewriteAuthorizedKeys (parameters : Parameters) (primaryGroup : Text) (account : Account) :
    Account × Option ModuleResult :=
  match stageAuthorizedKeysContent parameters account with
  | .error failure => (account, some failure)
  | .ok temporary => replaceAuthorizedKeysAtomically parameters primaryGroup temporary account

def rewriteAuthorizedKeysWhenNeeded (parameters : Parameters) (primaryGroup : Text)
    (account : Account) : Account × ModuleResult :=
  if authorizedKeysApplyIsConverged parameters primaryGroup account then (account, .ok)
  else
    match rewriteAuthorizedKeys parameters primaryGroup account with
    | (rewritten, some failure) => (rewritten, failure)
    | (rewritten, none) => (rewritten, .changed)

/-- `[ -e path ] || [ -L path ]` -/
def absentAuthorizedKeysPathNeedsGuard (account : Account) : Bool :=
  account.keys.exists || account.keys.isSymlink

def applyAuthorizedKeys (parameters : Parameters) (account : Account) : Account × ModuleResult :=
  match resolveHome account with
  | none =>
      match parameters.state with
      | .absent => (account, .ok)
      | .present => (account, .failed (unsafeHomeMessage parameters.user))
  | some _ =>
      if parameters.state = .absent && !absentAuthorizedKeysPathNeedsGuard account then
        (account, .ok)
      else
        let primaryGroup := resolvePrimaryGroup account parameters.user
        match ensureSshDirectoryAndAuthorizedKeysAreNotSymlinks parameters primaryGroup account with
        | (prepared, some failure) => (prepared, failure)
        | (prepared, none) => rewriteAuthorizedKeysWhenNeeded parameters primaryGroup prepared

/-! ### Check -/

def checkResultForMissingAuthorizedKeysFiles : KeysState → CheckResult
  | .present => .needsApply
  | .absent => .ok

def checkAuthorizedKeys (parameters : Parameters) (account : Account) : CheckResult :=
  match resolveHome account with
  | none => checkResultForMissingAuthorizedKeysFiles parameters.state
  | some _ =>
      if !(account.sshDirectory.exists && account.keys.exists) then
        checkResultForMissingAuthorizedKeysFiles parameters.state
      else
        let primaryGroup := resolvePrimaryGroup account parameters.user
        let securityStateIsValid :=
          authorizedKeysSecurityStateIsValid parameters.user primaryGroup account
        if !securityStateIsValid then .needsApply
        else
          finalizeAuthorizedKeysCheck parameters.state
            (account.keys.grepLine (utf8Bytes parameters.key)) securityStateIsValid

/-! ### The managed lines -/

/-- The content of the file that the module manages. -/
def Account.content (account : Account) : Buffer :=
  match resolveHome account, account.keys with
  | some _, .file _ content => content
  | _, _ => []

def Account.lines (account : Account) : List Buffer := fileLines NEWLINE account.content

end Paratix.Keys
