/-
# `GoodDealer.Identity.Authentication` — sessions, refresh families and their credentials

The transactions of `modules/identity/postgres-authentication-repository.ts` over the four
tables of migrations `202608200003` and `202608200016`.  A session has one refresh family; the
family row names the refresh credential at its head.  A refresh is made in two transactions,
`prepareRefresh` and `commitRefresh`, with a compare-and-swap on the family row between them;
`recoverRefresh` reads the outcome of a commit again.

A transaction either commits new tables with a result or raises and leaves the tables as they
were.  `now` is the transaction timestamp, a parameter of every transaction that reads it.

| source | here |
| :-- | :-- |
| `issueInitial` | `IdentityTables.issueInitial` |
| `identifyRefreshCredential` | `IdentityTables.identifyRefreshCredential` |
| `prepareRefresh`, `commitRefresh`, `recoverRefresh` | the same names |
| `advanceSecurityEpoch` | `IdentityTables.advanceSecurityEpoch` |
| `revokeFamily` | `IdentityTables.revokeFamily` |

The machine `authentication` runs these calls in any order.  A caller of `prepareRefresh` passes
a snapshot that `identifyRefreshCredential` returned, and a caller of `commitRefresh` a
preparation that `prepareRefresh` returned, at any later time and any number of times.
-/
import GoodDealer.Lib.Keyed
import GoodDealer.Lib.Machine
import GoodDealer.Lib.Table
import GoodDealer.Protocol.Fields

namespace GoodDealer.Identity

open Table

/-! ## The tables -/

inductive SecurityStatus where
  | normal
  | recoveryPending
deriving DecidableEq

/-- `identity_account_security_states`. -/
structure AccountSecurityState where
  accountId : String
  accountSecurityEpoch : Nat
  status : SecurityStatus
  sessionListRevision : Nat
deriving DecidableEq

inductive ClientKind where
  | desktop
  | accountWeb
deriving DecidableEq

inductive AuthMethod where
  | password
  | passkey
  | oauthPkce
deriving DecidableEq

/-- `identity_auth_sessions`. -/
structure AuthSession where
  accountId : String
  sessionId : String
  clientKind : ClientKind
  deviceId : Option String
  authMethod : AuthMethod
  rememberDevice : Bool
  epochAtIssue : Nat
  rotationGeneration : Nat
  expiresAt : Option Nat
  revokedAt : Option Nat
  revocationReason : Option String
deriving DecidableEq

inductive FamilyState where
  | active
  | revoked
deriving DecidableEq

/-- The account, the family and the session of a credential. -/
structure Owner where
  accountId : String
  familyId : String
  sessionId : String
deriving DecidableEq

/-- `identity_refresh_families`. -/
structure RefreshFamily extends Owner where
  currentRefreshJti : String
  generation : Nat
  state : FamilyState
  revokedAt : Option Nat
  revocationReason : Option String
deriving DecidableEq

inductive CredentialKind where
  | access
  | refresh
deriving DecidableEq

/-- An access credential is active or revoked, a refresh credential one of the other three. -/
inductive CredentialState where
  | active
  | current
  | rotated
  | revoked
deriving DecidableEq

/-- `identity_credential_jtis`. -/
structure CredentialJti extends Owner where
  jti : String
  kind : CredentialKind
  state : CredentialState
  issuedEpoch : Nat
  expiresAt : Nat
  rotationRequestId : Option String
  resultingGeneration : Option Nat
deriving DecidableEq

structure IdentityTables where
  securityStates : List AccountSecurityState
  authSessions : List AuthSession
  refreshFamilies : List RefreshFamily
  credentialJtis : List CredentialJti
deriving DecidableEq

def AuthSession.key (s : AuthSession) : String × String := (s.accountId, s.sessionId)

/-- The primary key of a family. -/
def Owner.familyKey (o : Owner) : String × String := (o.accountId, o.familyId)

/-- The session of a family, which no other family has. -/
def Owner.sessionKey (o : Owner) : String × String := (o.accountId, o.sessionId)

/-- The row of a new credential. -/
def Owner.credential (owner : Owner) (issuedEpoch : Nat) (kind : CredentialKind) (jti : String)
    (expiresAt : Nat) : CredentialJti where
  toOwner := owner
  jti := jti
  kind := kind
  state := if kind = .access then .active else .current
  issuedEpoch := issuedEpoch
  expiresAt := expiresAt
  rotationRequestId := none
  resultingGeneration := none

/-! ## Statements -/

/-- What a transaction raises. -/
inductive IdentityError where
  | refused (violation : Violation)
  | refreshCasInvariantFailed
  | accountSecurityStateUnresolved
  | storedIdentityIntegerInvalid
deriving DecidableEq

/-- The outcome of a statement on one table. -/
def refusing {α : Type} : Except Violation α → Except IdentityError α
  | .ok a => .ok a
  | .error v => .error (.refused v)

/-- `jti ~ '^[!-~]{1,200}$'`. -/
def validJti (s : String) : Bool :=
  1 ≤ s.toList.length && s.toList.length ≤ 200 && s.toList.all (fun c => '!' ≤ c && c ≤ '~')

def parseSafeInteger (n : Nat) : Except IdentityError Nat :=
  if n ≤ maxSafeInteger then .ok n else .error .storedIdentityIntegerInvalid

def parsePositiveInteger (n : Nat) : Except IdentityError Nat := do
  let parsed ← parseSafeInteger n
  if parsed < 1 then .error .storedIdentityIntegerInvalid else .ok parsed

namespace IdentityTables

variable (t : IdentityTables)

def securityState (accountId : String) : Option AccountSecurityState :=
  Keyed.lookup AccountSecurityState.accountId accountId t.securityStates

def authSession (key : String × String) : Option AuthSession :=
  Keyed.lookup AuthSession.key key t.authSessions

def refreshFamily (key : String × String) : Option RefreshFamily :=
  Keyed.lookup (fun f => f.familyKey) key t.refreshFamilies

def credentialJti (jti : String) : Option CredentialJti :=
  Keyed.lookup CredentialJti.jti jti t.credentialJtis

/-- `lockSecurityState`. -/
def lockSecurityState (accountId : String) :
    Except IdentityError (Option (Nat × SecurityStatus)) :=
  match t.securityState accountId with
  | none => .ok none
  | some row => do
    let epoch ← parseSafeInteger row.accountSecurityEpoch
    .ok (some (epoch, row.status))

/-- `SET session_list_revision = session_list_revision + 1`, with the column's check. -/
def advanceSessionListRevision (accountId : String) : Except IdentityError IdentityTables :=
  if (t.securityStates.filter (·.accountId == accountId)).all
      (fun a => decide (a.sessionListRevision + 1 ≤ maxSafeInteger)) then
    .ok { t with
      securityStates := updateWhere (·.accountId == accountId)
        (fun a => { a with sessionListRevision := a.sessionListRevision + 1 }) t.securityStates }
  else .error (.refused .check)

/-- `insertCredential`. -/
def insertCredential (now : Nat) (owner : Owner) (issuedEpoch : Nat) (kind : CredentialKind)
    (jti : String) (expiresAt : Nat) : Except IdentityError IdentityTables := do
  let rows ← refusing (insertRow
    (validJti jti && decide (1 ≤ issuedEpoch) && decide (now < expiresAt))
    (t.credentialJti jti).isSome
    ((t.refreshFamily owner.familyKey).isSome && (t.authSession owner.sessionKey).isSome)
    (owner.credential issuedEpoch kind jti expiresAt) t.credentialJtis)
  .ok { t with credentialJtis := rows }

/-- The first three updates of `revokeFamily`: the family, its session and every credential of
the family. -/
def revokeFamilyRows (now : Nat) (owner : Owner) (reason : String) : IdentityTables :=
  { t with
    refreshFamilies := updateWhere
      (fun f => decide (f.toOwner = owner) && decide (f.state = .active))
      (fun f => { f with
        state := .revoked
        revokedAt := some now
        revocationReason := some reason }) t.refreshFamilies
    authSessions := updateWhere (fun s => decide (s.key = owner.sessionKey))
      (fun s => { s with
        revokedAt := some (s.revokedAt.getD now)
        revocationReason := some reason }) t.authSessions
    credentialJtis := updateWhere (fun c => decide (c.familyKey = owner.familyKey))
      (fun c => { c with state := .revoked }) t.credentialJtis }

def revokeFamily (now : Nat) (owner : Owner) (reason : String) :
    Except IdentityError IdentityTables :=
  (t.revokeFamilyRows now owner reason).advanceSessionListRevision owner.accountId

/-- `INSERT INTO identity_account_security_states (account_id)`, with the column defaults. -/
def openSecurityState (accountId : String) : IdentityTables :=
  if (t.securityState accountId).isSome then t
  else
    { t with
      securityStates := t.securityStates ++
        [{ accountId, accountSecurityEpoch := 1, status := .normal, sessionListRevision := 1 }] }

end IdentityTables

/-! ## The transactions -/

structure InitialIssue extends Owner where
  expectedEpoch : Nat
  accessJti : String
  refreshJti : String
  clientKind : ClientKind
  deviceId : Option String
  authMethod : AuthMethod
  rememberDevice : Bool
  accessExpiresAt : Nat
  refreshExpiresAt : Nat
deriving DecidableEq

inductive IssueResult where
  | issued
  | epochConflict
  | credentialJtiConflict
deriving DecidableEq

/-- Only a session of the account web has an end of its own. -/
def InitialIssue.session (input : InitialIssue) : AuthSession where
  accountId := input.accountId
  sessionId := input.sessionId
  clientKind := input.clientKind
  deviceId := input.deviceId
  authMethod := input.authMethod
  rememberDevice := input.rememberDevice
  epochAtIssue := input.expectedEpoch
  rotationGeneration := 0
  expiresAt := if input.clientKind = .accountWeb then some input.refreshExpiresAt else none
  revokedAt := none
  revocationReason := none

def InitialIssue.family (input : InitialIssue) : RefreshFamily where
  toOwner := input.toOwner
  currentRefreshJti := input.refreshJti
  generation := 0
  state := .active
  revokedAt := none
  revocationReason := none

/-- `VerifiedRefreshSnapshot`. -/
structure RefreshSnapshot extends Owner where
  presentedRefreshJti : String
  accountSecurityEpoch : Nat
deriving DecidableEq

structure IdentifiedRefreshCredential extends RefreshSnapshot where
  deviceId : String
  rememberDevice : Bool
deriving DecidableEq

structure PreparedPostgresRefresh extends RefreshSnapshot where
  requestId : String
  expectedGeneration : Nat
deriving DecidableEq

structure ReplayablePostgresRefresh extends RefreshSnapshot where
  generation : Nat
deriving DecidableEq

inductive RefreshPreparation where
  | ready (preparation : PreparedPostgresRefresh)
  | replayable (replay : ReplayablePostgresRefresh)
  | invalidCredentials
  | refreshReuseDetected
  | sessionRevoked
deriving DecidableEq

/-- The credentials a commit issues. -/
structure NextCredentials where
  accessJti : String
  refreshJti : String
  accessExpiresAt : Nat
  refreshExpiresAt : Nat
deriving DecidableEq

inductive RefreshCommitResult where
  | rotated (generation : Nat)
  | refreshRotationConflict
  | credentialJtiConflict
  | refreshReuseDetected
  | sessionRevoked
deriving DecidableEq

structure RecoveredRefresh where
  generation : Nat
  accessExpiresAt : Nat
  refreshExpiresAt : Nat
deriving DecidableEq

/-- `catch (error) { if (isUniqueViolation(error)) return … }`, after the rollback. -/
def catchUnique {α : Type} (t : IdentityTables) (conflict : α) :
    Except IdentityError (IdentityTables × α) → Except IdentityError (IdentityTables × α)
  | .error (.refused .unique) => .ok (t, conflict)
  | result => result

/-- A joined row of `prepareRefresh`. -/
structure RefreshRow where
  credential : CredentialJti
  family : RefreshFamily
  session : AuthSession
  security : AccountSecurityState
deriving DecidableEq

namespace IdentityTables

variable (t : IdentityTables)

/-- The refresh credential with this id, if it is of this account. -/
def refreshCredential (accountId jti : String) : Option CredentialJti :=
  (t.credentialJti jti).filter
    (fun c => decide (c.accountId = accountId) && decide (c.kind = .refresh))

def identifyRefreshCredential (accountId presentedRefreshJti : String) :
    Except IdentityError (Option IdentifiedRefreshCredential) :=
  match t.refreshCredential accountId presentedRefreshJti with
  | none => .ok none
  | some credential =>
    match t.authSession credential.sessionKey, t.securityState accountId with
    | some session, some security =>
      match session.deviceId with
      | none => .ok none
      | some deviceId => do
        let epoch ← parseSafeInteger security.accountSecurityEpoch
        .ok (some
          { accountId
            sessionId := credential.sessionId
            familyId := credential.familyId
            presentedRefreshJti
            accountSecurityEpoch := epoch
            deviceId
            rememberDevice := session.rememberDevice })
    | _, _ => .ok none

/-- `INSERT INTO identity_auth_sessions`. -/
def insertSession (now : Nat) (input : InitialIssue) : Except IdentityError IdentityTables := do
  let rows ← refusing (insertRow
    (validIdentifier input.sessionId && decide (1 ≤ input.expectedEpoch) &&
      decide (input.deviceId.isSome = decide (input.clientKind = .desktop)) &&
      input.session.expiresAt.all (fun e => decide (now < e)))
    (t.authSession input.sessionKey).isSome
    (t.securityState input.accountId).isSome
    input.session t.authSessions)
  .ok { t with authSessions := rows }

/-- `INSERT INTO identity_refresh_families`. -/
def insertFamily (input : InitialIssue) : Except IdentityError IdentityTables := do
  let rows ← refusing (insertRow
    (validIdentifier input.familyId && validJti input.refreshJti)
    ((t.refreshFamily input.familyKey).isSome ||
      t.refreshFamilies.any (fun f => decide (f.sessionKey = input.sessionKey)))
    (t.authSession input.sessionKey).isSome
    input.family t.refreshFamilies)
  .ok { t with refreshFamilies := rows }

/-- The statements of `issueInitial` behind its checks. -/
def insertInitial (now : Nat) (input : InitialIssue) : Except IdentityError IdentityTables := do
  let t ← t.insertSession now input
  let t ← t.insertFamily input
  let t ← t.insertCredential now input.toOwner input.expectedEpoch .access input.accessJti
    input.accessExpiresAt
  let t ← t.insertCredential now input.toOwner input.expectedEpoch .refresh input.refreshJti
    input.refreshExpiresAt
  t.advanceSessionListRevision input.accountId

def issueInitial (now : Nat) (input : InitialIssue) :
    Except IdentityError (IdentityTables × IssueResult) :=
  catchUnique t .credentialJtiConflict do
    match ← t.lockSecurityState input.accountId with
    | some (epoch, .normal) =>
      if epoch = input.expectedEpoch then
        let t ← t.insertInitial now input
        .ok (t, .issued)
      else .ok (t, .epochConflict)
    | _ => .ok (t, .epochConflict)

/-- The join of `prepareRefresh`; each table is joined on its key. -/
def refreshRow (snapshot : RefreshSnapshot) : Option RefreshRow := do
  let credential ← t.refreshCredential snapshot.accountId snapshot.presentedRefreshJti
  if credential.toOwner = snapshot.toOwner then
    let family ← t.refreshFamily credential.familyKey
    let session ← t.authSession credential.sessionKey
    let security ← t.securityState credential.accountId
    some { credential, family, session, security }
  else none

/-- `prepareRefresh` on the joined row, once the session is known to be live. -/
def inspectRefresh (now : Nat) (snapshot : RefreshSnapshot) (requestId : String)
    (row : RefreshRow) : Except IdentityError (IdentityTables × RefreshPreparation) :=
  match row.credential.state with
  | .rotated =>
    match row.credential.resultingGeneration with
    | some resulting =>
      if row.credential.rotationRequestId = some requestId then do
        let generation ← parsePositiveInteger resulting
        .ok (t, .replayable { snapshot with generation })
      else do
        let t ← t.revokeFamily now snapshot.toOwner "refresh_reuse_detected"
        .ok (t, .refreshReuseDetected)
    | none => do
      let t ← t.revokeFamily now snapshot.toOwner "refresh_reuse_detected"
      .ok (t, .refreshReuseDetected)
  | .current =>
    if row.family.currentRefreshJti = row.credential.jti then do
      let expectedGeneration ← parseSafeInteger row.family.generation
      .ok (t, .ready { snapshot with requestId, expectedGeneration })
    else .ok (t, .sessionRevoked)
  | _ => .ok (t, .sessionRevoked)

def prepareRefresh (now : Nat) (snapshot : RefreshSnapshot) (requestId : String) :
    Except IdentityError (IdentityTables × RefreshPreparation) :=
  match t.refreshRow snapshot with
  | none => .ok (t, .invalidCredentials)
  | some row => do
    let epoch ← parseSafeInteger row.security.accountSecurityEpoch
    -- all of these come before the look at the credential's own state
    if row.family.state ≠ .active ∨ row.session.revokedAt.isSome ∨
        row.credential.expiresAt ≤ now ∨ row.session.expiresAt.any (fun e => decide (e ≤ now)) ∨
        row.security.status ≠ .normal ∨ epoch ≠ snapshot.accountSecurityEpoch then
      .ok (t, .sessionRevoked)
    else
      let sessionEpoch ← parseSafeInteger row.session.epochAtIssue
      if sessionEpoch ≠ epoch then .ok (t, .sessionRevoked)
      else t.inspectRefresh now snapshot requestId row

/-- The condition of the compare-and-swap on the family row. -/
def isExpectedHead (p : PreparedPostgresRefresh) (f : RefreshFamily) : Bool :=
  decide (f.toOwner = p.toOwner) && decide (f.state = .active) &&
    decide (f.currentRefreshJti = p.presentedRefreshJti) &&
    decide (f.generation = p.expectedGeneration)

/-- The condition of the update that marks the presented credential. -/
def isPresentedCurrent (p : PreparedPostgresRefresh) (c : CredentialJti) : Bool :=
  decide (c.toOwner = p.toOwner) && decide (c.jti = p.presentedRefreshJti) &&
    decide (c.kind = .refresh) && decide (c.state = .current)

/-- The two updates of a rotation. -/
def rotateHead (p : PreparedPostgresRefresh) (nextRefreshJti : String) (generation : Nat) :
    IdentityTables :=
  { t with
    refreshFamilies := updateWhere (isExpectedHead p)
      (fun f => { f with currentRefreshJti := nextRefreshJti, generation := f.generation + 1 })
      t.refreshFamilies
    credentialJtis := updateWhere (isPresentedCurrent p)
      (fun c => { c with
        state := .rotated
        rotationRequestId := some p.requestId
        resultingGeneration := some generation }) t.credentialJtis }

/-- The last update of a rotation, on the session row. -/
def touchSession (p : PreparedPostgresRefresh) (generation : Nat) : IdentityTables :=
  { t with
    authSessions := updateWhere
      (fun s => decide (s.key = p.sessionKey) && s.revokedAt.isNone &&
        decide (s.epochAtIssue = p.accountSecurityEpoch))
      (fun s => { s with rotationGeneration := generation }) t.authSessions }

/-- `commitRefresh` after the compare-and-swap found the family row. -/
def rotate (now : Nat) (p : PreparedPostgresRefresh) (next : NextCredentials)
    (family : RefreshFamily) : Except IdentityError (IdentityTables × RefreshCommitResult) :=
  let generation := family.generation + 1
  if validJti next.refreshJti = false then .error (.refused .check)
  else if t.credentialJtis.any (isPresentedCurrent p) = false then
    .error .refreshCasInvariantFailed
  else if (validIdentifier p.requestId && decide (generation ≤ maxSafeInteger)) = false then
    .error (.refused .check)
  else do
    let t := t.rotateHead p next.refreshJti generation
    let t ← t.insertCredential now p.toOwner p.accountSecurityEpoch .access next.accessJti
      next.accessExpiresAt
    let t ← t.insertCredential now p.toOwner p.accountSecurityEpoch .refresh next.refreshJti
      next.refreshExpiresAt
    let result ← parseSafeInteger generation
    .ok (t.touchSession p generation, .rotated result)

/-- `commitRefresh` after the compare-and-swap found no row. -/
def missedHead (now : Nat) (p : PreparedPostgresRefresh) :
    Except IdentityError (IdentityTables × RefreshCommitResult) :=
  match (t.refreshCredential p.accountId p.presentedRefreshJti).filter
      (fun c => decide (c.toOwner = p.toOwner)) with
  | none => .ok (t, .sessionRevoked)
  | some winner =>
    match t.refreshFamily winner.familyKey with
    | none => .ok (t, .sessionRevoked)
    | some family =>
      if family.state ≠ .active then .ok (t, .sessionRevoked)
      else if winner.state = .rotated ∧ winner.rotationRequestId ≠ some p.requestId then do
        let t ← t.revokeFamily now p.toOwner "refresh_reuse_detected"
        .ok (t, .refreshReuseDetected)
      else .ok (t, .refreshRotationConflict)

def commitRefresh (now : Nat) (p : PreparedPostgresRefresh) (next : NextCredentials) :
    Except IdentityError (IdentityTables × RefreshCommitResult) :=
  catchUnique t .credentialJtiConflict do
    match ← t.lockSecurityState p.accountId with
    | some (epoch, .normal) =>
      if epoch = p.accountSecurityEpoch then
        match t.refreshFamilies.find? (isExpectedHead p) with
        | none => t.missedHead now p
        | some family => t.rotate now p next family
      else .ok (t, .sessionRevoked)
    | _ => .ok (t, .sessionRevoked)

/-- The joined rows of `recoverRefresh` and its conditions; it writes nothing. -/
def recoverRefresh (now : Nat) (replay : ReplayablePostgresRefresh)
    (requestId accessJti refreshJti : String) : Option RecoveredRefresh := do
  let row ← t.refreshRow replay.toRefreshSnapshot
  let access ← t.credentialJti accessJti
  let refresh ← t.credentialJti refreshJti
  if row.credential.state = .rotated ∧ row.credential.rotationRequestId = some requestId ∧
      row.credential.resultingGeneration = some replay.generation ∧
      access.toOwner = row.credential.toOwner ∧ access.kind = .access ∧ access.state = .active ∧
      refresh.toOwner = row.credential.toOwner ∧ refresh.kind = .refresh ∧
      refresh.state = .current ∧ now < refresh.expiresAt ∧
      row.family.state = .active ∧ row.family.currentRefreshJti = refresh.jti ∧
      row.session.revokedAt = none ∧ row.session.expiresAt.all (fun e => decide (now < e)) ∧
      row.session.epochAtIssue = row.security.accountSecurityEpoch ∧
      row.security.status = .normal ∧ now < row.credential.expiresAt then
    some
      { generation := replay.generation
        accessExpiresAt := access.expiresAt
        refreshExpiresAt := refresh.expiresAt }
  else none

/-- The epoch and the revision of the session list, with the checks of the two columns. -/
def advanceEpoch (accountId : String) (status : SecurityStatus) :
    Except IdentityError IdentityTables :=
  if (t.securityStates.filter (·.accountId == accountId)).all
      (fun a => decide (a.accountSecurityEpoch + 1 ≤ maxSafeInteger) &&
        decide (a.sessionListRevision + 1 ≤ maxSafeInteger)) then
    .ok { t with
      securityStates := updateWhere (·.accountId == accountId)
        (fun a => { a with
          accountSecurityEpoch := a.accountSecurityEpoch + 1
          status
          sessionListRevision := a.sessionListRevision + 1 }) t.securityStates }
  else .error (.refused .check)

/-- The three updates that revoke all of an account. -/
def revokeAccount (now : Nat) (accountId reason : String) : IdentityTables :=
  { t with
    authSessions := updateWhere (·.accountId == accountId)
      (fun s => { s with
        revokedAt := some (s.revokedAt.getD now)
        revocationReason := some (s.revocationReason.getD reason) }) t.authSessions
    refreshFamilies := updateWhere (·.accountId == accountId)
      (fun f => { f with
        state := .revoked
        revokedAt := some (f.revokedAt.getD now)
        revocationReason := some (f.revocationReason.getD reason) }) t.refreshFamilies
    credentialJtis := updateWhere (·.accountId == accountId)
      (fun c => { c with state := .revoked }) t.credentialJtis }

def advanceSecurityEpoch (now : Nat) (accountId : String) (status : SecurityStatus) :
    Except IdentityError (IdentityTables × Nat) := do
  let advanced ← t.advanceEpoch accountId status
  match advanced.securityState accountId with
  | none => .error .accountSecurityStateUnresolved
  | some row => do
    let epoch ← parseSafeInteger row.accountSecurityEpoch
    .ok (advanced.revokeAccount now accountId "account_security_epoch_advanced", epoch)

end IdentityTables

/-! ## Any order of calls -/

inductive IdentityCall where
  | openSecurityState (accountId : String)
  | issueInitial (now : Nat) (input : InitialIssue)
  | identifyRefreshCredential (accountId presentedRefreshJti : String)
  | prepareRefresh (now : Nat) (snapshot : RefreshSnapshot) (requestId : String)
  | commitRefresh (now : Nat) (preparation : PreparedPostgresRefresh) (next : NextCredentials)
  | recoverRefresh (now : Nat) (replay : ReplayablePostgresRefresh)
      (requestId accessJti refreshJti : String)
  | advanceSecurityEpoch (now : Nat) (accountId : String) (status : SecurityStatus)
deriving DecidableEq

inductive IdentityReply where
  | opened
  | issue (result : IssueResult)
  | identified (credential : Option IdentifiedRefreshCredential)
  | preparation (result : RefreshPreparation)
  | commit (result : RefreshCommitResult)
  | recovered (result : Option RecoveredRefresh)
  | epoch (epoch : Nat)
  | raised (error : IdentityError)
  /-- The caller does not hold the value it would have to pass. -/
  | notHeld
deriving DecidableEq

/-- The tables, and what the callers were handed. -/
structure AuthenticationState where
  tables : IdentityTables
  identified : List RefreshSnapshot
  prepared : List PreparedPostgresRefresh
deriving DecidableEq

namespace AuthenticationState

/-- Before the first account. -/
def initial : AuthenticationState := ⟨⟨[], [], [], []⟩, [], []⟩

variable (s : AuthenticationState)

/-- Commit the tables of a transaction that went through. -/
def settle {α : Type} (reply : α → IdentityReply) :
    Except IdentityError (IdentityTables × α) → AuthenticationState × IdentityReply
  | .ok (tables, result) => ({ s with tables }, reply result)
  | .error e => (s, .raised e)

def call : IdentityCall → AuthenticationState × IdentityReply
  | .openSecurityState accountId =>
    ({ s with tables := s.tables.openSecurityState accountId }, .opened)
  | .issueInitial now input => s.settle .issue (s.tables.issueInitial now input)
  | .identifyRefreshCredential accountId jti =>
    match s.tables.identifyRefreshCredential accountId jti with
    | .error e => (s, .raised e)
    | .ok none => (s, .identified none)
    | .ok (some credential) =>
      ({ s with identified := credential.toRefreshSnapshot :: s.identified },
        .identified (some credential))
  | .prepareRefresh now snapshot requestId =>
    if snapshot ∈ s.identified then
      match s.settle .preparation (s.tables.prepareRefresh now snapshot requestId) with
      | (s', .preparation (.ready p)) =>
        ({ s' with prepared := p :: s'.prepared }, .preparation (.ready p))
      | result => result
    else (s, .notHeld)
  | .commitRefresh now p next =>
    if p ∈ s.prepared then s.settle .commit (s.tables.commitRefresh now p next)
    else (s, .notHeld)
  | .recoverRefresh now replay requestId accessJti refreshJti =>
    (s, .recovered (s.tables.recoverRefresh now replay requestId accessJti refreshJti))
  | .advanceSecurityEpoch now accountId status =>
    s.settle .epoch (s.tables.advanceSecurityEpoch now accountId status)

end AuthenticationState

def authentication : Machine AuthenticationState IdentityCall IdentityReply :=
  ⟨AuthenticationState.call⟩

end GoodDealer.Identity
