/-
# `GoodDealer.Cloud.JobRuntime` — the persistent job runtime

A job is enqueued once per idempotency key and belongs to a partition.  A worker claims the
first claimable job of its tenant: the claim counts an attempt, takes the next lease epoch of
the partition and mints a handle.  Every later operation of the worker consumes the handle
and goes through `lockFenced`, the join of the job row and the partition row:

    renew                both rows again, and a new handle for the same lease
    executeDatabaseJob   the handler and the completion, in one transaction
    retry                back to `retry_wait`, or quarantine after the last attempt
    quarantine           to be replayed under an admin's authorisation

A transaction reads the database clock once per statement, so a lease can run out inside it;
`reading` gives the readings of one transaction, which never go back.  An exception rolls the
transaction back, but the handle it consumed is gone.

Rows are those of the tenants, by scope.  What the `CHECK`s of the tables say is carried by the
rows themselves.
-/
import GoodDealer.Cloud.DrainLedger
import Mathlib.Data.List.MinMax
import Mathlib.Data.Prod.Lex

namespace GoodDealer.Cloud

/-! ## Rows -/

inductive RetryMode where
  | databaseSafe
  | manualOnly
deriving DecidableEq

/-- `runtimePolicySchema`; the policy columns of a job have the same bounds. -/
structure RuntimePolicy where
  id : String
  version : Nat
  maxAttempts : Nat
  attemptTimeoutSeconds : Nat
  leaseSeconds : Nat
  baseBackoffSeconds : Nat
  retryMode : RetryMode
  attempts : 1 ≤ maxAttempts ∧ maxAttempts ≤ 100
  timeout : attemptTimeoutSeconds ≤ 86400
  lease : 1 ≤ leaseSeconds ∧ leaseSeconds ≤ 3600 ∧ leaseSeconds ≤ attemptTimeoutSeconds
  backoff : 1 ≤ baseBackoffSeconds ∧ baseBackoffSeconds ≤ 86400
deriving DecidableEq

inductive TriggerKind where
  | authenticatedPublic
  | adminAction
  | systemFanOut
  | complianceDeletion
deriving DecidableEq

structure JobTrigger where
  kind : TriggerKind
  ref : String
deriving DecidableEq

inductive AuthorizationKind where
  | publicSession
  | adminAction
  | systemPolicy
  | dataRightsRequest
deriving DecidableEq

structure JobAuthorization where
  kind : AuthorizationKind
  ref : String
  revision : Nat
  digest : Digest
deriving DecidableEq

/-- The columns of `job_runtime_jobs` that are written once. -/
structure FrozenJob where
  jobKind : String
  targetModule : String
  payloadVersion : Nat
  partitionKey : String
  idempotencyKey : String
  trigger : JobTrigger
  authorization : JobAuthorization
  canonicalPayload : Bytes
  payloadDigest : Digest
  requestDigest : Digest
  runtimePolicy : RuntimePolicy
deriving DecidableEq

/-- `current_worker`, `lease_expires_at` and `attempt_deadline_at`: set exactly while the job is
leased. -/
structure JobLease where
  worker : String
  expiresAt : Instant
  deadlineAt : Instant
deriving DecidableEq

inductive JobState where
  | available
  | leased (lease : JobLease)
  | retryWait
  | completed (outcomeDigest : Bytes)
  | quarantined
deriving DecidableEq

/-- `job_runtime_jobs`. -/
structure JobRow extends FrozenJob where
  jobId : String
  state : JobState
  availableAt : Instant
  enqueuedAt : Instant
  attemptCount : Nat
  leaseEpoch : Nat
  replayGeneration : Nat
  attemptCountCheck : attemptCount ≤ 100
  leaseEpochCheck : leaseEpoch ≤ maxSafeInteger
  replayGenerationCheck : replayGeneration ≤ maxSafeInteger
deriving DecidableEq

/-- What a partition is a partition of: one job kind. -/
def JobRow.partition (j : JobRow) : String × String := (j.jobKind, j.partitionKey)

/-- The `current_*` columns of a partition that is held. -/
structure LeaseHolder where
  jobId : String
  worker : String
  leaseEpoch : Nat
  expiresAt : Instant
deriving DecidableEq

inductive PartitionState where
  | released
  | held (holder : LeaseHolder)
  | renewed (holder : LeaseHolder)
deriving DecidableEq

def PartitionState.holder : PartitionState → Option LeaseHolder
  | .released => none
  | .held h | .renewed h => some h

/-- `job_runtime_partition_leases`. -/
structure PartitionLease where
  jobKind : String
  partitionKey : String
  highestLeaseEpoch : Nat
  state : PartitionState
  highestCheck : highestLeaseEpoch ≤ maxSafeInteger
  currentCheck : ∀ h ∈ state.holder, 1 ≤ h.leaseEpoch ∧ h.leaseEpoch ≤ highestLeaseEpoch

namespace PartitionLease

def key (p : PartitionLease) : String × String := (p.jobKind, p.partitionKey)

/-- `state IN ('held','renewed') AND expires_at > clock_timestamp()`. -/
def active (p : PartitionLease) (now : Instant) : Bool :=
  p.state.holder.any (fun h => now < h.expiresAt)

/-- The row a first claim inserts. -/
def fresh (k : String × String) : PartitionLease where
  jobKind := k.1
  partitionKey := k.2
  highestLeaseEpoch := 0
  state := .released
  highestCheck := Nat.zero_le _
  currentCheck := fun _ h => by cases h

def release (p : PartitionLease) : PartitionLease :=
  { p with state := .released, currentCheck := fun _ h => by cases h }

end PartitionLease

inductive AttemptOutcome where
  | running
  | succeeded
  | retryScheduled
  | leaseExpired
  | quarantined
deriving DecidableEq

/-- `job_runtime_attempts`. -/
structure JobAttempt where
  jobId : String
  attemptNo : Nat
  leaseEpoch : Nat
  workerId : String
  outcome : AttemptOutcome
deriving DecidableEq

inductive QuarantineReason where
  | unknownEnvelope
  | crossTenantViolation
  | replayConflict
  | idempotencyConflict
  | leaseContention
  | staleLeaseEpoch
  | maxAttemptsExhausted
  | payloadSchemaInvalid
deriving DecidableEq

/-- `job_runtime_quarantine_events`. -/
structure QuarantineEvent where
  jobId : String
  quarantineId : String
  quarantineRevision : Nat
  reason : QuarantineReason
  incomingRequestDigest : Option Digest
  leaseEpoch : Nat
  attemptNo : Nat
deriving DecidableEq

/-- `ReplayAuthorizationRecord`; its kind is always `admin_action`. -/
structure ReplayAuthorization where
  ref : String
  revision : Nat
  digest : Digest
deriving DecidableEq

/-- `job_runtime_replay_events`. -/
structure ReplayEvent where
  jobId : String
  quarantineId : String
  replayGeneration : Nat
  authorization : ReplayAuthorization
deriving DecidableEq

/-- The tables of one tenant. -/
structure JobTables where
  jobs : List JobRow
  partitions : List PartitionLease
  attempts : List JobAttempt
  quarantineEvents : List QuarantineEvent
  replayEvents : List ReplayEvent

/-! ## Ports -/

/-- `JobKindDefinition`, over the state `D` of the target modules, the decoded payloads `X` and
the payloads on the wire `W`.  A port that throws gives `none`. -/
structure JobKindDefinition (D X W : Type) where
  jobKind : String
  targetModule : String
  payloadVersion : Nat
  runtimePolicy : RuntimePolicy
  decodePayload : W → Option X
  decodeCanonicalPayload : Bytes → Option X
  encodeCanonicalPayload : X → Bytes
  derivePartitionKey : X → String
  revalidate : D → TenantScope → JobRow → Option Bool
  handle : D → TenantScope → JobRow → X → Option (D × Bytes)

section

variable {D X W : Type}

def JobKindDefinition.key (d : JobKindDefinition D X W) : String × String × Nat :=
  (d.jobKind, d.targetModule, d.payloadVersion)

/-- `JobKindRegistry`: the constructor refuses a second definition of one key. -/
structure JobKindRegistry (D X W : Type) where
  definitions : List (JobKindDefinition D X W)
  unique : (definitions.map JobKindDefinition.key).Nodup

def JobKindRegistry.resolve (R : JobKindRegistry D X W) (jobKind targetModule : String)
    (payloadVersion : Nat) : Option (JobKindDefinition D X W) :=
  Keyed.lookup JobKindDefinition.key (jobKind, targetModule, payloadVersion) R.definitions

/-- The definition of the job handles its decoded payload, with these effects and this digest. -/
def JobKindRegistry.Handles (R : JobKindRegistry D X W) (d : D) (scope : TenantScope) (j : JobRow)
    (d' : D) (digest : Bytes) : Prop :=
  ∃ definition payload, R.resolve j.jobKind j.targetModule j.payloadVersion = some definition ∧
    definition.decodeCanonicalPayload j.canonicalPayload = some payload ∧
    definition.handle d scope j payload = some (d', digest)

/-- `PersistentJobCreateRequest`, parsed; its tenant is the scope of the call. -/
structure PersistentJobCreateRequest (W : Type) where
  jobKind : String
  targetModule : String
  payloadVersion : Nat
  partitionKey : String
  idempotencyKey : String
  trigger : JobTrigger
  authorization : JobAuthorization
  runtimePolicy : RuntimePolicy
  payload : W

/-- The encodings whose digests are stored. -/
structure JobEncoding (W : Type) where
  sha256 : Bytes → Digest
  payloadDigestInput : W → Bytes
  requestDigestInput : PersistentJobCreateRequest W → Digest → Bytes

/-- One `PostgresJobRuntime`. -/
structure PostgresJobRuntime (D X W : Type) where
  registry : JobKindRegistry D X W
  encoding : JobEncoding W
  verify : D → TenantScope → (jobId quarantineId : String) → ReplayAuthorization → Option Bool

end

inductive JobRuntimeError where
  | unresolved (label : String)
  | notRegistered
  | policyMismatch
  | partitionKeyMismatch
  | payloadBounds
  | payloadNotCanonical
  | handleConsumed
  | capabilityConsumed
  | replayRevisionInvalid
  | storedInteger
  | leaseExpiredBeforeHandler
  | leaseExpiredBeforeCommit
  | outcomeDigestLength
  /-- An exception of a port. -/
  | port
  /-- `23505`. -/
  | uniqueViolation (table : String)
  /-- `23514`. -/
  | checkViolation (column : String)
deriving DecidableEq

def JobRuntimeError.message : JobRuntimeError → String
  | unresolved label => label ++ " is unresolved"
  | notRegistered => "job kind, target module, or payload version is not registered"
  | policyMismatch => "runtime policy does not match registered definition"
  | partitionKeyMismatch => "partition key does not match decoded payload"
  | payloadBounds => "canonical payload exceeds job-runtime bounds"
  | payloadNotCanonical => "job payload is not canonical"
  | handleConsumed => "leased job handle is invalid or already consumed"
  | capabilityConsumed => "verified replay capability is invalid or already consumed"
  | replayRevisionInvalid => "replay revision is invalid"
  | storedInteger => "stored job-runtime integer is invalid"
  | leaseExpiredBeforeHandler => "job lease expired before handler entry"
  | leaseExpiredBeforeCommit => "job lease expired before terminal commit"
  | outcomeDigestLength => "handler outcome digest must be 32 bytes"
  | port => "port failure"
  | uniqueViolation table => "duplicate key value violates unique constraint of " ++ table
  | checkViolation column => "new row violates check constraint of " ++ column

/-! ## Clock -/

/-- The readings of the clock in one transaction: `elapse i` passes before the `i`-th. -/
def reading (now : Instant) (elapse : Nat → Nat) : Nat → Instant
  | 0 => now + elapse 0
  | i + 1 => reading now elapse i + elapse (i + 1)

/-- `make_interval(secs => n)`. -/
def interval (seconds : Nat) : Nat := seconds * 1000000

/-! ## Reading the tables -/

/-- `LeaseAuthority`: what a handle stands for. -/
structure LeaseAuthority where
  scope : TenantScope
  jobId : String
  jobKind : String
  partitionKey : String
  workerId : String
  leaseEpoch : Nat
  attempt : Nat
deriving DecidableEq

def LeaseAuthority.partition (a : LeaseAuthority) : String × String := (a.jobKind, a.partitionKey)

/-- `mintLeasedJobHandle`. -/
def JobRow.authority (j : JobRow) (scope : TenantScope) (workerId : String) : LeaseAuthority :=
  ⟨scope, j.jobId, j.jobKind, j.partitionKey, workerId, j.leaseEpoch, j.attemptCount⟩

namespace JobRow

def isLeased (j : JobRow) : Bool :=
  match j.state with
  | .leased _ => true
  | _ => false

/-- Waiting and due, or leased and run out. -/
def due (j : JobRow) (now : Instant) : Bool :=
  match j.state with
  | .available | .retryWait => j.availableAt ≤ now
  | .leased lease => lease.expiresAt ≤ now
  | .completed _ | .quarantined => false

/-- `ORDER BY (state='leased') DESC, available_at, enqueued_at, job_id`. -/
def claimOrder (j : JobRow) : Bool ×ₗ Nat ×ₗ Nat ×ₗ String :=
  toLex (!j.isLeased, toLex (j.availableAt, toLex (j.enqueuedAt, j.jobId)))

end JobRow

namespace JobTables

variable (T : JobTables) (a : LeaseAuthority)

def job (jobId : String) : Option JobRow := Keyed.lookup JobRow.jobId jobId T.jobs

def partition (k : String × String) : Option PartitionLease :=
  Keyed.lookup PartitionLease.key k T.partitions

def claimable (now : Instant) (j : JobRow) : Bool :=
  j.due now && !(T.partition j.partition).any (·.active now)

/-- The row `claim` selects. -/
def candidate (now : Instant) : Option JobRow :=
  (T.jobs.filter (T.claimable now)).argmin JobRow.claimOrder

/-- The row is leased to the handle's worker under its epoch and attempt, and the lease has not
run out. -/
def fencedJob (a : LeaseAuthority) (now : Instant) (j : JobRow) : Bool :=
  match j.state with
  | .leased lease =>
    lease.worker = a.workerId && j.leaseEpoch = a.leaseEpoch && j.attemptCount = a.attempt &&
      j.jobKind = a.jobKind && j.partitionKey = a.partitionKey &&
      now < lease.expiresAt && now < lease.deadlineAt
  | _ => false

/-- The partition is held by the job, the worker and the epoch of the handle. -/
def fencedPartition (a : LeaseAuthority) (now : Instant) (p : PartitionLease) : Bool :=
  p.state.holder.any (fun h => h.jobId = a.jobId && h.worker = a.workerId &&
    h.leaseEpoch = a.leaseEpoch && now < h.expiresAt)

def lockFenced (now : Instant) : Option JobRow :=
  match T.job a.jobId with
  | none => none
  | some j =>
    if fencedJob a now j && (T.partition j.partition).any (fencedPartition a now) then some j
    else none

/-! ## Writing the tables -/

/-- `coalesce(max(quarantine_revision),0)+1`. -/
def nextQuarantineRevision (jobId : String) : Nat :=
  ((T.quarantineEvents.filter (·.jobId = jobId)).map (·.quarantineRevision)).foldl max 0 + 1

def insertQuarantine (j : JobRow) (quarantineId : String)
    (reason : QuarantineReason) (incoming : Option Digest) : Except JobRuntimeError JobTables :=
  if T.quarantineEvents.any (fun q => q.jobId = j.jobId && q.quarantineId = quarantineId) then
    .error (.uniqueViolation "job_runtime_quarantine_events")
  else if maxSafeInteger < T.nextQuarantineRevision j.jobId then
    .error (.checkViolation "quarantine_revision")
  else .ok { T with quarantineEvents := T.quarantineEvents ++
    [⟨j.jobId, quarantineId, T.nextQuarantineRevision j.jobId, reason, incoming, j.leaseEpoch,
      j.attemptCount⟩] }

/-- The columns an ended lease clears; `availableAt` is moved by `retry` alone. -/
def endLease (jobId : String) (state : JobState) (availableAt : Instant → Instant) :
    JobTables :=
  { T with
    jobs := Keyed.adjust JobRow.jobId jobId
      (fun j => { j with state := state, availableAt := availableAt j.availableAt }) T.jobs }

/-- The outcome of the running attempt of a handle. -/
def endAttempt (outcome : AttemptOutcome) : JobTables :=
  { T with
    attempts := T.attempts.map (fun t =>
      if t.jobId = a.jobId ∧ t.attemptNo = a.attempt ∧ t.leaseEpoch = a.leaseEpoch ∧
        t.outcome = .running then { t with outcome := outcome } else t) }

def releasePartition : JobTables :=
  { T with
    partitions := Keyed.adjust PartitionLease.key a.partition
      (fun p =>
        if p.state.holder.any (fun h => h.worker = a.workerId && h.leaseEpoch = a.leaseEpoch)
        then p.release else p) T.partitions }

def completeFenced (digest : Bytes) : JobTables :=
  ((T.endAttempt a .succeeded).endLease a.jobId (.completed digest) id).releasePartition a

def quarantineFenced (j : JobRow) (reason : QuarantineReason)
    (quarantineId : String) : Except JobRuntimeError JobTables :=
  match ((T.endAttempt a .quarantined).endLease a.jobId .quarantined id).insertQuarantine j
    quarantineId reason none with
  | .error e => .error e
  | .ok T' => .ok (T'.releasePartition a)

end JobTables

/-! ## Claim and renew -/

/-- The row of a claimed job. -/
def JobRow.claimed (j : JobRow) (worker : String) (epoch : Nat) (now : Instant)
    (hcount : j.attemptCount + 1 ≤ 100) (hepoch : epoch ≤ maxSafeInteger) : JobRow :=
  { j with
    state := .leased ⟨worker, now + interval j.runtimePolicy.leaseSeconds,
      now + interval j.runtimePolicy.attemptTimeoutSeconds⟩
    attemptCount := j.attemptCount + 1
    leaseEpoch := epoch
    attemptCountCheck := hcount
    leaseEpochCheck := hepoch }

/-- The row of the partition, held by the claimed job under the next epoch. -/
def PartitionLease.hold (p : PartitionLease) (j : JobRow) (worker : String) (now : Instant)
    (hepoch : p.highestLeaseEpoch + 1 ≤ maxSafeInteger) : PartitionLease :=
  { p with
    highestLeaseEpoch := p.highestLeaseEpoch + 1
    state := .held ⟨j.jobId, worker, p.highestLeaseEpoch + 1,
      now + interval j.runtimePolicy.leaseSeconds⟩
    highestCheck := hepoch
    currentCheck := fun h hh => by
      cases hh
      exact ⟨Nat.le_add_left _ _, le_rfl⟩ }

namespace JobTables

variable (T : JobTables)

/-- `INSERT INTO job_runtime_partition_leases … ON CONFLICT DO NOTHING`. -/
def ensurePartition (k : String × String) : JobTables :=
  { T with partitions := Keyed.put PartitionLease.key (.fresh k) id T.partitions }

/-- The running attempts of a job that is claimed because its lease ran out. -/
def expireAttempts (row : JobRow) : JobTables :=
  if row.isLeased then
    { T with
      attempts := T.attempts.map (fun t =>
        if t.jobId = row.jobId ∧ t.outcome = .running then { t with outcome := .leaseExpired }
        else t) }
  else T

/-- The three writes of a claim. -/
def lease (row : JobRow) (p : PartitionLease) (worker : String) : JobTables :=
  { T with
    jobs := Keyed.adjust JobRow.jobId row.jobId (fun _ => row) T.jobs
    partitions := Keyed.adjust PartitionLease.key p.key (fun _ => p) T.partitions
    attempts := T.attempts ++ [⟨row.jobId, row.attemptCount, row.leaseEpoch, worker, .running⟩] }

def claim (scope : TenantScope) (workerId : String) (clock : Nat → Instant) :
    Except JobRuntimeError (JobTables × Option LeaseAuthority) :=
  if ¬ validIdentifier workerId then .error (.unresolved "worker id")
  else
    match T.candidate (clock 0) with
    | none => .ok (T, none)
    | some row =>
      let T₁ := T.ensurePartition row.partition
      match T₁.partition row.partition with
      | none => .error (.unresolved "partition lease")
      | some p =>
        if p.active (clock 1) || p.state.holder.any (fun h => h.jobId ≠ row.jobId) then
          .ok (T₁, none)
        else
          let T₂ := T₁.expireAttempts row
          if hcount : row.attemptCount + 1 ≤ 100 then
            if hepoch : p.highestLeaseEpoch + 1 ≤ maxSafeInteger then
              let row' := row.claimed workerId (p.highestLeaseEpoch + 1) (clock 2) hcount hepoch
              if T₂.attempts.any (fun t => t.jobId = row.jobId &&
                  (t.attemptNo = row'.attemptCount || t.leaseEpoch = row'.leaseEpoch)) then
                .error (.uniqueViolation "job_runtime_attempts")
              else .ok (T₂.lease row' (p.hold row workerId (clock 3) hepoch) workerId,
                some (row'.authority scope workerId))
            else .error (.checkViolation "lease_epoch")
          else .error (.checkViolation "attempt_count")

end JobTables

/-- `least(clock_timestamp()+make_interval(secs => lease_seconds), attempt_deadline_at)`. -/
def JobRow.renewed (j : JobRow) (now : Instant) : JobRow :=
  match j.state with
  | .leased lease =>
    { j with
      state := .leased { lease with
        expiresAt := min (now + interval j.runtimePolicy.leaseSeconds) lease.deadlineAt } }
  | _ => j

def JobRow.deadline (j : JobRow) : Instant :=
  match j.state with
  | .leased lease => lease.deadlineAt
  | _ => 0

/-- The row of a partition whose lease is extended. -/
def PartitionLease.extend (p : PartitionLease) (a : LeaseAuthority) (expiresAt : Instant) :
    PartitionLease :=
  match h : p.state.holder with
  | none => p
  | some holder =>
    if holder.worker = a.workerId ∧ holder.leaseEpoch = a.leaseEpoch then
      { p with
        state := .renewed { holder with expiresAt := expiresAt }
        currentCheck := fun h' hh => by
          cases hh
          exact p.currentCheck holder h }
    else p

namespace JobTables

def renew (T : JobTables) (a : LeaseAuthority) (clock : Nat → Instant) :
    JobTables × Option LeaseAuthority :=
  match T.lockFenced a (clock 0) with
  | none => (T, none)
  | some fenced =>
    let expiresAt := min (clock 2 + interval fenced.runtimePolicy.leaseSeconds) fenced.deadline
    ({ T with
        jobs := Keyed.adjust JobRow.jobId a.jobId (·.renewed (clock 1)) T.jobs
        partitions := Keyed.adjust PartitionLease.key a.partition (·.extend a expiresAt)
          T.partitions },
      some (fenced.authority a.scope a.workerId))

end JobTables

/-! ## Execute, retry and quarantine -/

inductive ExecuteOutcome where
  | completed
  | authorizationRejected
  | stale
deriving DecidableEq

inductive RetryOutcome where
  | retryScheduled
  | quarantined
  | stale
deriving DecidableEq

section

variable {D X W : Type}

/-- `executeDatabaseJob`: the handler's writes and the completion commit together. -/
def executeDatabaseJob (R : JobKindRegistry D X W) (d : D) (T : JobTables) (a : LeaseAuthority)
    (quarantineId : String) (clock : Nat → Instant) :
    Except JobRuntimeError (D × JobTables × ExecuteOutcome) :=
  match T.lockFenced a (clock 0) with
  | none => .ok (d, T, .stale)
  | some fenced =>
    match R.resolve fenced.jobKind fenced.targetModule fenced.payloadVersion with
    | none =>
      match T.quarantineFenced a fenced .unknownEnvelope quarantineId with
      | .error e => .error e
      | .ok T' => .ok (d, T', .authorizationRejected)
    | some definition =>
      match definition.revalidate d a.scope fenced with
      | none => .error .port
      | some false =>
        match T.lockFenced a (clock 1) with
        | none => .ok (d, T, .stale)
        | some fenced =>
          match T.quarantineFenced a fenced .replayConflict quarantineId with
          | .error e => .error e
          | .ok T' => .ok (d, T', .authorizationRejected)
      | some true =>
        match T.lockFenced a (clock 1) with
        | none => .error .leaseExpiredBeforeHandler
        | some fenced =>
          match definition.decodeCanonicalPayload fenced.canonicalPayload with
          | none => .error .port
          | some payload =>
            match definition.handle d a.scope fenced payload with
            | none => .error .port
            | some (d', digest) =>
              if digest.length ≠ 32 then .error .outcomeDigestLength
              else
                match T.lockFenced a (clock 2) with
                | none => .error .leaseExpiredBeforeCommit
                | some _ => .ok (d', T.completeFenced a digest, .completed)

/-- `least(base_backoff_seconds * power(2,attempt_count-1),86400)`. -/
def JobRow.backoffSeconds (j : JobRow) : Nat :=
  min (j.runtimePolicy.baseBackoffSeconds * 2 ^ (j.attemptCount - 1)) 86400

/-- The writes of a scheduled retry; unlike the other endings, it does not look at the outcome of
the attempt. -/
def JobTables.scheduleRetry (T : JobTables) (a : LeaseAuthority) (j : JobRow) (now : Instant) :
    JobTables :=
  let T₁ : JobTables := { T with
    attempts := T.attempts.map (fun t =>
      if t.jobId = a.jobId ∧ t.attemptNo = j.attemptCount ∧ t.leaseEpoch = j.leaseEpoch then
        { t with outcome := .retryScheduled } else t) }
  (T₁.endLease a.jobId .retryWait (fun _ => now + interval j.backoffSeconds)).releasePartition a

def retry (R : JobKindRegistry D X W) (d : D) (T : JobTables) (a : LeaseAuthority)
    (quarantineId : String) (clock : Nat → Instant) :
    Except JobRuntimeError (JobTables × RetryOutcome) :=
  let quarantined (j : JobRow) (reason : QuarantineReason) :=
    match T.quarantineFenced a j reason quarantineId with
    | .error e => .error e
    | .ok T' => .ok (T', RetryOutcome.quarantined)
  match T.lockFenced a (clock 0) with
  | none => .ok (T, .stale)
  | some fenced =>
    match R.resolve fenced.jobKind fenced.targetModule fenced.payloadVersion with
    | none => quarantined fenced .payloadSchemaInvalid
    | some definition =>
      if definition.runtimePolicy ≠ fenced.runtimePolicy ∨
          fenced.runtimePolicy.retryMode ≠ .databaseSafe then
        quarantined fenced .payloadSchemaInvalid
      else
        match definition.revalidate d a.scope fenced with
        | none => .error .port
        | some false =>
          match T.lockFenced a (clock 1) with
          | none => .ok (T, .stale)
          | some fenced => quarantined fenced .replayConflict
        | some true =>
          match T.lockFenced a (clock 1) with
          | none => .ok (T, .stale)
          | some fenced =>
            if fenced.runtimePolicy.maxAttempts ≤ fenced.attemptCount then
              quarantined fenced .maxAttemptsExhausted
            else .ok (T.scheduleRetry a fenced (clock 2), .retryScheduled)

/-- `quarantine`; `false` is `"stale"`. -/
def quarantine (T : JobTables) (a : LeaseAuthority) (reason : QuarantineReason)
    (quarantineId : String) (clock : Nat → Instant) : Except JobRuntimeError (JobTables × Bool) :=
  match T.lockFenced a (clock 0) with
  | none => .ok (T, false)
  | some fenced =>
    match T.quarantineFenced a fenced reason quarantineId with
    | .error e => .error e
    | .ok T' => .ok (T', true)

/-! ## Replay -/

/-- The input of `verifyReplayAuthorization`. -/
structure ReplayInput where
  jobId : String
  quarantineId : String
  expectedQuarantineRevision : Nat
  expectedReplayGeneration : Nat
  authorization : ReplayAuthorization
deriving DecidableEq

/-- `assertReplayInput`. -/
def assertReplayInput (input : ReplayInput) : Except JobRuntimeError Unit :=
  if ¬ validIdentifier input.jobId then .error (.unresolved "job id")
  else if ¬ validIdentifier input.quarantineId then .error (.unresolved "quarantine id")
  else if ¬ validIdentifier input.authorization.ref then
    .error (.unresolved "replay authorization ref")
  else if maxSafeInteger < input.expectedQuarantineRevision ∨
      maxSafeInteger < input.expectedReplayGeneration ∨
      maxSafeInteger < input.authorization.revision then
    .error .replayRevisionInvalid
  else .ok ()

inductive ReplayOutcome where
  | requeued
  | authorizationRejected
  | conflict
deriving DecidableEq

/-- The row of a replayed job. -/
def JobRow.requeued (j : JobRow) (now : Instant)
    (h : j.replayGeneration + 1 ≤ maxSafeInteger) : JobRow :=
  { j with
    state := .available
    availableAt := now
    replayGeneration := j.replayGeneration + 1
    replayGenerationCheck := h }

/-- `replay`; the row stays locked, so the second look at it after the revalidation sees what the
first one saw. -/
def replay (R : JobKindRegistry D X W) (d : D) (T : JobTables) (scope : TenantScope)
    (r : ReplayInput) (clock : Nat → Instant) :
    Except JobRuntimeError (JobTables × ReplayOutcome) :=
  match T.job r.jobId with
  | none => .ok (T, .conflict)
  | some j =>
    if j.state ≠ .quarantined ∨ j.replayGeneration ≠ r.expectedReplayGeneration then
      .ok (T, .conflict)
    else
      match T.quarantineEvents.find? (fun q => q.jobId = r.jobId && q.quarantineId = r.quarantineId)
      with
      | none => .error .storedInteger
      | some q =>
        if q.quarantineRevision ≠ r.expectedQuarantineRevision then .ok (T, .conflict)
        else
          match R.resolve j.jobKind j.targetModule j.payloadVersion with
          | none => .ok (T, .authorizationRejected)
          | some definition =>
            match definition.revalidate d scope j with
            | none => .error .port
            | some false => .ok (T, .authorizationRejected)
            | some true =>
              if h : j.replayGeneration + 1 ≤ maxSafeInteger then
                if r.authorization.revision = 0 then
                  .error (.checkViolation "replay_authorization_revision")
                else .ok ({ T with
                  jobs := Keyed.adjust JobRow.jobId r.jobId
                    (fun _ => j.requeued (clock 0) h) T.jobs
                  replayEvents := T.replayEvents ++
                    [⟨r.jobId, r.quarantineId, j.replayGeneration + 1, r.authorization⟩] },
                  .requeued)
              else .error (.checkViolation "replay_generation")

/-! ## Enqueue -/

inductive EnqueueOutcome where
  | enqueued (jobId : String)
  | duplicate (jobId : String)
  | idempotencyConflict (jobId quarantineId : String)
deriving DecidableEq

/-- `prepareCreate`: the columns that are frozen. -/
def prepareCreate (P : PostgresJobRuntime D X W) (request : PersistentJobCreateRequest W) :
    Except JobRuntimeError FrozenJob :=
  match P.registry.resolve request.jobKind request.targetModule request.payloadVersion with
  | none => .error .notRegistered
  | some definition =>
    if definition.runtimePolicy ≠ request.runtimePolicy then .error .policyMismatch
    else
      match definition.decodePayload request.payload with
      | none => .error .port
      | some payload =>
        let canonicalPayload := definition.encodeCanonicalPayload payload
        if definition.derivePartitionKey payload ≠ request.partitionKey then
          .error .partitionKeyMismatch
        else if canonicalPayload.length < 1 ∨ 65536 < canonicalPayload.length then
          .error .payloadBounds
        else if canonicalPayload ≠ P.encoding.payloadDigestInput request.payload then
          .error .payloadNotCanonical
        else
          let payloadDigest := P.encoding.sha256 canonicalPayload
          .ok
            { jobKind := request.jobKind
              targetModule := request.targetModule
              payloadVersion := request.payloadVersion
              partitionKey := request.partitionKey
              idempotencyKey := request.idempotencyKey
              trigger := request.trigger
              authorization := request.authorization
              canonicalPayload := canonicalPayload
              payloadDigest := payloadDigest
              requestDigest := P.encoding.sha256
                (P.encoding.requestDigestInput request payloadDigest)
              runtimePolicy := request.runtimePolicy }

/-- A new row, with the defaults of the table. -/
def FrozenJob.row (frozen : FrozenJob) (jobId : String) (now : Instant) : JobRow :=
  { frozen with
    jobId := jobId
    state := .available
    availableAt := now
    enqueuedAt := now
    attemptCount := 0
    leaseEpoch := 0
    replayGeneration := 0
    attemptCountCheck := Nat.zero_le _
    leaseEpochCheck := Nat.zero_le _
    replayGenerationCheck := Nat.zero_le _ }

def FrozenJob.idempotency (frozen : FrozenJob) : String × String :=
  (frozen.jobKind, frozen.idempotencyKey)

/-- `selectByIdempotency`. -/
def JobTables.byIdempotency (T : JobTables) (k : String × String) : Option JobRow :=
  Keyed.lookup (fun j : JobRow => j.toFrozenJob.idempotency) k T.jobs

def enqueue (P : PostgresJobRuntime D X W) (T : JobTables) (request : PersistentJobCreateRequest W)
    (jobId quarantineId : String) (clock : Nat → Instant) :
    Except JobRuntimeError (JobTables × EnqueueOutcome) :=
  match prepareCreate P request with
  | .error e => .error e
  | .ok frozen =>
    match T.byIdempotency frozen.idempotency with
    | none =>
      if (T.job jobId).isSome then .error (.uniqueViolation "job_runtime_jobs")
      else .ok ({ T with jobs := T.jobs ++ [frozen.row jobId (clock 0)] }, .enqueued jobId)
    | some existing =>
      if existing.requestDigest = frozen.requestDigest then .ok (T, .duplicate existing.jobId)
      else
        match T.insertQuarantine existing quarantineId .idempotencyConflict
          (some frozen.requestDigest) with
        | .error e => .error e
        | .ok T' => .ok (T', .idempotencyConflict existing.jobId quarantineId)

end

/-! ## The runtime as a machine -/

/-- `ReplayCapabilityAuthority`; its owner is one of the runtimes `ρ`. -/
structure ReplayCapability (ρ : Type) where
  owner : ρ
  scope : TenantScope
  input : ReplayInput

/-- The database of all tenants, the state of the target modules, and the handles and capabilities
that are in the hands of workers.  An object is its number of minting. -/
structure JobSystem (ρ D : Type) where
  tables : TenantScope → JobTables
  domain : D
  handles : List (Nat × LeaseAuthority)
  capabilities : List (Nat × ReplayCapability ρ)
  minted : Nat
  now : Instant

/-- The database after the migration. -/
def JobSystem.initial {ρ D : Type} (domain : D) : JobSystem ρ D :=
  ⟨fun _ => ⟨[], [], [], [], []⟩, domain, [], [], 0, 0⟩

/-- A call of one of the runtimes. -/
inductive JobOperation (W : Type) where
  | enqueue (scope : TenantScope) (request : PersistentJobCreateRequest W)
      (jobId quarantineId : String)
  | claim (scope : TenantScope) (workerId : String)
  | renew (handle : Nat)
  | execute (handle : Nat) (quarantineId : String)
  | retry (handle : Nat) (quarantineId : String)
  | quarantine (handle : Nat) (reason : QuarantineReason) (quarantineId : String)
  | verifyReplayAuthorization (scope : TenantScope) (input : ReplayInput)
  | replay (capability : Nat)

/-- `call` runs to its end, `aborted` is rolled back before its commit, at whatever point; `crash`
loses handles and capabilities; `other` is a transaction of the target modules. -/
inductive JobEvent (ρ D W : Type) where
  | call (runtime : ρ) (op : JobOperation W) (elapse : Nat → Nat)
  | aborted (runtime : ρ) (op : JobOperation W) (elapse : Nat → Nat)
  | crash (lost : List Nat)
  | other (domain : D)

inductive JobReply where
  | enqueued (outcome : EnqueueOutcome)
  | claimed (handle : Option Nat)
  | renewed (handle : Option Nat)
  | executed (outcome : ExecuteOutcome)
  | retried (outcome : RetryOutcome)
  | quarantined (done : Bool)
  | verified (capability : Option Nat)
  | replayed (outcome : ReplayOutcome)
  | failed (error : JobRuntimeError)
  | none
deriving DecidableEq

namespace JobSystem

variable {ρ D X W : Type}

/-- The tables of one tenant are replaced. -/
def commit (s : JobSystem ρ D) (scope : TenantScope) (T : JobTables) : JobSystem ρ D :=
  { s with tables := fun scope' => if scope' = scope then T else s.tables scope' }

def mint (s : JobSystem ρ D) (a : LeaseAuthority) : JobSystem ρ D :=
  { s with handles := s.handles ++ [(s.minted, a)], minted := s.minted + 1 }

/-- `consumeHandle`. -/
def consumeHandle (s : JobSystem ρ D) (handle : Nat) : Option (JobSystem ρ D × LeaseAuthority) :=
  match Keyed.lookup Prod.fst handle s.handles with
  | none => none
  | some (_, a) => some ({ s with handles := Keyed.remove Prod.fst handle s.handles }, a)

/-- `consumeReplayCapability`. -/
def consumeReplayCapability [DecidableEq ρ] (s : JobSystem ρ D) (owner : ρ) (capability : Nat) :
    Option (JobSystem ρ D × ReplayCapability ρ) :=
  match Keyed.lookup Prod.fst capability s.capabilities with
  | none => none
  | some (_, c) =>
    if c.owner ≠ owner then none
    else some ({ s with capabilities := Keyed.remove Prod.fst capability s.capabilities }, c)

/-- An operation that takes a handle consumes it before its transaction starts. -/
def withHandle (s : JobSystem ρ D) (handle : Nat)
    (body : JobSystem ρ D → LeaseAuthority → JobSystem ρ D × JobReply) :
    JobSystem ρ D × JobReply :=
  match s.consumeHandle handle with
  | none => (s, .failed .handleConsumed)
  | some (s', a) => body s' a

/-- What is gone when the transaction of an operation does not commit. -/
def consumed [DecidableEq ρ] (s : JobSystem ρ D) (runtime : ρ) : JobOperation W → JobSystem ρ D
  | .renew handle | .execute handle _ | .retry handle _ | .quarantine handle _ _ =>
    ((s.consumeHandle handle).map Prod.fst).getD s
  | .replay capability => ((s.consumeReplayCapability runtime capability).map Prod.fst).getD s
  | .enqueue .. | .claim .. | .verifyReplayAuthorization .. => s

def call [DecidableEq ρ] (P : PostgresJobRuntime D X W) (s : JobSystem ρ D) (runtime : ρ)
    (clock : Nat → Instant) : JobOperation W → JobSystem ρ D × JobReply
  | .enqueue scope request jobId quarantineId =>
    match Cloud.enqueue P (s.tables scope) request jobId quarantineId clock with
    | .error e => (s, .failed e)
    | .ok (T, outcome) => (s.commit scope T, .enqueued outcome)
  | .claim scope workerId =>
    match (s.tables scope).claim scope workerId clock with
    | .error e => (s, .failed e)
    | .ok (T, .none) => (s.commit scope T, .claimed .none)
    | .ok (T, some a) => ((s.commit scope T).mint a, .claimed (some s.minted))
  | .renew handle =>
    s.withHandle handle fun s a =>
      match (s.tables a.scope).renew a clock with
      | (T, .none) => (s.commit a.scope T, .renewed .none)
      | (T, some a') => ((s.commit a.scope T).mint a', .renewed (some s.minted))
  | .execute handle quarantineId =>
    s.withHandle handle fun s a =>
      match executeDatabaseJob P.registry s.domain (s.tables a.scope) a quarantineId clock with
      | .error e => (s, .failed e)
      | .ok (d, T, outcome) => ({ s.commit a.scope T with domain := d }, .executed outcome)
  | .retry handle quarantineId =>
    s.withHandle handle fun s a =>
      match Cloud.retry P.registry s.domain (s.tables a.scope) a quarantineId clock with
      | .error e => (s, .failed e)
      | .ok (T, outcome) => (s.commit a.scope T, .retried outcome)
  | .quarantine handle reason quarantineId =>
    s.withHandle handle fun s a =>
      match Cloud.quarantine (s.tables a.scope) a reason quarantineId clock with
      | .error e => (s, .failed e)
      | .ok (T, done) => (s.commit a.scope T, .quarantined done)
  | .verifyReplayAuthorization scope input =>
    match assertReplayInput input with
    | .error e => (s, .failed e)
    | .ok () =>
      match P.verify s.domain scope input.jobId input.quarantineId input.authorization with
      | .none => (s, .failed .port)
      | some false => (s, .verified .none)
      | some true =>
        ({ s with
            capabilities := s.capabilities ++ [(s.minted, ⟨runtime, scope, input⟩)]
            minted := s.minted + 1 },
          .verified (some s.minted))
  | .replay capability =>
    match s.consumeReplayCapability runtime capability with
    | .none => (s, .failed .capabilityConsumed)
    | some (s, c) =>
      match Cloud.replay P.registry s.domain (s.tables c.scope) c.scope c.input clock with
      | .error e => (s, .failed e)
      | .ok (T, outcome) => (s.commit c.scope T, .replayed outcome)

end JobSystem

/-- The index of the last reading of the clock in a transaction. -/
def lastReading : Nat := 4

/-- The runtimes of a family, on one database. -/
def jobRuntime {ρ D X W : Type} [DecidableEq ρ] (P : ρ → PostgresJobRuntime D X W) :
    Machine (JobSystem ρ D) (JobEvent ρ D W) JobReply where
  step s
    | .call runtime op elapse =>
      let clock := reading s.now elapse
      let (s', reply) := s.call (P runtime) runtime clock op
      ({ s' with now := clock lastReading }, reply)
    | .aborted runtime op elapse =>
      ({ s.consumed runtime op with now := reading s.now elapse lastReading }, .none)
    | .crash lost =>
      ({ s with
          handles := s.handles.filter (fun h => h.1 ∉ lost)
          capabilities := s.capabilities.filter (fun c => c.1 ∉ lost) }, .none)
    | .other domain => ({ s with domain := domain }, .none)

end GoodDealer.Cloud
