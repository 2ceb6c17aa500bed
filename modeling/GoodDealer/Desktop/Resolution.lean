/-
# `GoodDealer.Desktop.Resolution` — resolving a conflict candidate

`resolve_sync_conflict_guarded` settles one open row of `sync_conflicts`.

| choice | what it writes |
| :-- | :-- |
| `accept_remote` | the value of the candidate, and its revision as the field's |
| `keep_local` | a new mutation of the outbox with the whole row as it is stored |

Both are guarded alike: the candidate is open, the field still has the value that was
recorded with it, the reader has reached its target and no mutation of the entity is being
sent.  A delete can only be accepted.
-/
import GoodDealer.Desktop.Replica

namespace GoodDealer.Desktop

variable {H V : Type}

/-! ## Rows -/

inductive ResolutionChoice where
  | acceptRemote
  | keepLocal
deriving DecidableEq

/-- The arguments of `resolve_sync_conflict_guarded`; `V` is the type of value hashes. -/
structure ResolutionRequest (V : Type) where
  resolutionId : String
  conflictId : String
  expectedCandidateSetVersion : Nat
  expectedCandidateVersion : Nat
  expectedRemoteRevision : Nat
  expectedCurrentValueHash : V
  choice : ResolutionChoice
  deviceId : String
  activeLeaseEpoch : Nat
  committedAt : Timestamp
deriving DecidableEq

/-- A row of `sync_resolution_receipts`. -/
structure ResolutionReceipt (V : Type) where
  resolutionId : String
  conflictId : String
  candidateVersion : Nat
  choice : ResolutionChoice
  outboxMutationId : Option String
  candidateSetVersion : Nat
  remoteServerRevision : Nat
  currentValueHash : V
deriving DecidableEq

/-- The database with what only a resolution writes. -/
structure BusinessDatabase (H V : Type) where
  store : Store H
  /-- The rows of `sync_conflicts` that are no longer open. -/
  resolved : List (SyncConflict H)
  receipts : List (ResolutionReceipt V)
deriving DecidableEq

namespace BusinessDatabase

/-- The open row of a conflict. -/
def openConflict (db : BusinessDatabase H V) (conflictId : String) : Option (SyncConflict H) :=
  Keyed.lookup SyncConflict.conflictId conflictId db.store.conflicts

def resolvedConflict (db : BusinessDatabase H V) (conflictId : String) : Option (SyncConflict H) :=
  Keyed.lookup SyncConflict.conflictId conflictId db.resolved

def receipt (db : BusinessDatabase H V) (resolutionId : String) : Option (ResolutionReceipt V) :=
  Keyed.lookup ResolutionReceipt.resolutionId resolutionId db.receipts

end BusinessDatabase

/-! ## Reading -/

/-- `read_resolution_field`. -/
def Store.readResolutionField (s : Store H) (entityId : String) (path : LocalFieldPath) :
    Except BusinessDatabaseError ConflictValue :=
  match s.portfolioRow entityId with
  | none => .error .assetNotFound
  | some a =>
    match path with
    | .sync path => .ok (.field (fieldAt a.row path))
    | .lifecycleStatus =>
      match s.domainAsset entityId with
      | none => .error .storageRejected
      | some asset => .ok (.lifecycleStatus asset.lifecycleStatus)

/-- `read_through_server_revision < pinned_target_server_revision` for some reader. -/
def Store.readerNotCaughtUp (s : Store H) : Bool :=
  s.readers.any (fun r => decide (r.readThroughServerRevision < r.pinnedTargetServerRevision))

/-- The outcome of a mutation of the entity is not known. -/
def Store.involvedOutcomeUnknown (s : Store H) (entityId : String) : Bool :=
  s.outbox.any (fun row => decide (row.mutation.entityId = entityId) && row.isSending)

/-! ## Writing -/

/-- The field that the JSON text of a remote value stands for. -/
def remoteField (path : FieldPath) : ConflictValue → Option ChangedField
  | .field f => some f
  | .null | .lifecycleStatus _ | .deletedAt _ =>
    match path with
    | .note => some (.note none)
    | .portfolioId => some (.portfolioId none)
    | .tags => none
    | .targetPrice => some (.targetPrice none)

/-- There is a row to write the field to: a tag is inserted for the row of `domain_assets`, the
other fields are columns of `domain_asset_desired_state`. -/
def Store.hasFieldRow (s : Store H) (entityId : String) : ChangedField → Bool
  | .tags _ => (s.domainAsset entityId).isSome
  | .note _ | .portfolioId _ | .targetPrice _ =>
    (Keyed.lookup DesiredState.entityId entityId s.desiredState).isSome

/-- `apply_remote_resolution`.  The version of the asset stays as it is. -/
def applyRemoteResolution (s : Store H) (c : SyncConflict H) (committedAt : Timestamp) :
    Except BusinessDatabaseError (Store H) :=
  let fieldVersions := Keyed.adjust FieldVersion.key (c.entityId, c.fieldPath)
    (fun v => { v with serverRevision := c.remoteServerRevision, syncState := .clean })
    s.fieldVersions
  match c.fieldPath with
  | .sync path =>
    match remoteField path c.remoteValue with
    | none => .error .invalidInput
    | some f =>
      if s.hasFieldRow c.entityId f && !fieldStorable s.portfolios f then .error .storageRejected
      else
        .ok { s with
          desiredState :=
            Keyed.adjust DesiredState.entityId c.entityId (·.assign f) s.desiredState
          portfolioDomainAssets := Keyed.adjust PortfolioDomainAsset.entityId c.entityId
            (fun a => { a with row := a.row.applyField f }) s.portfolioDomainAssets
          fieldVersions := fieldVersions }
  | .lifecycleStatus =>
    .ok { s with
      domainAssets := Keyed.adjust DomainAsset.entityId c.entityId
        (fun a => { a with lifecycleStatus := .archived, deletedAt := some committedAt })
        s.domainAssets
      tombstones := Keyed.adjust Tombstone.entityId c.entityId
        (fun t => { t with state := .replicated, barrierState := .replicated }) s.tombstones
      fieldVersions := fieldVersions }

/-- The identifier of the mutation that keeps the local value. -/
def resolutionMutationId (resolutionId : String) : String := "resolution-" ++ resolutionId

/-- The new outbox row: an upsert of all the fields. -/
def resolutionRow (r : ResolutionRequest V) (row : DomainAssetProjectionRow) (s : Store H) :
    OutboxRow H :=
  (LocalOperation.edit row).addedRow
    ⟨resolutionMutationId r.resolutionId, 0, r.deviceId, r.activeLeaseEpoch, r.committedAt, true⟩ s

/-- The branch of `keep_local`: no field version is written. -/
def keepLocal (s : Store H) (c : SyncConflict H) (r : ResolutionRequest V) :
    Except BusinessDatabaseError (Store H) :=
  if c.fieldPath = .lifecycleStatus then .error .mutationConflict
  else
    match s.portfolioRow c.entityId with
    | none => .error .assetNotFound
    | some a =>
      if maxSafeInteger ≤ s.localCommitSequence ∨ maxSafeInteger ≤ s.nextDeviceMutationSequence
      then .error .storageRejected
      else if 2 ^ 63 ≤ r.activeLeaseEpoch then .error .invalidInput
      else if maxSafeInteger < r.activeLeaseEpoch ∨
          (s.outboxRow (resolutionMutationId r.resolutionId)).isSome then .error .storageRejected
      else
        .ok { s with
          localCommitSequence := s.localCommitSequence + 1
          nextDeviceMutationSequence := s.nextDeviceMutationSequence + 1
          outbox := s.outbox ++ [resolutionRow r a.row s] }

def resolveChoice (s : Store H) (c : SyncConflict H) (r : ResolutionRequest V) :
    Except BusinessDatabaseError (Store H) :=
  match r.choice with
  | .acceptRemote => applyRemoteResolution s c r.committedAt
  | .keepLocal => keepLocal s c r

/-- The candidate is no longer open, and gives its share of the capacity back. -/
def Store.closeConflict (J : SerdeJson H) (s : Store H) (c : SyncConflict H) : Store H :=
  { s with
    conflicts := Keyed.remove SyncConflict.conflictId c.conflictId s.conflicts
    openCount := s.openCount - 1
    openBytes := s.openBytes - J.value c.localValue - J.value c.remoteValue }

/-- The receipt of a resolution. -/
def ResolutionRequest.receipt (r : ResolutionRequest V) : ResolutionReceipt V where
  resolutionId := r.resolutionId
  conflictId := r.conflictId
  candidateVersion := r.expectedCandidateVersion
  choice := r.choice
  outboxMutationId := match r.choice with
    | .acceptRemote => none
    | .keepLocal => some (resolutionMutationId r.resolutionId)
  candidateSetVersion := r.expectedCandidateSetVersion
  remoteServerRevision := r.expectedRemoteRevision
  currentValueHash := r.expectedCurrentValueHash

/-- The guards on an open candidate, after its field is read. -/
def staleResolution [DecidableEq V] (hash : ConflictValue → V) (s : Store H) (c : SyncConflict H)
    (r : ResolutionRequest V) (current : ConflictValue) : Bool :=
  -- the version of a candidate is its remote revision
  decide (c.remoteServerRevision ≠ r.expectedCandidateVersion) ||
    decide (c.remoteServerRevision ≠ r.expectedRemoteRevision) ||
    decide (hash current ≠ r.expectedCurrentValueHash) ||
    decide (hash c.localValue ≠ r.expectedCurrentValueHash) ||
    decide (s.appliedThroughServerRevision ≠ r.expectedCandidateSetVersion) ||
    s.readerNotCaughtUp || s.involvedOutcomeUnknown c.entityId

/-- What `resolve_sync_conflict_guarded` checks of its arguments. -/
def invalidResolution (r : ResolutionRequest V) : Bool :=
  !validIdentifier r.resolutionId || !validIdentifier r.conflictId || !validIdentifier r.deviceId ||
    decide (r.expectedCandidateSetVersion = 0) || decide (r.expectedCandidateVersion = 0) ||
    decide (r.expectedRemoteRevision = 0) || decide (r.activeLeaseEpoch = 0)

/-- `resolve_sync_conflict_guarded`; `hash` is the digest of a value's JSON text.  A receipt is
replayed if it answers the same request. -/
def resolveSyncConflict [DecidableEq V] (J : SerdeJson H) (hash : ConflictValue → V)
    (db : BusinessDatabase H V) (r : ResolutionRequest V) :
    Except BusinessDatabaseError (BusinessDatabase H V × ResolutionReceipt V) :=
  let s := db.store
  if invalidResolution r then .error .invalidInput
  else
    match db.receipt r.resolutionId with
    | some stored => if stored ≠ r.receipt then .error .mutationConflict else .ok (db, stored)
    | none =>
      match db.openConflict r.conflictId with
      | some c =>
        match s.readResolutionField c.entityId c.fieldPath with
        | .error e => .error e
        | .ok current =>
          if staleResolution hash s c r current then .error .mutationStale
          else
            match resolveChoice s c r with
            | .error e => .error e
            | .ok s' =>
              .ok (⟨s'.closeConflict J c, db.resolved ++ [c], db.receipts ++ [r.receipt]⟩,
                r.receipt)
      | none =>
        match db.resolvedConflict r.conflictId with
        | some c =>
          match s.readResolutionField c.entityId c.fieldPath with
          | .error e => .error e
          | .ok _ => .error .mutationStale
        | none => .error .assetNotFound

end GoodDealer.Desktop
