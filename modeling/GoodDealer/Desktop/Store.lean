/-
# `GoodDealer.Desktop.Store` — the active workspace of one desktop

The business database of a desktop: one workspace, its asset tables, and the
tables of the sync engine.  Each table is a list of rows.  What a `CHECK` or a
trigger enforces on single rows is carried by the types:

| constraint | here |
| :-- | :-- |
| `sync_outbox_v2_delivery_*`: owner, lease and fence exactly while sending | `DeliveryState` |
| acknowledged rows, and only those, have a server revision | `DeliveryState` |
| `order_*` columns of a tombstone are set together | `TombstoneOrder` |

An operation is one transaction and returns in `Except BusinessDatabaseError`; an
error leaves the database as it was.  This module has the rows, and the two local
mutations of an asset (`mutate_domain_asset`).
-/
import GoodDealer.Cloud.State

namespace GoodDealer.Desktop

open List Keyed

/-- `BusinessDatabaseError`, as far as the sync engine returns it. -/
inductive BusinessDatabaseError where
  | invalidInput
  | storageRejected
  | revisionRejected
  | assetNotFound
  | mutationConflict
  | mutationStale
  | assetDeleted
  | sequenceExhausted
deriving DecidableEq

/-! ## Assets -/

inductive LifecycleStatus where
  | active
  | expired
  | sold
  | dropped
  | archived
deriving DecidableEq

/-- A row of `domain_assets`. -/
structure DomainAsset where
  entityId : String
  lifecycleStatus : LifecycleStatus
  deletedAt : Option Timestamp
  localCommitSequence : Nat
deriving DecidableEq

/-- A row of `domain_asset_desired_state`, the columns the sync engine writes. -/
structure DesiredState where
  entityId : String
  portfolioId : Option String
  note : Option String
  targetPrice : Option Money
  localCommitSequence : Nat
deriving DecidableEq

/-- A row of `portfolio_domain_assets`: the values and their server revisions. -/
structure PortfolioDomainAsset where
  row : DomainAssetProjectionRow
  serverRevision : Cloud.FieldRevisions
deriving DecidableEq

def PortfolioDomainAsset.entityId (a : PortfolioDomainAsset) : String := a.row.entityId

/-- The `field_path` of a field version the sync engine writes. -/
inductive LocalFieldPath where
  | sync (path : FieldPath)
  | lifecycleStatus
deriving DecidableEq

def LocalFieldPath.wire : LocalFieldPath → String
  | .sync path => path.wire
  | .lifecycleStatus => "lifecycleStatus"

inductive FieldSyncState where
  | clean
  | pending
  | conflicted
  | localOnly
deriving DecidableEq

/-- A row of `domain_asset_field_versions`. -/
structure FieldVersion where
  entityId : String
  fieldPath : LocalFieldPath
  serverRevision : Nat
  localCommitSequence : Nat
  syncState : FieldSyncState
deriving DecidableEq

namespace FieldVersion

def key (v : FieldVersion) : String × LocalFieldPath := (v.entityId, v.fieldPath)

/-- `sync_state IN ('pending','conflicted')`. -/
def isPending (v : FieldVersion) : Bool :=
  match v.syncState with
  | .pending | .conflicted => true
  | .clean | .localOnly => false

end FieldVersion

/-! ## Tombstones -/

inductive TombstoneState where
  | pending
  | acknowledged
  | replicated
  | purgeEligible
deriving DecidableEq

inductive BarrierState where
  | pending
  | contested
  | replicated
  | acknowledged
  | purgeEligible
deriving DecidableEq

/-- The `order_*` columns: the delete of the log the tombstone stands for. -/
structure TombstoneOrder where
  serverRevision : Nat
  sourceDeviceId : String
  mutationId : String
deriving DecidableEq

/-- A row of `sync_tombstones`. -/
structure Tombstone where
  entityId : String
  deletedLocalCommitSequence : Nat
  deletedServerRevision : Option Nat
  deletedAt : Timestamp
  state : TombstoneState
  barrierState : BarrierState
  order : Option TombstoneOrder
deriving DecidableEq

/-- `COALESCE(order_server_revision, 0)`. -/
def Tombstone.orderServerRevision (t : Tombstone) : Nat :=
  (t.order.map (·.serverRevision)).getD 0

/-! ## Outbox and inbox -/

/-- The `state` of an outbox row with the columns that belong to it. -/
inductive DeliveryState where
  | pending (nextAttemptAt : Option Timestamp)
  | sending (deliveryOwner : String) (leaseExpiresAt : Timestamp) (attemptFence : Nat)
  | acknowledged (serverRevision : Nat)
  | conflicted
  | rejected
deriving DecidableEq

/-- A row of `sync_outbox` with its `sync_outbox_fields`; `mutation` is what
`reconstruct_sync_mutation_v2` puts together from the two. -/
structure OutboxRow (H : Type) where
  mutation : SubmittedSyncMutationWire
  createdAt : Timestamp
  localCommitSequence : Nat
  attemptCount : Nat
  state : DeliveryState
  wireMutationDigest : Option H
deriving DecidableEq

variable {H : Type}

def OutboxRow.mutationId (r : OutboxRow H) : String := r.mutation.mutationId

/-- A row as it is added to `sync_outbox`. -/
def OutboxRow.added (mutation : SubmittedSyncMutationWire) (createdAt : Timestamp)
    (localCommitSequence : Nat) : OutboxRow H :=
  ⟨mutation, createdAt, localCommitSequence, 0, .pending none, none⟩

/-- The row without its delivery. -/
def OutboxRow.undelivered (row : OutboxRow H) : OutboxRow H :=
  .added row.mutation row.createdAt row.localCommitSequence

/-- A row of `sync_inbox`. -/
structure InboxRow (H : Type) where
  serverRevision : Nat
  mutationId : String
  wireMutationDigest : H
  conflicted : Bool
deriving DecidableEq

/-- The values a conflict candidate compares. -/
inductive ConflictValue where
  | null
  | field (f : ChangedField)
  | lifecycleStatus (s : LifecycleStatus)
  | deletedAt (t : Option Timestamp)
deriving DecidableEq

/-- An open row of `sync_conflicts`. -/
structure SyncConflict (H : Type) where
  conflictId : String
  entityId : String
  fieldPath : LocalFieldPath
  localValue : ConflictValue
  remoteValue : ConflictValue
  localCommitSequence : Nat
  remoteServerRevision : Nat
  remoteSourceDeviceId : String
  remoteMutationId : String
  remoteMutationDigest : H
deriving DecidableEq

inductive ReaderStatus where
  | active
  | rebootstrapRequired
  | retired
deriving DecidableEq

/-- A row of `sync_reader_state`. -/
structure ReaderState (H : Type) where
  deviceId : String
  readThroughServerRevision : Nat
  pinnedTargetServerRevision : Nat
  continuationToken : Option H
  status : ReaderStatus
  confirmationToken : Option H
  lastPageDigest : Option H
deriving DecidableEq

/-! ## The database -/

/-- The lengths of the texts `serde_json` writes. -/
structure SerdeJson (H : Type) where
  value : ConflictValue → Nat
  pushRequest : List SubmittedSyncMutationWire → Nat
  page : MutationPage H → Nat

structure Store (H : Type) where
  workspaceId : String
  appliedThroughServerRevision : Nat
  localCommitSequence : Nat
  nextDeviceMutationSequence : Nat
  /-- The primary keys of `portfolios`. -/
  portfolios : List String
  domainAssets : List DomainAsset
  desiredState : List DesiredState
  portfolioDomainAssets : List PortfolioDomainAsset
  fieldVersions : List FieldVersion
  tombstones : List Tombstone
  outbox : List (OutboxRow H)
  inbox : List (InboxRow H)
  conflicts : List (SyncConflict H)
  /-- The row of `sync_conflict_capacity`. -/
  openCount : Nat
  openBytes : Nat
  readers : List (ReaderState H)
deriving DecidableEq

namespace Store

def domainAsset (s : Store H) (entityId : String) : Option DomainAsset :=
  Keyed.lookup DomainAsset.entityId entityId s.domainAssets

def portfolioRow (s : Store H) (entityId : String) : Option PortfolioDomainAsset :=
  Keyed.lookup PortfolioDomainAsset.entityId entityId s.portfolioDomainAssets

def outboxRow (s : Store H) (mutationId : String) : Option (OutboxRow H) :=
  Keyed.lookup OutboxRow.mutationId mutationId s.outbox

def reader (s : Store H) (deviceId : String) : Option (ReaderState H) :=
  Keyed.lookup ReaderState.deviceId deviceId s.readers

/-- The entity has a row in `sync_tombstones`. -/
def Tombstoned (s : Store H) (entityId : String) : Prop :=
  entityId ∈ s.tombstones.map Tombstone.entityId

instance (s : Store H) (entityId : String) : Decidable (s.Tombstoned entityId) :=
  inferInstanceAs (Decidable (_ ∈ _))

/-- One field is pending or conflicted. -/
def FieldPending (s : Store H) (entityId : String) (path : LocalFieldPath) : Prop :=
  ∃ v ∈ s.fieldVersions, v.key = (entityId, path) ∧ v.isPending = true

instance (s : Store H) (entityId : String) (path : LocalFieldPath) :
    Decidable (s.FieldPending entityId path) :=
  inferInstanceAs (Decidable (∃ v ∈ _, _))

/-- Some field of the entity is pending or conflicted. -/
def EntityPending (s : Store H) (entityId : String) : Prop :=
  ∃ v ∈ s.fieldVersions, v.entityId = entityId ∧ v.isPending = true

instance (s : Store H) (entityId : String) : Decidable (s.EntityPending entityId) :=
  inferInstanceAs (Decidable (∃ v ∈ _, _))

theorem entityPending_iff {s : Store H} {entityId : String} :
    s.EntityPending entityId ↔ ∃ path, s.FieldPending entityId path := by
  constructor
  · rintro ⟨v, hv, rfl, hp⟩
    exact ⟨v.fieldPath, v, hv, rfl, hp⟩
  · rintro ⟨path, v, hv, hk, hp⟩
    exact ⟨v, hv, (Prod.mk.inj hk).1, hp⟩

end Store

/-! ## What the columns accept -/

/-- `length(tag) BETWEEN 1 AND 64 AND tag = trim(tag)`. -/
def tagStorable (tag : String) : Bool :=
  1 ≤ tag.toList.length && tag.toList.length ≤ 64 &&
    tag.toList.head? != some ' ' && tag.toList.getLast? != some ' '

/-- A text that a trim of blanks and more leaves as it is. -/
theorem tagStorable_of_ends {p : Char → Bool} {tag : String} (hspace : p ' ' = true)
    (hpos : 1 ≤ tag.toList.length) (hle : tag.toList.length ≤ 64)
    (hhead : tag.toList.head?.any p = false) (hlast : tag.toList.getLast?.any p = false) :
    tagStorable tag = true := by
  have hends : ∀ {o : Option Char}, o.any p = false → o ≠ some ' ' := by
    rintro _ hany rfl
    rw [Option.any_some, hspace] at hany
    cases hany
  simp only [tagStorable, Bool.and_eq_true, decide_eq_true_eq, bne_iff_ne]
  exact ⟨⟨⟨hpos, hle⟩, hends hhead⟩, hends hlast⟩

/-- The constraints a field's columns put on its value: the `CHECK`s, the key of
`domain_asset_tags` and the reference to `portfolios`. -/
def fieldStorable (portfolios : List String) : ChangedField → Bool
  | .note v => v.all (fun note => note.toList.length ≤ 10000)
  | .portfolioId v => v.all (fun p => portfolios.contains p)
  | .tags v => v.all tagStorable && decide v.Nodup
  | .targetPrice v => v.all (fun m => m.currency.toList.length == 3 &&
      m.currency.toList.all (fun c => 'A' ≤ c && c ≤ 'Z'))

/-! ## Local validation -/

/-- `is_forbidden_text_character`. -/
def isForbiddenTextCharacter (c : Char) : Bool :=
  isControl c || c.toNat == 0xad || c.toNat == 0x61c || (0x200b ≤ c.toNat && c.toNat ≤ 0x200f) ||
    (0x202a ≤ c.toNat && c.toNat ≤ 0x202e) || (0x2060 ≤ c.toNat && c.toNat ≤ 0x206f) ||
    c.toNat == 0xfeff || (0xfff9 ≤ c.toNat && c.toNat ≤ 0xfffb)

/-- The characters `str::trim` removes. -/
def isWhitespace (c : Char) : Bool :=
  (9 ≤ c.toNat && c.toNat ≤ 13) || c.toNat == 0x20 || c.toNat == 0x85 || c.toNat == 0xa0 ||
    c.toNat == 0x1680 || (0x2000 ≤ c.toNat && c.toNat ≤ 0x200a) || c.toNat == 0x2028 ||
    c.toNat == 0x2029 || c.toNat == 0x202f || c.toNat == 0x205f || c.toNat == 0x3000

/-- `validate_domain_asset`. -/
def validateDomainAsset (a : DomainAssetProjectionRow) : Bool :=
  validDomainAssetId a.entityId &&
    a.note.all (fun note => note.toList.length ≤ 10000 &&
      note.toList.all (fun c => !isForbiddenTextCharacter c)) &&
    a.portfolioId.all validIdentifier && a.tags.length ≤ 128 &&
    a.tags.all (fun tag => 1 ≤ tag.toList.length && tag.toList.length ≤ 64 &&
      !(tag.toList.head?.any isWhitespace) && !(tag.toList.getLast?.any isWhitespace) &&
      tag.toList.all (fun c => !isForbiddenTextCharacter c)) &&
    decide (a.tags.Pairwise (· < ·)) && a.targetPrice.all Money.valid

/-! ## Local mutations -/

/-- The authority and compare-and-swap fields of a local mutation. -/
structure MutationRequest where
  mutationId : String
  expectedAssetVersion : Nat
  deviceId : String
  activeLeaseEpoch : Nat
  committedAt : Timestamp
  allowNew : Bool
deriving DecidableEq

inductive LocalOperation where
  | edit (asset : DomainAssetProjectionRow)
  | delete (entityId : String)
deriving DecidableEq

namespace LocalOperation

def entityId : LocalOperation → String
  | .edit asset => asset.entityId
  | .delete entityId => entityId

def kind : LocalOperation → OperationKind
  | .edit _ => .upsert
  | .delete _ => .delete

/-- The rows of `sync_outbox_fields`. -/
def changedFields : LocalOperation → List ChangedField
  | .edit asset =>
    [.note asset.note, .portfolioId asset.portfolioId, .tags asset.tags,
      .targetPrice asset.targetPrice]
  | .delete _ => []

/-- What the outbox row of the operation reconstructs to. -/
def mutation (op : LocalOperation) (r : MutationRequest) (baseServerRevision sequence : Nat) :
    SubmittedSyncMutationWire where
  mutationId := r.mutationId
  workspaceSchemaVersion := 1
  entityId := op.entityId
  operationKind := op.kind
  deletedAt := match op with
    | .edit _ => none
    | .delete _ => some r.committedAt
  baseServerRevision := baseServerRevision
  changedFields := op.changedFields
  sourceDeviceId := r.deviceId
  activeLeaseEpoch := r.activeLeaseEpoch
  deviceMutationSequence := sequence

/-- The row of `sync_outbox` of the operation. -/
def addedRow (op : LocalOperation) (r : MutationRequest) (s : Store H) : OutboxRow H :=
  .added (op.mutation r s.appliedThroughServerRevision s.nextDeviceMutationSequence) r.committedAt
    (s.localCommitSequence + 1)

end LocalOperation

/-- `DomainAssetMutationReceipt`; `replayed` is the disposition. -/
structure DomainAssetMutationReceipt where
  replayed : Bool
  mutationId : String
  entityId : String
  localCommitSequence : Nat
  deviceMutationSequence : Nat
  baseServerRevision : Nat
  activeLeaseEpoch : Nat
  committedAt : Timestamp
deriving DecidableEq

def OutboxRow.isSending (row : OutboxRow H) : Bool :=
  match row.state with
  | .sending .. => true
  | .pending _ | .acknowledged _ | .conflicted | .rejected => false

/-- The stored row is not the mutation that is submitted again.  The payload digests
agree exactly when the changed fields do. -/
def OutboxRow.differs (row : OutboxRow H) (r : MutationRequest) (op : LocalOperation) : Bool :=
  row.mutation.entityId != op.entityId || row.mutation.operationKind != op.kind ||
    row.mutation.changedFields != op.changedFields || row.mutation.sourceDeviceId != r.deviceId

/-- A local write marks a field pending. -/
def markPending (entityId : String) (baseServerRevision localSequence : Nat)
    (versions : List FieldVersion) (path : LocalFieldPath) : List FieldVersion :=
  Keyed.put FieldVersion.key ⟨entityId, path, baseServerRevision, localSequence, .pending⟩
    (fun v => { v with localCommitSequence := localSequence, syncState := .pending }) versions

/-- All paths an edit writes. -/
def editedPaths : List LocalFieldPath := FieldPath.all.map .sync

/-- The asset rows after a local edit. -/
def Store.writeEdit (s : Store H) (asset : DomainAssetProjectionRow) (localSequence : Nat) :
    Except BusinessDatabaseError (Store H) :=
  let e := asset.entityId
  -- the reference to `portfolios` is checked on the row of `domain_asset_desired_state`
  if (Keyed.lookup DesiredState.entityId e s.desiredState).isSome &&
      !(LocalOperation.edit asset).changedFields.all (fieldStorable s.portfolios) then
    .error .storageRejected
  else
    .ok { s with
      domainAssets := adjust DomainAsset.entityId e
        (fun a => { a with localCommitSequence := localSequence }) s.domainAssets
      desiredState := adjust DesiredState.entityId e
        (fun _ => ⟨e, asset.portfolioId, asset.note, asset.targetPrice, localSequence⟩)
        s.desiredState
      portfolioDomainAssets := adjust PortfolioDomainAsset.entityId e
        (fun a => { a with row := asset }) s.portfolioDomainAssets
      fieldVersions := editedPaths.foldl
        (markPending e s.appliedThroughServerRevision localSequence) s.fieldVersions }

/-- The asset rows after a local delete; a tombstone that is already there makes the
plain `INSERT` fail. -/
def Store.writeDelete (s : Store H) (entityId : String) (deletedAt : Timestamp)
    (localSequence : Nat) : Except BusinessDatabaseError (Store H) :=
  if s.Tombstoned entityId then .error .storageRejected
  else
    .ok { s with
      domainAssets := adjust DomainAsset.entityId entityId
        (fun a => { a with
          lifecycleStatus := .archived
          deletedAt := some deletedAt
          localCommitSequence := localSequence }) s.domainAssets
      fieldVersions := markPending entityId s.appliedThroughServerRevision localSequence
        s.fieldVersions .lifecycleStatus
      tombstones := s.tombstones ++
        [⟨entityId, localSequence, none, deletedAt, .pending, .pending, none⟩] }

def Store.write (s : Store H) (op : LocalOperation) (r : MutationRequest) (localSequence : Nat) :
    Except BusinessDatabaseError (Store H) :=
  match op with
  | .edit asset => s.writeEdit asset localSequence
  | .delete entityId => s.writeDelete entityId r.committedAt localSequence

/-- `mutate_domain_asset`: the base of the new mutation is the revision applied so far. -/
def mutateDomainAsset (s : Store H) (r : MutationRequest) (op : LocalOperation) :
    Except BusinessDatabaseError (Store H × DomainAssetMutationReceipt) :=
  match s.outboxRow r.mutationId with
  | some row =>
    if row.differs r op then .error .mutationConflict
    else .ok (s, ⟨true, r.mutationId, op.entityId, row.localCommitSequence,
      row.mutation.deviceMutationSequence, row.mutation.baseServerRevision,
      row.mutation.activeLeaseEpoch, row.createdAt⟩)
  | none =>
    if !r.allowNew then .error .mutationStale
    else
      match s.domainAsset op.entityId with
      | none => .error .assetNotFound
      | some asset =>
        if asset.deletedAt.isSome then .error .assetDeleted
        else if asset.localCommitSequence ≠ r.expectedAssetVersion then .error .mutationStale
        else if maxSafeInteger ≤ s.localCommitSequence ∨
            maxSafeInteger ≤ s.nextDeviceMutationSequence then .error .sequenceExhausted
        else
          let localSequence := s.localCommitSequence + 1
          let sequence := s.nextDeviceMutationSequence
          let base := s.appliedThroughServerRevision
          match { s with
              localCommitSequence := localSequence
              nextDeviceMutationSequence := sequence + 1 }.write op r localSequence with
          | .error e => .error e
          | .ok s' =>
            if 2 ^ 63 ≤ r.activeLeaseEpoch then .error .invalidInput
            else if r.activeLeaseEpoch < 1 ∨ maxSafeInteger < r.activeLeaseEpoch then
              .error .storageRejected
            else
              .ok ({ s' with outbox := s'.outbox ++
                  [.added (op.mutation r base sequence) r.committedAt localSequence] },
                ⟨false, r.mutationId, op.entityId, localSequence, sequence, base,
                  r.activeLeaseEpoch, r.committedAt⟩)

/-- `edit_domain_asset` and `delete_domain_asset`. -/
def localMutation (s : Store H) (r : MutationRequest) (op : LocalOperation) :
    Except BusinessDatabaseError (Store H × DomainAssetMutationReceipt) :=
  if !validIdentifier r.mutationId || !validIdentifier r.deviceId then .error .invalidInput
  else
    match op with
    | .edit asset =>
      if !validateDomainAsset asset then .error .invalidInput else mutateDomainAsset s r op
    | .delete entityId =>
      if !validDomainAssetId entityId then .error .invalidInput else mutateDomainAsset s r op

/-! ## What a local mutation does -/

/-- A local mutation that is not a replay. -/
structure LocalCommit (s : Store H) (r : MutationRequest) (op : LocalOperation) (s' : Store H) :
    Prop where
  known : op.entityId ∈ s.domainAssets.map DomainAsset.entityId
  fresh : s.outboxRow r.mutationId = none
  epoch : 1 ≤ r.activeLeaseEpoch ∧ r.activeLeaseEpoch ≤ maxSafeInteger
  sequence : s.nextDeviceMutationSequence < maxSafeInteger
  workspaceId : s'.workspaceId = s.workspaceId
  applied : s'.appliedThroughServerRevision = s.appliedThroughServerRevision
  next : s'.nextDeviceMutationSequence = s.nextDeviceMutationSequence + 1
  portfolios : s'.portfolios = s.portfolios
  assets : s'.domainAssets.map DomainAsset.entityId = s.domainAssets.map DomainAsset.entityId
  tombstones : ∀ e, s'.Tombstoned e → s.Tombstoned e ∨ op.kind = .delete ∧ e = op.entityId
  pending : ∀ e, s'.EntityPending e → s.EntityPending e ∨ e = op.entityId
  outbox : s'.outbox = s.outbox ++ [op.addedRow r s]
  inbox : s'.inbox = s.inbox
  readers : s'.readers = s.readers

namespace LocalOperation

/-- The field versions an operation marks pending. -/
def paths : LocalOperation → List LocalFieldPath
  | .edit _ => editedPaths
  | .delete _ => [.lifecycleStatus]

/-- The row of `domain_assets` after the operation. -/
def writeAsset (op : LocalOperation) (r : MutationRequest) (localSequence : Nat)
    (a : DomainAsset) : DomainAsset :=
  match op with
  | .edit _ => { a with localCommitSequence := localSequence }
  | .delete _ =>
    { a with
      lifecycleStatus := .archived
      deletedAt := some r.committedAt
      localCommitSequence := localSequence }

theorem writeAsset_entityId (op : LocalOperation) (r : MutationRequest) (n : Nat)
    (a : DomainAsset) :
    (op.writeAsset r n a).entityId = a.entityId := by
  cases op <;> rfl

end LocalOperation

/-- The database after a local mutation. -/
def Store.mutated (s : Store H) (r : MutationRequest) (op : LocalOperation) : Store H :=
  let n := s.localCommitSequence + 1
  let e := op.entityId
  { s with
    localCommitSequence := n
    nextDeviceMutationSequence := s.nextDeviceMutationSequence + 1
    domainAssets := adjust DomainAsset.entityId e (op.writeAsset r n) s.domainAssets
    desiredState := match op with
      | .edit asset => adjust DesiredState.entityId e
          (fun _ => ⟨e, asset.portfolioId, asset.note, asset.targetPrice, n⟩) s.desiredState
      | .delete _ => s.desiredState
    portfolioDomainAssets := match op with
      | .edit asset => adjust PortfolioDomainAsset.entityId e
          (fun a => { a with row := asset }) s.portfolioDomainAssets
      | .delete _ => s.portfolioDomainAssets
    fieldVersions := op.paths.foldl (markPending e s.appliedThroughServerRevision n) s.fieldVersions
    tombstones := match op with
      | .edit _ => s.tombstones
      | .delete _ => s.tombstones ++ [⟨e, n, none, r.committedAt, .pending, .pending, none⟩]
    outbox := s.outbox ++ [op.addedRow r s] }

/-- A local mutation that was committed, and was not a replay. -/
structure Committed (s : Store H) (r : MutationRequest) (op : LocalOperation) : Prop where
  fresh : s.outboxRow r.mutationId = none
  asset : ∃ a, s.domainAsset op.entityId = some a ∧ a.deletedAt = none ∧
    a.localCommitSequence = r.expectedAssetVersion
  room : s.localCommitSequence < maxSafeInteger ∧ s.nextDeviceMutationSequence < maxSafeInteger
  untombstoned : op.kind = .delete → ¬ s.Tombstoned op.entityId

section

variable {s s' : Store H} {r : MutationRequest} {op : LocalOperation}
  {receipt : DomainAssetMutationReceipt}

/-- What a write of the asset rows leaves, with the row that is added to the outbox. -/
theorem write_mutated {t : Store H}
    (h : { s with
        localCommitSequence := s.localCommitSequence + 1
        nextDeviceMutationSequence := s.nextDeviceMutationSequence + 1 }.write op r
          (s.localCommitSequence + 1) = .ok t) :
    (op.kind = .delete → ¬ s.Tombstoned op.entityId) ∧
      { t with outbox := t.outbox ++ [op.addedRow r s] } = s.mutated r op := by
  cases op with
  | edit asset =>
    simp only [Store.write, Store.writeEdit] at h
    split at h
    · cases h
    · cases h
      exact ⟨fun hkind => (by cases hkind), rfl⟩
  | delete entityId =>
    simp only [Store.write, Store.writeDelete] at h
    split at h
    · cases h
    next htomb =>
      cases h
      exact ⟨fun _ => htomb, rfl⟩

/-- The receipt of a replay. -/
def OutboxRow.replay (row : OutboxRow H) : DomainAssetMutationReceipt :=
  ⟨true, row.mutationId, row.mutation.entityId, row.localCommitSequence,
    row.mutation.deviceMutationSequence, row.mutation.baseServerRevision,
    row.mutation.activeLeaseEpoch, row.createdAt⟩

theorem replay_eq {row : OutboxRow H} (hrow : s.outboxRow r.mutationId = some row)
    (hsame : ¬ row.differs r op = true) : row.replay =
      ⟨true, r.mutationId, op.entityId, row.localCommitSequence,
        row.mutation.deviceMutationSequence, row.mutation.baseServerRevision,
        row.mutation.activeLeaseEpoch, row.createdAt⟩ := by
  have hentity : row.mutation.entityId = op.entityId := by
    simp only [OutboxRow.differs] at hsame
    grind
  rw [OutboxRow.replay, hentity, (lookup_eq_some hrow).2]

theorem outboxRow_mutated (hfresh : s.outboxRow r.mutationId = none) :
    (s.mutated r op).outboxRow r.mutationId = some (op.addedRow r s) := by
  have hnone : Keyed.lookup OutboxRow.mutationId r.mutationId s.outbox = none := hfresh
  refine (lookup_append r.mutationId s.outbox [_]).trans ?_
  rw [hnone, Option.none_or, Keyed.lookup_cons]
  exact if_pos rfl

/-- A mutation that goes through has its row: it was submitted before, or is committed now. -/
theorem mutateDomainAsset_committed (h : mutateDomainAsset s r op = .ok (s', receipt)) :
    (∃ row, s'.outboxRow r.mutationId = some row ∧ row.differs r op = false ∧
      { receipt with replayed := true } = row.replay) ∧
    (s' = s ∧ receipt.replayed = true ∨ Committed s r op ∧
      (1 ≤ r.activeLeaseEpoch ∧ r.activeLeaseEpoch ≤ maxSafeInteger) ∧ s' = s.mutated r op ∧
      receipt.replayed = false) := by
  unfold mutateDomainAsset at h
  split at h
  next row hrow =>
    split at h
    · cases h
    next hsame =>
      cases h
      exact ⟨⟨row, hrow, by simpa using hsame, (replay_eq hrow hsame).symm⟩, .inl ⟨rfl, rfl⟩⟩
  next hfresh =>
  split at h
  · cases h
  split at h
  · cases h
  next asset hasset =>
  split at h
  · cases h
  next hlive =>
  split at h
  · cases h
  next hversion =>
  split at h
  · cases h
  next hmax =>
  simp only at h
  split at h
  · cases h
  next t hwrite =>
  obtain ⟨htomb, heq⟩ := write_mutated hwrite
  split at h
  · cases h
  split at h
  · cases h
  cases h
  have hrow : (s.mutated r op).outboxRow _ = _ := outboxRow_mutated hfresh
  rw [← heq] at hrow
  refine ⟨⟨_, hrow, ?_, rfl⟩,
    .inr ⟨⟨hfresh, ⟨asset, hasset, ?_, ?_⟩, ?_, htomb⟩, by omega, heq, rfl⟩⟩
  · simp [OutboxRow.differs, LocalOperation.addedRow, OutboxRow.added, LocalOperation.mutation]
  · simpa using hlive
  · simpa using hversion
  · omega

/-- A local mutation that its validators admit. -/
theorem mutateDomainAsset_of_local (h : localMutation s r op = .ok (s', receipt)) :
    mutateDomainAsset s r op = .ok (s', receipt) := by
  unfold localMutation at h
  split at h
  · cases h
  · cases op with
    | edit asset | delete entityId =>
      simp only at h
      split at h
      · cases h
      · exact h

/-- A field version after a local write: an older one, or one the write marked.  A marked one
keeps the revision of the row that was there. -/
structure Marked (e : String) (base n : Nat) (paths : List LocalFieldPath) (vs : List FieldVersion)
    (v : FieldVersion) : Prop where
  entityId : v.entityId = e
  path : v.fieldPath ∈ paths
  sequence : v.localCommitSequence = n
  revision : (∃ u ∈ vs, u.key = v.key ∧ u.serverRevision = v.serverRevision) ∨
    v.serverRevision = base ∧ v.key ∉ vs.map FieldVersion.key

variable {e : String} {base n : Nat} {k : String × LocalFieldPath} {vs : List FieldVersion}
  {path : LocalFieldPath} {v : FieldVersion}

theorem mem_markPending_marked
    (h : v ∈ markPending e base n vs path) : v ∈ vs ∨ Marked e base n [path] vs v := by
  unfold markPending at h
  cases hl : Keyed.lookup FieldVersion.key (e, path) vs with
  | none =>
    rw [put_of_lookup_none (by exact hl)] at h
    rcases mem_append.mp h with h | h
    · exact .inl h
    · rw [mem_singleton.mp h]
      refine .inr ⟨rfl, mem_cons_self, rfl, .inr ⟨rfl, fun hmem => ?_⟩⟩
      obtain ⟨u, hu, hk⟩ := mem_map.mp hmem
      exact lookup_eq_none.mp hl u hu hk
  | some w =>
    rw [put_of_lookup_some (by exact hl)] at h
    obtain ⟨u, hu, rfl⟩ := mem_adjust.mp h
    split
    next hk =>
      obtain ⟨hentity, hpath⟩ := Prod.mk.inj hk
      exact .inr ⟨hentity, mem_singleton.mpr hpath, rfl, .inl ⟨u, hu, rfl, rfl⟩⟩
    · exact .inl hu

theorem key_mem_markPending (hk : k ∈ vs.map FieldVersion.key) :
    k ∈ (markPending e base n vs path).map FieldVersion.key := by
  apply (key_mem_put ?_).mpr (.inl hk)
  exact fun _ hb => hb

theorem key_mem_foldl_markPending :
    ∀ {paths : List LocalFieldPath} {vs : List FieldVersion}, k ∈ vs.map FieldVersion.key →
      k ∈ (paths.foldl (markPending e base n) vs).map FieldVersion.key := by
  intro paths
  induction paths with
  | nil => exact fun hk => hk
  | cons path paths ih => exact fun hk => ih (key_mem_markPending hk)

theorem mem_foldl_markPending_marked :
    ∀ {paths : List LocalFieldPath} {vs : List FieldVersion},
      v ∈ paths.foldl (markPending e base n) vs → v ∈ vs ∨ Marked e base n paths vs v := by
  intro paths
  induction paths with
  | nil => exact fun h => .inl h
  | cons path paths ih =>
    intro vs h
    rcases ih h with h | ⟨hentity, hpath, hsequence, hrevision⟩
    · rcases mem_markPending_marked h with h | ⟨hentity, hpath, hsequence, hrevision⟩
      · exact .inl h
      · refine .inr ⟨hentity, ?_, hsequence, hrevision⟩
        rw [mem_singleton.mp hpath]
        exact mem_cons_self
    · refine .inr ⟨hentity, mem_cons_of_mem _ hpath, hsequence, ?_⟩
      rcases hrevision with ⟨u, hu, hk, hrev⟩ | ⟨hrev, hfresh⟩
      · -- the row before this path was marked is an older one, or one the first path marked
        rcases mem_markPending_marked hu with hu | hmarked
        · exact .inl ⟨u, hu, hk, hrev⟩
        · rcases hmarked.revision with ⟨w, hw, hkw, hrevw⟩ | ⟨hbase, hnone⟩
          · exact .inl ⟨w, hw, hkw.trans hk, hrevw.trans hrev⟩
          · exact .inr ⟨hrev.symm.trans hbase, hk ▸ hnone⟩
      · exact .inr ⟨hrev, fun hk => hfresh (key_mem_markPending hk)⟩

theorem Committed.localCommit (h : Committed s r op)
    (he : 1 ≤ r.activeLeaseEpoch ∧ r.activeLeaseEpoch ≤ maxSafeInteger) :
    LocalCommit s r op (s.mutated r op) where
  known := by
    obtain ⟨a, ha, _⟩ := h.asset
    exact mem_map.mpr ⟨a, lookup_eq_some ha⟩
  fresh := h.fresh
  epoch := he
  sequence := h.room.2
  workspaceId := rfl
  applied := rfl
  next := rfl
  portfolios := rfl
  assets := keys_adjust (fun a ha => (op.writeAsset_entityId r _ a).trans ha) _
  tombstones := by
    intro e ht
    cases op with
    | edit => exact .inl ht
    | delete =>
      simp only [Store.Tombstoned, Store.mutated, map_append, mem_append, map_cons, map_nil,
        mem_singleton] at ht
      exact ht.imp_right fun heq => ⟨rfl, heq⟩
  pending := by
    rintro e ⟨v, hv, rfl, hp⟩
    rcases mem_foldl_markPending_marked hv with hv | hmarked
    · exact .inl ⟨v, hv, rfl, hp⟩
    · exact .inr hmarked.entityId
  outbox := rfl
  inbox := rfl
  readers := rfl

theorem localMutation_ok (h : localMutation s r op = .ok (s', receipt)) :
    s' = s ∨ LocalCommit s r op s' := by
  rcases (mutateDomainAsset_committed (mutateDomainAsset_of_local h)).2 with
    ⟨hsame, _⟩ | ⟨hcommitted, hepoch, rfl, _⟩
  · exact .inl hsame
  · exact .inr (hcommitted.localCommit hepoch)

end

end GoodDealer.Desktop
