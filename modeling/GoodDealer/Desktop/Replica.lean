/-
# `GoodDealer.Desktop.Replica` — applying pages of the log

The pull side of a desktop: the request it sends (`read_sync_pull_request_v2`), the
application of one log entry to the asset tables (`apply_sync_mutation_projection`),
and the transaction that applies a page (`apply_sync_page_v2`).

An entry never overwrites a pending local value: it becomes a conflict candidate.
An upsert of an entity with a tombstone is the one entry that is refused outright.
-/
import GoodDealer.Desktop.Store
import GoodDealer.Cloud.Reader
import GoodDealer.Lib.Transaction

namespace GoodDealer.Desktop

open List Keyed

open Cloud (PullRequest)
open Relation (ReflTransGen)

variable {H : Type} {J : SerdeJson H} {P : Platform H} {s s' t : Store H} {m : SyncMutation}
  {page : MutationPage H}

/-! ## Conflict candidates -/

/-- The field of a row at a path. -/
def fieldAt (r : DomainAssetProjectionRow) : FieldPath → ChangedField
  | .note => .note r.note
  | .portfolioId => .portfolioId r.portfolioId
  | .tags => .tags r.tags
  | .targetPrice => .targetPrice r.targetPrice

/-- `read_local_conflict_value`. -/
def Store.localConflictValue (s : Store H) (entityId : String) : LocalFieldPath → ConflictValue
  | .sync path =>
    match s.portfolioRow entityId with
    | some a => .field (fieldAt a.row path)
    | none => .null
  | .lifecycleStatus =>
    match s.domainAsset entityId with
    | some a => .lifecycleStatus a.lifecycleStatus
    | none => .null

/-- The remote value of a candidate. -/
def remoteConflictValue (m : SyncMutation) (path : LocalFieldPath) : ConflictValue :=
  match m.mutation.operationKind with
  | .delete => .deletedAt m.mutation.deletedAt
  | .upsert =>
    match m.mutation.changedFields.find? (fun f => .sync f.fieldPath = path) with
    | some f => .field f
    | none => .null

def maxOpenConflicts : Nat := 10000

def maxOpenConflictBytes : Nat := 67108864

variable (J P)

/-- `canonical_mutation_digest`: the entry without workspace and revision. -/
def canonicalMutationDigest (m : SyncMutation) : H :=
  P.sha256 (.mutation m.mutation.toSubmittedSyncMutationWire)

/-- `persist_conflict_candidate`, with the capacity trigger of `sync_conflicts`: the
capacity is checked first, and a candidate that is already there is ignored. -/
def persistConflictCandidate (s : Store H) (m : SyncMutation)
    (path : LocalFieldPath) : Except BusinessDatabaseError (Store H) :=
  let entityId := m.mutation.entityId
  let localValue := s.localConflictValue entityId path
  let remoteValue := remoteConflictValue m path
  let conflictId := "conflict-" ++ m.mutation.mutationId ++ "-" ++ path.wire
  match s.domainAsset entityId with
  | none => .error .storageRejected
  | some asset =>
    if maxOpenConflicts ≤ s.openCount ∨
        maxOpenConflictBytes < s.openBytes + J.value localValue + J.value remoteValue then
      .error .storageRejected
    else if s.conflicts.any (fun c => c.conflictId = conflictId || (c.entityId = entityId &&
        c.fieldPath = path && c.remoteServerRevision = m.serverRevision)) then .ok s
    else
      .ok { s with
        conflicts := s.conflicts ++
          [{ conflictId := conflictId
             entityId := entityId
             fieldPath := path
             localValue := localValue
             remoteValue := remoteValue
             localCommitSequence := asset.localCommitSequence
             remoteServerRevision := m.serverRevision
             remoteSourceDeviceId := m.mutation.sourceDeviceId
             remoteMutationId := m.mutation.mutationId
             remoteMutationDigest := canonicalMutationDigest P m }]
        openCount := s.openCount + 1
        openBytes := s.openBytes + J.value localValue + J.value remoteValue }

/-! ## Deletes -/

/-- The tombstone of a delete in the log. -/
def replicatedTombstone (m : SyncMutation) (localSequence : Nat) (barrier : BarrierState) :
    Tombstone where
  entityId := m.mutation.entityId
  deletedLocalCommitSequence := localSequence
  deletedServerRevision := some m.serverRevision
  deletedAt := m.mutation.deletedAt.getD 0
  state := .replicated
  barrierState := barrier
  order := some ⟨m.serverRevision, m.mutation.sourceDeviceId, m.mutation.mutationId⟩

/-- A later delete takes the tombstone over, and leaves its `state` if the delete is contested. -/
def Tombstone.supersede (new : Tombstone) (contested : Bool) (old : Tombstone) : Tombstone :=
  if old.orderServerRevision < new.orderServerRevision then
    { old with
      deletedServerRevision := new.deletedServerRevision
      deletedAt := new.deletedAt
      state := if contested then old.state else new.state
      barrierState := new.barrierState
      order := new.order }
  else old

/-- The delete branch: contested while a field of the entity is pending. -/
def applyDelete (s : Store H) (m : SyncMutation) :
    Except BusinessDatabaseError (Store H × Bool) :=
  let entityId := m.mutation.entityId
  if s.EntityPending entityId then
    match persistConflictCandidate J P s m .lifecycleStatus with
    | .error e => .error e
    | .ok s' =>
      match s'.domainAsset entityId with
      | none => .error .storageRejected
      | some asset =>
        let tombstone := replicatedTombstone m asset.localCommitSequence .contested
        .ok ({ s' with
          tombstones := Keyed.put Tombstone.entityId tombstone (tombstone.supersede true)
            s'.tombstones }, true)
  else
    let tombstone := replicatedTombstone m s.localCommitSequence .replicated
    .ok ({ s with
      tombstones :=
        Keyed.put Tombstone.entityId tombstone (tombstone.supersede false) s.tombstones
      domainAssets := Keyed.put DomainAsset.entityId
        ⟨entityId, .archived, some (m.mutation.deletedAt.getD 0), s.localCommitSequence⟩
        (fun a => { a with
          lifecycleStatus := .archived
          deletedAt := some (m.mutation.deletedAt.getD 0)
          localCommitSequence := s.localCommitSequence }) s.domainAssets }, false)

/-! ## Upserts -/

/-- The rows an upsert needs. -/
def Store.ensureAsset (s : Store H) (entityId : String) : Store H :=
  { s with
    domainAssets := Keyed.put DomainAsset.entityId
      ⟨entityId, .active, none, s.localCommitSequence⟩
      (fun a => { a with
        lifecycleStatus := .active
        deletedAt := none
        localCommitSequence := s.localCommitSequence }) s.domainAssets
    portfolioDomainAssets := Keyed.put PortfolioDomainAsset.entityId
      ⟨⟨entityId, none, none, [], none⟩, ⟨0, 0, 0, 0⟩⟩ id s.portfolioDomainAssets
    desiredState := Keyed.put DesiredState.entityId
      ⟨entityId, none, none, none, s.localCommitSequence⟩
      (fun d => { d with localCommitSequence := s.localCommitSequence }) s.desiredState }

def DesiredState.assign (d : DesiredState) : ChangedField → DesiredState
  | .note v => { d with note := v }
  | .portfolioId v => { d with portfolioId := v }
  | .tags _ => d
  | .targetPrice v => { d with targetPrice := v }

/-- Write one field that is not pending. -/
def Store.writeField (s : Store H) (entityId : String) (revision : Nat) (f : ChangedField) :
    Store H :=
  { s with
    desiredState := adjust DesiredState.entityId entityId (·.assign f) s.desiredState
    portfolioDomainAssets := adjust PortfolioDomainAsset.entityId entityId
      (fun a => ⟨a.row.applyField f, a.serverRevision.set revision f.fieldPath⟩)
      s.portfolioDomainAssets
    fieldVersions := Keyed.put FieldVersion.key
      ⟨entityId, .sync f.fieldPath, revision, s.localCommitSequence, .clean⟩
      (fun v => { v with
        serverRevision := revision
        localCommitSequence := s.localCommitSequence
        syncState := .clean }) s.fieldVersions }

/-- One field of an upsert: a candidate while the field is pending, else written. -/
def applyField (m : SyncMutation) (s : Store H)
    (f : ChangedField) : Except BusinessDatabaseError (Store H) :=
  if s.FieldPending m.mutation.entityId (.sync f.fieldPath) then
    persistConflictCandidate J P s m (.sync f.fieldPath)
  else if !fieldStorable s.portfolios f then .error .storageRejected
  else .ok (s.writeField m.mutation.entityId m.serverRevision f)

/-- The upsert branch; the flag says whether a field of it is pending.  The entry leaves
pending fields pending, so that can be read off the state before it. -/
def applyUpsert (s : Store H) (m : SyncMutation) :
    Except BusinessDatabaseError (Store H × Bool) :=
  if s.Tombstoned m.mutation.entityId then .error .mutationConflict
  else
    match m.mutation.changedFields.foldlM (applyField J P m)
      (s.ensureAsset m.mutation.entityId) with
    | .error e => .error e
    | .ok s' => .ok (s', m.mutation.changedFields.any (fun f =>
      decide (s.FieldPending m.mutation.entityId (.sync f.fieldPath))))

/-- `apply_sync_mutation_projection`; the flag is `conflicted`. -/
def applySyncMutationProjection (s : Store H)
    (m : SyncMutation) : Except BusinessDatabaseError (Store H × Bool) :=
  if !validDomainAssetId m.mutation.entityId || !validIdentifier m.mutation.mutationId ||
      !validIdentifier m.mutation.sourceDeviceId then .error .invalidInput
  else if m.workspaceId ≠ s.workspaceId ∨ m.mutation.workspaceSchemaVersion = 0 ∨
      m.mutation.activeLeaseEpoch = 0 ∨ m.mutation.deviceMutationSequence = 0 ∨
      m.serverRevision ≤ m.mutation.baseServerRevision then .error .invalidInput
  else if maxSafeInteger ≤ s.localCommitSequence ∨ maxSafeInteger < m.serverRevision then
    .error .storageRejected
  else
    let s' := { s with
      localCommitSequence := s.localCommitSequence + 1
      appliedThroughServerRevision := m.serverRevision }
    match m.mutation.operationKind with
    | .delete => applyDelete J P s' m
    | .upsert => applyUpsert J P s' m

/-! ## Pages -/

/-- One entry of a page: an entry the inbox has is skipped, if it is the same. -/
def applyEntry [DecidableEq H] (s : Store H)
    (m : SyncMutation) : Except BusinessDatabaseError (Store H) :=
  match Keyed.lookup InboxRow.serverRevision m.serverRevision s.inbox with
  | some row =>
    if row.mutationId ≠ m.mutation.mutationId ∨
        row.wireMutationDigest ≠ canonicalMutationDigest P m then .error .mutationConflict
    else .ok s
  | none =>
    match applySyncMutationProjection J P s m with
    | .error e => .error e
    | .ok (s', conflicted) =>
      -- `UNIQUE (workspace_id, mutation_id)`
      if s'.inbox.any (fun row => row.mutationId = m.mutation.mutationId) then
        .error .storageRejected
      else
        .ok { s' with inbox := s'.inbox ++
          [⟨m.serverRevision, m.mutation.mutationId, canonicalMutationDigest P m, conflicted⟩] }

/-- `validate_sync_mutation_fields`: the limits on tags are in bytes here. -/
def validateSyncMutationFields (m : SyncMutation) : Bool :=
  m.mutation.changedFields.all (fun f =>
    match f with
    | .tags tags => tags.length ≤ 64 && tags.all (fun t => t ≠ "" && t.utf8ByteSize ≤ 64)
    | _ => true)

/-- What `apply_sync_page_v2` checks of a page whose digest is right. -/
def wellFormedPage (page : MutationPage H) : Bool :=
  decide (DenseFrom SyncMutation.serverRevision page.fromServerRevisionExclusive page.mutations) &&
    page.mutations.all (fun m => m.workspaceId = page.workspaceId && m.mutation.mutationId ≠ "" &&
      m.mutation.entityId ≠ "" && decide m.mutation.Shape && validateSyncMutationFields m) &&
    page.returnedThroughServerRevision = page.expectedReturnedRevision &&
    (match page.nextCursor with
      | none => page.returnedThroughServerRevision = page.throughServerRevisionInclusive
      | some _ => page.returnedThroughServerRevision < page.throughServerRevisionInclusive)

inductive SyncProjectionEffect where
  | unchanged
  | visibleStateChanged
deriving DecidableEq

/-- The reader row moved to the end of a page. -/
def ReaderState.advance (r : ReaderState H) (page : MutationPage H) (confirmationToken : H) :
    ReaderState H :=
  { r with
    readThroughServerRevision := page.returnedThroughServerRevision
    pinnedTargetServerRevision := page.throughServerRevisionInclusive
    continuationToken := page.nextCursor
    confirmationToken := some confirmationToken
    lastPageDigest := some page.pageDigest }

/-- The cursor row is inserted by the first page and updated by the later ones. -/
def Store.recordPage (s : Store H) (deviceId : String) (page : MutationPage H)
    (confirmationToken : H) : Store H :=
  { s with
    readers := Keyed.put ReaderState.deviceId
      ⟨deviceId, page.returnedThroughServerRevision, page.throughServerRevisionInclusive,
        page.nextCursor, .active, some confirmationToken, some page.pageDigest⟩
      (fun r => r.advance page confirmationToken) s.readers
    appliedThroughServerRevision := page.returnedThroughServerRevision }

/-- The transaction of `apply_sync_page_v2`, after the page is checked. -/
def commitPage [DecidableEq H] (s : Store H)
    (deviceId : String) (page : MutationPage H) (confirmationToken : H) :
    Except BusinessDatabaseError (Store H × SyncProjectionEffect) :=
  let reader := s.reader deviceId
  if reader.any (fun r => r.status ≠ .active) then .error .revisionRejected
  else if s.appliedThroughServerRevision = page.returnedThroughServerRevision ∧
      reader.bind (·.lastPageDigest) = some page.pageDigest then
    if reader.bind (·.confirmationToken) ≠ some confirmationToken then .error .mutationConflict
    else .ok (s, .unchanged)
  else if page.fromServerRevisionExclusive ≠ s.appliedThroughServerRevision then
    .error .revisionRejected
  else
    match page.mutations.foldlM (applyEntry J P) s with
    | .error e => .error e
    | .ok s' =>
      .ok (s'.recordPage deviceId page confirmationToken, .visibleStateChanged)

/-- `apply_sync_page_v2`. -/
def applySyncPage [DecidableEq H] (s : Store H)
    (deviceId : String) (page : MutationPage H) (confirmationToken : H) :
    Except BusinessDatabaseError (Store H × SyncProjectionEffect) :=
  if !validIdentifier deviceId || 1048576 < J.page page then .error .invalidInput
  else if page.workspaceId ≠ s.workspaceId ∨ 256 < page.mutations.length ∨
      page.throughServerRevisionInclusive < page.fromServerRevisionExclusive ∨
      page.throughServerRevisionInclusive < page.returnedThroughServerRevision then
    .error .invalidInput
  else if page.pageDigest ≠ P.sha256 page.digestInput then .error .mutationConflict
  else if !wellFormedPage page then .error .invalidInput
  else commitPage J P s deviceId page confirmationToken

/-- `read_sync_pull_request_v2`. -/
def readSyncPullRequest (s : Store H) (deviceId : String) (pageLimit : Nat) :
    Except BusinessDatabaseError (PullRequest H) :=
  if !validIdentifier deviceId || pageLimit < 1 || 256 < pageLimit then .error .invalidInput
  else
    match s.reader deviceId with
    | some r =>
      if r.status ≠ .active then .error .revisionRejected
      else .ok ⟨r.readThroughServerRevision, r.continuationToken, r.confirmationToken, pageLimit⟩
    | none => .ok ⟨s.appliedThroughServerRevision, none, none, pageLimit⟩

/-! ## What applying an entry writes -/

/-- The counters move first. -/
def Store.stamp (s : Store H) (m : SyncMutation) : Store H :=
  { s with
    localCommitSequence := s.localCommitSequence + 1
    appliedThroughServerRevision := m.serverRevision }

/-- The identifier of the candidate of an entry at a path. -/
def candidateId (m : SyncMutation) (path : LocalFieldPath) : String :=
  "conflict-" ++ m.mutation.mutationId ++ "-" ++ path.wire

/-- The candidate an entry leaves at a path. -/
def candidate (s : Store H) (m : SyncMutation) (path : LocalFieldPath)
    (asset : DomainAsset) : SyncConflict H where
  conflictId := candidateId m path
  entityId := m.mutation.entityId
  fieldPath := path
  localValue := s.localConflictValue m.mutation.entityId path
  remoteValue := remoteConflictValue m path
  localCommitSequence := asset.localCommitSequence
  remoteServerRevision := m.serverRevision
  remoteSourceDeviceId := m.mutation.sourceDeviceId
  remoteMutationId := m.mutation.mutationId
  remoteMutationDigest := canonicalMutationDigest P m

def Store.addCandidate (s : Store H) (m : SyncMutation)
    (path : LocalFieldPath) (asset : DomainAsset) : Store H :=
  let c := candidate P s m path asset
  { s with
    conflicts := s.conflicts ++ [c]
    openCount := s.openCount + 1
    openBytes := s.openBytes + J.value c.localValue + J.value c.remoteValue }

variable {J P}

section

variable {conflicted : Bool} {f : ChangedField} {path : LocalFieldPath}

/-- The candidate is there already, or it is added under a new identifier. -/
theorem persistConflictCandidate_cases (h : persistConflictCandidate J P s m path = .ok s') :
    ∃ asset, s.domainAsset m.mutation.entityId = some asset ∧
      (s' = s ∨ (∀ c ∈ s.conflicts, c.conflictId ≠ candidateId m path) ∧
        s' = s.addCandidate J P m path asset) := by
  unfold persistConflictCandidate at h
  simp only at h
  split at h
  · cases h
  next asset hasset =>
  refine ⟨asset, hasset, ?_⟩
  split at h
  · cases h
  split at h
  · cases h
    exact .inl rfl
  next hnew =>
  cases h
  refine .inr ⟨fun c hc hid => hnew ?_, rfl⟩
  refine any_eq_true.mpr ⟨c, hc, ?_⟩
  rw [Bool.or_eq_true]
  exact .inl (decide_eq_true hid)

/-- The rows of the entity are there, and of the present commit. -/
structure Store.Ensured (s : Store H) (entityId : String) : Prop where
  asset : ∃ a, s.domainAsset entityId = some a ∧ a.deletedAt = none ∧
    a.localCommitSequence = s.localCommitSequence
  row : (s.portfolioRow entityId).isSome = true

/-- The tombstones after a delete of the log. -/
def Store.buried (s : Store H) (m : SyncMutation) (localSequence : Nat) (contested : Bool) :
    List Tombstone :=
  let tombstone := replicatedTombstone m localSequence
    (if contested then .contested else .replicated)
  Keyed.put Tombstone.entityId tombstone (tombstone.supersede contested) s.tombstones

/-- The assets after a delete of the log that is not contested. -/
def Store.archived (s : Store H) (m : SyncMutation) : List DomainAsset :=
  Keyed.put DomainAsset.entityId
    ⟨m.mutation.entityId, .archived, some (m.mutation.deletedAt.getD 0), s.localCommitSequence⟩
    (fun a => { a with
      lifecycleStatus := .archived
      deletedAt := some (m.mutation.deletedAt.getD 0)
      localCommitSequence := s.localCommitSequence }) s.domainAssets

/-- One write of the application of `m`. -/
inductive EntryWrite (J : SerdeJson H) (P : Platform H) (m : SyncMutation) (s : Store H) :
    Store H → Prop where
  /-- A pending field keeps its value; the remote one is recorded. -/
  | candidate {f : ChangedField} {asset : DomainAsset}
      (upsert : m.mutation.operationKind = .upsert) (field : f ∈ m.mutation.changedFields)
      (pending : s.FieldPending m.mutation.entityId (.sync f.fieldPath))
      (ensured : s.Ensured m.mutation.entityId)
      (found : s.domainAsset m.mutation.entityId = some asset)
      (new : ∀ c ∈ s.conflicts, c.conflictId ≠ candidateId m (.sync f.fieldPath)) :
      EntryWrite J P m s (s.addCandidate J P m (.sync f.fieldPath) asset)
  /-- The delete of an entity with pending fields, recorded now or before. -/
  | contest {asset : DomainAsset} (delete : m.mutation.operationKind = .delete)
      (pending : s.EntityPending m.mutation.entityId)
      (found : s.domainAsset m.mutation.entityId = some asset)
      (new : ∀ c ∈ s.conflicts, c.conflictId ≠ candidateId m .lifecycleStatus) :
      EntryWrite J P m s { s.addCandidate J P m .lifecycleStatus asset with
        tombstones := s.buried m asset.localCommitSequence true }
  | contestAgain {n : Nat} (delete : m.mutation.operationKind = .delete)
      (pending : s.EntityPending m.mutation.entityId) :
      EntryWrite J P m s { s with tombstones := s.buried m n true }
  | delete (delete : m.mutation.operationKind = .delete)
      (clean : ¬ s.EntityPending m.mutation.entityId) :
      EntryWrite J P m s { s with
        tombstones := s.buried m s.localCommitSequence false
        domainAssets := s.archived m }
  | ensure (upsert : m.mutation.operationKind = .upsert)
      (untombstoned : ¬ s.Tombstoned m.mutation.entityId) :
      EntryWrite J P m s (s.ensureAsset m.mutation.entityId)
  | field {f : ChangedField} (upsert : m.mutation.operationKind = .upsert)
      (field : f ∈ m.mutation.changedFields)
      (clean : ¬ s.FieldPending m.mutation.entityId (.sync f.fieldPath))
      (ensured : s.Ensured m.mutation.entityId) :
      EntryWrite J P m s (s.writeField m.mutation.entityId m.serverRevision f)

/-- A row all of whose columns but the key are written. -/
theorem lookup_put_asset {a : DomainAsset} {f : DomainAsset → DomainAsset}
    (hf : ∀ b, b.entityId = a.entityId → f b = a) (l : List DomainAsset) :
    Keyed.lookup DomainAsset.entityId a.entityId (Keyed.put DomainAsset.entityId a f l) =
      some a := by
  rw [lookup_put_self rfl fun b hb => congrArg DomainAsset.entityId (hf b hb)]
  cases h : Keyed.lookup DomainAsset.entityId a.entityId l with
  | none => rfl
  | some b =>
    rw [Option.map_some, hf b (lookup_eq_some h).2]
    rfl

theorem domainAsset_ensureAsset (s : Store H) (e : String) :
    (s.ensureAsset e).domainAsset e = some ⟨e, .active, none, s.localCommitSequence⟩ := by
  apply lookup_put_asset (a := ⟨e, .active, none, s.localCommitSequence⟩)
  rintro b rfl
  rfl

theorem lookup_archived (s : Store H) (m : SyncMutation) :
    Keyed.lookup DomainAsset.entityId m.mutation.entityId (s.archived m) =
      some ⟨m.mutation.entityId, .archived, some (m.mutation.deletedAt.getD 0),
        s.localCommitSequence⟩ := by
  apply lookup_put_asset (a := ⟨m.mutation.entityId, _, _, _⟩)
  intro b hb
  rw [hb]

theorem portfolioRow_ensureAsset (s : Store H) (e : String) :
    (s.ensureAsset e).portfolioRow e =
      some ((s.portfolioRow e).getD ⟨⟨e, none, none, [], none⟩, ⟨0, 0, 0, 0⟩⟩) := by
  have h : (s.ensureAsset e).portfolioRow e = some (((s.portfolioRow e).map id).getD
      ⟨⟨e, none, none, [], none⟩, ⟨0, 0, 0, 0⟩⟩) := by
    apply lookup_put_self
    · rfl
    · exact fun _ hb => hb
  rwa [Option.map_id_fun, id_eq] at h

theorem portfolioRow_writeField (s : Store H) (e : String) (revision : Nat) (f : ChangedField) :
    (s.writeField e revision f).portfolioRow e =
      (s.portfolioRow e).map (fun a =>
        ⟨a.row.applyField f, a.serverRevision.set revision f.fieldPath⟩) := by
  apply lookup_adjust_self
  intro a ha
  exact (DomainAssetProjectionRow.applyField_entityId a.row f).trans ha

theorem fieldPending_writeField {entityId e : String} {revision : Nat}
    (h : (s.writeField entityId revision f).FieldPending e path) :
    s.FieldPending e path := by
  obtain ⟨v, hv, he, hp⟩ := h
  rcases mem_put hv with hv | rfl | ⟨_, _, _, rfl⟩
  · exact ⟨v, hv, he, hp⟩
  · cases hp
  · cases hp

/-- A pending field gets a candidate, another one is written. -/
theorem applyField_cases (h : applyField J P m s f = .ok s') :
    s.FieldPending m.mutation.entityId (.sync f.fieldPath) ∧
      (∃ asset, s.domainAsset m.mutation.entityId = some asset ∧
        (s' = s ∨ (∀ c ∈ s.conflicts, c.conflictId ≠ candidateId m (.sync f.fieldPath)) ∧
          s' = s.addCandidate J P m (.sync f.fieldPath) asset)) ∨
    ¬ s.FieldPending m.mutation.entityId (.sync f.fieldPath) ∧
      s' = s.writeField m.mutation.entityId m.serverRevision f := by
  unfold applyField at h
  split at h
  next hpending => exact .inl ⟨hpending, persistConflictCandidate_cases h⟩
  next hclean =>
  split at h
  · cases h
  · cases h
    exact .inr ⟨hclean, rfl⟩

theorem applyField_keeps (h : applyField J P m s f = .ok s') :
    s'.domainAssets = s.domainAssets ∧ s'.portfolios = s.portfolios ∧
      ∀ e path, s'.FieldPending e path → s.FieldPending e path := by
  rcases applyField_cases h with ⟨_, _, _, rfl | ⟨_, rfl⟩⟩ | ⟨_, rfl⟩
  · exact ⟨rfl, rfl, fun _ _ h => h⟩
  · exact ⟨rfl, rfl, fun _ _ h => h⟩
  · exact ⟨rfl, rfl, fun _ _ => fieldPending_writeField⟩

theorem applyField_chain (hm : m.mutation.operationKind = .upsert) (t : Store H) (f : ChangedField)
    (t' : Store H) (hf : f ∈ m.mutation.changedFields) (ht : t.Ensured m.mutation.entityId)
    (h : applyField J P m t f = .ok t') :
    ReflTransGen (EntryWrite J P m) t t' ∧ t'.Ensured m.mutation.entityId := by
  rcases applyField_cases h with ⟨hpending, asset, hfound, rfl | ⟨hnew, rfl⟩⟩ | ⟨hclean, rfl⟩
  · exact ⟨.refl, ht⟩
  · exact ⟨.single (.candidate hm hf hpending ht hfound hnew), ht.asset, ht.row⟩
  · refine ⟨.single (.field hm hf hclean ht), ht.asset, ?_⟩
    rw [portfolioRow_writeField, Option.isSome_map]
    exact ht.row

theorem applyDelete_chain (hm : m.mutation.operationKind = .delete)
    (h : applyDelete J P s m = .ok (s', conflicted)) : ReflTransGen (EntryWrite J P m) s s' := by
  unfold applyDelete at h
  simp only at h
  split at h
  next hpending =>
    split at h
    · cases h
    next t hpersist =>
    obtain ⟨asset, hfound, rfl | ⟨hnew, rfl⟩⟩ := persistConflictCandidate_cases hpersist
    · rw [hfound] at h
      cases h
      exact .single (.contestAgain hm hpending)
    · rw [show (s.addCandidate J P m .lifecycleStatus asset).domainAsset m.mutation.entityId =
        some asset from hfound] at h
      cases h
      exact .single (.contest hm hpending hfound hnew)
  next hclean =>
    cases h
    exact .single (.delete hm hclean)

theorem applyUpsert_chain (hm : m.mutation.operationKind = .upsert)
    (h : applyUpsert J P s m = .ok (s', conflicted)) : ReflTransGen (EntryWrite J P m) s s' := by
  unfold applyUpsert at h
  split at h
  · cases h
  next htomb =>
  split at h
  · cases h
  next t hfields =>
  cases h
  refine .head (.ensure hm htomb) ?_
  refine foldlM_chain (I := fun t => t.Ensured m.mutation.entityId)
    (fun t f t' hf ht => applyField_chain hm t f t' hf ht) ?_ hfields
  exact ⟨⟨_, domainAsset_ensureAsset .., rfl, rfl⟩, by rw [portfolioRow_ensureAsset]; rfl⟩

/-- An entry that is applied. -/
structure Applies (J : SerdeJson H) (P : Platform H) (m : SyncMutation) (s s' : Store H) :
    Prop where
  shape : validIdentifier m.mutation.mutationId = true ∧ m.serverRevision ≤ maxSafeInteger
  room : s.localCommitSequence < maxSafeInteger
  writes : ReflTransGen (EntryWrite J P m) (s.stamp m) s'

theorem applySyncMutationProjection_applies
    (h : applySyncMutationProjection J P s m = .ok (s', conflicted)) : Applies J P m s s' := by
  unfold applySyncMutationProjection at h
  split at h
  · cases h
  next hids =>
  simp only [Bool.or_eq_true, Bool.not_eq_true', not_or, Bool.not_eq_false] at hids
  split at h
  · cases h
  split at h
  · cases h
  next hmax =>
  refine ⟨⟨hids.1.2, by omega⟩, by omega, ?_⟩
  simp only at h
  split at h
  next hdelete => exact applyDelete_chain hdelete h
  next hupsert => exact applyUpsert_chain hupsert h

/-- An entry of a page is skipped, or applied and written to the inbox. -/
theorem applyEntry_cases [DecidableEq H] (h : applyEntry J P s m = .ok s') :
    s' = s ∨ ∃ t row, Applies J P m s t ∧
      (row.serverRevision = m.serverRevision ∧ row.mutationId = m.mutation.mutationId) ∧
      s' = { t with inbox := t.inbox ++ [row] } := by
  unfold applyEntry at h
  split at h
  · split at h
    · cases h
    · cases h
      exact .inl rfl
  split at h
  · cases h
  next t conflicted hproject =>
  split at h
  · cases h
  · cases h
    exact .inr ⟨t, _, applySyncMutationProjection_applies hproject, ⟨rfl, rfl⟩, rfl⟩

/-- An entry leaves the pending field versions as they are. -/
theorem EntryWrite.pendingVersion (h : EntryWrite J P m s s') {v : FieldVersion}
    (hv : v.isPending = true) : v ∈ s'.fieldVersions ↔ v ∈ s.fieldVersions := by
  cases h with
  | candidate | contest | contestAgain | delete | ensure => exact Iff.rfl
  | @field f _ _ clean _ =>
    constructor
    · intro hmem
      rcases mem_put hmem with hmem | rfl | ⟨u, _, _, rfl⟩
      · exact hmem
      · cases hv
      · cases hv
    · intro hmem
      refine mem_put_of_ne hmem fun hk => clean ⟨v, hmem, hk, hv⟩

theorem EntryWrite.fieldPending (h : EntryWrite J P m s s') (e : String) (path : LocalFieldPath) :
    s'.FieldPending e path ↔ s.FieldPending e path := by
  constructor
  · rintro ⟨v, hv, hk, hp⟩
    exact ⟨v, (h.pendingVersion hp).mp hv, hk, hp⟩
  · rintro ⟨v, hv, hk, hp⟩
    exact ⟨v, (h.pendingVersion hp).mpr hv, hk, hp⟩

/-- A page that was applied, and was not a replay: its entries were, one after another. -/
structure PageEntries [DecidableEq H] (J : SerdeJson H) (P : Platform H) (s : Store H)
    (page : MutationPage H) (t : Store H) : Prop where
  wellFormed : wellFormedPage page = true
  start : page.fromServerRevisionExclusive = s.appliedThroughServerRevision
  entries : page.mutations.foldlM (applyEntry J P) s = .ok t

/-- The rule for pages: `I` holds between two entries, `K` while one is applied. -/
theorem PageEntries.inv [DecidableEq H] (h : PageEntries J P s page t) {I K : Store H → Prop}
    (hopen : ∀ m ∈ page.mutations, ∀ u, u.localCommitSequence < maxSafeInteger → I u →
      K (u.stamp m))
    (hwrite : ∀ m ∈ page.mutations, ∀ u u', K u → EntryWrite J P m u u' → K u')
    (hclose : ∀ u row, K u → I { u with inbox := u.inbox ++ [row] }) (hs : I s) : I t := by
  refine foldlM_inv ?_ hs h.entries
  intro u m u' hm hu hentry
  rcases applyEntry_cases hentry with rfl | ⟨v, row, happlies, _, rfl⟩
  · exact hu
  · apply hclose
    exact chain_inv (hwrite m hm) (hopen m hm u happlies.room hu) happlies.writes

theorem applySyncPage_cases [DecidableEq H] {deviceId : String}
    {token : H} {effect : SyncProjectionEffect}
    (h : applySyncPage J P s deviceId page token = .ok (s', effect)) :
    wellFormedPage page = true ∧ (s' = s ∨ ∃ t, PageEntries J P s page t ∧
      ¬ (s.reader deviceId).any (fun r => r.status ≠ .active) = true ∧
      s' = t.recordPage deviceId page token) := by
  unfold applySyncPage at h
  split at h
  · cases h
  split at h
  · cases h
  split at h
  · cases h
  split at h
  · cases h
  next hwf =>
  have hwf' : wellFormedPage page = true := by simpa using hwf
  refine ⟨hwf', ?_⟩
  unfold commitPage at h
  simp only at h
  split at h
  · cases h
  next hactive =>
  split at h
  · split at h
    · cases h
    · cases h
      exact .inl rfl
  split at h
  · cases h
  next hstart =>
  split at h
  · cases h
  next t hentries =>
    cases h
    exact .inr ⟨t, ⟨hwf', Decidable.not_not.mp hstart, hentries⟩, hactive, rfl⟩

end

/-! ## What applying an entry leaves alone -/

/-- An entry that was applied. -/
structure Projected (s : Store H) (m : SyncMutation) (s' : Store H) : Prop where
  workspaceId : s'.workspaceId = s.workspaceId
  sequence : s'.localCommitSequence = s.localCommitSequence + 1
  portfolios : s'.portfolios = s.portfolios
  tombstones : ∀ e, s'.Tombstoned e →
    s.Tombstoned e ∨ m.mutation.operationKind = .delete ∧ e = m.mutation.entityId
  pending : ∀ e path, s'.FieldPending e path → s.FieldPending e path
  assets : ∀ e ∈ s.domainAssets.map DomainAsset.entityId,
    e ∈ s'.domainAssets.map DomainAsset.entityId
  outbox : s'.outbox = s.outbox
  inbox : s'.inbox = s.inbox
  readers : s'.readers = s.readers

section

variable {e : BusinessDatabaseError}

/-- The tombstones after a delete. -/
theorem mem_put_tombstone {t : Tombstone} {contested : Bool} {ts : List Tombstone} {e : String} :
    e ∈ (Keyed.put Tombstone.entityId t (t.supersede contested) ts).map Tombstone.entityId ↔
      e ∈ ts.map Tombstone.entityId ∨ e = t.entityId := by
  refine key_mem_put fun b hb => ?_
  unfold Tombstone.supersede
  split <;> exact hb

/-- What holds between the database before an entry and the one after. -/
theorem Projected.write (h : Projected s m t) (hwrite : EntryWrite J P m t s') :
    Projected s m s' := by
  have hpending : ∀ e path, s'.FieldPending e path → s.FieldPending e path :=
    fun e path hp => h.pending e path ((hwrite.fieldPending e path).mp hp)
  have hburied : m.mutation.operationKind = .delete → ∀ n contested e,
      e ∈ (t.buried m n contested).map Tombstone.entityId →
      s.Tombstoned e ∨ m.mutation.operationKind = .delete ∧ e = m.mutation.entityId := by
    intro hdelete n contested e he
    rcases mem_put_tombstone.mp he with he | he
    · exact h.tombstones e he
    · exact .inr ⟨hdelete, he⟩
  have hput : ∀ a f, (∀ b : DomainAsset, b.entityId = a.entityId → (f b).entityId = a.entityId) →
      ∀ e ∈ s.domainAssets.map DomainAsset.entityId,
        e ∈ (Keyed.put DomainAsset.entityId a f t.domainAssets).map DomainAsset.entityId :=
    fun a f hf e he => (key_mem_put hf).mpr (.inl (h.assets e he))
  cases hwrite with
  | candidate | field => exact { h with pending := hpending }
  | contest hdelete | contestAgain hdelete =>
    exact { h with pending := hpending, tombstones := hburied hdelete _ _ }
  | delete hdelete =>
    exact { h with pending := hpending, tombstones := hburied hdelete _ _,
                   assets := hput _ _ fun _ hb => hb }
  | ensure => exact { h with pending := hpending, assets := hput _ _ fun _ hb => hb }

theorem Applies.projected (h : Applies J P m s s') : Projected s m s' := by
  have hstart : Projected s m (s.stamp m) :=
    ⟨rfl, rfl, rfl, fun _ h => .inl h, fun _ _ h => h, fun _ h => h, rfl, rfl, rfl⟩
  exact chain_inv (I := Projected s m) (fun _ _ ht hwrite => ht.write hwrite) hstart h.writes

/-! ### Errors -/

theorem persistConflictCandidate_error {path : LocalFieldPath}
    (h : persistConflictCandidate J P s m path = .error e) : e = .storageRejected := by
  unfold persistConflictCandidate at h
  simp only at h
  split at h
  · cases h; rfl
  split at h
  · cases h; rfl
  split at h <;> cases h

theorem applyFields_error :
    ∀ {fs : List ChangedField} {s : Store H},
      fs.foldlM (applyField J P m) s = .error e → e = .storageRejected
  | [], _, h => by cases h
  | f :: fs, s, h => by
    rw [foldlM_cons] at h
    cases hf : applyField J P m s f with
    | ok t =>
      rw [hf] at h
      exact applyFields_error (s := t) h
    | error e' =>
      rw [hf] at h
      cases h
      unfold applyField at hf
      split at hf
      · exact persistConflictCandidate_error hf
      split at hf
      · cases hf; rfl
      · cases hf

/-- The only conflict an entry meets is the tombstone of the entity it upserts. -/
theorem applySyncMutationProjection_error (h : applySyncMutationProjection J P s m = .error e) :
    e = .invalidInput ∨ e = .storageRejected ∨
      e = .mutationConflict ∧ m.mutation.operationKind = .upsert ∧
        s.Tombstoned m.mutation.entityId := by
  unfold applySyncMutationProjection at h
  split at h
  · cases h; exact .inl rfl
  split at h
  · cases h; exact .inl rfl
  split at h
  · cases h; exact .inr (.inl rfl)
  simp only at h
  split at h
  · unfold applyDelete at h
    simp only at h
    split at h
    · split at h
      next hpersist =>
        cases h
        exact .inr (.inl (persistConflictCandidate_error hpersist))
      split at h
      · cases h; exact .inr (.inl rfl)
      · cases h
    · cases h
  next hupsert =>
  unfold applyUpsert at h
  split at h
  next htomb =>
    cases h
    exact .inr (.inr ⟨rfl, hupsert, htomb⟩)
  split at h
  next hfields =>
    cases h
    exact .inr (.inl (applyFields_error hfields))
  · cases h

end

/-! ## What applying a page does -/

/-- Entries that were applied one after another, or skipped. -/
structure EntriesApplied (s : Store H) (ms : List SyncMutation) (s' : Store H) : Prop where
  workspaceId : s'.workspaceId = s.workspaceId
  portfolios : s'.portfolios = s.portfolios
  tombstones : ∀ e, s'.Tombstoned e →
    s.Tombstoned e ∨ ∃ m ∈ ms, m.mutation.operationKind = .delete ∧ e = m.mutation.entityId
  pending : ∀ e path, s'.FieldPending e path → s.FieldPending e path
  assets : ∀ e ∈ s.domainAssets.map DomainAsset.entityId,
    e ∈ s'.domainAssets.map DomainAsset.entityId
  outbox : s'.outbox = s.outbox
  inbox : ∀ r ∈ s'.inbox, r ∈ s.inbox ∨
    ∃ m ∈ ms, r.serverRevision = m.serverRevision ∧ r.mutationId = m.mutation.mutationId
  readers : s'.readers = s.readers

section

variable {ms : List SyncMutation}

theorem EntriesApplied.refl (s : Store H) (ms : List SyncMutation) : EntriesApplied s ms s :=
  ⟨rfl, rfl, fun _ h => .inl h, fun _ _ h => h, fun _ h => h, rfl, fun _ h => .inl h, rfl⟩

/-- A page does not end before it starts. -/
theorem from_le_returned (h : wellFormedPage page = true) :
    page.fromServerRevisionExclusive ≤ page.returnedThroughServerRevision := by
  simp only [wellFormedPage, Bool.and_eq_true, decide_eq_true_eq] at h
  obtain ⟨⟨⟨hdense, _⟩, hreturned⟩, _⟩ := h
  rw [hreturned, MutationPage.expectedReturnedRevision_eq hdense]
  exact Nat.le_add_right ..

variable [DecidableEq H]

/-- One entry more. -/
theorem EntriesApplied.entry (h : EntriesApplied s ms t) (hm : m ∈ ms)
    (hentry : applyEntry J P t m = .ok s') : EntriesApplied s ms s' := by
  rcases applyEntry_cases hentry with rfl | ⟨u, row, happlies, hrow, rfl⟩
  · exact h
  · have hu := happlies.projected
    exact
      { workspaceId := hu.workspaceId.trans h.workspaceId
        portfolios := hu.portfolios.trans h.portfolios
        tombstones := fun e he => by
          rcases hu.tombstones e he with he | hd
          · exact h.tombstones e he
          · exact .inr ⟨m, hm, hd⟩
        pending := fun e path he => h.pending e path (hu.pending e path he)
        assets := fun e he => hu.assets e (h.assets e he)
        outbox := hu.outbox.trans h.outbox
        inbox := fun r hr => by
          rcases mem_append.mp hr with hr | hr
          · rw [hu.inbox] at hr
            exact h.inbox r hr
          · rw [mem_singleton.mp hr]
            exact .inr ⟨m, hm, hrow⟩
        readers := hu.readers.trans h.readers }

theorem applyEntries_ok (h : ms.foldlM (applyEntry J P) s = .ok s') : EntriesApplied s ms s' :=
  foldlM_inv (fun _ _ _ hm ht hentry => EntriesApplied.entry ht hm hentry) (.refl s ms) h

/-- A page that was applied, and was not a replay. -/
structure PageApplied (s : Store H) (deviceId : String) (page : MutationPage H)
    (confirmationToken : H) (s' : Store H) : Prop where
  start : page.fromServerRevisionExclusive = s.appliedThroughServerRevision
  entries : EntriesApplied s page.mutations { s' with readers := s.readers }
  applied : s'.appliedThroughServerRevision = page.returnedThroughServerRevision
  reader : ∃ r, s'.reader deviceId = some r ∧
    r.readThroughServerRevision = page.returnedThroughServerRevision ∧
    r.continuationToken = page.nextCursor ∧ r.confirmationToken = some confirmationToken ∧
    r.lastPageDigest = some page.pageDigest ∧ r.status = .active

theorem applySyncPage_ok {deviceId : String} {token : H} {effect : SyncProjectionEffect}
    (h : applySyncPage J P s deviceId page token = .ok (s', effect)) :
    wellFormedPage page = true ∧ (s' = s ∨ PageApplied s deviceId page token s') := by
  refine (applySyncPage_cases h).imp_right fun h => h.imp_right ?_
  rintro ⟨t, hentries, hactive, rfl⟩
  have ht := applyEntries_ok hentries.entries
  have hreader : t.reader deviceId = s.reader deviceId := by
    rw [Store.reader, ht.readers, Store.reader]
  refine ⟨hentries.start, { ht with readers := rfl }, rfl, _, lookup_put_self ?_ ?_ _, ?_⟩
  · rfl
  · exact fun _ hb => hb
  rw [← Store.reader, hreader]
  cases hr : s.reader deviceId with
  | none => simp
  | some r =>
    have hstatus : r.status = .active := by simpa [hr] using hactive
    simp [ReaderState.advance, hstatus]

end

end GoodDealer.Desktop
