/-
# `GoodDealer.Cloud.Checkpoint` — checkpoints, pins and log compaction

The operations of `PostgresCheckpointService` and the rebootstrap reader.  A
checkpoint is built from the live rows at the head, verified against its
digests, and published; it can then be pinned, superseded, or served with the
log range after it as a rebootstrap plan.  Compaction deletes a prefix of the
log, up to the least revision any reader, device, pin or recovery still needs
and no further than the newest available checkpoint.

Each operation is one transaction: `none` is a thrown error, which rolls back.
-/
import GoodDealer.Cloud.State

namespace GoodDealer.Cloud

open List

variable {H : Type}

/-- `CheckpointPersistenceRejectionCode`; a bound workspace always resolves. -/
inductive CheckpointPersistenceRejectionCode where
  | headMismatch
  | notAvailable
  | digestMismatch
  | storageMalformed
  | pinned
  | lastUsable
  | authorityUnavailable
  | watermarkBlocked
  | chainIncomplete
deriving DecidableEq

inductive CheckpointPersistenceResult (α : Type) where
  | accepted (value : α)
  | rejected (code : CheckpointPersistenceRejectionCode)
deriving DecidableEq

/-! ## Digests -/

def domainAssetCheckpointPartitionRows : Nat := 512

/-- `domainAssetCheckpointPartitionId`. -/
def domainAssetCheckpointPartitionId (index : Nat) : Option String :=
  if index ≤ 4095 then
    let digits := toString index
    some ("p" ++ String.ofList (List.replicate (4 - digits.length) '0') ++ digits)
  else none

/-- The rows of each partition, with its id. -/
def partitions (rows : List DomainAssetProjectionRow) :
    List (Option String × List DomainAssetProjectionRow) :=
  if rows = [] then [(some "empty", [])]
  else
    (List.range ((rows.length + domainAssetCheckpointPartitionRows - 1) /
        domainAssetCheckpointPartitionRows)).map (fun i =>
      (domainAssetCheckpointPartitionId i,
        (rows.drop (i * domainAssetCheckpointPartitionRows)).take
          domainAssetCheckpointPartitionRows))

/-- `computeDomainAssetEntityDigests`; a partition index out of range throws. -/
def computeDomainAssetEntityDigests (P : Platform H) (rows : List DomainAssetProjectionRow) :
    Option (List (WorkspaceEntityDigest H)) :=
  if (partitions rows).all (fun p => p.1.isSome) then
    some ((partitions rows).map (fun p => ⟨p.1, P.sha256 (.domainAssets p.2)⟩))
  else none

/-- The `CHECK` of `workspace_checkpoint_domain_assets` the row schema does not
imply: a tag has at most 64 bytes. -/
def storableSnapshot (rows : List DomainAssetProjectionRow) : Bool :=
  rows.all (fun r => r.tags.all (fun t => decide (t.utf8ByteSize ≤ 64)))

/-! ## Lifecycle -/

namespace PersistentCheckpoint

def isAvailable (c : PersistentCheckpoint H) : Bool := c.status = .available

/-- `sameDescriptor`. -/
def sameDescriptor [DecidableEq H] (a b : PersistentCheckpoint H) : Bool :=
  a.checkpointId = b.checkpointId && a.workspaceSchemaVersion = b.workspaceSchemaVersion &&
    a.throughServerRevision = b.throughServerRevision && a.checkpointDigest = b.checkpointDigest

end PersistentCheckpoint

/-- A checkpoint by id. -/
def Workspace.checkpoint (w : Workspace H) (checkpointId : String) :
    Option (PersistentCheckpoint H) :=
  Keyed.lookup PersistentCheckpoint.checkpointId checkpointId w.checkpoints

/-- A status change of one checkpoint. -/
def Workspace.setStatus (w : Workspace H) (checkpointId : String)
    (status : PersistentCheckpointStatus) : Workspace H :=
  { w with
    checkpoints := Keyed.adjust PersistentCheckpoint.checkpointId checkpointId
      (fun c => { c with status := status }) w.checkpoints }

/-- `createBuilding`. -/
def createBuilding [DecidableEq H] (w : Workspace H) (c : PersistentCheckpoint H) :
    Option (Workspace H × PersistentCheckpoint H) :=
  match w.checkpoint c.checkpointId with
  | some existing => if existing.sameDescriptor c then some (w, existing) else none
  | none =>
    if storableSnapshot c.snapshot then
      some ({ w with checkpoints := w.checkpoints ++ [c] }, c)
    else none

/-- `build`. -/
def build [DecidableEq H] (P : Platform H) (w : Workspace H) (checkpointId : String)
    (throughServerRevision : Nat) :
    Option (Workspace H × CheckpointPersistenceResult (PersistentCheckpoint H)) :=
  if !validIdentifier checkpointId then none
  else if throughServerRevision ≠ w.log.serverRevision then some (w, .rejected .headMismatch)
  else
    match w.assets.captureSnapshot with
    | none => none
    | some snapshot =>
      match computeDomainAssetEntityDigests P snapshot with
      | none => none
      | some entityDigests =>
        (createBuilding w
          { checkpointId := checkpointId
            workspaceSchemaVersion := w.log.workspaceSchemaVersion
            throughServerRevision := throughServerRevision
            checkpointDigest := P.sha256 (.entityDigests entityDigests)
            snapshot := snapshot
            entityDigests := entityDigests
            status := .building }).map (fun (w', c) => (w', .accepted c))

/-- `verify`. -/
def verify [DecidableEq H] (P : Platform H) (w : Workspace H) (checkpointId : String) :
    Option (Workspace H × CheckpointPersistenceResult (PersistentCheckpoint H)) :=
  if !validIdentifier checkpointId then none
  else
    match w.checkpoint checkpointId with
    | none => some (w, .rejected .notAvailable)
    | some c =>
      if c.status ≠ .building then some (w, .rejected .notAvailable)
      else
        match (parseProjection c.snapshot).bind (computeDomainAssetEntityDigests P) with
        | none => some (w.setStatus checkpointId .invalid, .rejected .storageMalformed)
        | some recomputed =>
          if recomputed ≠ c.entityDigests ∨
              P.sha256 (.entityDigests recomputed) ≠ c.checkpointDigest then
            some (w.setStatus checkpointId .invalid, .rejected .digestMismatch)
          else
            some (w.setStatus checkpointId .verified,
              .accepted { c with status := .verified })

/-- `publish`. -/
def publish (w : Workspace H) (checkpointId : String) :
    Option (Workspace H × CheckpointPersistenceResult (PersistentCheckpoint H)) :=
  if !validIdentifier checkpointId then none
  else
    match w.checkpoint checkpointId with
    | none => some (w, .rejected .notAvailable)
    | some c =>
      match c.status with
      | .available => some (w, .accepted c)
      | .verified =>
        some (w.setStatus checkpointId .available, .accepted { c with status := .available })
      | _ => some (w, .rejected .notAvailable)

/-! ## Pins -/

/-- Pins past their expiry are released. -/
def releaseExpiredPins (now : Instant) (pins : List (CheckpointPin H)) : List (CheckpointPin H) :=
  pins.map (fun p => if !p.released && p.expiresAt ≤ now then { p with released := true } else p)

/-- `supersede`: the released pins are kept whatever the outcome. -/
def supersede (w : Workspace H) (checkpointId : String) :
    Option (Workspace H × CheckpointPersistenceResult Unit) :=
  if !validIdentifier checkpointId then none
  else
    match w.checkpoint checkpointId with
    | none => some (w, .rejected .notAvailable)
    | some c =>
      if !c.isAvailable then some (w, .rejected .notAvailable)
      else
        let w := { w with pins := releaseExpiredPins w.now w.pins }
        if w.pins.any (fun p => !p.released && p.checkpointId = checkpointId) then
          some (w, .rejected .pinned)
        else if w.checkpoints.countP PersistentCheckpoint.isAvailable = 1 then
          some (w, .rejected .lastUsable)
        else some (w.setStatus checkpointId .superseded, .accepted ())

/-- `CheckpointPinBinding`. -/
structure CheckpointPinBinding (H : Type) where
  checkpointId : String
  throughServerRevision : Nat
  checkpointDigest : H
  consumerKind : ConsumerKind
  consumerId : String
  expiresAt : Timestamp
deriving DecidableEq

/-- The pin a binding names. -/
def CheckpointPin.boundBy {H : Type} (b : CheckpointPinBinding H) (p : CheckpointPin H) : Bool :=
  p.checkpointId = b.checkpointId && p.consumerKind = b.consumerKind && p.consumerId = b.consumerId

/-- `pin`: a consumer has one unreleased pin at a time, and a new pin of the
checkpoint it already holds extends the expiry. -/
def pin [DecidableEq H] (w : Workspace H) (b : CheckpointPinBinding H) :
    Option (Workspace H × Unit) :=
  if !validIdentifier b.checkpointId || !validIdentifier b.consumerId then none
  else
    match w.checkpoint b.checkpointId with
    | none => none
    | some c =>
      if !c.isAvailable || c.throughServerRevision ≠ b.throughServerRevision ||
          c.checkpointDigest ≠ b.checkpointDigest || instantOf b.expiresAt ≤ w.now then none
      else
        match w.pins.find? (CheckpointPin.boundBy b) with
        | some p =>
          if p.released || p.expectedThroughServerRevision ≠ b.throughServerRevision ||
              p.expectedCheckpointDigest ≠ b.checkpointDigest then none
          else
            some ({ w with
              pins := w.pins.map (fun q =>
                if CheckpointPin.boundBy b q then
                  { q with expiresAt := max q.expiresAt (instantOf b.expiresAt) } else q) }, ())
        | none =>
          if w.pins.any (fun q => !q.released && q.consumerKind = b.consumerKind &&
              q.consumerId = b.consumerId) then none
          else
            some ({ w with
              pins := w.pins ++
                [{ checkpointId := b.checkpointId
                   consumerKind := b.consumerKind
                   consumerId := b.consumerId
                   expectedThroughServerRevision := b.throughServerRevision
                   expectedCheckpointDigest := b.checkpointDigest
                   expiresAt := instantOf b.expiresAt
                   released := false }] }, ())

/-- `releasePin`. -/
def releasePin (w : Workspace H) (kind : ConsumerKind) (consumerId : String) :
    Option (Workspace H × Unit) :=
  if !validIdentifier consumerId then none
  else
    some ({ w with
      pins := w.pins.map (fun p =>
        if p.consumerKind = kind && p.consumerId = consumerId && !p.released then
          { p with released := true } else p) }, ())

/-! ## Compaction -/

/-- `readOldestUnresolvedComparisonRevision`: no port, a port that throws, or its answer. -/
inductive RecoveryPort where
  | absent
  | failing
  | oldestUnresolved (revision : Option Nat)
deriving DecidableEq

structure CompactionProjection where
  compactedThroughServerRevision : Nat
  deletedMutationCount : Nat
deriving DecidableEq

/-- An active cursor past its lease. -/
def ReaderCursor.isExpired (now : Instant) (c : ReaderCursor H) : Bool :=
  c.isActive && decide (c.leaseExpiresAt ≤ now)

/-- A retired cursor keeps its position and loses its continuation. -/
def ReaderCursor.retire (c : ReaderCursor H) (reason : RetirementReason) : ReaderCursor H :=
  { c with rowVersion := c.rowVersion + 1, lifecycle := .retired reason }

/-- Expired cursors are retired; the row-version column is bounded. -/
def retireExpired (now : Instant) (readers : List (ReaderCursor H)) :
    Option (List (ReaderCursor H)) :=
  if readers.any (fun c => c.isExpired now && decide (maxSafeInteger ≤ c.rowVersion)) then none
  else some (readers.map (fun c => if c.isExpired now then c.retire .ttlExpired else c))

/-- `minimumRevision`. -/
def minimumRevision (values : List (Option Nat)) : Option Nat := (values.filterMap id).min?

/-- The least revision an active cursor has read to. -/
def readerMinimum (readers : List (ReaderCursor H)) : Option Nat :=
  ((readers.filter ReaderCursor.isActive).map ReaderCursor.readThroughServerRevision).min?

/-- `minimumPinnedRevision`. -/
def minimumPinnedRevision (pins : List (CheckpointPin H)) : Option Nat :=
  ((pins.filter (fun p => !p.released)).map CheckpointPin.expectedThroughServerRevision).min?

/-- `newestAvailableRevision`. -/
def newestAvailableRevision (checkpoints : List (PersistentCheckpoint H)) : Option Nat :=
  ((checkpoints.filter PersistentCheckpoint.isAvailable).map
    PersistentCheckpoint.throughServerRevision).max?

/-- `compact`.  A `CompactionRejected` is thrown, so it rolls back the retired
readers and the released pins. -/
def compact (w : Workspace H) (requestedThrough : Nat) (deviceMinimum : Option Nat)
    (recovery : RecoveryPort) :
    Option (Workspace H × CheckpointPersistenceResult CompactionProjection) :=
  if requestedThrough ≤ w.log.compactedThroughServerRevision ∨
      w.log.serverRevision < requestedThrough then
    some (w, .rejected .watermarkBlocked)
  else
    match recovery with
    | .absent => some (w, .rejected .authorityUnavailable)
    | .failing =>
      (retireExpired w.now w.readers).map (fun _ => (w, .rejected .authorityUnavailable))
    | .oldestUnresolved recoveryMinimum =>
      match retireExpired w.now w.readers with
      | none => none
      | some readers =>
        let pins := releaseExpiredPins w.now w.pins
        let newest := newestAvailableRevision w.checkpoints
        let safeThrough := minimumRevision
          [readerMinimum readers, deviceMinimum, minimumPinnedRevision pins, recoveryMinimum,
           newest]
        if safeThrough.all (fun s => decide (s < requestedThrough)) ∨
            newest.all (fun n => decide (n < requestedThrough)) then
          some (w, .rejected .watermarkBlocked)
        else if !w.log.hasCompleteRange w.log.compactedThroughServerRevision
            w.log.serverRevision then
          some (w, .rejected .chainIncomplete)
        else
          (w.log.compactPrefix requestedThrough).map (fun log =>
            ({ w with log := log, readers := readers, pins := pins },
              .accepted ⟨requestedThrough, w.log.entries.length - log.entries.length⟩))

/-! ## The rebootstrap plan -/

/-- `ORDER BY through_server_revision DESC, checkpoint_id DESC`. -/
def PersistentCheckpoint.precedes (a b : PersistentCheckpoint H) : Bool :=
  a.throughServerRevision < b.throughServerRevision ||
    (a.throughServerRevision = b.throughServerRevision && a.checkpointId < b.checkpointId)

/-- `readLatestAvailable`. -/
def readLatestAvailable (w : Workspace H) : Option (PersistentCheckpoint H) :=
  (w.checkpoints.filter PersistentCheckpoint.isAvailable).foldl
    (fun best c =>
      match best with
      | none => some c
      | some b => if b.precedes c then some c else some b) none

/-- The evidence a rebootstrap consumes. -/
structure RebootstrapPlan (H : Type) where
  checkpoint : PersistentCheckpoint H
  snapshot : List DomainAssetProjectionRow
  fromServerRevisionExclusive : Nat
  throughServerRevisionInclusive : Nat
  mutations : List (MutationPage H)
  pinnedHeadRevision : Nat
deriving DecidableEq

/-- The pages are contiguous, from `expected` to `through`. -/
def pagesContiguous (workspaceId : String) (through : Nat) : Nat → List (MutationPage H) → Bool
  | expected, [] => expected == through
  | expected, p :: ps =>
    p.workspaceId == workspaceId && p.fromServerRevisionExclusive == expected &&
      pagesContiguous workspaceId through p.returnedThroughServerRevision ps

def maxRebootstrapPages : Nat := 4096

/-- `rebootstrapPlanSchema`. -/
def RebootstrapPlan.valid [DecidableEq H] (workspaceId : String) (plan : RebootstrapPlan H) :
    Bool :=
  plan.mutations.length ≤ maxRebootstrapPages && plan.mutations.all (fun p => decide p.Valid) &&
    decide (ValidProjection plan.snapshot) &&
    plan.fromServerRevisionExclusive ≤ plan.throughServerRevisionInclusive &&
    plan.checkpoint.throughServerRevision == plan.fromServerRevisionExclusive &&
    plan.throughServerRevisionInclusive ≤ plan.pinnedHeadRevision &&
    pagesContiguous workspaceId plan.throughServerRevisionInclusive
      plan.fromServerRevisionExclusive plan.mutations

/-- The page of a plan that starts `offset` entries after the checkpoint. -/
def rebootstrapPage (P : Platform H) (workspaceId : String) (fromRevision through : Nat)
    (mutations : List SyncMutation) (offset : Nat) : MutationPage H :=
  let pageMutations := (mutations.drop offset).take maxMutationsPerPage
  let returnedThrough := fromRevision + offset + pageMutations.length
  let draft : MutationPage H :=
    { workspaceId := workspaceId
      fromServerRevisionExclusive := fromRevision + offset
      throughServerRevisionInclusive := through
      mutations := pageMutations
      returnedThroughServerRevision := returnedThrough
      nextCursor := if returnedThrough = through then none
        else some (P.literal ("rebootstrap_" ++ toString returnedThrough))
      pageDigest := P.literal "AAAAAAAAAAAAAAAAAAAAAAAAAAAAAAAAAAAAAAAAAAA" }
  { draft with pageDigest := P.sha256 draft.digestInput }

/-- `readRebootstrapPlan`: outer `none` throws, inner `none` is no checkpoint. -/
def readRebootstrapPlan [DecidableEq H] (P : Platform H) (w : Workspace H) :
    Option (Option (RebootstrapPlan H)) :=
  match readLatestAvailable w with
  | none => some none
  | some c =>
    let fromRevision := c.throughServerRevision
    let through := w.log.serverRevision
    let mutations := w.log.readRange fromRevision through
    if mutations.length ≠ through - fromRevision ∨ through < fromRevision then none
    else
      let pages := (List.range ((mutations.length + maxMutationsPerPage - 1) /
        maxMutationsPerPage)).map (fun i =>
          rebootstrapPage P w.log.workspaceId fromRevision through mutations
            (i * maxMutationsPerPage))
      let plan : RebootstrapPlan H :=
        { checkpoint := c
          snapshot := c.snapshot
          fromServerRevisionExclusive := fromRevision
          throughServerRevisionInclusive := through
          mutations := pages
          pinnedHeadRevision := through }
      if plan.valid w.log.workspaceId then some (some plan) else none

/-! ## What each operation does -/

section

variable {w w' : Workspace H}

variable {checkpointId : String} {res : CheckpointPersistenceResult (PersistentCheckpoint H)}
  {P : Platform H}

theorem build_cases [DecidableEq H] {through : Nat}
    (h : build P w checkpointId through = some (w', res)) :
    w' = w ∨ ∃ c : PersistentCheckpoint H,
      c.status = .building ∧ c.throughServerRevision = w.log.serverRevision ∧
      w.assets.captureSnapshot = some c.snapshot ∧ w.checkpoint c.checkpointId = none ∧
      w' = { w with checkpoints := w.checkpoints ++ [c] } := by
  rw [build] at h
  split at h
  next => cases h
  next =>
  split at h
  next => cases h; exact .inl rfl
  next hhead =>
  split at h
  next => cases h
  next snapshot hsnap =>
  split at h
  next => cases h
  next digests _ =>
  obtain ⟨⟨w'', c⟩, hc, heq⟩ := Option.map_eq_some_iff.mp h
  cases heq
  rw [createBuilding] at hc
  split at hc
  next =>
    split at hc
    next => cases hc; exact .inl rfl
    next => cases hc
  next hnone =>
  split at hc
  next =>
    cases hc
    exact .inr ⟨_, rfl, Decidable.not_not.mp hhead, hsnap, hnone, rfl⟩
  next => cases hc

theorem verify_cases [DecidableEq H] (h : verify P w checkpointId = some (w', res)) :
    w' = w ∨ ∃ (c : PersistentCheckpoint H) (s : PersistentCheckpointStatus),
      w.checkpoint checkpointId = some c ∧ c.status = .building ∧
      (s = .verified ∨ s = .invalid) ∧ w' = w.setStatus checkpointId s := by
  rw [verify] at h
  split at h
  next => cases h
  next =>
  split at h
  next => cases h; exact .inl rfl
  next c hc =>
  split at h
  next => cases h; exact .inl rfl
  next hs =>
  have hs := Decidable.not_not.mp hs
  split at h
  next => cases h; exact .inr ⟨c, _, hc, hs, .inr rfl, rfl⟩
  next =>
  split at h
  next => cases h; exact .inr ⟨c, _, hc, hs, .inr rfl, rfl⟩
  next => cases h; exact .inr ⟨c, _, hc, hs, .inl rfl, rfl⟩

theorem publish_cases (h : publish w checkpointId = some (w', res)) :
    w' = w ∨ ∃ c : PersistentCheckpoint H,
      w.checkpoint checkpointId = some c ∧ c.status = .verified ∧
      w' = w.setStatus checkpointId .available := by
  rw [publish] at h
  split at h
  next => cases h
  next =>
  split at h
  next => cases h; exact .inl rfl
  next c hc =>
  split at h
  next => cases h; exact .inl rfl
  next hs => cases h; exact .inr ⟨c, hc, hs, rfl⟩
  next => cases h; exact .inl rfl

/-- The workspace with its expired pins released. -/
def Workspace.releaseExpired (w : Workspace H) : Workspace H :=
  { w with pins := releaseExpiredPins w.now w.pins }

theorem supersede_cases {res : CheckpointPersistenceResult Unit}
    (h : supersede w checkpointId = some (w', res)) :
    w' = w ∨ ∃ c : PersistentCheckpoint H,
      w.checkpoint checkpointId = some c ∧ c.isAvailable = true ∧
      (w' = w.releaseExpired ∨
        (w.checkpoints.countP PersistentCheckpoint.isAvailable ≠ 1 ∧ res = .accepted () ∧
          w' = w.releaseExpired.setStatus checkpointId .superseded)) := by
  rw [supersede] at h
  split at h
  next => cases h
  next =>
  split at h
  next => cases h; exact .inl rfl
  next c hc =>
  split at h
  next => cases h; exact .inl rfl
  next hav =>
  have hav : c.isAvailable = true := by simpa using hav
  simp only at h
  split at h
  next => cases h; exact .inr ⟨c, hc, hav, .inl rfl⟩
  next =>
  split at h
  next => cases h; exact .inr ⟨c, hc, hav, .inl rfl⟩
  next hcount => cases h; exact .inr ⟨c, hc, hav, .inr ⟨hcount, rfl, rfl⟩⟩

/-- Released pins aside, a pin of the new state is an old one or the one asked for. -/
theorem pin_cases [DecidableEq H] {b : CheckpointPinBinding H} {res : Unit}
    (h : pin w b = some (w', res)) :
    ∃ pins : List (CheckpointPin H), w' = { w with pins := pins } ∧
      ∀ p ∈ pins, p.expectedThroughServerRevision = b.throughServerRevision ∨
        ∃ q ∈ w.pins, q.released = p.released ∧
          q.expectedThroughServerRevision = p.expectedThroughServerRevision := by
  rw [pin] at h
  split at h
  next => cases h
  next =>
  split at h
  next => cases h
  next =>
  split at h
  next => cases h
  next =>
  split at h
  next =>
    split at h
    next => cases h
    next =>
    cases h
    refine ⟨_, rfl, fun p hp => .inr ?_⟩
    obtain ⟨q, hq, rfl⟩ := mem_map.mp hp
    refine ⟨q, hq, ?_⟩
    split <;> exact ⟨rfl, rfl⟩
  next =>
  split at h
  next => cases h
  next =>
  cases h
  refine ⟨_, rfl, fun p hp => ?_⟩
  cases mem_append.mp hp with
  | inl hp => exact .inr ⟨p, hp, rfl, rfl⟩
  | inr hp => cases mem_singleton.mp hp; exact .inl rfl

theorem releasePin_cases {kind : ConsumerKind} {consumerId : String} {res : Unit}
    (h : releasePin w kind consumerId = some (w', res)) :
    ∃ pins : List (CheckpointPin H), w' = { w with pins := pins } ∧
      ∀ p ∈ pins, p.released = false → p ∈ w.pins := by
  rw [releasePin] at h
  split at h
  next => cases h
  next =>
  cases h
  refine ⟨_, rfl, fun p hp hr => ?_⟩
  obtain ⟨q, hq, rfl⟩ := mem_map.mp hp
  split at hr
  next => cases hr
  next hcond =>
    rw [if_neg hcond]
    exact hq

theorem mem_releaseExpiredPins {now : Instant} {pins : List (CheckpointPin H)}
    {p : CheckpointPin H} (hp : p ∈ releaseExpiredPins now pins) (hr : p.released = false) :
    p ∈ pins := by
  obtain ⟨q, hq, rfl⟩ := mem_map.mp hp
  split at hr
  next => cases hr
  next hcond =>
    rw [if_neg hcond]
    exact hq

/-- A lower bound that is met by the minimum is met by every element. -/
theorem le_of_min? {l : List Nat} {r : Nat} (h : ∀ n, l.min? = some n → r ≤ n) :
    ∀ x ∈ l, r ≤ x := by
  intro x hx
  cases hm : l.min? with
  | none => rw [List.min?_eq_none_iff.mp hm] at hx; cases hx
  | some n => exact le_trans (h n hm) ((List.min?_eq_some_iff.mp hm).2 x hx)

/-- What a compaction leaves behind: every active reader and unreleased pin is at
or above the new watermark, and so is an available checkpoint. -/
theorem compact_cases {requestedThrough : Nat} {deviceMinimum : Option Nat}
    {recovery : RecoveryPort} {res : CheckpointPersistenceResult CompactionProjection}
    (h : compact w requestedThrough deviceMinimum recovery = some (w', res)) :
    w' = w ∨ ∃ (log : MutationLog) (readers : List (ReaderCursor H)),
      w.log.compactPrefix requestedThrough = some log ∧
      retireExpired w.now w.readers = some readers ∧
      (∀ c ∈ readers, c.isActive = true → requestedThrough ≤ c.readThroughServerRevision) ∧
      (∀ p ∈ releaseExpiredPins w.now w.pins, p.released = false →
        requestedThrough ≤ p.expectedThroughServerRevision) ∧
      (∃ c ∈ w.checkpoints, c.isAvailable = true ∧ requestedThrough ≤ c.throughServerRevision) ∧
      w' = { w with
        log := log, readers := readers, pins := releaseExpiredPins w.now w.pins } := by
  unfold compact at h
  split at h
  next => cases h; exact .inl rfl
  next =>
  split at h
  next => cases h; exact .inl rfl
  next =>
    obtain ⟨_, _, heq⟩ := Option.map_eq_some_iff.mp h
    cases heq
    exact .inl rfl
  next recoveryMinimum =>
  split at h
  next => cases h
  next readers hreaders =>
  simp only at h
  split at h
  next => cases h; exact .inl rfl
  next hbound =>
  split at h
  next => cases h; exact .inl rfl
  next =>
  obtain ⟨log, hlog, heq⟩ := Option.map_eq_some_iff.mp h
  cases heq
  obtain ⟨hsafe, hnewest⟩ := not_or.mp hbound
  -- every value of the list is at or above the requested revision
  have hall : ∀ v ∈ ([readerMinimum readers, deviceMinimum,
      minimumPinnedRevision (releaseExpiredPins w.now w.pins), recoveryMinimum,
      newestAvailableRevision w.checkpoints] : List (Option Nat)), ∀ n, v = some n →
      requestedThrough ≤ n := by
    intro v hv n hn
    refine le_of_min? (l := List.filterMap id _) (fun s hs => ?_) n
      (mem_filterMap.mpr ⟨v, hv, hn⟩)
    rw [minimumRevision, hs] at hsafe
    simpa using hsafe
  refine .inr ⟨log, readers, hlog, hreaders, fun c hc hact => ?_, fun p hp hr => ?_, ?_, rfl⟩
  · exact le_of_min? (hall (readerMinimum readers) (by simp)) _
      (mem_map.mpr ⟨c, mem_filter.mpr ⟨hc, hact⟩, rfl⟩)
  · exact le_of_min? (hall (minimumPinnedRevision _) (by simp)) _
      (mem_map.mpr ⟨p, mem_filter.mpr ⟨hp, by simp [hr]⟩, rfl⟩)
  · cases hn : newestAvailableRevision w.checkpoints with
    | none => rw [hn] at hnewest; exact absurd rfl hnewest
    | some n =>
      obtain ⟨c, hc, hceq⟩ := mem_map.mp (List.max?_eq_some_iff.mp hn).1
      obtain ⟨hmem, hav⟩ := mem_filter.mp hc
      exact ⟨c, hmem, hav, hceq ▸ hall (newestAvailableRevision _) (by simp) n hn⟩

end

/-! ## The latest available checkpoint -/

/-- The fold of `readLatestAvailable` returns the latest element it has seen. -/
theorem foldl_latest (l : List (PersistentCheckpoint H)) (b : PersistentCheckpoint H) :
    ∃ c, l.foldl (fun best c =>
        match best with
        | none => some c
        | some b => if b.precedes c then some c else some b) (some b) = some c ∧
      (c = b ∨ c ∈ l) ∧ b.throughServerRevision ≤ c.throughServerRevision ∧
      ∀ x ∈ l, x.throughServerRevision ≤ c.throughServerRevision := by
  induction l generalizing b with
  | nil => exact ⟨b, rfl, .inl rfl, le_rfl, by simp⟩
  | cons a l ih =>
    rw [foldl_cons]
    simp only
    by_cases hp : b.precedes a = true
    · obtain ⟨c, hc, hmem, hle, hall⟩ := ih a
      have hba : b.throughServerRevision ≤ a.throughServerRevision := by
        simp only [PersistentCheckpoint.precedes, Bool.or_eq_true, Bool.and_eq_true,
          decide_eq_true_eq] at hp
        rcases hp with hp | hp
        · exact le_of_lt hp
        · exact le_of_eq hp.1
      refine ⟨c, by rw [if_pos hp]; exact hc, .inr ?_, le_trans hba hle, ?_⟩
      · rcases hmem with rfl | hmem
        · exact mem_cons_self
        · exact mem_cons_of_mem _ hmem
      · exact forall_mem_cons.mpr ⟨hle, hall⟩
    · obtain ⟨c, hc, hmem, hle, hall⟩ := ih b
      have hab : a.throughServerRevision ≤ b.throughServerRevision := by
        simp only [PersistentCheckpoint.precedes, Bool.or_eq_true, Bool.and_eq_true,
          decide_eq_true_eq, not_or] at hp
        exact not_lt.mp hp.1
      refine ⟨c, by rw [if_neg hp]; exact hc, ?_, hle, ?_⟩
      · rcases hmem with hmem | hmem
        · exact .inl hmem
        · exact .inr (mem_cons_of_mem _ hmem)
      · exact forall_mem_cons.mpr ⟨le_trans hab hle, hall⟩

theorem readLatestAvailable_spec {w : Workspace H} {c : PersistentCheckpoint H}
    (hc : c ∈ w.checkpoints) (hav : c.isAvailable = true) :
    ∃ latest, readLatestAvailable w = some latest ∧ latest ∈ w.checkpoints ∧
      latest.isAvailable = true ∧
      ∀ x ∈ w.checkpoints, x.isAvailable = true →
        x.throughServerRevision ≤ latest.throughServerRevision := by
  have hmem : c ∈ w.checkpoints.filter PersistentCheckpoint.isAvailable :=
    mem_filter.mpr ⟨hc, hav⟩
  rw [readLatestAvailable]
  cases hl : w.checkpoints.filter PersistentCheckpoint.isAvailable with
  | nil => rw [hl] at hmem; cases hmem
  | cons a l =>
    obtain ⟨latest, hf, hin, hle, hall⟩ := foldl_latest l a
    have hlatest : latest ∈ w.checkpoints.filter PersistentCheckpoint.isAvailable := by
      rw [hl]
      rcases hin with rfl | hin
      · exact mem_cons_self
      · exact mem_cons_of_mem _ hin
    obtain ⟨hm, ha⟩ := mem_filter.mp hlatest
    refine ⟨latest, hf, hm, ha, fun x hx hxav => ?_⟩
    have hxl : x ∈ a :: l := hl ▸ mem_filter.mpr ⟨hx, hxav⟩
    cases mem_cons.mp hxl with
    | inl hxa => rw [hxa]; exact hle
    | inr hxl => exact hall x hxl

/-! ## When a plan is returned -/

section

variable {P : Platform H} {workspaceId : String} {a t : Nat} {ms : List SyncMutation}

/-- The number of pages covers the range, and no page is empty. -/
theorem page_offset_lt {n j : Nat} (h : j < (n + maxMutationsPerPage - 1) / maxMutationsPerPage) :
    j * maxMutationsPerPage < n := by
  simp only [maxMutationsPerPage] at h ⊢
  omega

theorem rebootstrapPage_valid (hdense : DenseFrom SyncMutation.serverRevision a ms)
    (hvalid : ∀ m ∈ ms, m.Valid) (htenant : ∀ m ∈ ms, m.workspaceId = workspaceId)
    (hlen : a + ms.length = t) {offset : Nat} (hoff : offset ≤ ms.length) :
    (rebootstrapPage P workspaceId a t ms offset).Valid := by
  have hsub : ∀ m ∈ (ms.drop offset).take maxMutationsPerPage, m ∈ ms := fun m hm =>
    mem_of_mem_drop (mem_of_mem_take hm)
  have hd : DenseFrom SyncMutation.serverRevision (a + offset)
      ((ms.drop offset).take maxMutationsPerPage) :=
    denseFrom_take (denseFrom_drop hdense hoff)
  have hret : a + offset + ((ms.drop offset).take maxMutationsPerPage).length ≤ t := by
    rw [length_take, length_drop]
    omega
  exact
    { length := length_take_le ..
      mutations := fun m hm => hvalid m (hsub m hm)
      bounds := le_trans (Nat.le_add_right ..) hret
      workspace := fun m hm => htenant m (hsub m hm)
      dense := hd
      returned := (MutationPage.expectedReturnedRevision_eq
        (p := rebootstrapPage P workspaceId a t ms offset) hd).symm
      target := hret
      terminal := fun hn => by
        simp only [rebootstrapPage, ite_eq_left_iff, reduceCtorEq, imp_false,
          Decidable.not_not] at hn
        exact hn
      continued := fun hn => by
        simp only [rebootstrapPage, ne_eq, ite_eq_left_iff, reduceCtorEq, imp_false,
          Decidable.not_not] at hn
        exact lt_of_le_of_ne hret hn }

/-- The pages from the `j`-th on are contiguous. -/
theorem rebootstrapPages_contiguous (P : Platform H) (workspaceId : String)
    (hlen : a + ms.length = t) :
    ∀ (n j : Nat), j + n = (ms.length + maxMutationsPerPage - 1) / maxMutationsPerPage →
      pagesContiguous workspaceId t (a + min (j * maxMutationsPerPage) ms.length)
        ((List.range' j n).map (fun i =>
          rebootstrapPage P workspaceId a t ms (i * maxMutationsPerPage))) = true
  | 0, j, hj => by
    have : min (j * maxMutationsPerPage) ms.length = ms.length := by
      simp only [maxMutationsPerPage] at hj ⊢
      omega
    simp [pagesContiguous, this, hlen]
  | n + 1, j, hj => by
    have hoff := page_offset_lt (n := ms.length) (j := j) (by omega)
    have hmin : min (j * maxMutationsPerPage) ms.length = j * maxMutationsPerPage :=
      Nat.min_eq_left (le_of_lt hoff)
    have hnext : a + j * maxMutationsPerPage +
        ((ms.drop (j * maxMutationsPerPage)).take maxMutationsPerPage).length =
          a + min ((j + 1) * maxMutationsPerPage) ms.length := by
      rw [length_take, length_drop]
      simp only [maxMutationsPerPage] at hoff ⊢
      omega
    have ih := rebootstrapPages_contiguous P workspaceId hlen n (j + 1) (by omega)
    rw [List.range'_succ, map_cons, pagesContiguous, hmin]
    simp only [rebootstrapPage, beq_self_eq_true, Bool.true_and]
    rw [hnext]
    exact ih

/-- The pages of a plan hold the range, in order. -/
theorem rebootstrapPages_mutations : ∀ (n : Nat) (ms : List SyncMutation),
    ms.length ≤ n * maxMutationsPerPage →
      (List.range n).flatMap (fun i =>
        (ms.drop (i * maxMutationsPerPage)).take maxMutationsPerPage) = ms
  | 0, ms, h => by
    rw [Nat.zero_mul] at h
    rw [length_eq_zero_iff.mp (Nat.le_zero.mp h)]
    rfl
  | n + 1, ms, h => by
    rw [range_succ_eq_map, flatMap_cons, flatMap_map, Nat.zero_mul, drop_zero]
    have ih := rebootstrapPages_mutations n (ms.drop maxMutationsPerPage) (by
      rw [length_drop]
      simp only [maxMutationsPerPage] at h ⊢
      omega)
    have hshift : ∀ i, (ms.drop (i.succ * maxMutationsPerPage)).take maxMutationsPerPage =
        ((ms.drop maxMutationsPerPage).drop (i * maxMutationsPerPage)).take
          maxMutationsPerPage := by
      intro i
      rw [drop_drop, Nat.succ_mul, add_comm]
    simp only [hshift, ih]
    exact take_append_drop ..

variable [DecidableEq H] {w : Workspace H} {c : PersistentCheckpoint H}

/-- The latest checkpoint gives a plan with the whole range after it, if the log
has the range and it fits the page bound of the plan schema. -/
theorem readRebootstrapPlan_eq (hc : readLatestAvailable w = some c)
    (hsnapshot : ValidProjection c.snapshot)
    (hretained : w.watermark ≤ c.throughServerRevision)
    (hknown : c.throughServerRevision ≤ w.head)
    (hbound : w.head ≤ c.throughServerRevision + maxRebootstrapPages * maxMutationsPerPage) :
    ∃ plan, readRebootstrapPlan P w = some (some plan) ∧ plan.checkpoint = c ∧
      plan.snapshot = c.snapshot ∧ plan.pinnedHeadRevision = w.head ∧
      plan.mutations.flatMap (·.mutations) = w.log.readRange c.throughServerRevision w.head := by
  have hlen : (w.log.readRange c.throughServerRevision w.log.serverRevision).length =
      w.log.serverRevision - c.throughServerRevision :=
    MutationLog.readRange_length hretained hknown le_rfl
  have hsum : c.throughServerRevision +
      (w.log.readRange c.throughServerRevision w.log.serverRevision).length =
        w.log.serverRevision := by
    rw [hlen]
    exact Nat.add_sub_cancel' hknown
  have hpages : ((w.log.readRange c.throughServerRevision w.log.serverRevision).length +
      maxMutationsPerPage - 1) / maxMutationsPerPage ≤ maxRebootstrapPages := by
    rw [hlen]
    simp only [Workspace.head, maxRebootstrapPages, maxMutationsPerPage] at hbound ⊢
    omega
  unfold readRebootstrapPlan
  rw [hc]
  simp only
  rw [if_neg (by rw [not_or, Decidable.not_not]; exact ⟨hlen, not_lt.mpr hknown⟩), if_pos]
  · refine ⟨_, rfl, rfl, rfl, rfl, ?_⟩
    rw [flatMap_map]
    refine rebootstrapPages_mutations _ _ ?_
    simp only [maxMutationsPerPage]
    omega
  · simp only [RebootstrapPlan.valid, length_map, length_range, Bool.and_eq_true,
      decide_eq_true_eq, all_eq_true, beq_self_eq_true, Nat.le_refl, and_true]
    refine ⟨⟨⟨⟨hpages, ?_⟩, hsnapshot⟩, hknown⟩, ?_⟩
    · intro p hp
      obtain ⟨i, hi, rfl⟩ := mem_map.mp hp
      refine rebootstrapPage_valid (MutationLog.readRange_dense hretained hknown le_rfl)
        (fun m hm => w.log.valid m (MutationLog.mem_readRange.mp hm).1)
        (fun m hm => w.log.tenant m (MutationLog.mem_readRange.mp hm).1) hsum ?_
      exact le_of_lt (page_offset_lt (mem_range.mp hi))
    · have := rebootstrapPages_contiguous P w.log.workspaceId hsum
        (((w.log.readRange c.throughServerRevision w.log.serverRevision).length +
          maxMutationsPerPage - 1) / maxMutationsPerPage) 0 (Nat.zero_add _)
      rw [Nat.zero_mul, Nat.zero_min, Nat.add_zero, ← range_eq_range'] at this
      exact this

end

end GoodDealer.Cloud
