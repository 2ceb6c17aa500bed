/-
# `GoodDealer.Cloud.State` — the stored state of one workspace

One tenant's rows in the cloud database.  Each table is a list of rows.  What
the table's own constraints enforce is carried by the types:

| constraint | here |
| :-- | :-- |
| primary key of `workspace_replica_domain_assets` | `DomainAssetTable.ascending` |
| dense log, `base_server_revision < server_revision`, tenant scope | `MutationLog` |
| lifecycle `CHECK` of `workspace_reader_cursors` | `ReaderLifecycle` |

A transaction that throws is rolled back; an operation is therefore a function
into `Option`, and `none` leaves the workspace as it was.  Time is
`transaction_timestamp()`, in microseconds.
-/
import GoodDealer.Protocol.Page

namespace GoodDealer.Cloud

open List Keyed

/-- Microseconds since the epoch. -/
abbrev Instant := Nat

/-- The instant a canonical UTC second begins. -/
def instantOf (t : Timestamp) : Instant := t * 1000000

/-- `to_char(…, 'YYYY-MM-DD"T"HH24:MI:SS"Z"')` keeps whole seconds. -/
def secondOf (t : Instant) : Timestamp := t / 1000000

/-! ## The live domain-asset table -/

/-- The four `*_server_revision` columns. -/
structure FieldRevisions where
  note : Nat
  portfolioId : Nat
  tags : Nat
  targetPrice : Nat
deriving DecidableEq

namespace FieldRevisions

def get (r : FieldRevisions) : FieldPath → Nat
  | .note => r.note
  | .portfolioId => r.portfolioId
  | .tags => r.tags
  | .targetPrice => r.targetPrice

def set (r : FieldRevisions) (revision : Nat) : FieldPath → FieldRevisions
  | .note => { r with note := revision }
  | .portfolioId => { r with portfolioId := revision }
  | .tags => { r with tags := revision }
  | .targetPrice => { r with targetPrice := revision }

@[simp] theorem get_set_self (r : FieldRevisions) (n : Nat) (p : FieldPath) :
    (r.set n p).get p = n := by
  cases p <;> rfl

theorem get_set_ne (r : FieldRevisions) (n : Nat) {p q : FieldPath} (h : q ≠ p) :
    (r.set n p).get q = r.get q := by
  cases p <;> cases q <;> first | rfl | exact absurd rfl h

end FieldRevisions

/-- `LockedDomainAsset`. -/
structure LockedDomainAsset where
  row : DomainAssetProjectionRow
  lastModifiedRevision : FieldRevisions
deriving DecidableEq

namespace LockedDomainAsset

def entityId (a : LockedDomainAsset) : String := a.row.entityId

/-- `fieldAssignment`: the value and its revision. -/
def assign (a : LockedDomainAsset) (revision : Nat) (f : ChangedField) : LockedDomainAsset where
  row := a.row.applyField f
  lastModifiedRevision := a.lastModifiedRevision.set revision f.fieldPath

@[simp] theorem assign_entityId (revision : Nat) (f : ChangedField) (a : LockedDomainAsset) :
    (a.assign revision f).entityId = a.entityId :=
  a.row.applyField_entityId f

end LockedDomainAsset

/-- `workspace_replica_domain_assets`, in primary-key order. -/
structure DomainAssetTable where
  rows : List LockedDomainAsset
  ascending : Ascending LockedDomainAsset.entityId rows
deriving DecidableEq

namespace DomainAssetTable

/-- One row of the table, if it exists. -/
def find (t : DomainAssetTable) (entityId : String) : Option LockedDomainAsset :=
  Keyed.lookup LockedDomainAsset.entityId entityId t.rows

/-- The table's rows without their revisions. -/
def projection (t : DomainAssetTable) : List DomainAssetProjectionRow :=
  t.rows.map LockedDomainAsset.row

/-- One `UPDATE` of `applyAcceptedMutations`; it must meet exactly one row. -/
def assign (t : DomainAssetTable) (entityId : String) (revision : Nat) (f : ChangedField) :
    Option DomainAssetTable :=
  match t.find entityId with
  | none => none
  | some _ => some
      { rows := adjust LockedDomainAsset.entityId entityId (·.assign revision f) t.rows
        ascending := ascending_adjust (LockedDomainAsset.assign_entityId revision f) entityId
          t.ascending }

/-- The fields of one mutation, in order. -/
def assignFields (t : DomainAssetTable) (entityId : String) (revision : Nat) :
    List ChangedField → Option DomainAssetTable
  | [] => some t
  | f :: fs => (t.assign entityId revision f).bind (assignFields · entityId revision fs)

/-- `applyAcceptedMutations`; a delete carries no field, so nothing is written for it. -/
def applyAcceptedMutations (t : DomainAssetTable) : List SyncMutation → Option DomainAssetTable
  | [] => some t
  | m :: ms =>
    (t.assignFields m.mutation.entityId m.serverRevision m.mutation.changedFields).bind
      (applyAcceptedMutations · ms)

/-- The revision of a field after a batch is the one before, or the revision of a
mutation of the row's entity. -/
def Traced (t t' : DomainAssetTable) (ms : List SyncMutation) : Prop :=
  ∀ a' ∈ t'.rows, ∃ a ∈ t.rows, a.entityId = a'.entityId ∧ ∀ path,
    a'.lastModifiedRevision.get path = a.lastModifiedRevision.get path ∨
      ∃ m ∈ ms, m.mutation.entityId = a'.entityId ∧
        a'.lastModifiedRevision.get path = m.serverRevision

variable {m : SyncMutation}

theorem assign_traced {t t' : DomainAssetTable} {f : ChangedField}
    (h : t.assign m.mutation.entityId m.serverRevision f = some t') : t.Traced t' [m] := by
  unfold assign at h
  split at h
  · cases h
  · cases h
    intro a' ha'
    obtain ⟨a, ha, rfl⟩ := mem_adjust.mp ha'
    refine ⟨a, ha, ?_, fun path => ?_⟩
    · split <;> simp
    · split
      next hentity =>
        by_cases hpath : path = f.fieldPath
        · refine .inr ⟨m, mem_cons_self, ?_, ?_⟩
          · rw [LockedDomainAsset.assign_entityId, hentity]
          · rw [hpath]
            exact FieldRevisions.get_set_self ..
        · exact .inl (FieldRevisions.get_set_ne _ _ hpath)
      · exact .inl rfl

theorem Traced.trans {t t' t'' : DomainAssetTable} {ms ms' l : List SyncMutation}
    (h : t.Traced t' ms) (h' : t'.Traced t'' ms') (hms : ∀ m ∈ ms, m ∈ l)
    (hms' : ∀ m ∈ ms', m ∈ l) : t.Traced t'' l := by
  intro a'' ha''
  obtain ⟨a', ha', he', hr'⟩ := h' a'' ha''
  obtain ⟨a, ha, he, hr⟩ := h a' ha'
  refine ⟨a, ha, he.trans he', fun path => ?_⟩
  rcases hr' path with hsame | ⟨m, hm, hentity, hrev⟩
  · rw [hsame]
    rcases hr path with hsame | ⟨m, hm, hentity, hrev⟩
    · exact .inl hsame
    · exact .inr ⟨m, hms m hm, hentity.trans he', hrev⟩
  · exact .inr ⟨m, hms' m hm, hentity, hrev⟩

theorem Traced.refl (t : DomainAssetTable) (ms : List SyncMutation) : t.Traced t ms :=
  fun a ha => ⟨a, ha, rfl, fun _ => .inl rfl⟩

theorem assignFields_traced : ∀ {fs : List ChangedField} {t t' : DomainAssetTable},
    t.assignFields m.mutation.entityId m.serverRevision fs = some t' → t.Traced t' [m]
  | [], t, _, h => by cases h; exact .refl t _
  | f :: fs, t, t', h => by
    unfold assignFields at h
    obtain ⟨u, hu, hrest⟩ := Option.bind_eq_some_iff.mp h
    exact (assign_traced hu).trans (assignFields_traced hrest) (fun _ hm => hm) (fun _ hm => hm)

theorem applyAcceptedMutations_traced : ∀ {ms : List SyncMutation} {t t' : DomainAssetTable},
    t.applyAcceptedMutations ms = some t' → t.Traced t' ms
  | [], t, _, h => by cases h; exact .refl t _
  | m :: ms, t, t', h => by
    unfold applyAcceptedMutations at h
    obtain ⟨u, hu, hrest⟩ := Option.bind_eq_some_iff.mp h
    refine (assignFields_traced hu).trans (applyAcceptedMutations_traced hrest) ?_ ?_
    · intro x hx
      rw [mem_singleton.mp hx]
      exact mem_cons_self
    · exact fun x hx => mem_cons_of_mem _ hx

/-- `captureSnapshot`. -/
def captureSnapshot (t : DomainAssetTable) : Option (List DomainAssetProjectionRow) :=
  parseProjection (sortByKey DomainAssetProjectionRow.entityId t.projection)

end DomainAssetTable

/-! ## The revision row and the mutation log -/

/-- `workspace_revisions` and `workspace_mutations` of one workspace. -/
structure MutationLog where
  workspaceId : String
  workspaceSchemaVersion : Nat
  compactedThroughServerRevision : Nat
  serverRevision : Nat
  entries : List SyncMutation
  dense : DenseFrom SyncMutation.serverRevision compactedThroughServerRevision entries
  head : compactedThroughServerRevision + entries.length = serverRevision
  valid : ∀ m ∈ entries, m.Valid
  tenant : ∀ m ∈ entries, m.workspaceId = workspaceId
deriving DecidableEq

namespace MutationLog

/-- `readRange`. -/
def readRange (l : MutationLog) (fromServerRevisionExclusive throughServerRevisionInclusive : Nat) :
    List SyncMutation :=
  window SyncMutation.serverRevision fromServerRevisionExclusive throughServerRevisionInclusive
    l.entries

/-- `hasCompleteRange`. -/
def hasCompleteRange (l : MutationLog) (fromRevision through : Nat) : Bool :=
  decide (fromRevision ≤ through) &&
    decide ((l.readRange fromRevision through).length = through - fromRevision) &&
    decide (DenseFrom SyncMutation.serverRevision fromRevision (l.readRange fromRevision through))

/-- Accepted mutations with the revisions after `head`. -/
def number (workspaceId : String) : Nat → List SubmittedSyncMutation → List SyncMutation
  | _, [] => []
  | head, m :: ms => ⟨workspaceId, m, head + 1⟩ :: number workspaceId (head + 1) ms

theorem number_length (w : String) : ∀ (n : Nat) (ms : List SubmittedSyncMutation),
    (number w n ms).length = ms.length
  | _, [] => rfl
  | n, _ :: ms => congrArg (· + 1) (number_length w (n + 1) ms)

theorem number_dense (w : String) : ∀ (n : Nat) (ms : List SubmittedSyncMutation),
    DenseFrom SyncMutation.serverRevision n (number w n ms)
  | _, [] => trivial
  | n, _ :: ms => ⟨rfl, number_dense w (n + 1) ms⟩

theorem mem_number {w : String} {x : SyncMutation} :
    ∀ {n : Nat} {ms : List SubmittedSyncMutation}, x ∈ number w n ms →
      x.workspaceId = w ∧ n < x.serverRevision ∧ x.mutation ∈ ms
  | _, [], h => by cases h
  | n, m :: ms, h => by
    cases mem_cons.mp h with
    | inl hx => rw [hx]; exact ⟨rfl, Nat.lt_succ_self n, mem_cons_self⟩
    | inr hx =>
      obtain ⟨hw, hn, hm⟩ := mem_number hx
      exact ⟨hw, Nat.lt_of_succ_lt hn, mem_cons_of_mem _ hm⟩

theorem number_mutations (w : String) : ∀ (n : Nat) (ms : List SubmittedSyncMutation),
    (number w n ms).map SyncMutation.mutation = ms
  | _, [] => rfl
  | n, m :: ms => congrArg (m :: ·) (number_mutations w (n + 1) ms)

/-- Insert the accepted mutations and advance the head.  The column check on the
base revision is the only one the schemas leave open. -/
def append (l : MutationLog) (ms : List SubmittedSyncMutation) : Option MutationLog :=
  if h : ∀ m ∈ ms, m.baseServerRevision ≤ l.serverRevision then
    some
      { l with
        serverRevision := l.serverRevision + ms.length
        entries := l.entries ++ number l.workspaceId l.serverRevision ms
        dense := denseFrom_append.mpr ⟨l.dense, by rw [l.head]; exact number_dense ..⟩
        head := by rw [length_append, number_length, ← Nat.add_assoc, l.head]
        valid := fun m hm => by
          cases mem_append.mp hm with
          | inl hm => exact l.valid m hm
          | inr hm =>
            obtain ⟨_, hlt, hmem⟩ := mem_number hm
            exact ⟨Nat.succ_le_of_lt (Nat.zero_lt_of_lt hlt), lt_of_le_of_lt (h _ hmem) hlt⟩
        tenant := fun m hm => by
          cases mem_append.mp hm with
          | inl hm => exact l.tenant m hm
          | inr hm => exact (mem_number hm).1 }
  else none

/-- `compareAndAdvanceCompactionWatermark` and `compactPrefix`. -/
def compactPrefix (l : MutationLog) (through : Nat) : Option MutationLog :=
  if h : l.compactedThroughServerRevision < through ∧ through ≤ l.serverRevision then
    some
      { l with
        compactedThroughServerRevision := through
        entries := dropThrough SyncMutation.serverRevision through l.entries
        dense := dropThrough_dense l.dense (le_of_lt h.1) (by rw [l.head]; exact h.2)
        head := by
          rw [dropThrough_length l.dense (le_of_lt h.1) (by rw [l.head]; exact h.2), l.head]
        valid := fun m hm => l.valid m (mem_dropThrough.mp hm).1
        tenant := fun m hm => l.tenant m (mem_dropThrough.mp hm).1 }
  else none

/-! ### What a range of the log holds -/

section

variable {l : MutationLog} {a b : Nat}

section

variable (ha : l.compactedThroughServerRevision ≤ a) (hab : a ≤ b)

include ha hab

theorem readRange_dense
    (hb : b ≤ l.serverRevision) : DenseFrom SyncMutation.serverRevision a (l.readRange a b) :=
  window_dense l.dense ha hab (by rw [l.head]; exact hb)

theorem readRange_length (hb : b ≤ l.serverRevision) : (l.readRange a b).length = b - a :=
  window_length l.dense ha hab (by rw [l.head]; exact hb)

theorem readRange_split {c : Nat} (hbc : b ≤ c) (hc : c ≤ l.serverRevision) :
    l.readRange a c = l.readRange a b ++ l.readRange b c :=
  window_split l.dense ha hab hbc (by rw [l.head]; exact hc)

end

theorem mem_readRange {m : SyncMutation} :
    m ∈ l.readRange a b ↔ m ∈ l.entries ∧ a < m.serverRevision ∧ m.serverRevision ≤ b := by
  simp [readRange, window, mem_filter]

theorem readRange_self (l : MutationLog) (a : Nat) : l.readRange a a = [] :=
  window_eq_nil fun x _ => lt_or_ge a x.serverRevision |>.symm

end

/-! ### What the two writes do -/

section

variable {l l' : MutationLog} {ms : List SubmittedSyncMutation}

theorem append_eq_some :
    l.append ms = some l' →
      (∀ m ∈ ms, m.baseServerRevision ≤ l.serverRevision) ∧
      l'.workspaceId = l.workspaceId ∧ l'.workspaceSchemaVersion = l.workspaceSchemaVersion ∧
      l'.compactedThroughServerRevision = l.compactedThroughServerRevision ∧
      l'.serverRevision = l.serverRevision + ms.length ∧
      l'.entries = l.entries ++ number l.workspaceId l.serverRevision ms := by
  intro h
  simp only [append, Option.dite_none_right_eq_some, Option.some.injEq] at h
  obtain ⟨hb, rfl⟩ := h
  exact ⟨hb, rfl, rfl, rfl, rfl, rfl⟩

/-- Appending does not change a range below the old head. -/
theorem append_readRange (h : l.append ms = some l') {a b : Nat} (hb : b ≤ l.serverRevision) :
    l'.readRange a b = l.readRange a b := by
  obtain ⟨_, _, _, hc, _, he⟩ := append_eq_some h
  have hd := l'.dense
  rw [he, hc] at hd
  rw [readRange, he]
  exact window_append_right hd (by rw [l.head]; exact hb)

/-- A range up to the new head is the old range followed by the batch. -/
theorem append_readRange_head (h : l.append ms = some l') {a : Nat} (ha : a ≤ l.serverRevision) :
    l'.readRange a l'.serverRevision =
      l.readRange a l.serverRevision ++ number l.workspaceId l.serverRevision ms := by
  obtain ⟨_, _, _, hc, hs, he⟩ := append_eq_some h
  have hnew : ∀ x ∈ number l.workspaceId l.serverRevision ms,
      a < x.serverRevision ∧ x.serverRevision ≤ l'.serverRevision := by
    intro x hx
    have hb := denseFrom_bounds (number_dense l.workspaceId l.serverRevision ms) x hx
    rw [number_length, ← hs] at hb
    exact ⟨lt_of_le_of_lt ha hb.1, hb.2⟩
  have hold : window SyncMutation.serverRevision a l'.serverRevision l.entries =
      window SyncMutation.serverRevision a l.serverRevision l.entries := by
    refine filter_congr fun x hx => ?_
    have hb := denseFrom_bounds l.dense x hx
    rw [l.head] at hb
    have hb' : x.serverRevision ≤ l'.serverRevision := hs ▸ Nat.le_add_right_of_le hb.2
    simp [hb.2, hb']
  rw [readRange, he, window_append, window_eq_self hnew, hold, readRange]

theorem compactPrefix_eq_some {w : Nat} :
    l.compactPrefix w = some l' →
      (l.compactedThroughServerRevision < w ∧ w ≤ l.serverRevision) ∧
      l'.workspaceId = l.workspaceId ∧ l'.workspaceSchemaVersion = l.workspaceSchemaVersion ∧
      l'.compactedThroughServerRevision = w ∧ l'.serverRevision = l.serverRevision ∧
      l'.entries = dropThrough SyncMutation.serverRevision w l.entries := by
  intro h
  simp only [compactPrefix, Option.dite_none_right_eq_some, Option.some.injEq] at h
  obtain ⟨hb, rfl⟩ := h
  exact ⟨hb, rfl, rfl, rfl, rfl, rfl⟩

/-- Compaction does not change a range above the watermark. -/
theorem compactPrefix_readRange {w : Nat} (h : l.compactPrefix w = some l') {a b : Nat}
    (ha : w ≤ a) : l'.readRange a b = l.readRange a b := by
  obtain ⟨_, _, _, _, _, he⟩ := compactPrefix_eq_some h
  rw [readRange, he]
  exact window_dropThrough ha

end

end MutationLog

/-! ## Receipts -/

/-- A row of `workspace_device_mutation_sequence_ledger`. -/
structure MutationReceipt (H : Type) where
  mutationId : String
  sourceDeviceId : String
  deviceMutationSequence : Nat
  serverRevision : Nat
  submittedEnvelopeDigest : H
deriving DecidableEq

/-! ## Checkpoints and pins -/

inductive PersistentCheckpointStatus where
  | building
  | verified
  | available
  | superseded
  | invalid
deriving DecidableEq

/-- A checkpoint with its descriptor, snapshot and stored digests. -/
structure PersistentCheckpoint (H : Type) where
  checkpointId : String
  workspaceSchemaVersion : Nat
  throughServerRevision : Nat
  checkpointDigest : H
  snapshot : List DomainAssetProjectionRow
  entityDigests : List (WorkspaceEntityDigest H)
  status : PersistentCheckpointStatus
deriving DecidableEq

inductive ConsumerKind where
  | bootstrap
  | recovery
deriving DecidableEq

/-- A row of `workspace_checkpoint_pins`; `released` stands for `released_at IS NOT NULL`. -/
structure CheckpointPin (H : Type) where
  checkpointId : String
  consumerKind : ConsumerKind
  consumerId : String
  expectedThroughServerRevision : Nat
  expectedCheckpointDigest : H
  expiresAt : Instant
  released : Bool
deriving DecidableEq

/-! ## Reader cursors and pending deliveries -/

inductive RetirementReason where
  | ttlExpired
  | compactionRace
  | deviceRemoved
deriving DecidableEq

/-- A page run that stopped short of its target. -/
structure PageContinuation (H : Type) where
  pinnedPageTargetServerRevision : Nat
  continuationTokenDigest : H
deriving DecidableEq

/-- Only an active cursor has a continuation; a retired one needs a rebootstrap
unless its device was removed. -/
inductive ReaderLifecycle (H : Type) where
  | active (page : Option (PageContinuation H))
  | retired (reason : RetirementReason)
deriving DecidableEq

/-- A row of `workspace_reader_cursors`. -/
structure ReaderCursor (H : Type) where
  deviceId : String
  generation : Nat
  rowVersion : Nat
  readThroughServerRevision : Nat
  leaseExpiresAt : Instant
  lifecycle : ReaderLifecycle H
deriving DecidableEq

namespace ReaderCursor

variable {H : Type}

/-- `status = 'active'`. -/
def isActive (c : ReaderCursor H) : Bool :=
  match c.lifecycle with
  | .active _ => true
  | .retired _ => false

def page (c : ReaderCursor H) : Option (PageContinuation H) :=
  match c.lifecycle with
  | .active p => p
  | .retired _ => none

def pinnedPageTargetServerRevision (c : ReaderCursor H) : Option Nat :=
  c.page.map (·.pinnedPageTargetServerRevision)

def continuationTokenDigest (c : ReaderCursor H) : Option H :=
  c.page.map (·.continuationTokenDigest)

end ReaderCursor

/-- A row of `workspace_reader_pending_deliveries`. -/
structure PendingDelivery (H : Type) where
  deviceId : String
  generation : Nat
  fromServerRevisionExclusive : Nat
  throughServerRevisionInclusive : Nat
  targetServerRevision : Nat
  pageLimit : Nat
  pageDigest : H
  nextCursorDigest : Option H
  predecessorConfirmationDigest : Option H
  confirmationTokenDigest : H
  expiresAt : Timestamp
deriving DecidableEq

/-! ## The workspace -/

structure Workspace (H : Type) where
  accountId : String
  log : MutationLog
  assets : DomainAssetTable
  ledger : List (MutationReceipt H)
  checkpoints : List (PersistentCheckpoint H)
  pins : List (CheckpointPin H)
  readers : List (ReaderCursor H)
  deliveries : List (PendingDelivery H)
  /-- `transaction_timestamp()`. -/
  now : Instant
deriving DecidableEq

namespace Workspace

variable {H : Type}

def head (w : Workspace H) : Nat := w.log.serverRevision

def watermark (w : Workspace H) : Nat := w.log.compactedThroughServerRevision

def reader (w : Workspace H) (deviceId : String) : Option (ReaderCursor H) :=
  Keyed.lookup ReaderCursor.deviceId deviceId w.readers

def delivery (w : Workspace H) (deviceId : String) : Option (PendingDelivery H) :=
  Keyed.lookup PendingDelivery.deviceId deviceId w.deliveries

end Workspace

end GoodDealer.Cloud
