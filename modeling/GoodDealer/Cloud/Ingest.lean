/-
# `GoodDealer.Cloud.Ingest` — accepting a batch of mutations

`ingest` is `PostgresWorkspaceMutationIngest`: it parses a push request and, in
one transaction, either rejects the batch as a whole with a code and the failing
mutations, or appends the mutations that are not replays to the log, updates the
live rows and advances the head.

The device lease and the epoch-scoped drain ledger belong to other modules of
the cloud; the transaction sees them through `IngestPorts`.

* `findStaleFields_eq_nil` — when the field check passes.
* `ingest_cases` — what a transaction that returns has done to the workspace.
-/
import GoodDealer.Cloud.State
import Mathlib.Data.List.Infix

namespace GoodDealer.Cloud

open List

/-! ## Requests and results -/

/-- `MutationIngestRejectionCode`. -/
inductive MutationIngestRejectionCode where
  | tenantUnresolved
  | malformed
  | workspaceMismatch
  | schemaVersionUnsupported
  | deviceNotActive
  | epochStale
  | drainSealed
  | batchUnordered
  | idConflict
  | sequenceConflict
  | entityUnknown
  | baseRevisionAhead
  | fieldStale
deriving DecidableEq

def MutationIngestRejectionCode.wire : MutationIngestRejectionCode → String
  | .tenantUnresolved => "WORKSPACE_TENANT_UNRESOLVED"
  | .malformed => "MUTATION_MALFORMED"
  | .workspaceMismatch => "MUTATION_WORKSPACE_MISMATCH"
  | .schemaVersionUnsupported => "MUTATION_SCHEMA_VERSION_UNSUPPORTED"
  | .deviceNotActive => "MUTATION_DEVICE_NOT_ACTIVE"
  | .epochStale => "MUTATION_EPOCH_STALE"
  | .drainSealed => "MUTATION_DRAIN_SEALED"
  | .batchUnordered => "MUTATION_BATCH_UNORDERED"
  | .idConflict => "MUTATION_ID_CONFLICT"
  | .sequenceConflict => "MUTATION_SEQUENCE_CONFLICT"
  | .entityUnknown => "MUTATION_ENTITY_UNKNOWN"
  | .baseRevisionAhead => "MUTATION_BASE_REVISION_AHEAD"
  | .fieldStale => "MUTATION_FIELD_STALE"

structure MutationIngestFailure where
  index : Nat
  mutationId : String
  fieldPath : Option FieldPath
  lastModifiedRevision : Option Nat
  headRevision : Option Nat
deriving DecidableEq

structure MutationAssignment where
  mutationId : String
  deviceMutationSequence : Nat
  serverRevision : Nat
  duplicate : Bool
deriving DecidableEq

inductive MutationIngestResult where
  | accepted (assignments : List MutationAssignment) (headRevision : Nat)
  | rejected (code : MutationIngestRejectionCode) (failures : List MutationIngestFailure)
deriving DecidableEq

/-- What the transaction reads from other modules. -/
structure IngestPorts where
  /-- The device holds the active lease, and held the epoch's. -/
  lockAndValidateActiveLease : (sourceDeviceId : String) → (activeLeaseEpoch : Nat) → Bool
  /-- The drain ledger takes the envelope of the mutation. -/
  drainAppend : SubmittedSyncMutation → Bool

/-- `failure`. -/
def failure (index : Nat) (m : SubmittedSyncMutation) : MutationIngestFailure :=
  ⟨index, m.mutationId, none, none, none⟩

/-! ## Parsing a request -/

/-- What `workspaceMutationPushRequestSchema` and `parseRequest` require of the batch. -/
@[mk_iff] structure ValidPush (ms : List SubmittedSyncMutation) : Prop where
  nonempty : ms ≠ []
  length : ms.length ≤ maxMutationsPerPage
  ids : (ms.map (·.mutationId)).Nodup
  contiguous : ms.IsChain (fun a b => a.sourceDeviceId = b.sourceDeviceId ∧
    b.deviceMutationSequence = a.deviceMutationSequence + 1)

instance decValidPush (ms : List SubmittedSyncMutation) : Decidable (ValidPush ms) :=
  decidable_of_iff _ (validPush_iff ms).symm

/-- Every element passes the mutation schema. -/
def parseMutations : List SubmittedSyncMutationWire → Option (List SubmittedSyncMutation)
  | [] => some []
  | v :: vs =>
    match SubmittedSyncMutation.parse v, parseMutations vs with
    | some m, some ms => some (m :: ms)
    | _, _ => none

/-- `parseRequest`. -/
def parseRequest (value : List SubmittedSyncMutationWire) : Option (List SubmittedSyncMutation) :=
  match parseMutations value with
  | some ms => if ValidPush ms then some ms else none
  | none => none

variable {H : Type} {P : Platform H} {w w' : Workspace H} {value : List SubmittedSyncMutationWire}
  {m : SubmittedSyncMutation} {head : Nat} {ms : List SubmittedSyncMutation}
  {simulated : List ((String × FieldPath) × Nat)} {t : DomainAssetTable}

theorem parseRequest_valid (h : parseRequest value = some ms) : ValidPush ms := by
  rw [parseRequest] at h
  cases hp : parseMutations value with
  | none => rw [hp] at h; cases h
  | some ms' =>
    rw [hp] at h
    simp only [Option.ite_none_right_eq_some, Option.some.injEq] at h
    exact h.2 ▸ h.1

theorem parseMutations_map : ∀ {value : List SubmittedSyncMutationWire}
    {ms : List SubmittedSyncMutation}, parseMutations value = some ms →
      ms.map (·.toSubmittedSyncMutationWire) = value
  | [], _, h => by cases h; rfl
  | v :: vs, ms, h => by
    unfold parseMutations at h
    split at h
    next m ms' hm hms =>
      cases h
      rw [map_cons, parseMutations_map hms, SubmittedSyncMutation.parse_eq_some.mp hm]
    next => cases h

/-- Parsing changes nothing. -/
theorem parseRequest_map (h : parseRequest value = some ms) :
    ms.map (·.toSubmittedSyncMutationWire) = value := by
  unfold parseRequest at h
  split at h
  next hp =>
    split at h
    · cases h; exact parseMutations_map hp
    · cases h
  next => cases h

/-- Positions whose sequence does not exceed the one before. -/
def orderFailures : Nat → List SubmittedSyncMutation → List MutationIngestFailure
  | i, a :: b :: rest =>
    (if a.deviceMutationSequence < b.deviceMutationSequence then [] else [failure (i + 1) b]) ++
      orderFailures (i + 1) (b :: rest)
  | _, _ => []

/-- The contiguity the schema requires is stronger than the order. -/
theorem orderFailures_eq_nil : ∀ (i : Nat) {ms : List SubmittedSyncMutation},
    ms.IsChain (fun a b => a.sourceDeviceId = b.sourceDeviceId ∧
      b.deviceMutationSequence = a.deviceMutationSequence + 1) → orderFailures i ms = []
  | _, [], _ => rfl
  | _, [_], _ => rfl
  | i, a :: b :: rest, h => by
    obtain ⟨hab, hrest⟩ := isChain_cons_cons.mp h
    rw [orderFailures, if_pos (by rw [hab.2]; exact Nat.lt_succ_self _),
      orderFailures_eq_nil (i + 1) hrest, append_nil]

/-! ## Receipts -/

inductive MutationReceiptResolution where
  | missing
  | exact (serverRevision : Nat)
  | mutationIdConflict
  | sequenceConflict
deriving DecidableEq

/-- `wireDigest`. -/
def wireDigest (P : Platform H) (m : SubmittedSyncMutation) : H :=
  P.sha256 (.mutation m.toSubmittedSyncMutationWire)

/-- `resolveReceipt`. -/
def resolveReceipt [DecidableEq H] (P : Platform H) (ledger : List (MutationReceipt H))
    (m : SubmittedSyncMutation) : MutationReceiptResolution :=
  let byId := ledger.find? (fun r => r.mutationId == m.mutationId)
  let bySequence := ledger.find? (fun r => r.sourceDeviceId == m.sourceDeviceId &&
    r.deviceMutationSequence == m.deviceMutationSequence)
  match byId, bySequence with
  | some r, some r' =>
    if r.submittedEnvelopeDigest ≠ wireDigest P m then .mutationIdConflict
    else if r'.mutationId ≠ m.mutationId then .sequenceConflict
    else .exact r.serverRevision
  | some r, none =>
    if r.submittedEnvelopeDigest ≠ wireDigest P m then .mutationIdConflict else .sequenceConflict
  | none, some _ => .sequenceConflict
  | none, none => .missing

/-- The ledger has a receipt under the mutation's id. -/
def Receipted (ledger : List (MutationReceipt H)) (mutationId : String) : Prop :=
  ∃ r ∈ ledger, r.mutationId = mutationId

instance (ledger : List (MutationReceipt H)) (mutationId : String) :
    Decidable (Receipted ledger mutationId) :=
  inferInstanceAs (Decidable (∃ _ ∈ _, _))

variable {ledger : List (MutationReceipt H)}

theorem not_receipted_of_missing [DecidableEq H]
    (h : resolveReceipt P ledger m = .missing) : ¬ Receipted ledger m.mutationId := by
  rintro ⟨r, hr, hid⟩
  cases hfind : ledger.find? (fun r => r.mutationId == m.mutationId) with
  | none =>
    have hne := List.find?_eq_none.mp hfind r hr
    simp [hid] at hne
  | some r' =>
    simp only [resolveReceipt, hfind] at h
    split at h
    · split at h
      · cases h
      · split at h <;> cases h
    · split at h <;> cases h
    next hnone _ => cases hnone
    next hnone _ => cases hnone

/-- A mutation with the revision of its receipt, if it is a replay. -/
structure ResolvedMutation where
  mutation : SubmittedSyncMutation
  duplicateRevision : Option Nat
deriving DecidableEq

/-- The receipts of a batch in order; the first conflict ends the transaction. -/
def resolveReceipts [DecidableEq H] (P : Platform H) (ledger : List (MutationReceipt H)) :
    Nat → List SubmittedSyncMutation → Except MutationIngestResult (List ResolvedMutation)
  | _, [] => .ok []
  | i, m :: ms =>
    match resolveReceipt P ledger m with
    | .mutationIdConflict => .error (.rejected .idConflict [failure i m])
    | .sequenceConflict => .error (.rejected .sequenceConflict [failure i m])
    | .exact revision => (resolveReceipts P ledger (i + 1) ms).map (⟨m, some revision⟩ :: ·)
    | .missing => (resolveReceipts P ledger (i + 1) ms).map (⟨m, none⟩ :: ·)

/-- The mutations that are not replays. -/
def freshMutations (rs : List ResolvedMutation) : List SubmittedSyncMutation :=
  (rs.filter (fun r => r.duplicateRevision.isNone)).map (·.mutation)

/-! ## Failures -/

/-- The failures of the mutations a check turns down, with their positions. -/
def failuresWhere {α : Type} (bad : α → Bool) (describe : Nat → α → MutationIngestFailure) :
    Nat → List α → List MutationIngestFailure
  | _, [] => []
  | i, a :: as =>
    (if bad a then [describe i a] else []) ++ failuresWhere bad describe (i + 1) as

theorem failuresWhere_eq_nil {α : Type} {bad : α → Bool}
    {describe : Nat → α → MutationIngestFailure} :
    ∀ {i : Nat} {as : List α}, failuresWhere bad describe i as = [] ↔ ∀ a ∈ as, bad a = false
  | _, [] => by simp [failuresWhere]
  | i, a :: as => by
    rw [failuresWhere, append_eq_nil_iff, failuresWhere_eq_nil, forall_mem_cons]
    cases bad a <;> simp

/-- The mutations whose schema version is not the workspace's. -/
def schemaFailures (l : MutationLog) (ms : List SubmittedSyncMutation) :
    List MutationIngestFailure :=
  failuresWhere (fun m => m.workspaceSchemaVersion != l.workspaceSchemaVersion) failure 0 ms

/-- The new mutations of an asset without a row. -/
def entityFailures (t : DomainAssetTable) (rs : List ResolvedMutation) :
    List MutationIngestFailure :=
  failuresWhere (fun r => r.duplicateRevision.isNone && (t.find r.mutation.entityId).isNone)
    (fun i r => failure i r.mutation) 0 rs

/-- The new mutations based on a revision above the head. -/
def baseFailures (head : Nat) (rs : List ResolvedMutation) : List MutationIngestFailure :=
  failuresWhere (fun r => r.duplicateRevision.isNone && head < r.mutation.baseServerRevision)
    (fun i r => { failure i r.mutation with headRevision := some head }) 0 rs

/-- The last revision of a field as the batch has left it. -/
def lastModified (simulated : List ((String × FieldPath) × Nat)) (asset : LockedDomainAsset)
    (path : FieldPath) : Nat :=
  (simulated.lookup (asset.entityId, path)).getD (asset.lastModifiedRevision.get path)

/-- The fields of one mutation that changed after its base. -/
def staleFields (simulated : List ((String × FieldPath) × Nat)) (asset : LockedDomainAsset)
    (head index : Nat) (m : SubmittedSyncMutation) : List MutationIngestFailure :=
  (m.changedFields.filter (fun f =>
      decide (m.baseServerRevision < lastModified simulated asset f.fieldPath))).map (fun f =>
    ⟨index, m.mutationId, some f.fieldPath, some (lastModified simulated asset f.fieldPath),
      some head⟩)

/-- `findStaleFields`: `simulated` holds the revisions this batch would give to
fields, `next` is the last revision assigned so far. -/
def findStaleFields (t : DomainAssetTable) (head : Nat) :
    List ((String × FieldPath) × Nat) → Nat → Nat → List ResolvedMutation →
      List MutationIngestFailure
  | _, _, _, [] => []
  | simulated, index, next, r :: rs =>
    match r.duplicateRevision with
    | some _ => findStaleFields t head simulated (index + 1) next rs
    | none =>
      match t.find r.mutation.entityId with
      | none => findStaleFields t head simulated (index + 1) (next + 1) rs
      | some asset =>
        staleFields simulated asset head index r.mutation ++
          findStaleFields t head
            (r.mutation.changedFields.map
              (fun f => ((r.mutation.entityId, f.fieldPath), next + 1)) ++ simulated)
            (index + 1) (next + 1) rs

/-! ### When no field is stale -/

variable {r : ResolvedMutation}

/-- The mutations write no common field of one asset. -/
def SharesNoField (a b : SubmittedSyncMutation) : Prop :=
  a.entityId = b.entityId → ∀ f ∈ a.changedFields, ∀ g ∈ b.changedFields, f.fieldPath ≠ g.fieldPath

instance (a b : SubmittedSyncMutation) : Decidable (SharesNoField a b) :=
  inferInstanceAs (Decidable (_ → _))

/-- No field of the mutation was written after its base. -/
def FieldsCurrent (t : DomainAssetTable) (m : SubmittedSyncMutation) : Prop :=
  ∀ asset ∈ t.find m.entityId,
    ∀ f ∈ m.changedFields, asset.lastModifiedRevision.get f.fieldPath ≤ m.baseServerRevision

instance (t : DomainAssetTable) (m : SubmittedSyncMutation) : Decidable (FieldsCurrent t m) :=
  inferInstanceAs (Decidable (∀ _ ∈ _, _))

/-- The mutation writes no field that `simulated` has a revision for. -/
def Unsimulated (simulated : List ((String × FieldPath) × Nat)) (m : SubmittedSyncMutation) :
    Prop :=
  ∀ f ∈ m.changedFields, (m.entityId, f.fieldPath) ∉ simulated.map Prod.fst

variable {asset : LockedDomainAsset}

/-- Revisions the batch gives out lie above the head, so a field it has already
written is stale for every base it accepts. -/
theorem lastModified_le_iff {base : Nat} (hsim : ∀ x ∈ simulated, head < x.2)
    (hbase : base ≤ head) {path : FieldPath} :
    lastModified simulated asset path ≤ base ↔
      (asset.entityId, path) ∉ simulated.map Prod.fst ∧
        asset.lastModifiedRevision.get path ≤ base := by
  rw [lastModified]
  cases hl : simulated.lookup (asset.entityId, path) with
  | none =>
    have hnot : (asset.entityId, path) ∉ simulated.map Prod.fst := by
      intro hm
      obtain ⟨x, hx, hk⟩ := mem_map.mp hm
      have := lookup_eq_none_iff.mp hl x hx
      exact (by simpa using this : (asset.entityId, path) ≠ x.1) hk.symm
    exact ⟨fun h => ⟨hnot, h⟩, fun h => h.2⟩
  | some n =>
    obtain ⟨l₁, l₂, hsplit, _⟩ := lookup_eq_some_iff.mp hl
    have hmem : ((asset.entityId, path), n) ∈ simulated :=
      hsplit ▸ mem_append_right l₁ mem_cons_self
    have hn : head < n := hsim _ hmem
    refine ⟨fun h => ?_, fun h => ?_⟩
    · exact absurd (lt_of_lt_of_le hn (le_trans h hbase)) (lt_irrefl _)
    · exact absurd (mem_map_of_mem (f := Prod.fst) hmem) h.1

theorem staleFields_eq_nil {index : Nat}
    (hsim : ∀ x ∈ simulated, head < x.2) (hbase : m.baseServerRevision ≤ head)
    (hfind : t.find m.entityId = some asset) :
    staleFields simulated asset head index m = [] ↔ Unsimulated simulated m ∧
      FieldsCurrent t m := by
  have hkey : asset.entityId = m.entityId := (Keyed.lookup_eq_some hfind).2
  simp only [staleFields, map_eq_nil_iff, filter_eq_nil_iff, decide_eq_true_eq,
    not_lt, lastModified_le_iff hsim hbase, hkey]
  constructor
  · intro h
    refine ⟨fun f hf => (h f hf).1, fun asset' ha' f hf => ?_⟩
    rw [hfind] at ha'
    cases ha'
    exact (h f hf).2
  · intro h f hf
    exact ⟨h.1 f hf, h.2 asset hfind f hf⟩

theorem unsimulated_append {m' : SubmittedSyncMutation} {n : Nat} :
    Unsimulated (m.changedFields.map (fun f => ((m.entityId, f.fieldPath), n)) ++ simulated) m' ↔
      SharesNoField m m' ∧ Unsimulated simulated m' := by
  simp only [Unsimulated, SharesNoField, map_append, List.map_map, mem_append, not_or,
    mem_map, Function.comp, Prod.mk.injEq, not_exists, not_and]
  constructor
  · intro h
    exact ⟨fun he f hf g hg hp => (h g hg).1 f hf he hp, fun g hg => (h g hg).2⟩
  · intro h g hg
    exact ⟨fun f hf he hp => h.1 he f hf g hg hp, h.2 g hg⟩

/-- The field check passes iff each new mutation writes fields that neither the
table nor an earlier mutation of the batch has written after its base. -/
theorem findStaleFields_eq_nil_aux :
    ∀ {rs : List ResolvedMutation} {simulated : List ((String × FieldPath) × Nat)}
      {index next : Nat}, head ≤ next → (∀ x ∈ simulated, head < x.2) →
      (∀ m ∈ freshMutations rs, m.baseServerRevision ≤ head) →
      (∀ m ∈ freshMutations rs, (t.find m.entityId).isSome) →
      (findStaleFields t head simulated index next rs = [] ↔
        (∀ m ∈ freshMutations rs, Unsimulated simulated m ∧ FieldsCurrent t m) ∧
          (freshMutations rs).Pairwise SharesNoField)
  | [], _, _, _, _, _, _, _ => by simp [findStaleFields, freshMutations]
  | r :: rs, simulated, index, next, hnext, hsim, hbase, hknown => by
    rw [findStaleFields]
    cases hd : r.duplicateRevision with
    | some n =>
      rw [freshMutations, filter_cons_of_neg (by simp [hd]), ← freshMutations] at hbase hknown ⊢
      exact findStaleFields_eq_nil_aux hnext hsim hbase hknown
    | none =>
      rw [freshMutations, filter_cons_of_pos (by simp [hd]),
        map_cons, ← freshMutations] at hbase hknown ⊢
      obtain ⟨asset, hfind⟩ := Option.isSome_iff_exists.mp (hknown _ mem_cons_self)
      have hsim' : ∀ x ∈ r.mutation.changedFields.map
          (fun f => ((r.mutation.entityId, f.fieldPath), next + 1)) ++ simulated,
          head < x.2 := by
        intro x hx
        cases mem_append.mp hx with
        | inl hx =>
          obtain ⟨f, _, rfl⟩ := mem_map.mp hx
          exact Nat.lt_succ_of_le hnext
        | inr hx => exact hsim x hx
      have hbase' : ∀ m ∈ freshMutations rs, m.baseServerRevision ≤ head := fun m hm =>
        hbase m (mem_cons_of_mem _ hm)
      have ih := @findStaleFields_eq_nil_aux rs _ (index + 1) _
        (Nat.le_succ_of_le hnext) hsim' hbase' (forall_mem_cons.mp hknown).2
      simp only [hfind, append_eq_nil_iff, ih, forall_mem_cons, pairwise_cons,
        staleFields_eq_nil hsim (hbase _ mem_cons_self) hfind, unsimulated_append]
      constructor
      · rintro ⟨hr, hrs, hp⟩
        exact ⟨⟨hr, fun m hm => ⟨(hrs m hm).1.2, (hrs m hm).2⟩⟩, fun m hm => (hrs m hm).1.1, hp⟩
      · rintro ⟨⟨hr, hrs⟩, hshare, hp⟩
        exact ⟨hr, fun m hm => ⟨⟨hshare m hm, (hrs m hm).1⟩, (hrs m hm).2⟩, hp⟩

variable {rs : List ResolvedMutation}

theorem findStaleFields_eq_nil (hbase : ∀ m ∈ freshMutations rs, m.baseServerRevision ≤ head)
    (hknown : ∀ m ∈ freshMutations rs, (t.find m.entityId).isSome) :
    findStaleFields t head [] 0 head rs = [] ↔
      (∀ m ∈ freshMutations rs, FieldsCurrent t m) ∧
        (freshMutations rs).Pairwise SharesNoField := by
  rw [findStaleFields_eq_nil_aux (Nat.le_refl head) (by simp) hbase hknown]
  simp [Unsimulated]

theorem mem_freshMutations : m ∈ freshMutations rs ↔ ⟨m, none⟩ ∈ rs := by
  simp only [freshMutations, mem_map, mem_filter, Option.isNone_iff_eq_none]
  constructor
  · rintro ⟨⟨m', d⟩, ⟨hr, rfl⟩, rfl⟩
    exact hr
  · intro h
    exact ⟨_, ⟨h, rfl⟩, rfl⟩

/-- A check of the new mutations that turns none down. -/
theorem freshFailures_eq_nil {p : SubmittedSyncMutation → Bool}
    {describe : Nat → ResolvedMutation → MutationIngestFailure} :
    failuresWhere (fun r => r.duplicateRevision.isNone && p r.mutation) describe 0 rs = [] ↔
      ∀ m ∈ freshMutations rs, p m = false := by
  rw [failuresWhere_eq_nil]
  constructor
  · intro h m hm
    exact h _ (mem_freshMutations.mp hm)
  · rintro h ⟨m, _ | n⟩ hr
    · exact h m (mem_freshMutations.mpr hr)
    · rfl

theorem entityFailures_eq_nil :
    entityFailures t rs = [] ↔ ∀ m ∈ freshMutations rs, (t.find m.entityId).isSome :=
  (freshFailures_eq_nil (p := fun m => (t.find m.entityId).isNone)).trans (by simp)

theorem baseFailures_eq_nil :
    baseFailures head rs = [] ↔ ∀ m ∈ freshMutations rs, m.baseServerRevision ≤ head :=
  (freshFailures_eq_nil (p := fun m => head < m.baseServerRevision)).trans (by simp)

/-! ## The transaction -/

/-- The revisions returned for a batch. -/
def assignments : Nat → List ResolvedMutation → List MutationAssignment
  | _, [] => []
  | head, r :: rs =>
    match r.duplicateRevision with
    | some revision =>
      ⟨r.mutation.mutationId, r.mutation.deviceMutationSequence, revision, true⟩ ::
        assignments head rs
    | none =>
      ⟨r.mutation.mutationId, r.mutation.deviceMutationSequence, head + 1, false⟩ ::
        assignments (head + 1) rs

variable (P)

/-- The ledger row of a log entry. -/
def receiptOf (m : SyncMutation) : MutationReceipt H where
  mutationId := m.mutation.mutationId
  sourceDeviceId := m.mutation.sourceDeviceId
  deviceMutationSequence := m.mutation.deviceMutationSequence
  serverRevision := m.serverRevision
  submittedEnvelopeDigest := wireDigest P m.mutation

/-- `appendAccepted`, `applyAcceptedMutations` and `compareAndAdvance`. -/
def commitAccepted (w : Workspace H) (fresh : List SubmittedSyncMutation) :
    Option (Workspace H) :=
  match w.log.append fresh,
      w.assets.applyAcceptedMutations
        (MutationLog.number w.log.workspaceId w.log.serverRevision fresh) with
  | some log, some assets => some
      { w with
        log := log
        assets := assets
        ledger := w.ledger ++
          (MutationLog.number w.log.workspaceId w.log.serverRevision fresh).map (receiptOf P) }
  | _, _ => none

/-- The part of `#ingestTransaction` after the receipts are resolved. -/
def ingestResolved (ports : IngestPorts) (w : Workspace H)
    (rs : List ResolvedMutation) : Option (Workspace H × MutationIngestResult) :=
  let head := w.log.serverRevision
  let fresh := freshMutations rs
  if entityFailures w.assets rs ≠ [] then
    some (w, .rejected .entityUnknown (entityFailures w.assets rs))
  else if baseFailures head rs ≠ [] then
    some (w, .rejected .baseRevisionAhead (baseFailures head rs))
  else if maxSafeInteger < head + fresh.length then none
  else if findStaleFields w.assets head [] 0 head rs ≠ [] then
    some (w, .rejected .fieldStale (findStaleFields w.assets head [] 0 head rs))
  else if fresh = [] then some (w, .accepted (assignments head rs) head)
  else if fresh.all ports.drainAppend then
    (commitAccepted P w fresh).map
      (fun w' => (w', .accepted (assignments head rs) (head + fresh.length)))
  else none

/-- `#ingestTransaction`. -/
def ingestTransaction [DecidableEq H] (ports : IngestPorts) (w : Workspace H)
    (ms : List SubmittedSyncMutation) : Option (Workspace H × MutationIngestResult) :=
  if !ms.all (fun m => ports.lockAndValidateActiveLease m.sourceDeviceId m.activeLeaseEpoch) then
    some (w, .rejected .deviceNotActive (failuresWhere (fun _ => true) failure 0 ms))
  else if schemaFailures w.log ms ≠ [] then
    some (w, .rejected .schemaVersionUnsupported (schemaFailures w.log ms))
  else
    match resolveReceipts P w.ledger 0 ms with
    | .error rejection => some (w, rejection)
    | .ok rs => ingestResolved P ports w rs

/-- `ingest`. -/
def ingest [DecidableEq H] (ports : IngestPorts) (w : Workspace H)
    (value : List SubmittedSyncMutationWire) : Option (Workspace H × MutationIngestResult) :=
  match parseRequest value with
  | none => some (w, .rejected .malformed [])
  | some ms =>
    if orderFailures 0 ms ≠ [] then some (w, .rejected .batchUnordered (orderFailures 0 ms))
    else ingestTransaction P ports w ms

/-! ## What a transaction does -/

/-- An accepting transaction with new mutations. -/
structure IngestCommit [DecidableEq H] (w w' : Workspace H) (fresh : List SubmittedSyncMutation) :
    Prop where
  nonempty : fresh ≠ []
  safe : w.head + fresh.length ≤ maxSafeInteger
  known : ∀ m ∈ fresh, (w.assets.find m.entityId).isSome
  current : ∀ m ∈ fresh, FieldsCurrent w.assets m
  disjoint : fresh.Pairwise SharesNoField
  missing : ∀ m ∈ fresh, resolveReceipt P w.ledger m = .missing
  ids : (fresh.map (·.mutationId)).Nodup
  log : w.log.append fresh = some w'.log
  assets : w.assets.applyAcceptedMutations
    (MutationLog.number w.log.workspaceId w.log.serverRevision fresh) = some w'.assets
  rest : w' = { w with
    log := w'.log
    assets := w'.assets
    ledger := w.ledger ++
      (MutationLog.number w.log.workspaceId w.log.serverRevision fresh).map (receiptOf P) }

variable {P}

section

variable [DecidableEq H] {w' : Workspace H} {fresh : List SubmittedSyncMutation}
  (h : IngestCommit P w w' fresh)

include h

theorem IngestCommit.receipted {id : String} (hid : Receipted w.ledger id) :
    Receipted w'.ledger id := by
  obtain ⟨r, hr, hid⟩ := hid
  rw [h.rest]
  exact ⟨r, mem_append_left _ hr, hid⟩

theorem IngestCommit.receipt {x : SyncMutation}
    (hx : x ∈ MutationLog.number w.log.workspaceId w.log.serverRevision fresh) :
    receiptOf P x ∈ w'.ledger := by
  rw [h.rest]
  exact mem_append_right _ (mem_map_of_mem hx)

end

/-- The resolution a resolved mutation stands for. -/
def ResolvedMutation.resolution (r : ResolvedMutation) : MutationReceiptResolution :=
  match r.duplicateRevision with
  | none => .missing
  | some n => .exact n

theorem resolveReceipts_eq_ok [DecidableEq H] :
    ∀ {i : Nat} {ms : List SubmittedSyncMutation} {rs : List ResolvedMutation},
      resolveReceipts P ledger i ms = .ok rs →
        rs.map (·.mutation) = ms ∧
          ∀ r ∈ rs, resolveReceipt P ledger r.mutation = r.resolution
  | _, [], rs, h => by cases h; simp
  | i, m :: ms, rs, h => by
    rw [resolveReceipts] at h
    cases hr : resolveReceipt P ledger m <;> rw [hr] at h
    case mutationIdConflict => cases h
    case sequenceConflict => cases h
    all_goals
      cases hrs : resolveReceipts P ledger (i + 1) ms with
      | error e => rw [hrs] at h; cases h
      | ok rs' =>
        rw [hrs] at h
        cases h
        obtain ⟨hmap, hres⟩ := resolveReceipts_eq_ok hrs
        exact ⟨by rw [map_cons, hmap], forall_mem_cons.mpr ⟨hr, hres⟩⟩

/-- The new mutations of a batch are those without a receipt. -/
theorem freshMutations_eq_filter [DecidableEq H] {i : Nat}
    (h : resolveReceipts P ledger i ms = .ok rs) :
    freshMutations rs = ms.filter (fun m => resolveReceipt P ledger m = .missing) := by
  obtain ⟨rfl, hres⟩ := resolveReceipts_eq_ok h
  rw [freshMutations, filter_map]
  refine congrArg _ (filter_congr fun r hr => ?_)
  show r.duplicateRevision.isNone = decide (resolveReceipt P ledger r.mutation = .missing)
  rw [hres r hr, ResolvedMutation.resolution]
  cases r.duplicateRevision <;> rfl

/-- The receipt of the mutation belongs to another one. -/
def ReceiptConflict [DecidableEq H] (P : Platform H) (ledger : List (MutationReceipt H))
    (m : SubmittedSyncMutation) : Prop :=
  resolveReceipt P ledger m = .mutationIdConflict ∨ resolveReceipt P ledger m = .sequenceConflict

/-- Receipts resolve unless a mutation of the batch conflicts; then the code says so. -/
theorem resolveReceipts_cases [DecidableEq H] :
    ∀ (i : Nat) (ms : List SubmittedSyncMutation),
      ((∀ m ∈ ms, ¬ ReceiptConflict P ledger m) ∧ ∃ rs, resolveReceipts P ledger i ms = .ok rs) ∨
      (∃ m ∈ ms, ReceiptConflict P ledger m) ∧ ∃ code failures,
        resolveReceipts P ledger i ms = .error (.rejected code failures) ∧
          (code = .idConflict ∨ code = .sequenceConflict)
  | _, [] => .inl ⟨fun _ hm => (by cases hm), [], rfl⟩
  | i, m :: ms => by
    rw [resolveReceipts]
    cases hr : resolveReceipt P ledger m with
    | mutationIdConflict =>
      exact .inr ⟨⟨m, mem_cons_self, .inl hr⟩, _, _, rfl, .inl rfl⟩
    | sequenceConflict =>
      exact .inr ⟨⟨m, mem_cons_self, .inr hr⟩, _, _, rfl, .inr rfl⟩
    | missing | exact =>
      have hclear : ¬ ReceiptConflict P ledger m := by
        simp [ReceiptConflict, hr]
      rcases resolveReceipts_cases (i + 1) ms with
        ⟨hms, rs, hrs⟩ | ⟨⟨x, hx, hc⟩, code, fs, hrs, hcode⟩
      · exact .inl ⟨forall_mem_cons.mpr ⟨hclear, hms⟩, _, by rw [hrs]; rfl⟩
      · exact .inr ⟨⟨x, mem_cons_of_mem _ hx, hc⟩, code, fs, by rw [hrs]; rfl, hcode⟩

theorem freshMutations_sublist (rs : List ResolvedMutation) :
    (freshMutations rs).Sublist (rs.map (·.mutation)) :=
  (filter_sublist (l := rs)).map _

theorem commitAccepted_eq_some {fresh : List SubmittedSyncMutation}
    (h : commitAccepted P w fresh = some w') :
    w.log.append fresh = some w'.log ∧
      w.assets.applyAcceptedMutations
        (MutationLog.number w.log.workspaceId w.log.serverRevision fresh) = some w'.assets ∧
      w' = { w with
        log := w'.log
        assets := w'.assets
        ledger := w.ledger ++
          (MutationLog.number w.log.workspaceId w.log.serverRevision fresh).map
            (receiptOf P) } := by
  rw [commitAccepted] at h
  split at h
  next log assets hl ha =>
    cases h
    exact ⟨hl, ha, rfl⟩
  next => cases h

variable {ports : IngestPorts}

/-- The new mutations of a batch fit the log: their assets are known, their bases
are not ahead, and no field was written after its base. -/
@[mk_iff] structure FreshCurrent (w : Workspace H) (fresh : List SubmittedSyncMutation) : Prop where
  known : ∀ m ∈ fresh, (w.assets.find m.entityId).isSome
  base : ∀ m ∈ fresh, m.baseServerRevision ≤ w.head
  fields : w.head + fresh.length ≤ maxSafeInteger →
    (∀ m ∈ fresh, FieldsCurrent w.assets m) ∧ fresh.Pairwise SharesNoField

instance (w : Workspace H) (fresh : List SubmittedSyncMutation) :
    Decidable (FreshCurrent w fresh) :=
  decidable_of_iff _ (freshCurrent_iff w fresh).symm

/-- Once the receipts are resolved, a batch is rejected exactly when it does not fit the
log, and with one of three codes; a stale one really holds a field written after its base. -/
theorem ingestResolved_cases (rs : List ResolvedMutation) :
    (¬ FreshCurrent w (freshMutations rs) ∧ ∃ code failures,
      ingestResolved P ports w rs = some (w, .rejected code failures) ∧
        (code = .entityUnknown ∨ code = .baseRevisionAhead ∨ code = .fieldStale ∧
          ¬ ((∀ m ∈ freshMutations rs, FieldsCurrent w.assets m) ∧
            (freshMutations rs).Pairwise SharesNoField))) ∨
    FreshCurrent w (freshMutations rs) ∧
      ∀ w' res, ingestResolved P ports w rs = some (w', res) →
        res = .accepted (assignments w.head rs) (w.head + (freshMutations rs).length) ∧
        w.head + (freshMutations rs).length ≤ maxSafeInteger ∧
        (w' = w ∨ freshMutations rs ≠ [] ∧ commitAccepted P w (freshMutations rs) = some w') := by
  rw [ingestResolved]
  by_cases hent : entityFailures w.assets rs = []
  · have hknown := entityFailures_eq_nil.mp hent
    rw [if_neg (not_not.mpr hent)]
    by_cases hbase : baseFailures w.log.serverRevision rs = []
    · have hle := baseFailures_eq_nil.mp hbase
      have hfields := findStaleFields_eq_nil hle hknown
      rw [if_neg (not_not.mpr hbase)]
      by_cases hmax : maxSafeInteger < w.log.serverRevision + (freshMutations rs).length
      · rw [if_pos hmax]
        refine .inr ⟨⟨hknown, hle, fun h => absurd hmax (not_lt.mpr h)⟩, ?_⟩
        rintro _ _ ⟨⟩
      rw [if_neg hmax]
      have hsafe := not_lt.mp hmax
      by_cases hstale :
        findStaleFields w.assets w.log.serverRevision [] 0 w.log.serverRevision rs = []
      · rw [if_neg (not_not.mpr hstale)]
        refine .inr ⟨⟨hknown, hle, fun _ => hfields.mp hstale⟩, ?_⟩
        intro w' res h
        split at h
        next hnil =>
          cases h
          exact ⟨by rw [hnil]; rfl, hsafe, .inl rfl⟩
        next hne =>
        split at h
        · obtain ⟨_, hc, heq⟩ := Option.map_eq_some_iff.mp h
          cases heq
          exact ⟨rfl, hsafe, .inr ⟨hne, hc⟩⟩
        · cases h
      · rw [if_pos hstale]
        refine .inl ⟨fun hc => hstale (hfields.mpr (hc.fields hsafe)), _, _, rfl, .inr (.inr ?_)⟩
        exact ⟨rfl, fun hcurrent => hstale (hfields.mpr hcurrent)⟩
    · rw [if_pos hbase]
      exact .inl ⟨fun hc => hbase (baseFailures_eq_nil.mpr hc.base), _, _, rfl, .inr (.inl rfl)⟩
  · rw [if_pos hent]
    exact .inl ⟨fun hc => hent (entityFailures_eq_nil.mpr hc.known), _, _, rfl, .inl rfl⟩

/-- A request that passes the schema, with its receipts. -/
structure Resolves [DecidableEq H] (P : Platform H) (ledger : List (MutationReceipt H))
    (value : List SubmittedSyncMutationWire) (rs : List ResolvedMutation) : Prop where
  parsed : parseRequest value = some (rs.map (·.mutation))
  receipts : ∀ r ∈ rs, resolveReceipt P ledger r.mutation = r.resolution

/-- A transaction that returns has rejected the request and changed nothing, or has
accepted it and committed its new mutations. -/
theorem ingest_cases [DecidableEq H] {res : MutationIngestResult}
    (h : ingest P ports w value = some (w', res)) :
    (w' = w ∧ ∃ code failures, res = .rejected code failures ∧
      (code = .fieldStale → ∃ rs, Resolves P w.ledger value rs ∧
        ¬ ((∀ m ∈ freshMutations rs, FieldsCurrent w.assets m) ∧
          (freshMutations rs).Pairwise SharesNoField))) ∨
    ∃ rs, Resolves P w.ledger value rs ∧
      res = .accepted (assignments w.head rs) (w.head + (freshMutations rs).length) ∧
      w.head + (freshMutations rs).length ≤ maxSafeInteger ∧
      (w' = w ∨ IngestCommit P w w' (freshMutations rs)) := by
  rw [ingest] at h
  cases hp : parseRequest value with
  | none => rw [hp] at h; cases h; exact .inl ⟨rfl, _, _, rfl, by simp⟩
  | some ms =>
    rw [hp] at h
    simp only at h
    split at h
    next => cases h; exact .inl ⟨rfl, _, _, rfl, by simp⟩
    rw [ingestTransaction] at h
    split at h
    next => cases h; exact .inl ⟨rfl, _, _, rfl, by simp⟩
    split at h
    next => cases h; exact .inl ⟨rfl, _, _, rfl, by simp⟩
    rcases resolveReceipts_cases (P := P) 0 ms with ⟨_, rs, hrs⟩ | ⟨_, _, _, hrs, hcode⟩
    · rw [hrs] at h
      obtain ⟨rfl, hres⟩ := resolveReceipts_eq_ok hrs
      rcases ingestResolved_cases (P := P) rs with ⟨_, code, fs, heq, hcode⟩ | ⟨hcurrent, haccept⟩
      · cases heq.symm.trans h
        refine .inl ⟨rfl, code, fs, rfl, ?_⟩
        rintro rfl
        obtain h | h | h := hcode
        · cases h
        · cases h
        · exact ⟨rs, ⟨hp, hres⟩, h.2⟩
      · obtain ⟨hanswer, hsafe, hwrite⟩ := haccept _ _ h
        refine .inr ⟨rs, ⟨hp, hres⟩, hanswer, hsafe, hwrite.imp_right fun ⟨hne, hc⟩ => ?_⟩
        obtain ⟨hl, ha, hw⟩ := commitAccepted_eq_some hc
        obtain ⟨hfields, hdisjoint⟩ := hcurrent.fields hsafe
        exact
          { nonempty := hne
            safe := hsafe
            known := hcurrent.known
            current := hfields
            disjoint := hdisjoint
            missing := fun m hm => hres _ (mem_freshMutations.mp hm)
            ids := ((freshMutations_sublist rs).map _).nodup (parseRequest_valid hp).ids
            log := hl
            assets := ha
            rest := hw }
    · rw [hrs] at h
      cases h
      exact .inl ⟨rfl, _, _, rfl, by rintro rfl; rcases hcode with h | h <;> cases h⟩

end GoodDealer.Cloud
