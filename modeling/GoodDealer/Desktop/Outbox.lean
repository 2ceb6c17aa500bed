/-
# `GoodDealer.Desktop.Outbox` — claiming, acknowledging and deferring mutations

The delivery cycle of `sync_outbox`.  A claim takes the oldest due rows in device
order and fences each with its attempt number; a later acknowledgement, deferral or
rejection names owner, fence and digest, and changes a row only while they are the
ones of the claim.

`DeliveryUpdate` says what the whole cycle leaves alone: the mutations of the outbox
stay as they were written, no tombstone is added or removed, and no field becomes
pending.
-/
import GoodDealer.Desktop.Store
import GoodDealer.Lib.Transaction

namespace GoodDealer.Desktop

open List Keyed
open Relation (ReflTransGen)

variable {H : Type}

/-! ## Claiming -/

/-- `ClaimedSyncMutation`. -/
structure ClaimedSyncMutation (H : Type) where
  mutation : SubmittedSyncMutationWire
  deliveryAttemptFence : Nat
  wireMutationDigest : H
deriving DecidableEq

/-- `MAX_SYNC_PUSH_REQUEST_BYTES`. -/
def maxSyncPushRequestBytes : Nat := 1024 * 1024

namespace OutboxRow

/-- `state IN ('pending','sending')`. -/
def isOpen (r : OutboxRow H) : Bool :=
  match r.state with
  | .pending _ | .sending .. => true
  | .acknowledged _ | .conflicted | .rejected => false

/-- The row may be sent now. -/
def due (now : Timestamp) (r : OutboxRow H) : Bool :=
  match r.state with
  | .pending nextAttemptAt => nextAttemptAt.all (· ≤ now)
  | .sending _ leaseExpiresAt _ => leaseExpiresAt ≤ now
  | .acknowledged _ | .conflicted | .rejected => false

end OutboxRow

/-- Change one outbox row. -/
def Store.setDelivery (s : Store H) (mutationId : String) (f : OutboxRow H → OutboxRow H) :
    Store H :=
  { s with outbox := adjust OutboxRow.mutationId mutationId f s.outbox }

theorem Store.outboxRow_setDelivery (s : Store H) (mutationId : String)
    {f : OutboxRow H → OutboxRow H} (hf : ∀ r, (f r).mutation = r.mutation) :
    (s.setDelivery mutationId f).outboxRow mutationId = (s.outboxRow mutationId).map f := by
  apply lookup_adjust_self
  intro r hr
  show (f r).mutation.mutationId = mutationId
  rw [hf]
  exact hr

/-- The loop of `claim_sync_mutations_v2_guarded`.  It stops at the first row that is
not due or no longer fits the request; a row that does not fit a request of its own
is closed. -/
def claimRows [DecidableEq H] (J : SerdeJson H) (P : Platform H) (deliveryOwner : String)
    (now leaseExpiresAt : Timestamp) :
    List (OutboxRow H) → List (ClaimedSyncMutation H) → Store H →
      Except BusinessDatabaseError (Store H × List (ClaimedSyncMutation H))
  | [], claimed, s => .ok (s, claimed)
  | row :: rows, claimed, s =>
    if !row.due now then .ok (s, claimed)
    else
      let digest := P.sha256 (.mutation row.mutation)
      let fence := row.attemptCount + 1
      if row.wireMutationDigest.any (fun d => decide (d ≠ digest)) then .error .storageRejected
      else if maxSafeInteger < fence then .error .sequenceExhausted
      else if maxSyncPushRequestBytes <
          J.pushRequest (claimed.map (·.mutation) ++ [row.mutation]) then
        if claimed.isEmpty then
          claimRows J P deliveryOwner now leaseExpiresAt rows claimed
            (s.setDelivery row.mutationId (fun r => { r with state := .rejected }))
        else .ok (s, claimed)
      else if 1000000 < fence then .error .storageRejected
      else
        claimRows J P deliveryOwner now leaseExpiresAt rows
          (claimed ++ [⟨row.mutation, fence, digest⟩])
          (s.setDelivery row.mutationId (fun r => { r with
            state := .sending deliveryOwner leaseExpiresAt fence
            attemptCount := fence
            wireMutationDigest := some digest }))

/-- `claim_sync_mutations_v2_guarded`. -/
def claimSyncMutations [DecidableEq H] (J : SerdeJson H) (P : Platform H) (s : Store H)
    (deliveryOwner : String) (now leaseExpiresAt : Timestamp) (limit : Nat) :
    Except BusinessDatabaseError (Store H × List (ClaimedSyncMutation H)) :=
  if !validIdentifier deliveryOwner || decide (leaseExpiresAt ≤ now) || limit < 1 || 256 < limit
  then .error .invalidInput
  else
    claimRows J P deliveryOwner now leaseExpiresAt
      ((sortByKey (fun r => r.mutation.deviceMutationSequence)
        (s.outbox.filter OutboxRow.isOpen)).take limit) [] s

/-! ## Settling a claim -/

/-- The owner, fence, source and digest of the claim are still those of the row. -/
def OutboxRow.held [DecidableEq H] (row : OutboxRow H) (deliveryOwner : String)
    (c : ClaimedSyncMutation H) : Bool :=
  match row.state with
  | .sending owner _ fence =>
    owner = deliveryOwner && fence = c.deliveryAttemptFence &&
      row.mutation.sourceDeviceId = c.mutation.sourceDeviceId &&
      row.mutation.activeLeaseEpoch = c.mutation.activeLeaseEpoch &&
      row.mutation.deviceMutationSequence = c.mutation.deviceMutationSequence &&
      row.wireMutationDigest = some c.wireMutationDigest
  | _ => false

/-- The row of a claimed mutation, while the claim holds it. -/
def Store.heldRow [DecidableEq H] (s : Store H) (deliveryOwner : String)
    (c : ClaimedSyncMutation H) : Option (OutboxRow H) :=
  match s.outboxRow c.mutation.mutationId with
  | some row => if row.held deliveryOwner c then some row else none
  | none => none

/-- Settle the mutations of a batch one by one; any failure rolls the batch back. -/
def settleAll {α : Type} (settle : Store H → α → Except BusinessDatabaseError (Store H))
    (s : Store H) (batch : List α) : Except BusinessDatabaseError (Store H) :=
  if batch.isEmpty || 256 < batch.length then .error .invalidInput else batch.foldlM settle s

/-- A claimed mutation with the revision the cloud gave it. -/
structure SyncMutationAcknowledgement (H : Type) where
  claimed : ClaimedSyncMutation H
  serverRevision : Nat
deriving DecidableEq

/-- The field versions a mutation wrote become clean. -/
def cleanFields (row : OutboxRow H) (serverRevision : Nat) (v : FieldVersion) : FieldVersion :=
  if v.entityId = row.mutation.entityId ∧ v.localCommitSequence = row.localCommitSequence then
    { v with serverRevision := serverRevision, syncState := .clean }
  else v

/-- The tombstone a delete wrote is acknowledged. -/
def acknowledgeTombstone (row : OutboxRow H) (serverRevision : Nat) (t : Tombstone) : Tombstone :=
  if row.mutation.operationKind = .delete ∧ t.entityId = row.mutation.entityId ∧
      t.deletedLocalCommitSequence = row.localCommitSequence ∧ t.state = .pending then
    { t with deletedServerRevision := some serverRevision, state := .acknowledged }
  else t

/-- The row was acknowledged with this revision before. -/
def OutboxRow.acknowledgedAs [DecidableEq H] (row : OutboxRow H)
    (a : SyncMutationAcknowledgement H) : Bool :=
  row.state = .acknowledged a.serverRevision &&
    row.mutation.sourceDeviceId = a.claimed.mutation.sourceDeviceId &&
    row.mutation.activeLeaseEpoch = a.claimed.mutation.activeLeaseEpoch &&
    row.mutation.deviceMutationSequence = a.claimed.mutation.deviceMutationSequence &&
    row.wireMutationDigest = some a.claimed.wireMutationDigest

/-- One item of `acknowledge_sync_batch_v2_guarded`. -/
def acknowledgeOne [DecidableEq H] (deliveryOwner : String) (s : Store H)
    (a : SyncMutationAcknowledgement H) : Except BusinessDatabaseError (Store H) :=
  if !validIdentifier a.claimed.mutation.mutationId then .error .invalidInput
  else
    match s.heldRow deliveryOwner a.claimed with
    | some row =>
      if a.serverRevision < 1 ∨ maxSafeInteger < a.serverRevision then .error .storageRejected
      else
        .ok { s.setDelivery a.claimed.mutation.mutationId
            (fun r => { r with state := .acknowledged a.serverRevision }) with
          fieldVersions := s.fieldVersions.map (cleanFields row a.serverRevision)
          tombstones := s.tombstones.map (acknowledgeTombstone row a.serverRevision) }
    | none =>
      if (s.outboxRow a.claimed.mutation.mutationId).any (·.acknowledgedAs a) then .ok s
      else .error .mutationConflict

/-- `acknowledge_sync_batch_v2_guarded`. -/
def acknowledgeSyncBatch [DecidableEq H] (s : Store H) (deliveryOwner : String)
    (acknowledgements : List (SyncMutationAcknowledgement H)) :
    Except BusinessDatabaseError (Store H) :=
  if !validIdentifier deliveryOwner then .error .invalidInput
  else settleAll (acknowledgeOne deliveryOwner) s acknowledgements

/-- The delay of a deferral, in seconds. -/
def deferralDelay (attemptCount : Nat) : Nat := min (2 ^ min attemptCount 9) 300

/-- The row of a claim gets a new state, while the claim holds it. -/
def settleHeld [DecidableEq H] (state : OutboxRow H → DeliveryState) (deliveryOwner : String)
    (s : Store H) (c : ClaimedSyncMutation H) : Except BusinessDatabaseError (Store H) :=
  if !validIdentifier c.mutation.mutationId then .error .invalidInput
  else
    match s.heldRow deliveryOwner c with
    | some row => .ok (s.setDelivery c.mutation.mutationId (fun r => { r with state := state row }))
    | none => .error .mutationConflict

/-- `defer_retryable_sync_batch_v2_guarded_with_deadline`. -/
def deferRetryableSyncBatch [DecidableEq H] (s : Store H) (deliveryOwner : String)
    (mutations : List (ClaimedSyncMutation H)) (now : Timestamp) :
    Except BusinessDatabaseError (Store H) :=
  if !validIdentifier deliveryOwner then .error .invalidInput
  else
    settleAll (settleHeld (fun row => .pending (some (now + deferralDelay row.attemptCount)))
      deliveryOwner) s mutations

/-- `reject_sync_batch_v2_guarded`. -/
def rejectSyncBatch [DecidableEq H] (s : Store H) (deliveryOwner : String)
    (mutations : List (ClaimedSyncMutation H)) (conflicted : Bool) :
    Except BusinessDatabaseError (Store H) :=
  if !validIdentifier deliveryOwner then .error .invalidInput
  else
    settleAll (settleHeld (fun _ => if conflicted then .conflicted else .rejected) deliveryOwner) s
      mutations

/-! ## What the delivery cycle leaves alone -/

/-- The delivery cycle between two databases. -/
structure DeliveryUpdate (s s' : Store H) : Prop where
  workspaceId : s'.workspaceId = s.workspaceId
  applied : s'.appliedThroughServerRevision = s.appliedThroughServerRevision
  next : s'.nextDeviceMutationSequence = s.nextDeviceMutationSequence
  portfolios : s'.portfolios = s.portfolios
  assets : s'.domainAssets = s.domainAssets
  tombstones : ∀ e, s'.Tombstoned e → s.Tombstoned e
  pending : ∀ e, s'.EntityPending e → s.EntityPending e
  mutations : s'.outbox.map OutboxRow.mutation = s.outbox.map OutboxRow.mutation
  inbox : s'.inbox = s.inbox
  readers : s'.readers = s.readers

namespace DeliveryUpdate

variable {s s' s'' : Store H}

theorem refl (s : Store H) : DeliveryUpdate s s :=
  ⟨rfl, rfl, rfl, rfl, rfl, fun _ h => h, fun _ h => h, rfl, rfl, rfl⟩

theorem trans (h : DeliveryUpdate s s') (h' : DeliveryUpdate s' s'') : DeliveryUpdate s s'' where
  workspaceId := h'.workspaceId.trans h.workspaceId
  applied := h'.applied.trans h.applied
  next := h'.next.trans h.next
  portfolios := h'.portfolios.trans h.portfolios
  assets := h'.assets.trans h.assets
  tombstones := fun e he => h.tombstones e (h'.tombstones e he)
  pending := fun e he => h.pending e (h'.pending e he)
  mutations := h'.mutations.trans h.mutations
  inbox := h'.inbox.trans h.inbox
  readers := h'.readers.trans h.readers

theorem setDelivery (s : Store H) (mutationId : String) {f : OutboxRow H → OutboxRow H}
    (hf : ∀ r, (f r).mutation = r.mutation) : DeliveryUpdate s (s.setDelivery mutationId f) where
  workspaceId := rfl
  applied := rfl
  next := rfl
  portfolios := rfl
  assets := rfl
  tombstones := fun _ h => h
  pending := fun _ h => h
  mutations := by
    rw [Store.setDelivery, adjust, List.map_map]
    refine map_congr_left fun r _ => ?_
    show (if _ then f r else r).mutation = r.mutation
    split
    · exact hf r
    · rfl
  inbox := rfl
  readers := rfl

end DeliveryUpdate

/-! ## What the delivery cycle writes -/

/-- One write of a claim: a row gets another state, but is not acknowledged. -/
inductive ClaimWrite (s : Store H) : Store H → Prop where
  | row (mutationId : String) (f : OutboxRow H → OutboxRow H)
      (content : ∀ r, (f r).undelivered = r.undelivered)
      (unacknowledged : ∀ r n, (f r).state ≠ .acknowledged n) :
      ClaimWrite s (s.setDelivery mutationId f)

/-- One write of a completion. -/
inductive SettleWrite (s : Store H) : Store H → Prop where
  /-- The row goes back to the queue or is closed. -/
  | row (mutationId : String) (state : DeliveryState)
      (unacknowledged : ∀ n, state ≠ .acknowledged n)
      (unsent : ∀ owner lease fence, state ≠ .sending owner lease fence) :
      SettleWrite s (s.setDelivery mutationId (fun r => { r with state := state }))
  /-- A row that is sent is acknowledged, and the field versions it wrote become clean. -/
  | acknowledge (row : OutboxRow H) (serverRevision : Nat)
      (found : s.outboxRow row.mutationId = some row) (sending : row.isSending = true) :
      SettleWrite s
        { s.setDelivery row.mutationId (fun r => { r with state := .acknowledged serverRevision })
          with
          fieldVersions := s.fieldVersions.map (cleanFields row serverRevision)
          tombstones := s.tombstones.map (acknowledgeTombstone row serverRevision) }

section

variable {J : SerdeJson H} {P : Platform H} {s s' : Store H} {owner : String}

/-- A batch is the chain of its items. -/
theorem settleAll_chain {α : Type} {settle : Store H → α → Except BusinessDatabaseError (Store H)}
    (hone : ∀ t a t', settle t a = .ok t' → ReflTransGen SettleWrite t t') {batch : List α}
    (h : settleAll settle s batch = .ok s') : ReflTransGen SettleWrite s s' := by
  unfold settleAll at h
  split at h
  · cases h
  · exact foldlM_chain (I := fun _ => True) (fun t a t' _ _ ht => ⟨hone t a t' ht, trivial⟩)
      trivial h

variable {row : OutboxRow H}

theorem OutboxRow.isSending_iff :
    row.isSending = true ↔ ∃ owner lease fence, row.state = .sending owner lease fence := by
  unfold OutboxRow.isSending
  cases row.state <;> simp

theorem tombstoned_settleWrite (h : SettleWrite s s') (e : String) :
    s'.Tombstoned e ↔ s.Tombstoned e := by
  cases h with
  | row => exact Iff.rfl
  | acknowledge row serverRevision =>
    have hkeys : (s.tombstones.map (acknowledgeTombstone row serverRevision)).map
        Tombstone.entityId = s.tombstones.map Tombstone.entityId := by
      rw [List.map_map]
      refine map_congr_left fun t _ => ?_
      show (acknowledgeTombstone row serverRevision t).entityId = t.entityId
      unfold acknowledgeTombstone
      split <;> rfl
    unfold Store.Tombstoned
    rw [hkeys]

theorem DeliveryUpdate.claimWrite (h : ClaimWrite s s') : DeliveryUpdate s s' := by
  obtain ⟨i, f, hf⟩ := h
  exact .setDelivery s i fun row => (OutboxRow.mk.inj (hf row)).1

theorem DeliveryUpdate.settleWrite (h : SettleWrite s s') : DeliveryUpdate s s' := by
  have htombstones := fun e => (tombstoned_settleWrite h e).mp
  cases h with
  | row i => exact .setDelivery s i fun _ => rfl
  | acknowledge row n =>
    have hset := DeliveryUpdate.setDelivery s row.mutationId
      (f := fun r => { r with state := .acknowledged n }) fun _ => rfl
    refine { hset with tombstones := htombstones, pending := ?_ }
    rintro e ⟨_, hv, he, hp⟩
    obtain ⟨v, hmem, rfl⟩ := mem_map.mp hv
    refine ⟨v, hmem, ?_⟩
    -- a field version that is still pending is one the map left alone
    unfold cleanFields at he hp
    split at hp
    · cases hp
    · rw [if_neg (by assumption)] at he
      exact ⟨he, hp⟩

theorem DeliveryUpdate.settles (h : ReflTransGen SettleWrite s s') : DeliveryUpdate s s' :=
  chain_inv (fun _ _ ht hwrite => ht.trans (.settleWrite hwrite)) (.refl s) h

/-- A claim writes nothing but the outbox. -/
theorem outbox_of_claimChain (h : ReflTransGen ClaimWrite s s') :
    s' = { s with outbox := s'.outbox } := by
  refine chain_inv (I := fun t => t = { s with outbox := t.outbox })
    (fun t t' ht hwrite => ?_) rfl h
  cases hwrite
  rw [ht]
  rfl

variable [DecidableEq H] {now : Timestamp} {c : ClaimedSyncMutation H}
  {cs : List (ClaimedSyncMutation H)}

/-- A held row is being sent under owner and fence of the claim. -/
theorem heldRow_some (h : s.heldRow owner c = some row) :
    s.outboxRow c.mutation.mutationId = some row ∧
      ∃ lease, row.state = .sending owner lease c.deliveryAttemptFence := by
  unfold Store.heldRow at h
  split at h
  next r hr =>
    split at h
    next hheld =>
      cases h
      refine ⟨hr, ?_⟩
      unfold OutboxRow.held at hheld
      split at hheld
      next o lease fence hstate =>
        simp only [Bool.and_eq_true, decide_eq_true_eq] at hheld
        obtain ⟨⟨⟨⟨⟨rfl, rfl⟩, _⟩, _⟩, _⟩, _⟩ := hheld
        exact ⟨lease, hstate⟩
      · cases hheld
    · cases h
  · cases h

/-- What is claimed are mutations of the outbox. -/
theorem claimRows_chain {lease : Timestamp} :
    ∀ {rows : List (OutboxRow H)} {claimed : List (ClaimedSyncMutation H)} {s : Store H}
      {res : Store H × List (ClaimedSyncMutation H)},
      claimRows J P owner now lease rows claimed s = .ok res → ReflTransGen ClaimWrite s res.1 ∧
        ∀ c ∈ res.2, c ∈ claimed ∨ c.mutation ∈ rows.map OutboxRow.mutation := by
  intro rows
  induction rows with
  | nil =>
    intro claimed s res h
    cases h
    exact ⟨.refl, fun _ hc => .inl hc⟩
  | cons row rows ih =>
    intro claimed s res h
    unfold claimRows at h
    split at h
    · cases h
      exact ⟨.refl, fun _ hc => .inl hc⟩
    simp only at h
    split at h
    · cases h
    split at h
    · cases h
    split at h
    · split at h
      · obtain ⟨hchain, hmem⟩ := ih h
        refine ⟨.head ?_ hchain, fun c hc => (hmem c hc).imp_right (mem_cons_of_mem _)⟩
        exact .row row.mutationId _ (fun _ => rfl) (fun _ _ hs => by cases hs)
      · cases h
        exact ⟨.refl, fun _ hc => .inl hc⟩
    split at h
    · cases h
    · obtain ⟨hchain, hmem⟩ := ih h
      refine ⟨.head ?_ hchain, fun c hc => ?_⟩
      · exact .row row.mutationId _ (fun _ => rfl) (fun _ _ hs => by cases hs)
      · rcases hmem c hc with hc | hc
        · rcases mem_append.mp hc with hc | hc
          · exact .inl hc
          · rw [mem_singleton.mp hc]
            exact .inr mem_cons_self
        · exact .inr (mem_cons_of_mem _ hc)

theorem claimSyncMutations_chain {lease : Timestamp} {limit : Nat}
    (h : claimSyncMutations J P s owner now lease limit = .ok (s', cs)) :
    ReflTransGen ClaimWrite s s' := by
  unfold claimSyncMutations at h
  split at h
  · cases h
  · exact (claimRows_chain h).1

theorem acknowledgeOne_chain (t : Store H) (a : SyncMutationAcknowledgement H) (t' : Store H)
    (h : acknowledgeOne owner t a = .ok t') : ReflTransGen SettleWrite t t' := by
  unfold acknowledgeOne at h
  split at h
  · cases h
  split at h
  next row hrow =>
    split at h
    · cases h
    cases h
    obtain ⟨hfound, lease, hstate⟩ := heldRow_some hrow
    have hsending : row.isSending = true :=
      OutboxRow.isSending_iff.mpr ⟨owner, lease, _, hstate⟩
    have hid : row.mutationId = a.claimed.mutation.mutationId := (lookup_eq_some hfound).2
    rw [← hid] at hfound ⊢
    exact .single (.acknowledge row a.serverRevision hfound hsending)
  next =>
  split at h
  · cases h
    exact .refl
  · cases h

theorem settleHeld_chain {state : OutboxRow H → DeliveryState}
    (hack : ∀ r n, state r ≠ .acknowledged n)
    (hsent : ∀ r owner lease fence, state r ≠ .sending owner lease fence) (t : Store H)
    (c : ClaimedSyncMutation H)
    (t' : Store H) (h : settleHeld state owner t c = .ok t') : ReflTransGen SettleWrite t t' := by
  unfold settleHeld at h
  split at h
  · cases h
  split at h
  next row _ =>
    cases h
    exact .single (.row _ _ (hack row) (hsent row))
  · cases h

variable {as : List (SyncMutationAcknowledgement H)}

theorem acknowledgeSyncBatch_chain
    (h : acknowledgeSyncBatch s owner as = .ok s') : ReflTransGen SettleWrite s s' := by
  unfold acknowledgeSyncBatch at h
  split at h
  · cases h
  · exact settleAll_chain acknowledgeOne_chain h

theorem deferRetryableSyncBatch_chain (h : deferRetryableSyncBatch s owner cs now = .ok s') :
    ReflTransGen SettleWrite s s' := by
  unfold deferRetryableSyncBatch at h
  split at h
  · cases h
  · exact settleAll_chain (settleHeld_chain (fun _ _ hs => by cases hs)
      (fun _ _ _ _ hs => by cases hs)) h

variable {conflicted : Bool}

theorem rejectSyncBatch_chain
    (h : rejectSyncBatch s owner cs conflicted = .ok s') : ReflTransGen SettleWrite s s' := by
  unfold rejectSyncBatch at h
  split at h
  · cases h
  · refine settleAll_chain (settleHeld_chain (fun _ _ hs => ?_) (fun _ _ _ _ hs => ?_)) h
    · split at hs <;> cases hs
    · split at hs <;> cases hs

theorem acknowledgeSyncBatch_update
    (h : acknowledgeSyncBatch s owner as = .ok s') : DeliveryUpdate s s' :=
  .settles (acknowledgeSyncBatch_chain h)

theorem deferRetryableSyncBatch_update (h : deferRetryableSyncBatch s owner cs now = .ok s') :
    DeliveryUpdate s s' :=
  .settles (deferRetryableSyncBatch_chain h)

theorem rejectSyncBatch_update
    (h : rejectSyncBatch s owner cs conflicted = .ok s') : DeliveryUpdate s s' :=
  .settles (rejectSyncBatch_chain h)

variable {lease : Timestamp} {limit : Nat}

variable (h : claimSyncMutations J P s owner now lease limit = .ok (s', cs))

include h

theorem claimSyncMutations_update : DeliveryUpdate s s' :=
  chain_inv (fun _ _ ht hwrite => ht.trans (.claimWrite hwrite)) (.refl s)
    (claimSyncMutations_chain h)

theorem claimSyncMutations_mem :
    ∀ c ∈ cs, c.mutation ∈ s.outbox.map OutboxRow.mutation := by
  unfold claimSyncMutations at h
  split at h
  · cases h
  intro c hc
  rcases (claimRows_chain h).2 c hc with hc | hc
  · cases hc
  · obtain ⟨row, hrow, hm⟩ := mem_map.mp hc
    have hsorted := mem_sortByKey.mp (mem_of_mem_take hrow)
    exact mem_map.mpr ⟨row, (mem_filter.mp hsorted).1, hm⟩

end

end GoodDealer.Desktop
