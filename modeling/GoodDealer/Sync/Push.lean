/-
# `GoodDealer.Sync.Push` — one push, from the outbox to the log and back

A push follows four tables: the rejection codes of ingest, the map of those codes
to the codes of the wire (`mapPushCode`, by substring), the map of wire codes to
dispositions on the desktop (`completeNativeSyncPush`), and the cycle that acts on a
disposition (`runPush`): completed and closed batches are dropped, a batch to isolate
is split, a retryable one goes back to the outbox unchanged.

| ingest | wire | disposition |
| :-- | :-- | :-- |
| `…_ID_CONFLICT`, `…_SEQUENCE_CONFLICT` | `SYNC_IDEMPOTENCY_CONFLICT` | isolate, then close |
| `…_ENTITY_UNKNOWN`, `…_BASE_REVISION_AHEAD`, `…_FIELD_STALE` | `SYNC_STORAGE_REJECTED` | retry |

`refusalSettled_iff` reads the second line off the code.
-/
import GoodDealer.Cloud.Service
import GoodDealer.Desktop.Fencing

namespace GoodDealer.Sync

open Cloud Desktop Symbolic

variable {H : Type}

/-! ## The cloud's answer -/

/-- The codes of a rejected push on the wire. -/
inductive SyncPushCode where
  | schemaUnsupported
  | inputRejected
  | authorizationRejected
  | tenantUnresolved
  | idempotencyConflict
  | storageRejected
deriving DecidableEq

/-- `String.prototype.includes`. -/
def includes (code needle : String) : Bool := decide (needle.toList <:+: code.toList)

/-- `mapPushCode`. -/
def mapPushCode (code : String) : SyncPushCode :=
  if includes code "SCHEMA_VERSION" then .schemaUnsupported
  else if includes code "TENANT" then .tenantUnresolved
  else if includes code "ID_CONFLICT" || includes code "SEQUENCE_CONFLICT" then .idempotencyConflict
  else if includes code "MALFORMED" || includes code "UNORDERED" then .inputRejected
  else if includes code "DEVICE" || includes code "EPOCH" then .authorizationRejected
  else .storageRejected

/-- `WorkspaceMutationPushResponse`. -/
inductive PushResponse where
  | accepted (acknowledgements : List MutationAssignment) (headServerRevision : Nat)
  | rejected (code : SyncPushCode)
deriving DecidableEq

/-- Who pushes: the client kind of the principal, and the device of its context. -/
structure PushSession where
  desktop : Bool
  deviceId : Option String
deriving DecidableEq

/-- What `push` has decided before it renders a response. -/
inductive PushOutcome where
  | refused (code : SyncPushCode)
  | ingested (result : MutationIngestResult)
deriving DecidableEq

def PushOutcome.response : PushOutcome → PushResponse
  | .refused code => .rejected code
  | .ingested (.accepted assignments headRevision) => .accepted assignments headRevision
  | .ingested (.rejected code _) => .rejected (mapPushCode code.wire)

/-- `PostgresWorkspaceSyncApplication.push`. -/
def push [DecidableEq H] (P : Platform H) (ports : IngestPorts) (session : PushSession)
    (w : Workspace H) (value : List SubmittedSyncMutationWire) :
    Option (Workspace H × PushOutcome) :=
  if !session.desktop then some (w, .refused .authorizationRejected)
  else
    match parseRequest value, session.deviceId with
    | none, _ => some (w, .refused .inputRejected)
    | some _, none => some (w, .refused .authorizationRejected)
    | some ms, some deviceId =>
      if ms.any (fun m => m.sourceDeviceId != deviceId) then
        some (w, .refused .authorizationRejected)
      else (ingest P ports w value).map (fun r => (r.1, .ingested r.2))

/-! ## The desktop's disposition -/

/-- `DesktopSyncPushClaim`. -/
structure DesktopSyncPushClaim (H : Type) where
  claimed : List (ClaimedSyncMutation H)
  deliveryOwner : String
deriving DecidableEq

/-- The mutations of the request body. -/
def DesktopSyncPushClaim.mutations (c : DesktopSyncPushClaim H) : List SubmittedSyncMutationWire :=
  c.claimed.map (·.mutation)

inductive DesktopSyncPushDisposition where
  | completed
  | retryable
  | isolationRequired
  | deterministicRejected
  | authorizationBlocked
deriving DecidableEq

inductive CompletionError where
  | cloudProtocolRejected
  | database (error : BusinessDatabaseError)
deriving DecidableEq

/-- The acknowledgements answer the claim in order, with ascending revisions. -/
def acknowledgementsMatch (headServerRevision : Nat) :
    Nat → List MutationAssignment → List (ClaimedSyncMutation H) → Bool
  | prior, a :: as, c :: cs =>
    a.mutationId = c.mutation.mutationId &&
      a.deviceMutationSequence = c.mutation.deviceMutationSequence && a.serverRevision != 0 &&
      a.serverRevision ≤ headServerRevision && prior < a.serverRevision &&
      acknowledgementsMatch headServerRevision a.serverRevision as cs
  | _, [], [] => true
  | _, _, _ => false

/-- `validate_push_response`. -/
def validatePushResponse (acknowledgements : List MutationAssignment) (headServerRevision : Nat)
    (claimed : List (ClaimedSyncMutation H)) : Bool :=
  acknowledgements.length ≤ 256 && headServerRevision ≤ maxSafeInteger &&
    acknowledgementsMatch headServerRevision 0 acknowledgements claimed

/-- Close a claim of one mutation, isolate it in a larger one. -/
def closeOrIsolate [DecidableEq H] (s : Store H) (claim : DesktopSyncPushClaim H)
    (conflicted : Bool) : Except CompletionError (Store H × DesktopSyncPushDisposition) :=
  if 1 < claim.claimed.length then .ok (s, .isolationRequired)
  else
    match rejectSyncBatch s claim.deliveryOwner claim.claimed conflicted with
    | .error e => .error (.database e)
    | .ok s' => .ok (s', .deterministicRejected)

/-- `complete_native_sync_push`. -/
def completeNativeSyncPush [DecidableEq H] (s : Store H) (claim : DesktopSyncPushClaim H)
    (response : PushResponse) : Except CompletionError (Store H × DesktopSyncPushDisposition) :=
  match response with
  | .accepted acknowledgements headServerRevision =>
    if !validatePushResponse acknowledgements headServerRevision claim.claimed then
      .error .cloudProtocolRejected
    else
      match acknowledgeSyncBatch s claim.deliveryOwner
          (List.zipWith (fun a c => ⟨c, a.serverRevision⟩) acknowledgements claim.claimed) with
      | .error e => .error (.database e)
      | .ok s' => .ok (s', .completed)
  | .rejected .storageRejected => .ok (s, .retryable)
  | .rejected .inputRejected => closeOrIsolate s claim false
  | .rejected .schemaUnsupported => closeOrIsolate s claim false
  | .rejected .idempotencyConflict => closeOrIsolate s claim true
  | .rejected .authorizationRejected => .ok (s, .authorizationBlocked)
  | .rejected .tenantUnresolved => .ok (s, .authorizationBlocked)

/-! ## The push cycle -/

/-- `split_native_sync_push`. -/
def splitNativeSyncPush (claim : DesktopSyncPushClaim H) :
    DesktopSyncPushClaim H × DesktopSyncPushClaim H :=
  let split := claim.claimed.length / 2
  (⟨claim.claimed.take split, claim.deliveryOwner⟩, ⟨claim.claimed.drop split, claim.deliveryOwner⟩)

/-- `defer_push_claims`: all of them, or none when a claim no longer holds its rows.
The top of the stack comes first. -/
def deferPushClaims [DecidableEq H] (s : Store H) (now : Timestamp)
    (unresolved : List (DesktopSyncPushClaim H)) : Store H :=
  match unresolved with
  | [] => s
  | top :: _ =>
    match deferRetryableSyncBatch s top.deliveryOwner
        (unresolved.reverse.flatMap (·.claimed)) now with
    | .ok s' => s'
    | .error _ => s

/-- How a request that got no answer is kept: its claim is deferred, or its lease retained. -/
inductive DurableWakeDisposition where
  | defer
  | retainLease
deriving DecidableEq

/-- What a push cycle meets: the session and ports of the cloud, the time, and for
each request whether the cancellation fence is closed before it, or while it is under way, and
whether its answer is lost. -/
structure PushEnvironment where
  ports : IngestPorts
  session : PushSession
  now : Timestamp
  cancelled : Nat → Bool
  overtaken : Nat → Bool
  lost : Nat → Option DurableWakeDisposition

/-- The two databases of a push. -/
structure PushWorld (H : Type) where
  cloud : Workspace H
  store : Store H
deriving DecidableEq

/-- One answered request of `run_push`; the second part is the stack the cycle goes
on with, or `none` when it ends.  A thrown transaction is a server error, which is
retried. -/
def pushExchange [DecidableEq H] (P : Platform H) (env : PushEnvironment) (s : PushWorld H)
    (claim : DesktopSyncPushClaim H) (unresolved : List (DesktopSyncPushClaim H)) :
    PushWorld H × Option (List (DesktopSyncPushClaim H)) :=
  match push P env.ports env.session s.cloud claim.mutations with
  | none => (⟨s.cloud, deferPushClaims s.store env.now (claim :: unresolved)⟩, none)
  | some (cloud, outcome) =>
    match completeNativeSyncPush s.store claim outcome.response with
    | .error _ => (⟨cloud, s.store⟩, none)
    | .ok (store, .completed) => (⟨cloud, store⟩, some unresolved)
    | .ok (store, .deterministicRejected) => (⟨cloud, store⟩, some unresolved)
    | .ok (store, .isolationRequired) =>
      let halves := splitNativeSyncPush claim
      (⟨cloud, store⟩, some (halves.1 :: halves.2 :: unresolved))
    | .ok (store, .retryable) =>
      (⟨cloud, deferPushClaims store env.now (claim :: unresolved)⟩, none)
    | .ok (store, .authorizationBlocked) => (⟨cloud, store⟩, none)

/-- The loop of `run_push`, with the number of requests it may still make.  Completions and
deferrals go through the cancellation fence, which lets nothing pass once it is closed.  The
database of the cloud may or may not have seen a lost request; `handled` says. -/
def runPush [DecidableEq H] (P : Platform H) (env : PushEnvironment) (handled : Nat → Bool) :
    Nat → PushWorld H → List (DesktopSyncPushClaim H) → PushWorld H
  | _, s, [] => s
  | 0, s, unresolved =>
    if env.cancelled 0 then s
    else { s with store := deferPushClaims s.store env.now unresolved }
  | n + 1, s, claim :: unresolved =>
    if env.cancelled (n + 1) then s
    else
      let cloud := ((push P env.ports env.session s.cloud claim.mutations).map (·.1)).getD s.cloud
      match env.lost n with
      | some wake =>
        let cloud := if handled n then cloud else s.cloud
        if wake = .defer ∧ env.overtaken n = false then
          ⟨cloud, deferPushClaims s.store env.now (claim :: unresolved)⟩
        else ⟨cloud, s.store⟩
      | none =>
        if env.overtaken n then ⟨cloud, s.store⟩
        else
          match pushExchange P env s claim unresolved with
          | (s', none) => s'
          | (s', some unresolved') => runPush P env handled n s' unresolved'

/-! ### What a push leaves alone -/

section

variable [DecidableEq H] {s s' : Store H} {claim : DesktopSyncPushClaim H}
  {d : DesktopSyncPushDisposition} {response : PushResponse}

/-- The database of the cloud sees a push as an ingest, if it sees it. -/
theorem push_step {P : Platform H} {ttl : LeaseTtl} {ports : IngestPorts} {session : PushSession}
    {w w' : Workspace H} {value : List SubmittedSyncMutationWire} {outcome : PushOutcome}
    (h : push P ports session w value = some (w', outcome)) :
    CloudStep P ttl w (.ingest ports value) w' := by
  unfold push at h
  split at h
  · cases h; exact .idle _
  split at h
  · cases h; exact .idle _
  · cases h; exact .idle _
  split at h
  · cases h; exact .idle _
  · obtain ⟨⟨_, _⟩, hr, heq⟩ := Option.map_eq_some_iff.mp h
    cases heq
    rcases ingest_cases hr with ⟨rfl, _⟩ | ⟨rs, hrs, _, _, rfl | hc⟩
    · exact .idle _
    · exact .idle _
    · exact .ingest hrs.parsed (freshMutations_sublist rs) hc

theorem closeOrIsolate_cases {conflicted : Bool}
    (h : closeOrIsolate s claim conflicted = .ok (s', d)) :
    (d = .isolationRequired ∧ s' = s) ∨
      d = .deterministicRejected ∧
        rejectSyncBatch s claim.deliveryOwner claim.claimed conflicted = .ok s' := by
  unfold closeOrIsolate at h
  split at h
  · cases h
    exact .inl ⟨rfl, rfl⟩
  split at h
  · cases h
  next hreject =>
    cases h
    exact .inr ⟨rfl, hreject⟩

section

variable (h : completeNativeSyncPush s claim response = .ok (s', d))

include h

/-- An answer acknowledges the claim, closes it, or leaves the database as it is. -/
theorem completeNativeSyncPush_cases :
    (d = .completed ∧ ∃ as n, acknowledgementsMatch n 0 as claim.claimed = true ∧
      acknowledgeSyncBatch s claim.deliveryOwner
        (List.zipWith (fun a c => ⟨c, a.serverRevision⟩) as claim.claimed) = .ok s') ∨
    (d = .deterministicRejected ∧ ∃ conflicted,
      rejectSyncBatch s claim.deliveryOwner claim.claimed conflicted = .ok s') ∨
    (d = .isolationRequired ∨ d = .retryable ∨ d = .authorizationBlocked) ∧ s' = s := by
  have hclose : ∀ {conflicted}, closeOrIsolate s claim conflicted = .ok (s', d) →
      (d = .deterministicRejected ∧ ∃ conflicted,
        rejectSyncBatch s claim.deliveryOwner claim.claimed conflicted = .ok s') ∨
      (d = .isolationRequired ∨ d = .retryable ∨ d = .authorizationBlocked) ∧ s' = s := by
    intro conflicted h
    rcases closeOrIsolate_cases h with ⟨hd, hs⟩ | ⟨hd, hreject⟩
    · exact .inr ⟨.inl hd, hs⟩
    · exact .inl ⟨hd, _, hreject⟩
  unfold completeNativeSyncPush at h
  split at h
  · split at h
    · cases h
    next hvalid =>
    split at h
    · cases h
    next hack =>
      cases h
      rw [Bool.not_eq_true', Bool.not_eq_false, validatePushResponse, Bool.and_eq_true] at hvalid
      exact .inl ⟨rfl, _, _, hvalid.2, hack⟩
  · cases h; exact .inr (.inr ⟨.inr (.inl rfl), rfl⟩)
  · exact .inr (hclose h)
  · exact .inr (hclose h)
  · exact .inr (hclose h)
  · cases h; exact .inr (.inr ⟨.inr (.inr rfl), rfl⟩)
  · cases h; exact .inr (.inr ⟨.inr (.inr rfl), rfl⟩)

theorem completeNativeSyncPush_update : DeliveryUpdate s s' := by
  rcases completeNativeSyncPush_cases h with ⟨_, _, _, _, hack⟩ | ⟨_, _, hreject⟩ | ⟨_, rfl⟩
  · exact acknowledgeSyncBatch_update hack
  · exact rejectSyncBatch_update hreject
  · exact .refl _

end

theorem deferPushClaims_update (s : Store H) (now : Timestamp)
    (unresolved : List (DesktopSyncPushClaim H)) :
    DeliveryUpdate s (deferPushClaims s now unresolved) := by
  unfold deferPushClaims
  split
  · exact .refl s
  split
  next hdefer => exact deferRetryableSyncBatch_update hdefer
  · exact .refl s

end

/-! ## Which refusals are retried -/

/-- The rejections that depend on the submitted mutations and the log only. -/
def fromLog : MutationIngestRejectionCode → Bool
  | .fieldStale | .entityUnknown | .baseRevisionAhead | .sequenceConflict | .idConflict => true
  | .tenantUnresolved | .malformed | .workspaceMismatch | .schemaVersionUnsupported
  | .deviceNotActive | .epochStale | .drainSealed | .batchUnordered => false

/-- A refusal that the log decides is not retried, and puts no row of the claim back
among the pending ones. -/
def RefusalSettled [DecidableEq H] (P : Platform H) (env : PushEnvironment) (s : PushWorld H)
    (claim : DesktopSyncPushClaim H) (unresolved : List (DesktopSyncPushClaim H)) : Prop :=
  ∀ cloud code failures,
    push P env.ports env.session s.cloud claim.mutations =
      some (cloud, .ingested (.rejected code failures)) → fromLog code = true →
    (∀ store d, completeNativeSyncPush s.store claim
      (PushOutcome.ingested (.rejected code failures)).response = .ok (store, d) →
        d ≠ .retryable) ∧
    ∀ c ∈ claim.claimed, ∀ row,
      (pushExchange P env s claim unresolved).1.store.outboxRow c.mutation.mutationId = some row →
        ∀ t, row.state ≠ .pending t

/-- The batch gets past every check before the log: session, schemas, lease, receipts. -/
structure ReachesLog [DecidableEq H] (P : Platform H) (env : PushEnvironment) (w : Workspace H)
    (value : List SubmittedSyncMutationWire) (ms : List SubmittedSyncMutation) : Prop where
  desktop : env.session.desktop = true
  parsed : parseRequest value = some ms
  device : ∃ d, env.session.deviceId = some d ∧ ∀ m ∈ ms, m.sourceDeviceId = d
  lease : ∀ m ∈ ms, env.ports.lockAndValidateActiveLease m.sourceDeviceId m.activeLeaseEpoch = true
  schema : ∀ m ∈ ms, m.workspaceSchemaVersion = w.log.workspaceSchemaVersion
  receipts : ∀ m ∈ ms, ¬ ReceiptConflict P w.ledger m

/-- The mutations of a batch that the ledger has no receipt of. -/
def unreceipted [DecidableEq H] (P : Platform H) (w : Workspace H)
    (ms : List SubmittedSyncMutation) : List SubmittedSyncMutation :=
  ms.filter (fun m => resolveReceipt P w.ledger m = .missing)

section

variable [DecidableEq H] {P : Platform H} {env : PushEnvironment} {w w' : Workspace H}
  {value : List SubmittedSyncMutationWire} {ms : List SubmittedSyncMutation}

theorem schemaFailures_eq_nil {l : MutationLog} :
    schemaFailures l ms = [] ↔ ∀ m ∈ ms, m.workspaceSchemaVersion = l.workspaceSchemaVersion := by
  simp [schemaFailures, failuresWhere_eq_nil]

/-- A batch that reaches the log is decided by it. -/
theorem push_of_reachesLog (h : ReachesLog P env w value ms) :
    ∃ rs, freshMutations rs = unreceipted P w ms ∧
      push P env.ports env.session w value =
        (ingestResolved P env.ports w rs).map (fun r => (r.1, .ingested r.2)) := by
  obtain ⟨d, hd, hsource⟩ := h.device
  rcases resolveReceipts_cases (P := P) 0 ms with ⟨_, rs, hrs⟩ | ⟨⟨m, hm, hc⟩, _⟩
  · refine ⟨rs, freshMutations_eq_filter hrs, ?_⟩
    have hany : ms.any (fun m => m.sourceDeviceId != d) = false := by
      simpa using hsource
    have hlease : ms.all (fun m =>
        env.ports.lockAndValidateActiveLease m.sourceDeviceId m.activeLeaseEpoch) = true := by
      simpa using h.lease
    simp only [push, h.desktop, h.parsed, hd, hany, ingest,
      orderFailures_eq_nil 0 (parseRequest_valid h.parsed).contiguous, ingestTransaction, hlease,
      schemaFailures_eq_nil.mpr h.schema, hrs, Bool.not_true, Bool.false_eq_true, if_false,
      ne_eq, not_true]
  · exact absurd hc (h.receipts m hm)

variable {code : MutationIngestRejectionCode}

/-- A refusal that the log decides of a batch that does not reach it is a receipt conflict. -/
theorem push_conflict {failures : List MutationIngestFailure}
    (hreach : ∀ ms, ¬ ReachesLog P env w value ms)
    (h : push P env.ports env.session w value = some (w', .ingested (.rejected code failures)))
    (hcode : fromLog code = true) : code = .idConflict ∨ code = .sequenceConflict := by
  unfold push at h
  split at h
  · cases h
  next hdesktop =>
  split at h
  · cases h
  · cases h
  next ms d hparsed hd =>
  split at h
  · cases h
  next hsource =>
  obtain ⟨⟨_, _⟩, hr, heq⟩ := Option.map_eq_some_iff.mp h
  cases heq
  simp only [ingest, hparsed,
    orderFailures_eq_nil 0 (parseRequest_valid hparsed).contiguous, ingestTransaction, ne_eq,
    not_true, if_false] at hr
  split at hr
  · cases hr
    cases hcode
  next hlease =>
  split at hr
  · cases hr
    cases hcode
  next hschema =>
  rcases resolveReceipts_cases (P := P) 0 ms with ⟨hclear, _⟩ | ⟨_, code', fs, herr, hcode'⟩
  · refine absurd ?_ (hreach ms)
    exact
      { desktop := by simpa using hdesktop
        parsed := hparsed
        device := ⟨d, hd, by simpa using hsource⟩
        lease := by simpa using hlease
        schema := schemaFailures_eq_nil.mp (Decidable.not_not.mp hschema)
        receipts := hclear }
  · rw [herr] at hr
    cases hr
    exact hcode'

/-- The claim holds the rows of its mutations, as it does when it is taken. -/
def Holds (s : Store H) (claim : DesktopSyncPushClaim H) : Prop :=
  ∀ c ∈ claim.claimed, (s.heldRow claim.deliveryOwner c).isSome = true

instance (s : Store H) (claim : DesktopSyncPushClaim H) : Decidable (Holds s claim) :=
  inferInstanceAs (Decidable (∀ _ ∈ _, _))

variable {s : PushWorld H} {claim : DesktopSyncPushClaim H}
  {unresolved : List (DesktopSyncPushClaim H)}

/-- The row of a held mutation is being sent. -/
theorem Holds.not_pending {t : Store H} (h : Holds t claim) {c : ClaimedSyncMutation H}
    (hc : c ∈ claim.claimed) {row : OutboxRow H}
    (hrow : t.outboxRow c.mutation.mutationId = some row) (n : Option Timestamp) :
    row.state ≠ .pending n := by
  intro hstate
  have hheld := h c hc
  simp [Store.heldRow, hrow, OutboxRow.held, hstate] at hheld

/-- Closing a claim, or keeping it to be isolated, puts no row of it back. -/
theorem closeOrIsolate_not_pending {t t' : Store H} {d : DesktopSyncPushDisposition}
    (h : Holds t claim) (hclose : closeOrIsolate t claim true = .ok (t', d)) :
    d ≠ .retryable ∧ ∀ c ∈ claim.claimed, ∀ row, t'.outboxRow c.mutation.mutationId = some row →
      ∀ n, row.state ≠ .pending n := by
  rcases closeOrIsolate_cases hclose with ⟨rfl, rfl⟩ | ⟨rfl, hreject⟩
  · exact ⟨by decide, fun c hc row hrow => h.not_pending hc hrow⟩
  · refine ⟨by decide, fun c hc row hrow n => ?_⟩
    obtain ⟨held, _, hclosed⟩ := (rejectSyncBatch_ok hreject).1 c hc
    cases hclosed.symm.trans hrow
    simp [rejectedState]

/-- A refusal that the log decides is settled exactly when the batch, if it gets as far as
the log, fits it. -/
theorem refusalSettled_iff (hheld : Holds s.store claim) :
    RefusalSettled P env s claim unresolved ↔
      ∀ ms, ReachesLog P env s.cloud claim.mutations ms →
        FreshCurrent s.cloud (unreceipted P s.cloud ms) := by
  constructor
  · intro hsettled ms hreach
    obtain ⟨rs, hfresh, hpush⟩ := push_of_reachesLog hreach
    rcases ingestResolved_cases (P := P) rs with ⟨_, code, fs, hrej, hcode⟩ | ⟨hcurrent, _⟩
    · replace hcode := hcode.imp_right (Or.imp_right And.left)
      rw [hrej] at hpush
      have hlog : fromLog code = true := by
        rcases hcode with rfl | rfl | rfl <;> rfl
      refine absurd rfl ((hsettled _ _ _ hpush hlog).1 s.store .retryable ?_)
      rcases hcode with rfl | rfl | rfl <;> rfl
    · rwa [hfresh] at hcurrent
  · intro hcurrent cloud code fs hpush hlog
    have hconflict : code = .idConflict ∨ code = .sequenceConflict := by
      by_cases hreach : ∃ ms, ReachesLog P env s.cloud claim.mutations ms
      · obtain ⟨ms, hreach⟩ := hreach
        obtain ⟨rs, hfresh, heq⟩ := push_of_reachesLog hreach
        rcases ingestResolved_cases (P := P) rs with ⟨hnot, _⟩ | ⟨_, haccept⟩
        · exact absurd (hcurrent ms hreach) (hfresh ▸ hnot)
        · rw [heq] at hpush
          obtain ⟨⟨_, _⟩, hr, hx⟩ := Option.map_eq_some_iff.mp hpush
          cases hx
          cases (haccept _ _ hr).1
      · exact push_conflict (not_exists.mp hreach) hpush hlog
    have hresponse : (PushOutcome.ingested (.rejected code fs)).response =
        .rejected .idempotencyConflict := by
      rcases hconflict with rfl | rfl <;> rfl
    refine ⟨fun store d hdone => ?_, ?_⟩
    · rw [hresponse] at hdone
      exact (closeOrIsolate_not_pending hheld hdone).1
    · intro c hc row hrow
      unfold pushExchange at hrow
      simp only [hpush, hresponse, completeNativeSyncPush] at hrow
      cases hclose : closeOrIsolate s.store claim true with
      | error e =>
        rw [hclose] at hrow
        exact hheld.not_pending hc hrow
      | ok r =>
        obtain ⟨store, d⟩ := r
        obtain ⟨hd, hrows⟩ := closeOrIsolate_not_pending hheld hclose
        rw [hclose] at hrow
        cases d with
        | retryable => exact absurd rfl hd
        | completed | isolationRequired | deterministicRejected | authorizationBlocked =>
          exact hrows c hc row hrow

end

/-! ## A refused push that is sent again -/

/-- A desktop that has bootstrapped the sample workspace at revision 0. -/
def sampleStore : Store Symbolic where
  workspaceId := "workspace"
  appliedThroughServerRevision := 0
  localCommitSequence := 1
  nextDeviceMutationSequence := 1
  portfolios := []
  domainAssets := [⟨"a.example", .active, none, 1⟩]
  desiredState := [⟨"a.example", none, none, none, 1⟩]
  portfolioDomainAssets := [⟨sampleRow, ⟨0, 0, 0, 0⟩⟩]
  fieldVersions := []
  tombstones := []
  outbox := []
  inbox := []
  conflicts := []
  openCount := 0
  openBytes := 0
  readers := []

/-- Texts small enough for every limit. -/
def sampleJson : SerdeJson Symbolic := ⟨fun _ => 2, fun _ => 2, fun _ => 2⟩

def sampleRequest (mutationId : String) (expectedAssetVersion : Nat) : MutationRequest :=
  ⟨mutationId, expectedAssetVersion, "device", 1, 1, true⟩

/-- The sample asset with a note. -/
def sampleEdit (note : String) : LocalOperation := .edit { sampleRow with note := some note }

/-- The desktop after one edit. -/
def sampleEdited : Store Symbolic :=
  ((localMutation sampleStore (sampleRequest "edit" 1) (sampleEdit "mine")).toOption.map
    (·.1)).getD sampleStore

/-- The desktop after the edit is claimed, and the claim. -/
def sampleClaimed : Store Symbolic × DesktopSyncPushClaim Symbolic :=
  match claimSyncMutations sampleJson platform sampleEdited "owner" 2 100 256 with
  | .ok (store, claimed) => (store, ⟨claimed, "owner"⟩)
  | .error _ => (sampleEdited, ⟨[], "owner"⟩)

/-- The same note, written by another device in the meantime. -/
def sampleOther : CloudEvent Symbolic :=
  .ingest samplePorts [{ sampleNote "other" 1 with sourceDeviceId := "other-device" }]

def sampleEnvironment : PushEnvironment :=
  ⟨samplePorts, ⟨true, some "device"⟩, 3, fun _ => false, fun _ => false, fun _ => none⟩

/-- The claimed edit meets a log that still has its base. -/
theorem refusalSettled_iff_sample :
    Holds sampleClaimed.1 sampleClaimed.2 ∧
    RefusalSettled platform sampleEnvironment ⟨sampleWorkspace, sampleClaimed.1⟩
      sampleClaimed.2 [] := by
  have hheld : Holds sampleClaimed.1 sampleClaimed.2 := by decide
  refine ⟨hheld, (refusalSettled_iff hheld).mpr fun ms hreach => ?_⟩
  have hcurrent : ∀ ms ∈ parseRequest sampleClaimed.2.mutations,
      FreshCurrent sampleWorkspace (unreceipted platform sampleWorkspace ms) := by
    decide
  exact hcurrent ms hreach.parsed

/-- The other device came first: the edit is stale for good, and is sent again. -/
theorem not_refusalSettled_stale :
    ¬ RefusalSettled platform sampleEnvironment
      ⟨sampleServed [sampleOther], sampleClaimed.1⟩ sampleClaimed.2 [] := by
  intro h
  have hpush : push platform samplePorts ⟨true, some "device"⟩
      (sampleServed [sampleOther]) sampleClaimed.2.mutations =
        some (sampleServed [sampleOther],
          .ingested (.rejected .fieldStale [⟨0, "edit", some .note, some 1, some 1⟩])) := by
    decide
  exact (h _ _ _ hpush rfl).1 sampleClaimed.1 .retryable (by decide) rfl

end GoodDealer.Sync
