/-
# `GoodDealer.Sync.System` — one desktop, the cloud, and the messages between them

The whole synchronisation of one device as a machine.  The state is the two databases
and the messages under way; an event is a transaction on one side.

| event | transaction |
| :-- | :-- |
| `mutate` | `edit_domain_asset`, `delete_domain_asset` |
| `claim` | `claim_sync_mutations` |
| `complete`, `defer` | `complete_native_sync_push`, `defer_push_claims` |
| `push` | `push` |
| `request`, `receive` | `read_sync_pull_request_v2`, `apply_sync_page_v2` |
| `openReader`, `pull` | `open`, `pullV2` |
| `cloud` | any transaction of the cloud that this device did not ask for |

A message stays under way for ever: one that is lost is never taken, and one that is
repeated or late is taken again, or later.  `syncSystem_step` says what one event can do;
every fact about runs goes through it.
-/
import GoodDealer.Sync.Push
import GoodDealer.Desktop.Replica

namespace GoodDealer.Sync

open Cloud Desktop List

variable {H : Type}

/-! ## States and events -/

structure SyncState (H : Type) where
  cloud : Workspace H
  store : Store H
  /-- Claims whose request is under way. -/
  pushes : List (DesktopSyncPushClaim H)
  answers : List (DesktopSyncPushClaim H × PushResponse)
  pulls : List (PullRequest H)
  /-- Accepted pulls, each with the request it answers. -/
  deliveries : List (PullRequest H × PullDelivery H)
deriving DecidableEq

inductive SyncEvent (H : Type) where
  | mutate (request : MutationRequest) (op : LocalOperation)
  | claim (deliveryOwner : String) (now lease : Timestamp) (limit : Nat)
  | push (index : Nat) (ports : IngestPorts)
  | complete (index : Nat) (now : Timestamp)
  | defer (index : Nat) (now : Timestamp)
  | request (pageLimit : Nat)
  | openReader (index : Nat)
  | pull (index : Nat)
  | receive (index : Nat)
  | cloud (event : CloudEvent H)

def SyncEvent.edited : SyncEvent H → Option LocalOperation
  | .mutate _ op => some op
  | _ => none

def SyncEvent.served : SyncEvent H → Option (CloudEvent H)
  | .cloud e => some e
  | _ => none

/-- The mutations an event submits: a claimed batch, or those of another device. -/
def SyncState.submitted (s : SyncState H) : SyncEvent H → Option (List SubmittedSyncMutationWire)
  | .push index _ => s.pushes[index]?.map (·.mutations)
  | .cloud e => e.ingested
  | _ => none

def SyncState.pulled (s : SyncState H) : SyncEvent H → Option (PullRequest H)
  | .pull index => s.pulls[index]?
  | _ => none

def SyncState.received (s : SyncState H) : SyncEvent H → Option (PullDelivery H)
  | .receive index => s.deliveries[index]?.map (·.2)
  | _ => none

/-- The deliveries after the answer to a pull: only an accepted one carries a page. -/
def answered (deliveries : List (PullRequest H × PullDelivery H)) (r : PullRequest H) :
    PersistentReaderPullResult H → List (PullRequest H × PullDelivery H)
  | .accepted d => deliveries ++ [(r, d)]
  | .rejected _ => deliveries

namespace SyncState

/-- A local transaction: what it writes, or the error it fails with. -/
def commit (s : SyncState H) :
    Except BusinessDatabaseError (Store H) → SyncState H × Option BusinessDatabaseError
  | .ok store => ({ s with store := store }, none)
  | .error e => (s, some e)

section

variable [DecidableEq H] (J : SerdeJson H) (P : Platform H) (ttl : LeaseTtl) (deviceId : String)
  (s : SyncState H)

def claim (deliveryOwner : String) (now lease : Timestamp) (limit : Nat) :
    SyncState H × Option BusinessDatabaseError :=
  match claimSyncMutations J P s.store deliveryOwner now lease limit with
  | .error e => (s, some e)
  | .ok (store, []) => ({ s with store := store }, none)
  | .ok (store, claimed) =>
    ({ s with store := store, pushes := s.pushes ++ [⟨claimed, deliveryOwner⟩] }, none)

def push (index : Nat) (ports : IngestPorts) : SyncState H :=
  match s.pushes[index]? with
  | none => s
  | some claim =>
    match Sync.push P ports ⟨true, some deviceId⟩ s.cloud claim.mutations with
    | none => s
    | some (cloud, outcome) =>
      { s with cloud := cloud, answers := s.answers ++ [(claim, outcome.response)] }

def complete (index : Nat) (now : Timestamp) : SyncState H :=
  match s.answers[index]? with
  | none => s
  | some (claim, response) =>
    match completeNativeSyncPush s.store claim response with
    | .error _ => s
    | .ok (store, .isolationRequired) =>
      let halves := splitNativeSyncPush claim
      { s with store := store, pushes := s.pushes ++ [halves.1, halves.2] }
    | .ok (store, .retryable) => { s with store := deferPushClaims store now [claim] }
    | .ok (store, _) => { s with store := store }

def defer (index : Nat) (now : Timestamp) : SyncState H :=
  match s.pushes[index]? with
  | none => s
  | some claim => { s with store := deferPushClaims s.store now [claim] }

def request (pageLimit : Nat) : SyncState H × Option BusinessDatabaseError :=
  match readSyncPullRequest s.store deviceId pageLimit with
  | .error e => (s, some e)
  | .ok r => ({ s with pulls := s.pulls ++ [r] }, none)

/-- A request without tokens opens a reader the cloud does not know. -/
def openReader (index : Nat) : SyncState H :=
  match s.pulls[index]? with
  | none => s
  | some r =>
    if r.cursor.isSome || r.confirm.isSome then s
    else { s with
      cloud := (service P ttl).next s.cloud (.openReader deviceId r.afterServerRevision) }

def pull (index : Nat) : SyncState H :=
  match s.pulls[index]? with
  | none => s
  | some r =>
    match pullV2 P ttl s.cloud deviceId r with
    | none => s
    | some (cloud, result) =>
      { s with cloud := cloud, deliveries := answered s.deliveries r result }

/-- A page is applied if it answers the request the device would send now. -/
def receive (index : Nat) : SyncState H × Option BusinessDatabaseError :=
  match s.deliveries[index]? with
  | none => (s, none)
  | some (r, d) =>
    if readSyncPullRequest s.store deviceId r.pageLimit = .ok r then
      s.commit ((applySyncPage J P s.store deviceId d.page d.confirmToken).map (·.1))
    else (s, none)

end

end SyncState

/-- The machine; the output is the error of a local transaction. -/
def syncSystem [DecidableEq H] (J : SerdeJson H) (P : Platform H) (ttl : LeaseTtl)
    (deviceId : String) :
    Machine (SyncState H) (SyncEvent H) (Option BusinessDatabaseError) where
  step s
    | .mutate r op =>
      s.commit ((localMutation s.store { r with deviceId := deviceId } op).map (·.1))
    | .claim owner now lease limit => s.claim J P owner now lease limit
    | .push index ports => (s.push P deviceId index ports, none)
    | .complete index now => (s.complete index now, none)
    | .defer index now => (s.defer index now, none)
    | .request pageLimit => s.request deviceId pageLimit
    | .openReader index => (s.openReader P ttl deviceId index, none)
    | .pull index => (s.pull P ttl deviceId index, none)
    | .receive index => s.receive J P deviceId index
    | .cloud e => ({ s with cloud := (service P ttl).next s.cloud e }, none)

/-! ## What a step does -/

/-- The mutation was sent in a request that may still be under way. -/
def SyncState.Sent (s : SyncState H) (m : SubmittedSyncMutationWire) : Prop :=
  (∃ claim ∈ s.pushes, m ∈ claim.mutations) ∨ ∃ a ∈ s.answers, m ∈ a.1.mutations

variable [DecidableEq H] (P : Platform H) (ttl : LeaseTtl) (deviceId : String) (s : SyncState H) in
inductive SyncStep : SyncEvent H → SyncState H → Prop where
  | idle (e : SyncEvent H) : SyncStep e s
  | mutate {r : MutationRequest} {op : LocalOperation} {store : Store H}
      (h : LocalCommit s.store { r with deviceId := deviceId } op store) :
      SyncStep (.mutate r op) { s with store := store }
  /-- Claims, acknowledgements and deferrals; what is sent was sent before or is in the outbox. -/
  | deliver {e : SyncEvent H} {store : Store H} {pushes : List (DesktopSyncPushClaim H)}
      (h : DeliveryUpdate s.store store)
      (hpushes : ∀ claim ∈ pushes, ∀ m ∈ claim.mutations,
        s.Sent m ∨ m ∈ s.store.outbox.map OutboxRow.mutation) :
      SyncStep e { s with store := store, pushes := pushes }
  | push {index : Nat} {ports : IngestPorts} {claim : DesktopSyncPushClaim H} {cloud : Workspace H}
      {response : PushResponse} (hclaim : s.pushes[index]? = some claim)
      (h : CloudStep P ttl s.cloud (.ingest ports claim.mutations) cloud) :
      SyncStep (.push index ports)
        { s with cloud := cloud, answers := s.answers ++ [(claim, response)] }
  | request {pageLimit : Nat} {r : PullRequest H}
      (h : readSyncPullRequest s.store deviceId pageLimit = .ok r) :
      SyncStep (.request pageLimit) { s with pulls := s.pulls ++ [r] }
  | openReader {index : Nat} {r : PullRequest H} (hr : s.pulls[index]? = some r)
      (hcursor : r.cursor = none) (hconfirm : r.confirm = none) :
      SyncStep (.openReader index)
        { s with
          cloud := (service P ttl).next s.cloud (.openReader deviceId r.afterServerRevision) }
  | pull {index : Nat} {r : PullRequest H} {cloud : Workspace H}
      {result : PersistentReaderPullResult H} (hr : s.pulls[index]? = some r)
      (h : PullStep P ttl s.cloud deviceId r cloud result) :
      SyncStep (.pull index)
        { s with cloud := cloud, deliveries := answered s.deliveries r result }
  | receive {index : Nat} {r : PullRequest H} {d : PullDelivery H} {store : Store H}
      (hd : s.deliveries[index]? = some (r, d))
      (hcurrent : readSyncPullRequest s.store deviceId r.pageLimit = .ok r)
      (hpage : wellFormedPage d.page = true)
      (h : PageApplied s.store deviceId d.page d.confirmToken store) :
      SyncStep (.receive index) { s with store := store }
  | cloud {e : CloudEvent H} {cloud : Workspace H} (h : CloudStep P ttl s.cloud e cloud) :
      SyncStep (.cloud e) { s with cloud := cloud }

section

variable [DecidableEq H] {J : SerdeJson H} {P : Platform H} {ttl : LeaseTtl} {deviceId : String}
  {s s' : SyncState H} {e : SyncEvent H}

theorem SyncStep.mutate_of (r : MutationRequest) (op : LocalOperation) :
    SyncStep P ttl deviceId s (.mutate r op)
      ((syncSystem J P ttl deviceId).next s (.mutate r op)) := by
  show SyncStep P ttl deviceId s _
    (s.commit ((localMutation s.store { r with deviceId := deviceId } op).map (·.1))).1
  cases h : localMutation s.store { r with deviceId := deviceId } op with
  | error e => exact .idle _
  | ok x =>
    rcases localMutation_ok h with heq | hcommit
    · show SyncStep P ttl deviceId s _ { s with store := x.1 }
      rw [heq]
      exact .idle _
    · exact .mutate hcommit

theorem SyncStep.claim_of (owner : String) (now lease : Timestamp) (limit : Nat) :
    SyncStep P ttl deviceId s (.claim owner now lease limit)
      (s.claim J P owner now lease limit).1 := by
  unfold SyncState.claim
  split
  · exact .idle _
  next h => exact .deliver (claimSyncMutations_update h) fun c hc m hm => .inl (.inl ⟨c, hc, hm⟩)
  next claimed _ h =>
  refine .deliver (claimSyncMutations_update h) fun c hc m hm => ?_
  rcases mem_append.mp hc with hc | hc
  · exact .inl (.inl ⟨c, hc, hm⟩)
  · obtain ⟨x, hx, rfl⟩ := mem_map.mp hm
    rw [mem_singleton.mp hc] at hx
    exact .inr (claimSyncMutations_mem h x hx)

theorem SyncStep.complete_of (index : Nat) (now : Timestamp) :
    SyncStep P ttl deviceId s (.complete index now) (s.complete index now) := by
  have hkept : ∀ c ∈ s.pushes, ∀ m ∈ c.mutations,
      s.Sent m ∨ m ∈ s.store.outbox.map OutboxRow.mutation :=
        fun c hc m hm => .inl (.inl ⟨c, hc, hm⟩)
  unfold SyncState.complete
  split
  · exact .idle _
  next claim response hanswer =>
  split
  · exact .idle _
  next store hdone =>
    refine .deliver (completeNativeSyncPush_update hdone) fun c hc m hm => ?_
    rcases mem_append.mp hc with hc | hc
    · exact hkept c hc m hm
    -- a half of the claim holds mutations of the claim
    · refine .inl (.inr ⟨_, mem_of_getElem? hanswer, ?_⟩)
      obtain ⟨x, hx, rfl⟩ := mem_map.mp hm
      refine mem_map_of_mem ?_
      simp only [splitNativeSyncPush, mem_cons, not_mem_nil, or_false] at hc
      rcases hc with rfl | rfl
      · exact mem_of_mem_take hx
      · exact mem_of_mem_drop hx
  next store hdone =>
    exact .deliver ((completeNativeSyncPush_update hdone).trans (deferPushClaims_update ..)) hkept
  next hdone => exact .deliver (completeNativeSyncPush_update hdone) hkept

section

variable (hinv : ReaderInv P s.cloud)

include hinv

/-- Every step of the machine is a `SyncStep`. -/
theorem syncSystem_step (e : SyncEvent H) :
    SyncStep P ttl deviceId s e ((syncSystem J P ttl deviceId).next s e) := by
  cases e with
  | mutate r op => exact .mutate_of r op
  | claim owner now lease limit => exact .claim_of owner now lease limit
  | complete index now => exact .complete_of index now
  | push index ports =>
    show SyncStep P ttl deviceId s _ (s.push P deviceId index ports)
    unfold SyncState.push
    split
    · exact .idle _
    next claim hclaim =>
    split
    · exact .idle _
    next hpush => exact .push hclaim (push_step hpush)
  | defer index now =>
    show SyncStep P ttl deviceId s _ (s.defer index now)
    unfold SyncState.defer
    split
    · exact .idle _
    · exact .deliver (deferPushClaims_update ..) fun c hc m hm => .inl (.inl ⟨c, hc, hm⟩)
  | request pageLimit =>
    show SyncStep P ttl deviceId s _ (s.request deviceId pageLimit).1
    unfold SyncState.request
    split
    · exact .idle _
    next h => exact .request h
  | openReader index =>
    show SyncStep P ttl deviceId s _ (s.openReader P ttl deviceId index)
    unfold SyncState.openReader
    split
    · exact .idle _
    next r hr =>
    split
    · exact .idle _
    next htokens =>
      simp only [Bool.or_eq_true, not_or, Option.not_isSome_iff_eq_none] at htokens
      exact .openReader hr htokens.1 htokens.2
  | pull index =>
    show SyncStep P ttl deviceId s _ (s.pull P ttl deviceId index)
    unfold SyncState.pull
    split
    · exact .idle _
    next r hr =>
    split
    · exact .idle _
    next cloud result hpull =>
    rcases pullV2_spec ttl r (fun c hc ha => hinv.rows deviceId c hc ha) with
      ⟨hnone, _⟩ | ⟨w', res, hsome, hstep⟩
    · cases hnone.symm.trans hpull
    · cases hsome.symm.trans hpull
      exact .pull hr hstep
  | receive index =>
    show SyncStep P ttl deviceId s _ (s.receive J P deviceId index).1
    unfold SyncState.receive
    split
    · exact .idle _
    next r d hd =>
    split
    next hcurrent =>
      cases happly : applySyncPage J P s.store deviceId d.page d.confirmToken with
      | error e => exact .idle _
      | ok x =>
        obtain ⟨hpage, heq | h⟩ := applySyncPage_ok happly
        · show SyncStep P ttl deviceId s _ { s with store := x.1 }
          rw [heq]
          exact .idle _
        · exact .receive hd hcurrent hpage h
    · exact .idle _
  | cloud e => exact .cloud (service_step hinv e)

/-! ## What every run keeps -/

/-- The database of the cloud takes one of its own steps. -/
theorem SyncStep.cloudStep
    (h : SyncStep P ttl deviceId s e s') : ∃ e', CloudStep P ttl s.cloud e' s'.cloud := by
  cases h with
  | push _ h => exact ⟨_, h⟩
  | pull _ h => exact ⟨_, .pull h⟩
  | cloud h => exact ⟨_, h⟩
  | openReader => exact ⟨_, service_step hinv _⟩
  | idle | mutate | deliver | request | receive => exact ⟨.tick 0, .idle _⟩

end

/-- What is under way came from the outbox. -/
def SyncState.InFlight (s : SyncState H) : Prop :=
  ∀ m, s.Sent m → m ∈ s.store.outbox.map OutboxRow.mutation

theorem inFlight_step (hsent : s.InFlight) (h : SyncStep P ttl deviceId s e s') : s'.InFlight := by
  intro m hm
  cases h with
  | mutate h =>
    rw [h.outbox, map_append]
    exact mem_append_left _ (hsent m hm)
  | deliver h hpushes =>
    rw [h.mutations]
    rcases hm with ⟨c, hc, hmc⟩ | hm
    · rcases hpushes c hc m hmc with hm | hm
      · exact hsent m hm
      · exact hm
    · exact hsent m (.inr hm)
  | push hclaim _ =>
    rcases hm with hm | ⟨a, ha, hma⟩
    · exact hsent m (.inl hm)
    rcases mem_append.mp ha with ha | ha
    · exact hsent m (.inr ⟨a, ha, hma⟩)
    · rw [mem_singleton.mp ha] at hma
      exact hsent m (.inl ⟨_, mem_of_getElem? hclaim, hma⟩)
  | receive _ _ _ h =>
    rw [show _ = s.store.outbox from h.entries.outbox]
    exact hsent m hm
  | idle | request | openReader | pull | cloud => exact hsent m hm

end

/-! ## A sample run -/

/-- The sample workspace, and a desktop that has bootstrapped it. -/
def sampleSync : SyncState Symbolic := ⟨sampleWorkspace, sampleStore, [], [], [], []⟩

def sampleSynced (es : List (SyncEvent Symbolic)) : SyncState Symbolic :=
  (syncSystem sampleJson Symbolic.platform sampleTtl "device").run sampleSync es

/-- One edit of the sample asset, up to its acknowledgement. -/
def samplePushed : List (SyncEvent Symbolic) :=
  [.mutate (sampleRequest "edit" 1) (sampleEdit "mine"), .claim "owner" 2 100 256,
    .push 0 samplePorts, .complete 0 3]

/-- The pull that brings it back. -/
def samplePulled : List (SyncEvent Symbolic) :=
  [.request 256, .openReader 0, .pull 0, .receive 0]

end GoodDealer.Sync
