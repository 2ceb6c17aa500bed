/-
# `GoodDealer.Cloud.Service` — the cloud services as one machine

All operations on one workspace, in any order, with time passing between them.
Transactions are serial, so a run of the services is a run of `service`.

* `CloudStep` says what one event can do to the workspace, and `service_step`
  that every step of the machine is one of them.
* `ReaderInv` relates cursor rows, delivery rows and log; it holds in every
  reachable state (`readerInv_run`), with no assumption on the events.
-/
import GoodDealer.Protocol.Symbolic
import GoodDealer.Cloud.Ingest
import GoodDealer.Cloud.Reader
import GoodDealer.Lib.Machine

namespace GoodDealer.Cloud

open List Keyed

variable {H : Type} {w w' : Workspace H} {P : Platform H} {ttl : LeaseTtl} {c c' : ReaderCursor H}
  {deviceId : String}

inductive CloudEvent (H : Type) where
  | ingest (ports : IngestPorts) (value : List SubmittedSyncMutationWire)
  | build (checkpointId : String) (throughServerRevision : Nat)
  | verify (checkpointId : String)
  | publish (checkpointId : String)
  | supersede (checkpointId : String)
  | pin (binding : CheckpointPinBinding H)
  | releasePin (kind : ConsumerKind) (consumerId : String)
  | compact (requestedThrough : Nat) (deviceMinimum : Option Nat) (recovery : RecoveryPort)
  | openReader (deviceId : String) (atRevision : Nat)
  | reopen (deviceId : String) (baselineServerRevision generation rowVersion : Nat)
  | renew (deviceId : String) (generation rowVersion : Nat) (continuationToken : Option H)
  | removeDevice (deviceId : String)
  | pull (deviceId : String) (request : PullRequest H)
  | tick (microseconds : Nat)

def CloudEvent.isCompact : CloudEvent H → Bool
  | .compact .. => true
  | _ => false

def CloudEvent.ingested : CloudEvent H → Option (List SubmittedSyncMutationWire)
  | .ingest _ value => some value
  | _ => none

def CloudEvent.reopened : CloudEvent H → Option String
  | .reopen deviceId .. => some deviceId
  | _ => none

/-- The revision at which the event opens the reader of a device. -/
def CloudEvent.opening (deviceId : String) : CloudEvent H → Option Nat
  | .openReader d atRevision => if d = deviceId then some atRevision else none
  | _ => none

/-- The binding of a pin that is accepted. -/
def acceptedPin [DecidableEq H] (w : Workspace H) :
    CloudEvent H → Option (CheckpointPinBinding H)
  | .pin b => (pin w b).map fun _ => b
  | _ => none

/-- The checkpoint of a supersession that is accepted. -/
def acceptedSupersede (w : Workspace H) : CloudEvent H → Option String
  | .supersede id => if (supersede w id).map Prod.snd = some (.accepted ()) then some id else none
  | _ => none

/-- The device of a cursor that is reopened. -/
def acceptedReopen (ttl : LeaseTtl) (w : Workspace H) : CloudEvent H → Option String
  | .reopen deviceId baseline generation rowVersion =>
    match reopenAfterRebootstrap ttl w deviceId baseline generation rowVersion with
    | some (_, .accepted ..) => some deviceId
    | _ => none
  | _ => none

inductive CloudOutput (H : Type) where
  | ingested (result : MutationIngestResult)
  | checkpoint (result : CheckpointPersistenceResult (PersistentCheckpoint H))
  | superseded (result : CheckpointPersistenceResult Unit)
  | compacted (result : CheckpointPersistenceResult CompactionProjection)
  | cursor (result : PersistentReaderCursorResult H)
  | pulled (result : PersistentReaderPullResult H)
  | done
  | threw
deriving DecidableEq

/-- Commit, or roll back and throw. -/
def transact {α : Type} (w : Workspace H) (output : α → CloudOutput H) :
    Option (Workspace H × α) → Workspace H × CloudOutput H
  | none => (w, .threw)
  | some (w', a) => (w', output a)

def service [DecidableEq H] (P : Platform H) (ttl : LeaseTtl) :
    Machine (Workspace H) (CloudEvent H) (CloudOutput H) where
  step w
    | .ingest ports value => transact w .ingested (ingest P ports w value)
    | .build id through => transact w .checkpoint (build P w id through)
    | .verify id => transact w .checkpoint (verify P w id)
    | .publish id => transact w .checkpoint (publish w id)
    | .supersede id => transact w .superseded (supersede w id)
    | .pin binding => transact w (fun _ => .done) (pin w binding)
    | .releasePin kind consumerId => transact w (fun _ => .done) (releasePin w kind consumerId)
    | .compact requested deviceMinimum recovery =>
      transact w .compacted (compact w requested deviceMinimum recovery)
    | .openReader deviceId atRevision => transact w .cursor (openReader ttl w deviceId atRevision)
    | .reopen deviceId baseline generation rowVersion =>
      transact w .cursor (reopenAfterRebootstrap ttl w deviceId baseline generation rowVersion)
    | .renew deviceId generation rowVersion token =>
      transact w .cursor (renew P ttl w deviceId generation rowVersion token)
    | .removeDevice deviceId => transact w (fun _ => .done) (retireForDeviceRemoval w deviceId)
    | .pull deviceId request => transact w .pulled (pullV2 P ttl w deviceId request)
    | .tick microseconds => ({ w with now := w.now + microseconds }, .done)

/-- A workspace that was just bound: its assets are seeded, nothing has happened. -/
structure Workspace.Initial (w : Workspace H) : Prop where
  revision : w.log.serverRevision = 0
  rows : ∀ a ∈ w.assets.rows, a.row.valid = true
  revisions : ∀ a ∈ w.assets.rows, ∀ path, a.lastModifiedRevision.get path = 0
  ledger : w.ledger = []
  checkpoints : w.checkpoints = []
  pins : w.pins = []
  readers : w.readers = []
  deliveries : w.deliveries = []

namespace Workspace.Initial

theorem watermark (h : w.Initial) : w.watermark = 0 :=
  Nat.le_zero.mp (h.revision ▸ w.log.head ▸ Nat.le_add_right ..)

end Workspace.Initial

/-- A bound workspace with seeded assets. -/
def Workspace.bound (accountId workspaceId : String) (workspaceSchemaVersion : Nat)
    (assets : DomainAssetTable) (now : Instant) : Workspace H where
  accountId := accountId
  log :=
    { workspaceId := workspaceId
      workspaceSchemaVersion := workspaceSchemaVersion
      compactedThroughServerRevision := 0
      serverRevision := 0
      entries := []
      dense := trivial
      head := rfl
      valid := fun _ h => by cases h
      tenant := fun _ h => by cases h }
  assets := assets
  ledger := []
  checkpoints := []
  pins := []
  readers := []
  deliveries := []
  now := now

theorem Workspace.bound_initial {accountId workspaceId : String} {version : Nat}
    {assets : DomainAssetTable} {now : Instant}
    (h : ∀ a ∈ assets.rows, a.row.valid = true ∧ a.lastModifiedRevision = ⟨0, 0, 0, 0⟩) :
    (Workspace.bound accountId workspaceId version assets now : Workspace H).Initial where
  revision := rfl
  rows := fun a ha => (h a ha).1
  revisions := fun a ha path => by rw [(h a ha).2]; cases path <;> rfl
  ledger := rfl
  checkpoints := rfl
  pins := rfl
  readers := rfl
  deliveries := rfl

/-! ## What a step does -/

/-- The status changes of verification and publication. -/
def Promotes (c : PersistentCheckpoint H) (s : PersistentCheckpointStatus) : Prop :=
  (c.status = .building ∧ (s = .verified ∨ s = .invalid)) ∨
    (c.status = .verified ∧ s = .available)

variable [DecidableEq H] (P : Platform H) (ttl : LeaseTtl) (w : Workspace H) in
inductive CloudStep : CloudEvent H → Workspace H → Prop where
  | idle (e : CloudEvent H) : CloudStep e w
  | ingest {ports : IngestPorts} {value : List SubmittedSyncMutationWire} {w' : Workspace H}
      {ms fresh : List SubmittedSyncMutation} (hparse : parseRequest value = some ms)
      (hsub : fresh.Sublist ms) (h : IngestCommit P w w' fresh) :
      CloudStep (.ingest ports value) w'
  | build {id : String} {through : Nat} {c : PersistentCheckpoint H}
      (hstatus : c.status = .building) (hthrough : c.throughServerRevision = w.log.serverRevision)
      (hsnapshot : w.assets.captureSnapshot = some c.snapshot)
      (hnew : w.checkpoint c.checkpointId = none) :
      CloudStep (.build id through) { w with checkpoints := w.checkpoints ++ [c] }
  | promote {e : CloudEvent H} {id : String} {c : PersistentCheckpoint H}
      {s : PersistentCheckpointStatus} (hc : w.checkpoint id = some c) (hs : Promotes c s) :
      CloudStep e (w.setStatus id s)
  | release {id : String} : CloudStep (.supersede id) w.releaseExpired
  | supersede {id : String} {c : PersistentCheckpoint H}
      (hid : acceptedSupersede w (.supersede id) = some id) (hc : w.checkpoint id = some c)
      (hav : c.isAvailable = true)
      (hcount : w.checkpoints.countP PersistentCheckpoint.isAvailable ≠ 1) :
      CloudStep (.supersede id) (w.releaseExpired.setStatus id .superseded)
  | pin {b : CheckpointPinBinding H} {pins : List (CheckpointPin H)}
      (hb : acceptedPin w (.pin b) = some b)
      (hpins : ∀ p ∈ pins, p.expectedThroughServerRevision = b.throughServerRevision ∨
        ∃ q ∈ w.pins, q.released = p.released ∧
          q.expectedThroughServerRevision = p.expectedThroughServerRevision) :
      CloudStep (.pin b) { w with pins := pins }
  | releasePin {kind : ConsumerKind} {consumerId : String} {pins : List (CheckpointPin H)}
      (hpins : ∀ p ∈ pins, p.released = false → p ∈ w.pins) :
      CloudStep (.releasePin kind consumerId) { w with pins := pins }
  | compact {requested : Nat} {deviceMinimum : Option Nat} {recovery : RecoveryPort}
      {log : MutationLog} {readers : List (ReaderCursor H)}
      (hlog : w.log.compactPrefix requested = some log)
      (hretire : retireExpired w.now w.readers = some readers)
      (hreaders : ∀ c ∈ readers, c.isActive = true → requested ≤ c.readThroughServerRevision)
      (hpins : ∀ p ∈ releaseExpiredPins w.now w.pins, p.released = false →
        requested ≤ p.expectedThroughServerRevision)
      (hcheckpoint : ∃ c ∈ w.checkpoints, c.isAvailable = true ∧
        requested ≤ c.throughServerRevision) :
      CloudStep (.compact requested deviceMinimum recovery)
        { w with log := log, readers := readers, pins := releaseExpiredPins w.now w.pins }
  | reopen {deviceId : String} {baseline generation rowVersion : Nat} {c : ReaderCursor H}
      (hd : acceptedReopen ttl w (.reopen deviceId baseline generation rowVersion) =
        some deviceId)
      (hc : w.reader deviceId = some c) (hretired : c.isActive = false)
      (hretained : w.watermark ≤ baseline) (hknown : baseline ≤ w.head) :
      CloudStep (.reopen deviceId baseline generation rowVersion)
        (w.setReader (c.reopened ttl w.now baseline))
  | cursor {e : CloudEvent H} {deviceId : String} {w' : Workspace H}
      (h : CursorStep ttl w deviceId (e.opening deviceId) w') : CloudStep e w'
  | pull {deviceId : String} {r : PullRequest H} {w' : Workspace H}
      {res : PersistentReaderPullResult H} (h : PullStep P ttl w deviceId r w' res) :
      CloudStep (.pull deviceId r) w'
  | tick {microseconds : Nat} :
      CloudStep (.tick microseconds) { w with now := w.now + microseconds }

/-- The rows of a reader are consistent with each other and with the log. -/
structure ReaderInv (P : Platform H) (w : Workspace H) : Prop where
  unique : (w.readers.map ReaderCursor.deviceId).Nodup
  single : (w.deliveries.map PendingDelivery.deviceId).Nodup
  rows : ∀ deviceId c, w.reader deviceId = some c → c.isActive = true → ReaderRows P w c
  generation : ∀ deviceId p, w.delivery deviceId = some p →
    ∃ c, w.reader deviceId = some c ∧ p.generation ≤ c.generation

section

variable [DecidableEq H] {e : CloudEvent H}

/-- Lift a case analysis of an operation to the machine. -/
theorem transact_step {α : Type} {output : α → CloudOutput H}
    {o : Option (Workspace H × α)} (h : ∀ w' a, o = some (w', a) → CloudStep P ttl w e w') :
    CloudStep P ttl w e (transact w output o).1 := by
  cases o with
  | none => exact .idle e
  | some wa => exact h wa.1 wa.2 rfl

/-- Every step of the machine is a `CloudStep`. -/
theorem service_step (hinv : ReaderInv P w) (e : CloudEvent H) :
    CloudStep P ttl w e ((service P ttl).next w e) := by
  cases e with
  | ingest ports value =>
    refine transact_step fun w' res h => ?_
    rcases ingest_cases h with ⟨rfl, _⟩ | ⟨rs, hrs, _, _, rfl | hc⟩
    · exact .idle _
    · exact .idle _
    · exact .ingest hrs.parsed (freshMutations_sublist rs) hc
  | build id through =>
    refine transact_step fun w' res h => ?_
    rcases build_cases h with rfl | ⟨c, h1, h2, h3, h4, rfl⟩
    · exact .idle _
    · exact .build h1 h2 h3 h4
  | verify id =>
    refine transact_step fun w' res h => ?_
    rcases verify_cases h with rfl | ⟨c, s, hc, h1, h2, rfl⟩
    · exact .idle _
    · exact .promote hc (.inl ⟨h1, h2⟩)
  | publish id =>
    refine transact_step fun w' res h => ?_
    rcases publish_cases h with rfl | ⟨c, hc, h1, rfl⟩
    · exact .idle _
    · exact .promote hc (.inr ⟨h1, rfl⟩)
  | supersede id =>
    refine transact_step fun w' res h => ?_
    rcases supersede_cases h with rfl | ⟨c, hc, hav, rfl | ⟨hcount, rfl, rfl⟩⟩
    · exact .idle _
    · exact .release
    · exact .supersede (by rw [acceptedSupersede, h]; rfl) hc hav hcount
  | pin b =>
    refine transact_step fun w' res h => ?_
    obtain ⟨pins, rfl, hpins⟩ := pin_cases h
    exact .pin (by rw [acceptedPin, h]; rfl) hpins
  | releasePin kind consumerId =>
    refine transact_step fun w' res h => ?_
    obtain ⟨pins, rfl, hpins⟩ := releasePin_cases h
    exact .releasePin hpins
  | compact requested deviceMinimum recovery =>
    refine transact_step fun w' res h => ?_
    rcases compact_cases h with rfl | ⟨log, readers, h1, h2, h3, h4, h5, rfl⟩
    · exact .idle _
    · exact .compact h1 h2 h3 h4 h5
  | openReader d r =>
    refine transact_step fun w' res h => ?_
    have hopen : (CloudEvent.openReader d r : CloudEvent H).opening d = some r := if_pos rfl
    have hstep := openReader_step h
    rw [← hopen] at hstep
    exact .cursor hstep
  | reopen d b g v =>
    refine transact_step fun w' res h => ?_
    rcases reopenAfterRebootstrap_cases h with rfl | ⟨c, h1, h2, h3, h4, rfl, rfl⟩
    · exact .idle _
    · exact .reopen (by rw [acceptedReopen, h]) h1 h2 h3 h4
  | renew d g v t => exact transact_step fun w' res h => .cursor (renew_step h)
  | removeDevice d => exact transact_step fun w' res h => .cursor (retireForDeviceRemoval_step h)
  | pull d r =>
    refine transact_step fun w' res h => ?_
    rcases pullV2_spec ttl r (fun c hc ha => hinv.rows d c hc ha) with
      ⟨hnone, _⟩ | ⟨w'', res', hsome, hstep⟩
    · rw [hnone] at h; cases h
    · rw [hsome] at h
      cases h
      exact .pull hstep
  | tick n => exact .tick

/-- Rows and receipts change when a batch is accepted, and only then; so does the log,
apart from compaction. -/
theorem CloudStep.tables (h : CloudStep P ttl w e w') :
    (∃ ports value ms fresh, e = .ingest ports value ∧ parseRequest value = some ms ∧
      fresh.Sublist ms ∧ IngestCommit P w w' fresh) ∨
      (w'.assets = w.assets ∧ w'.ledger = w.ledger ∧ w'.head = w.head ∧
        (e.isCompact = false → w'.log = w.log)) := by
  cases h with
  | ingest hparse hsub h => exact .inl ⟨_, _, _, _, rfl, hparse, hsub, h⟩
  | compact hlog =>
    obtain ⟨_, _, _, _, hhead, _⟩ := MutationLog.compactPrefix_eq_some hlog
    exact .inr ⟨rfl, rfl, hhead, fun hc => by cases hc⟩
  | cursor hs | pull hs => cases hs <;> exact .inr ⟨rfl, rfl, rfl, fun _ => rfl⟩
  | _ => exact .inr ⟨rfl, rfl, rfl, fun _ => rfl⟩

end

/-! ## The reader invariant -/

section

theorem issue_congr {reader : ReaderBinding} {l l' : MutationLog} {a t n : Nat} {pred : Option H}
    {e : Timestamp} (hws : l'.workspaceId = l.workspaceId)
    (hr : l'.readRange a (min t (a + n)) = l.readRange a (min t (a + n))) :
    issue P reader l' a t n pred e = issue P reader l a t n pred e := by
  have : servedPage P reader l' a t n e = servedPage P reader l a t n e := by
    simp only [servedPage, hws, hr]
  simp only [issue, this]

variable (h : ReaderRows P w c)

include h

/-- The rows stay consistent when the log keeps the range above the cursor. -/
theorem ReaderRows.transfer (haccount : w'.accountId = w.accountId)
    (hdelivery : w'.delivery c.deviceId = w.delivery c.deviceId)
    (hretained : w'.watermark ≤ c.readThroughServerRevision) (hhead : w.head ≤ w'.head)
    (hws : w'.log.workspaceId = w.log.workspaceId)
    (hrange : ∀ b ≤ w.head, w'.log.readRange c.readThroughServerRevision b =
      w.log.readRange c.readThroughServerRevision b) : ReaderRows P w' c where
  retained := hretained
  known := le_trans h.known hhead
  pinned := fun page hp => ⟨(h.pinned page hp).1, le_trans (h.pinned page hp).2 hhead⟩
  served := fun p hp hgen => by
    rw [hdelivery] at hp
    obtain ⟨hb, heq⟩ := h.served p hp hgen
    refine ⟨⟨hretained, hb.ordered, le_trans hb.known hhead, hb.positive, hb.bounded⟩, ?_⟩
    have hbinding : w'.readerBinding c = w.readerBinding c := by
      rw [Workspace.readerBinding, Workspace.readerBinding, haccount, hws]
    rw [hbinding, issue_congr hws (hrange _ hb.last_le_head)]
    exact heq

theorem ReaderRows.frame (hlog : w'.log = w.log)
    (haccount : w'.accountId = w.accountId)
    (hdelivery : w'.delivery c.deviceId = w.delivery c.deviceId) : ReaderRows P w' c :=
  h.transfer haccount hdelivery (by rw [Workspace.watermark, hlog]; exact h.retained)
    (by rw [Workspace.head, Workspace.head, hlog]) (by rw [hlog])
    (fun _ _ => by rw [hlog])

/-- A new lease changes nothing the rows depend on. -/
theorem ReaderRows.renewed {now : Instant} :
    ReaderRows P w (c.renewed ttl now) :=
  ⟨h.retained, h.known, h.pinned, h.served⟩

end

section

variable {d : PullDelivery H} {now : Instant}

theorem reader_setReader_self (hdevice : c'.deviceId = deviceId) :
    (w.setReader c').reader deviceId = (w.reader deviceId).map (fun _ => c') := by
  rw [Workspace.reader, Workspace.setReader, hdevice]
  exact lookup_adjust_self (fun _ _ => hdevice) w.readers

theorem reader_confirm {p : PendingDelivery H} (hc : w.reader c.deviceId = some c) :
    (w.confirm ttl c p).reader c.deviceId = some (c.confirmed ttl w.now p) := by
  have hself : (w.setReader (c.confirmed ttl w.now p)).reader c.deviceId =
      (w.reader c.deviceId).map fun _ => c.confirmed ttl w.now p := reader_setReader_self rfl
  rw [hc] at hself
  exact hself

theorem reader_setReader_ne (hne : deviceId ≠ c'.deviceId) :
    (w.setReader c').reader deviceId = w.reader deviceId :=
  lookup_adjust_ne (fun _ _ => rfl) hne w.readers

/-- Reading a cursor row that was just inserted. -/
theorem reader_opened (d : String) :
    Workspace.reader { w with readers := w.readers ++ [c] } d =
      (w.reader d).or (if c.deviceId = d then some c else none) := by
  rw [Workspace.reader, Keyed.lookup_append, Keyed.lookup_cons, Keyed.lookup_nil]
  rfl

variable {readers readers' : List (ReaderCursor H)}

theorem retireExpired_eq (h : retireExpired now readers = some readers') :
    readers' = readers.map fun c => if c.isExpired now then c.retire .ttlExpired else c := by
  rw [retireExpired] at h
  split at h
  next => cases h
  next => cases h; rfl

/-- Retiring expired cursors works row by row. -/
theorem lookup_retireExpired (h : retireExpired now readers = some readers') (d : String) :
    Keyed.lookup ReaderCursor.deviceId d readers' =
      (Keyed.lookup ReaderCursor.deviceId d readers).map fun c =>
        if c.isExpired now then c.retire .ttlExpired else c := by
  rw [retireExpired_eq h]
  exact lookup_map (fun c => by split <;> rfl) d readers

theorem delivery_store_self (hnone : w.delivery deviceId = none)
    (hdevice : d.pendingDelivery.deviceId = deviceId) :
    (w.store d).delivery deviceId = some d.pendingDelivery := by
  rw [Workspace.delivery] at hnone
  rw [Workspace.delivery, Workspace.store, Keyed.lookup_append, hnone, Option.none_or,
    Keyed.lookup_cons, if_pos hdevice]

theorem delivery_store_ne (hne : deviceId ≠ d.pendingDelivery.deviceId) :
    (w.store d).delivery deviceId = w.delivery deviceId := by
  rw [Workspace.delivery, Workspace.store, Keyed.lookup_append, Keyed.lookup_cons,
    if_neg (Ne.symm hne), Keyed.lookup_nil, Option.or_none]
  rfl

end

namespace ReaderInv

variable (h : ReaderInv P w)

include h

theorem frame (hlog : w'.log = w.log) (haccount : w'.accountId = w.accountId)
    (hreaders : w'.readers = w.readers) (hdeliveries : w'.deliveries = w.deliveries) :
    ReaderInv P w' where
  unique := hreaders ▸ h.unique
  single := hdeliveries ▸ h.single
  rows := fun d c hc ha => by
    rw [Workspace.reader, hreaders] at hc
    exact (h.rows d c hc ha).frame hlog haccount
      (by rw [Workspace.delivery, Workspace.delivery, hdeliveries])
  generation := fun d p hp => by
    rw [Workspace.delivery, hdeliveries] at hp
    rw [Workspace.reader, hreaders]
    exact h.generation d p hp

section

variable (hc : w.reader deviceId = some c)

include hc

theorem setReader (hdevice : c'.deviceId = c.deviceId) (hgeneration : c.generation ≤ c'.generation)
    (hrow : c'.isActive = true → ReaderRows P w c') : ReaderInv P (w.setReader c') := by
  obtain rfl := reader_device hc
  have hself : (w.setReader c').reader c.deviceId = some c' := by
    rw [reader_setReader_self hdevice, hc]
    rfl
  have hne : ∀ d, d ≠ c.deviceId → (w.setReader c').reader d = w.reader d := fun d hd =>
    reader_setReader_ne (by rw [hdevice]; exact hd)
  constructor
  · rw [Workspace.setReader, keys_adjust fun _ _ => rfl]
    exact h.unique
  · exact h.single
  · intro d x hx ha
    by_cases hd : d = c.deviceId
    · rw [hd, hself] at hx
      cases hx
      exact (hrow ha).frame rfl rfl rfl
    · rw [hne d hd] at hx
      exact (h.rows d x hx ha).frame rfl rfl rfl
  · intro d p hp
    obtain ⟨x, hx, hle⟩ := h.generation d p hp
    by_cases hd : d = c.deviceId
    · rw [hd, hc] at hx
      cases hx
      exact ⟨c', hd ▸ hself, le_trans hle hgeneration⟩
    · exact ⟨x, by rw [hne d hd]; exact hx, hle⟩

theorem retire (reason : RetirementReason) : ReaderInv P (w.setReader (c.retire reason)) :=
  h.setReader hc rfl le_rfl (fun ha => by cases ha)

/-- The rows after one more delivery of the cursor's generation. -/
theorem store {d : PullDelivery H}
    (hnone : w.delivery deviceId = none) (hdevice : d.pendingDelivery.deviceId = deviceId)
    (hgeneration : d.pendingDelivery.generation = c.generation)
    (hserved : PageBounds w.log c.readThroughServerRevision d.pendingDelivery.targetServerRevision
        d.pendingDelivery.pageLimit ∧
      d.pendingDelivery = (issue P (w.readerBinding c) w.log c.readThroughServerRevision
        d.pendingDelivery.targetServerRevision d.pendingDelivery.pageLimit
        d.pendingDelivery.predecessorConfirmationDigest
        d.pendingDelivery.expiresAt).pendingDelivery) : ReaderInv P (w.store d) where
  unique := h.unique
  single := by
    rw [Workspace.store, map_append, nodup_append]
    refine ⟨h.single, pairwise_singleton .., fun i hi j hj heq => ?_⟩
    obtain ⟨p, hp, rfl⟩ := mem_map.mp hi
    exact lookup_eq_none.mp hnone p hp
      (heq.trans ((mem_singleton.mp hj).trans hdevice))
  rows := fun e x hx ha => by
    have hx' : w.reader e = some x := hx
    have hrow := h.rows e x hx' ha
    obtain rfl := reader_device hx'
    by_cases he : x.deviceId = deviceId
    · refine ⟨hrow.retained, hrow.known, hrow.pinned, fun p hp _ => ?_⟩
      rw [he, hc] at hx'
      cases hx'
      rw [he, delivery_store_self hnone hdevice] at hp
      cases hp
      exact hserved
    · exact hrow.frame rfl rfl (delivery_store_ne (hdevice ▸ he))
  generation := fun e p hp => by
    by_cases he : e = deviceId
    · rw [he, delivery_store_self hnone hdevice] at hp
      cases hp
      exact ⟨c, he ▸ hc, le_of_eq hgeneration⟩
    · rw [delivery_store_ne (hdevice ▸ he)] at hp
      exact h.generation e p hp

/-- A new generation leaves the older delivery behind. -/
theorem reopened
    {baseline : Nat} (hretained : w.watermark ≤ baseline) (hknown : baseline ≤ w.head) :
    ReaderInv P (w.setReader (c.reopened ttl w.now baseline)) := by
  refine h.setReader hc rfl (Nat.le_succ _) (fun _ => ?_)
  refine ⟨hretained, hknown, fun page hp => (by cases hp), fun p hp hgen => ?_⟩
  obtain rfl := reader_device hc
  obtain ⟨x, hx, hle⟩ := h.generation c.deviceId p hp
  rw [hc] at hx
  cases hx
  rw [hgen] at hle
  exact absurd hle (Nat.not_succ_le_self _)

end

/-- Deleting the delivery of one device. -/
theorem removeDelivery (deviceId : String) :
    ReaderInv P { w with
      deliveries := Keyed.remove PendingDelivery.deviceId deviceId w.deliveries } where
  unique := h.unique
  single := (filter_sublist.map _).nodup h.single
  rows := fun e x hx ha => by
    have hrow := h.rows e x hx ha
    by_cases hxd : x.deviceId = deviceId
    · refine ⟨hrow.retained, hrow.known, hrow.pinned, fun p hp _ => ?_⟩
      rw [Workspace.delivery, hxd, lookup_remove_self] at hp
      cases hp
    · exact hrow.frame rfl rfl (lookup_remove_ne hxd _)
  generation := fun e p hp => by
    by_cases he : e = deviceId
    · rw [Workspace.delivery, he, lookup_remove_self] at hp
      cases hp
    · rw [Workspace.delivery, lookup_remove_ne he] at hp
      exact h.generation e p hp

/-- A cursor that is not there has no delivery. -/
theorem delivery_none (hnone : w.reader deviceId = none) :
    w.delivery deviceId = none := by
  cases hd : w.delivery deviceId with
  | none => rfl
  | some p =>
    obtain ⟨c, hc, _⟩ := h.generation deviceId p hd
    rw [hnone] at hc
    cases hc

theorem opened (hnone : w.reader deviceId = none)
    {atRevision : Nat} (hretained : w.watermark ≤ atRevision) (hknown : atRevision ≤ w.head) :
    ReaderInv P { w with readers := w.readers ++ [.opened ttl w.now deviceId atRevision] } := by
  have hread := reader_opened (w := w) (c := .opened ttl w.now deviceId atRevision)
  constructor
  · rw [map_append, nodup_append]
    refine ⟨h.unique, pairwise_singleton .., fun a ha b hb heq => ?_⟩
    obtain ⟨c, hc, rfl⟩ := mem_map.mp ha
    exact lookup_eq_none.mp hnone c hc (heq.trans (mem_singleton.mp hb))
  · exact h.single
  · intro d x hx ha
    rw [hread] at hx
    cases hd : w.reader d with
    | some y =>
      rw [hd] at hx
      cases hx
      exact (h.rows d x hd ha).frame rfl rfl rfl
    | none =>
      rw [hd, Option.none_or] at hx
      split at hx
      next hdd =>
        cases hx
        refine ⟨hretained, hknown, fun page hp => (by cases hp), fun p hp _ => ?_⟩
        have : w.delivery deviceId = some p := hp
        rw [h.delivery_none hnone] at this
        cases this
      next => cases hx
  · intro d p hp
    obtain ⟨x, hx, hle⟩ := h.generation d p hp
    exact ⟨x, by rw [hread, hx]; rfl, hle⟩

end ReaderInv

section

theorem readerInv_initial (h : w.Initial) : ReaderInv P w where
  unique := by rw [h.readers]; exact nodup_nil
  single := by rw [h.deliveries]; exact nodup_nil
  rows := fun d c hc => by rw [Workspace.reader, h.readers] at hc; cases hc
  generation := fun d p hp => by rw [Workspace.delivery, h.deliveries] at hp; cases hp

theorem readerInv_cursorStep {opening : Option Nat} (h : ReaderInv P w)
    (hs : CursorStep ttl w deviceId opening w') : ReaderInv P w' := by
  cases hs with
  | same => exact h
  | retire reason hc _ => exact h.retire hc reason
  | opened _ hnone hretained hknown => exact h.opened hnone hretained hknown
  | renewed hc hactive =>
    exact h.setReader hc rfl le_rfl (fun _ => (h.rows _ _ hc hactive).renewed)

theorem readerInv_compact {requested : Nat} {log : MutationLog} {readers : List (ReaderCursor H)}
    {pins : List (CheckpointPin H)} (h : ReaderInv P w)
    (hlog : w.log.compactPrefix requested = some log)
    (hretire : retireExpired w.now w.readers = some readers)
    (hreaders : ∀ c ∈ readers, c.isActive = true → requested ≤ c.readThroughServerRevision) :
    ReaderInv P { w with log := log, readers := readers, pins := pins } := by
  obtain ⟨_, hws, _, hcomp, hhead, _⟩ := MutationLog.compactPrefix_eq_some hlog
  have hread := lookup_retireExpired hretire
  constructor
  · have hkeys : readers.map ReaderCursor.deviceId = w.readers.map ReaderCursor.deviceId := by
      rw [retireExpired_eq hretire, List.map_map]
      exact map_congr_left fun c _ => by simp only [Function.comp]; split <;> rfl
    exact hkeys ▸ h.unique
  · exact h.single
  · intro d c hc ha
    have hbound := hreaders c (lookup_eq_some hc).1 ha
    rw [Workspace.reader, hread] at hc
    obtain ⟨c₀, hc₀, heq⟩ := Option.map_eq_some_iff.mp hc
    split at heq
    next => rw [← heq] at ha; cases ha
    next =>
    subst heq
    refine (h.rows d c₀ hc₀ ha).transfer rfl rfl
      (by rw [Workspace.watermark, hcomp]; exact hbound) (le_of_eq hhead.symm) hws
      (fun b _ => MutationLog.compactPrefix_readRange hlog hbound)
  · intro d p hp
    obtain ⟨c, hc, hle⟩ := h.generation d p hp
    refine ⟨if c.isExpired w.now then c.retire .ttlExpired else c, ?_, ?_⟩
    · rw [Workspace.reader, hread]
      exact congrArg (Option.map _) hc
    · split <;> exact hle

variable [DecidableEq H]

variable (h : ReaderInv P w)

include h

theorem readerInv_pullStep {r : PullRequest H}
    {res : PersistentReaderPullResult H}
    (hs : PullStep P ttl w deviceId r w' res) : ReaderInv P w' := by
  cases hs with
  | reject => exact h
  | retire reason code hc _ => exact h.retire hc reason
  | replay => exact h
  | @first c d hc hactive hnone hvalid hconfirm hafter hcursor hd =>
    obtain rfl := reader_device hc
    subst hd
    exact h.store hc hnone rfl rfl ⟨(h.rows _ _ hc hactive).bounds hvalid.2.1 hvalid.2.2, rfl⟩
  | @confirm c p token d hc hactive hp hgen hlive hvalid hconfirm htoken hafter hcursor hd =>
    obtain rfl := reader_device hc
    have hrow := h.rows _ _ hc hactive
    have hrow' : ReaderRows P (w.confirm ttl c p) (c.confirmed ttl w.now p) :=
      hrow.confirm hp hgen
    -- the delivery is deleted first, so that the advanced cursor has none
    have hstep : ReaderInv P (w.confirm ttl c p) := by
      refine ReaderInv.setReader (h.removeDelivery c.deviceId) hc ?_ le_rfl (fun _ => ?_)
      · rfl
      · exact hrow'.frame rfl rfl rfl
    subst hd
    exact hstep.store (reader_confirm hc) (delivery_confirm w ttl c p) rfl rfl
      ⟨hrow'.bounds hvalid.2.1 hvalid.2.2, rfl⟩

theorem readerInv_ingest {fresh : List SubmittedSyncMutation}
    (hc : IngestCommit P w w' fresh) : ReaderInv P w' := by
  obtain ⟨_, hws, _, hcomp, hhead, _⟩ := MutationLog.append_eq_some hc.log
  have hrest := hc.rest
  constructor
  · rw [hrest]
    exact h.unique
  · rw [hrest]
    exact h.single
  · intro d c hread ha
    rw [hrest] at hread
    have hrow := h.rows d c hread ha
    refine hrow.transfer (by rw [hrest]) (by rw [hrest]; rfl) ?_ ?_ hws
      (fun b hb => MutationLog.append_readRange hc.log hb)
    · rw [Workspace.watermark, hcomp]
      exact hrow.retained
    · rw [Workspace.head, Workspace.head, hhead]
      exact Nat.le_add_right ..
  · intro d p hp
    rw [hrest] at hp ⊢
    exact h.generation d p hp

theorem readerInv_step {e : CloudEvent H} (hs : CloudStep P ttl w e w') :
    ReaderInv P w' := by
  cases hs with
  | idle => exact h
  | ingest _ _ hc => exact readerInv_ingest h hc
  | build | promote | release | supersede | pin | releasePin => exact h.frame rfl rfl rfl rfl
  | compact hlog hretire hreaders _ _ => exact readerInv_compact h hlog hretire hreaders
  | reopen _ hc _ hretained hknown => exact h.reopened hc hretained hknown
  | cursor hs => exact readerInv_cursorStep h hs
  | pull hs => exact readerInv_pullStep h hs
  | tick => exact h.frame rfl rfl rfl rfl

/-- The reader invariant holds in every reachable state. -/
theorem readerInv_run (es : List (CloudEvent H)) :
    ReaderInv P ((service P ttl).run w es) :=
  (service P ttl).run_of_step (fun _ e hw => readerInv_step hw (service_step hw e)) es h

end

/-! ## A sample workspace -/

/-- One asset, nothing set. -/
def sampleRow : DomainAssetProjectionRow := ⟨"a.example", none, none, [], none⟩

def sampleAssets : DomainAssetTable := ⟨[⟨sampleRow, ⟨0, 0, 0, 0⟩⟩], by decide⟩

def sampleWorkspace : Workspace Symbolic := .bound "account" "workspace" 1 sampleAssets 0

theorem sampleWorkspace_initial : sampleWorkspace.Initial :=
  Workspace.bound_initial (by decide)

def sampleTtl : LeaseTtl := ⟨900, by decide⟩

def sampleServed (es : List (CloudEvent Symbolic)) : Workspace Symbolic :=
  (service Symbolic.platform sampleTtl).run sampleWorkspace es

/-- The lease is held and the drain ledger takes every envelope. -/
def samplePorts : IngestPorts := ⟨fun _ _ => true, fun _ => true⟩

/-- The first mutation of a device: a note on the asset. -/
def sampleNote (mutationId : String) (sequence : Nat) : SubmittedSyncMutationWire where
  mutationId := mutationId
  workspaceSchemaVersion := 1
  entityId := "a.example"
  operationKind := .upsert
  deletedAt := none
  baseServerRevision := 0
  changedFields := [.note (some "n")]
  sourceDeviceId := "device"
  activeLeaseEpoch := 1
  deviceMutationSequence := sequence

/-- Build, verify and publish a checkpoint at the head. -/
def publishAt (checkpointId : String) (through : Nat) : List (CloudEvent Symbolic) :=
  [.build checkpointId through, .verify checkpointId, .publish checkpointId]

end GoodDealer.Cloud
