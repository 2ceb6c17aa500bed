/-
# `GoodDealer.Sync.DrainSeals` — when the epochs of a device can be sealed

A device numbers its mutations with one sequence, whatever the epoch of its
lease (`FromOne`).  The drain ledger keeps the records of each epoch apart and
counts each from 1.  So when every mutation of a device has landed, in any
order, the head of every epoch is complete, and the epoch can be sealed, exactly
when all the mutations were committed in one epoch (`drainHeads_complete_iff`).
-/
import GoodDealer.Sync.PushQueue
import GoodDealer.Cloud.DrainLedger

namespace GoodDealer.Sync

open Cloud Desktop List

variable {H : Type}

/-! ## One sequence for a device -/

/-- The mutations of the outbox are numbered from 1 on. -/
structure FromOne (deviceId : String) (s : Store H) : Prop where
  dense : DenseFrom SubmittedSyncMutationWire.deviceMutationSequence 0
    (s.outbox.map OutboxRow.mutation)
  next : s.nextDeviceMutationSequence = (s.outbox.map OutboxRow.mutation).length + 1
  device : ∀ m ∈ s.outbox.map OutboxRow.mutation, m.sourceDeviceId = deviceId

namespace FromOne

variable {deviceId : String} {s s' : Store H}

theorem update (h : FromOne deviceId s) (hu : DeliveryUpdate s s') : FromOne deviceId s' where
  dense := by rw [hu.mutations]; exact h.dense
  next := by rw [hu.mutations, hu.next]; exact h.next
  device := by rw [hu.mutations]; exact h.device

/-- A local mutation takes the next number, whatever its epoch. -/
theorem commit (h : FromOne deviceId s) {r : MutationRequest} {op : LocalOperation}
    (hr : r.deviceId = deviceId) (hc : LocalCommit s r op s') : FromOne deviceId s' := by
  refine ⟨?_, ?_, ?_⟩
  · rw [hc.mutations, denseFrom_append]
    refine ⟨h.dense, ?_, trivial⟩
    rw [Nat.zero_add]
    exact h.next
  · rw [hc.next, h.next, hc.mutations, length_append]
    rfl
  · rw [hc.mutations]
    exact forall_mem_append.mpr ⟨h.device, forall_mem_singleton.mpr hr⟩

end FromOne

section

variable [DecidableEq H] {J : SerdeJson H} {P : Platform H} {deviceId : String}

/-- A step of the queue commits a local mutation or changes how mutations are delivered. -/
theorem pushQueue_store (q : PushQueue H) (e : QueueEvent) :
    DeliveryUpdate q.store ((pushQueue J P deviceId).next q e).store ∨
      ∃ r op, r.deviceId = deviceId ∧
        LocalCommit q.store r op ((pushQueue J P deviceId).next q e).store := by
  have hnext : ((pushQueue J P deviceId).next q e).store =
      (((pushQueue J P deviceId).step q e).1).store := rfl
  rw [hnext]
  cases e with
  | commit r op =>
    cases hlocal : localMutation q.store { r with deviceId := deviceId } op with
    | ok res =>
      obtain ⟨store, receipt⟩ := res
      simp only [pushQueue, hlocal]
      rcases localMutation_ok hlocal with rfl | hcommit
      · exact .inl (.refl _)
      · exact .inr ⟨_, op, rfl, hcommit⟩
    | error err =>
      simp only [pushQueue, hlocal]
      exact .inl (.refl _)
  | claim owner now lease limit =>
    refine .inl ?_
    show DeliveryUpdate q.store (q.claim J P owner now lease limit).store
    unfold PushQueue.claim
    split
    · exact .refl _
    next hclaim => exact claimSyncMutations_update hclaim
    next hclaim => exact claimSyncMutations_update hclaim
  | answer cycle response now =>
    refine .inl ?_
    show DeliveryUpdate q.store (q.answer cycle response now).store
    unfold PushQueue.answer
    split
    · exact answerPush_update ..
    · exact .refl _
  | giveUp cycle now =>
    refine .inl ?_
    show DeliveryUpdate q.store (q.giveUp cycle now).store
    unfold PushQueue.giveUp
    split
    · exact deferPushClaims_update ..
    · exact .refl _
  | die cycle => exact .inl (.refl _)

theorem FromOne.run (events : List QueueEvent) {q : PushQueue H} (h : FromOne deviceId q.store) :
    FromOne deviceId ((pushQueue J P deviceId).run q events).store := by
  refine (pushQueue J P deviceId).run_of_step (I := fun q => FromOne deviceId q.store) ?_ events h
  intro q e hq
  rcases pushQueue_store (J := J) (P := P) q e with hu | ⟨r, op, hr, hc⟩
  · exact hq.update hu
  · exact hq.commit hr hc

end

/-! ## Landing in the cloud -/

/-- A mutation that arrives, with the state of the leases at that time. -/
structure DrainLanding where
  devices : DeviceTables
  now : Instant
  mutation : SubmittedSyncMutationWire

/-- The appends of mutations that arrive one after another. -/
def landAll (sha256 : Bytes → Digest) (scope : TenantScope)
    (envelope : SubmittedSyncMutationWire → Bytes) :
    DrainTables → List DrainLanding → Except DrainError DrainTables
  | L, [] => .ok L
  | L, x :: xs =>
    (appendRecord sha256 x.devices scope x.now L x.mutation.sourceDeviceId
      x.mutation.activeLeaseEpoch x.mutation.deviceMutationSequence
      (envelope x.mutation)).bind fun appended =>
        landAll sha256 scope envelope appended.1 xs

/-- The record of a mutation. -/
def drainRecord (sha256 : Bytes → Digest) (envelope : SubmittedSyncMutationWire → Bytes)
    (m : SubmittedSyncMutationWire) : DrainRecord :=
  ⟨m.sourceDeviceId, m.activeLeaseEpoch, m.deviceMutationSequence, envelope m,
    sha256 (envelope m), none⟩

section

variable {sha256 : Bytes → Digest} {scope : TenantScope}
  {envelope : SubmittedSyncMutationWire → Bytes}

/-- The ledger holds what has landed and nothing else, and no append has sealed anything. -/
theorem landAll_ok : ∀ {xs : List DrainLanding} {L L' : DrainTables},
    landAll sha256 scope envelope L xs = .ok L' →
      (∀ r, r ∈ L'.records ↔ r ∈ L.records ∨
        r ∈ xs.map (fun x => drainRecord sha256 envelope x.mutation)) ∧
      L'.seals = L.seals ∧
      ∀ x ∈ xs, validSequence x.mutation.deviceMutationSequence = true ∧
        assertActiveDomain x.devices scope x.now x.mutation.sourceDeviceId
          x.mutation.activeLeaseEpoch = .ok () := by
  intro xs
  induction xs with
  | nil =>
    intro L L' h
    cases h
    exact ⟨by simp, rfl, by simp⟩
  | cons x xs ih =>
    intro L L' h
    rw [landAll] at h
    cases happend : appendRecord sha256 x.devices scope x.now L x.mutation.sourceDeviceId
        x.mutation.activeLeaseEpoch x.mutation.deviceMutationSequence (envelope x.mutation) with
    | error err =>
      rw [happend] at h
      cases h
    | ok appended =>
      rw [happend] at h
      have happ := appendRecord_ok happend
      obtain ⟨hrecords, hseals, hauth⟩ := ih h
      refine ⟨fun r => ?_, hseals.trans happ.seals, ?_⟩
      · rw [hrecords r, happ.records r, map_cons, mem_cons, or_assoc]
        rfl
      · exact forall_mem_cons.mpr ⟨⟨happ.wellFormed.2.1, happ.authority⟩, hauth⟩

/-- The records of an epoch are those of the device's mutations in that epoch. -/
theorem mem_domainRecords_of_landed {landings : List DrainLanding} {L : DrainTables}
    {deviceId : String} {ms : List SubmittedSyncMutationWire}
    (hland : landAll sha256 scope envelope .empty landings = .ok L)
    (hdevice : ∀ m ∈ ms, m.sourceDeviceId = deviceId)
    (hall : ∀ m, m.sourceDeviceId = deviceId →
      (m ∈ landings.map DrainLanding.mutation ↔ m ∈ ms)) {e : Nat} {r : DrainRecord} :
    r ∈ L.domainRecords deviceId e ↔
      ∃ m ∈ ms, m.activeLeaseEpoch = e ∧ r = drainRecord sha256 envelope m := by
  have hrecords := (landAll_ok hland).1 r
  have hempty : r ∉ DrainTables.empty.records := by rintro ⟨⟩
  rw [or_iff_right hempty] at hrecords
  simp only [DrainTables.domainRecords, mem_filter, Bool.and_eq_true, decide_eq_true_eq]
  constructor
  · rintro ⟨hr, hd, he⟩
    obtain ⟨x, hx, rfl⟩ := mem_map.mp (hrecords.mp hr)
    exact ⟨x.mutation, (hall x.mutation hd).mp (mem_map_of_mem hx), he, rfl⟩
  · rintro ⟨m, hm, he, rfl⟩
    have hd := hdevice m hm
    obtain ⟨x, hx, hxm⟩ := mem_map.mp ((hall m hd).mpr hm)
    refine ⟨hrecords.mpr (mem_map.mpr ⟨x, hx, ?_⟩), hd, he⟩
    rw [hxm]

/-- Once all the mutations of a device have landed, in any order and among those of other
devices, the head of every epoch is complete and can be sealed exactly when the device
committed all of them in one epoch. -/
theorem drainHeads_complete_iff [DecidableEq H] (J : SerdeJson H) (P : Platform H)
    (sha256 : Bytes → Digest) (scope : TenantScope) (envelope : SubmittedSyncMutationWire → Bytes)
    (deviceId : String) {s : Store H} (hs : s.outbox = [])
    (hnext : s.nextDeviceMutationSequence = 1)
    (events : List QueueEvent) {ms : List SubmittedSyncMutationWire}
    (hms : ms = ((pushQueue J P deviceId).run ⟨s, []⟩ events).store.outbox.map OutboxRow.mutation)
    {landings : List DrainLanding} {L : DrainTables}
    (hland : landAll sha256 scope envelope .empty landings = .ok L)
    (hall : ∀ m, m.sourceDeviceId = deviceId →
      (m ∈ landings.map DrainLanding.mutation ↔ m ∈ ms)) :
    (∀ e, L.Complete sha256 deviceId e ∧ L.Sealable sha256 deviceId e) ↔
      ∀ m ∈ ms, ∀ m' ∈ ms, m.activeLeaseEpoch = m'.activeLeaseEpoch := by
  have hfresh : FromOne deviceId s := ⟨by simp [hs], by simp [hs, hnext], by simp [hs]⟩
  have hone : FromOne deviceId ((pushQueue J P deviceId).run ⟨s, []⟩ events).store :=
    FromOne.run events (q := ⟨s, []⟩) hfresh
  have hdense := hone.dense
  have hdevice := hone.device
  rw [← hms] at hdense hdevice
  have hmem := fun e r => mem_domainRecords_of_landed hland hdevice hall (e := e) (r := r)
  have hvalid : ∀ e, ∀ r ∈ L.domainRecords deviceId e,
      1 ≤ r.deviceMutationSequence ∧ r.deviceMutationSequence ≤ maxSafeInteger := by
    intro e r hr
    obtain ⟨m, hm, -, rfl⟩ := (hmem e r).mp hr
    obtain ⟨x, hx, rfl⟩ := mem_map.mp ((hall m (hdevice m hm)).mpr hm)
    have hseq := ((landAll_ok hland).2.2 x hx).1
    simpa [validSequence, drainRecord] using hseq
  have hspec := fun e => foldHead_spec sha256 fun r hr => (hvalid e r hr).1
  constructor
  · intro hcomplete
    -- the mutation numbered 1 is in the epoch of every mutation
    have hfirst : ∀ m ∈ ms, ∃ m₁ ∈ ms, m₁.deviceMutationSequence = 1 ∧
        m₁.activeLeaseEpoch = m.activeLeaseEpoch := by
      intro m hm
      have hr := (hmem m.activeLeaseEpoch _).mpr ⟨m, hm, rfl, rfl⟩
      have hle : (drainRecord sha256 envelope m).deviceMutationSequence ≤
          Watermark.highest DrainRecord.deviceMutationSequence
            (L.domainRecords deviceId m.activeLeaseEpoch) := Watermark.le_highest hr
      obtain ⟨hhigh, hiff⟩ := hspec m.activeLeaseEpoch
      have hpos := (hvalid _ _ hr).1
      obtain ⟨r₁, hr₁, hseq⟩ := hiff.mp (hcomplete m.activeLeaseEpoch).1 1 le_rfl (by omega)
      obtain ⟨m₁, hm₁, he₁, rfl⟩ := (hmem _ _).mp hr₁
      exact ⟨m₁, hm₁, hseq, he₁⟩
    intro m hm m' hm'
    obtain ⟨m₁, hm₁, hseq, he⟩ := hfirst m hm
    obtain ⟨m₁', hm₁', hseq', he'⟩ := hfirst m' hm'
    rw [← he, ← he', denseFrom_inj hdense hm₁ hm₁' (hseq.trans hseq'.symm)]
  · intro hepoch e
    have hcomplete : L.Complete sha256 deviceId e := by
      obtain ⟨hhigh, hiff⟩ := hspec e
      refine hiff.mpr ?_
      intro n hlo hhi
      rw [hhigh] at hhi
      -- the highest record is some mutation's, and the mutations before it are in its epoch
      have hne : L.domainRecords deviceId e ≠ [] := by
        intro hnil
        rw [hnil] at hhi
        simp at hhi
        omega
      obtain ⟨r, hr, hrn⟩ : ∃ r ∈ L.domainRecords deviceId e, r.deviceMutationSequence =
          Watermark.highest DrainRecord.deviceMutationSequence (L.domainRecords deviceId e) :=
        Watermark.highest_mem hne
      obtain ⟨m, hm, he, rfl⟩ := (hmem e r).mp hr
      have hbound := (denseFrom_bounds hdense m hm).2
      have hle : n ≤ m.deviceMutationSequence := by rw [← hrn] at hhi; exact hhi
      obtain ⟨x, hx, hxn⟩ := denseFrom_exists hdense (r := n) (by omega) (by omega)
      exact ⟨_, (hmem e _).mpr ⟨x, hx, (hepoch x hx m hm).trans he, rfl⟩, hxn⟩
    refine ⟨hcomplete, sealable_of_complete hcomplete (landAll_ok hland).2.1 ?_⟩
    rw [(hspec e).1]
    by_cases hnil : L.domainRecords deviceId e = []
    · rw [hnil]
      exact Nat.zero_le _
    · obtain ⟨r, hr, hrn⟩ : ∃ r ∈ L.domainRecords deviceId e, r.deviceMutationSequence =
          Watermark.highest DrainRecord.deviceMutationSequence (L.domainRecords deviceId e) :=
        Watermark.highest_mem hnil
      rw [← hrn]
      exact (hvalid e r hr).2

/-- Two edits, the second after the lease was taken over and back. -/
def sampleEpochs (second : Nat) : List QueueEvent :=
  [.commit (sampleRequest "first" 1) (sampleEdit "mine"),
    .commit { sampleRequest "second" 2 with activeLeaseEpoch := second } (sampleEdit "again")]

def sampleEpochMutations (second : Nat) : List SubmittedSyncMutationWire :=
  ((pushQueue sampleJson Symbolic.platform "device").run ⟨sampleStore, []⟩
    (sampleEpochs second)).store.outbox.map OutboxRow.mutation

/-- The device holds the lease of the epoch. -/
def sampleHolder (epoch : Nat) : DeviceTables where
  accountState := true
  bindings := [⟨"device", .bound⟩]
  allocations := [⟨epoch, some "workspace", .activated⟩]
  leases := [⟨epoch, "device", 100, none⟩]
  bindingKey := nodup_singleton _
  allocationKey := nodup_singleton _
  leaseKey := nodup_singleton _
  oneHeld := Nat.le_refl 1

/-- Each mutation lands while its lease is held, the later one first. -/
def sampleLandings (second : Nat) : List DrainLanding :=
  ((sampleEpochMutations second).reverse).map fun m => ⟨sampleHolder m.activeLeaseEpoch, 10, m⟩

def sampleLanded (second : Nat) : DrainTables :=
  match landAll checksum sampleScope (fun _ => [0]) .empty (sampleLandings second) with
  | .ok L => L
  | .error _ => .empty

theorem mem_sampleLandings (second : Nat) (m : SubmittedSyncMutationWire)
    (_ : m.sourceDeviceId = "device") :
    m ∈ (sampleLandings second).map DrainLanding.mutation ↔ m ∈ sampleEpochMutations second := by
  rw [sampleLandings, List.map_map]
  exact ⟨fun h => mem_reverse.mp (by simpa using h), fun h => by simpa using h⟩

theorem drainHeads_complete_iff_sample :
    (sampleEpochMutations 1).length = 2 ∧ ∀ e, (sampleLanded 1).Complete checksum "device" e ∧
      (sampleLanded 1).Sealable checksum "device" e := by
  have hland : landAll checksum sampleScope (fun _ => [0]) .empty (sampleLandings 1) =
      .ok (sampleLanded 1) := by decide +kernel
  exact ⟨by decide, (drainHeads_complete_iff sampleJson Symbolic.platform checksum sampleScope
    (fun _ => [0]) "device" rfl rfl (sampleEpochs 1) rfl hland (mem_sampleLandings 1)).mpr
      (by decide)⟩

/-- The second epoch's head stays at 0 below its only mutation. -/
theorem not_drainHeads_complete_second :
    landAll checksum sampleScope (fun _ => [0]) .empty (sampleLandings 3) = .ok (sampleLanded 3) ∧
      (sampleEpochMutations 3).map (·.deviceMutationSequence) = [1, 2] ∧
      ((sampleLanded 3).foldHead checksum "device" 3).contiguous = 0 ∧
      ((sampleLanded 3).foldHead checksum "device" 3).highest = 2 ∧
      ¬ (sampleLanded 3).Complete checksum "device" 3 ∧
      ¬ (sampleLanded 3).Sealable checksum "device" 3 := by
  have hcomplete : ¬ (sampleLanded 3).Complete checksum "device" 3 := by
    rw [DrainTables.Complete]
    decide +kernel
  refine ⟨by decide +kernel, by decide, by decide +kernel, by decide +kernel, hcomplete, ?_⟩
  intro hsealable
  obtain ⟨_, _, _, _, hseal⟩ := hsealable (sampleHolder 3) sampleScope 10 (by decide)
  exact hcomplete (complete_of_installAcceptedSeal hseal)

end

end GoodDealer.Sync
