/-
# `GoodDealer.Cloud.DrainLedger` — who may push, and the drain ledger of the database

Two layers decide on the epoch of a pushed mutation.  The device mutation
authority (`lockAndValidateActiveLease`) looks at the device: it holds the
account's lease now, and had the epoch's lease at some time.  The stored
procedures of the drain ledger look at the epoch: its own lease is the one held
(`assertActiveDomain`).

* `assertActiveDomain_iff` — the ledger admits what the authority admits, except
  epochs whose lease has been released.
* `appendAccepted_iff` — so an admitted batch is persisted without a refusal of
  authority exactly when no lease of its epochs has been released.

Rows are those of one tenant; what the tables' keys and indices enforce is
carried by `DeviceTables` and `DrainTables`.  An exception is an error and rolls
the transaction back.
-/
import GoodDealer.Cloud.State
import GoodDealer.Cloud.DrainWatermarks

namespace GoodDealer.Cloud

open List Keyed

variable {scope : TenantScope} {now : Instant} {d : String} {e : Nat} {sha256 : Bytes → Digest}

/-! ## Devices and leases -/

inductive DeviceBindingStatus where
  | bound
  | removed
deriving DecidableEq

structure DeviceBinding where
  deviceId : String
  status : DeviceBindingStatus
deriving DecidableEq

inductive LeaseAllocationStatus where
  | pending
  | burned
  | activated
deriving DecidableEq

/-- `device_lease_epoch_allocations`; a desktop login allocates for no workspace. -/
structure LeaseEpochAllocation where
  leaseEpoch : Nat
  workspaceId : Option String
  status : LeaseAllocationStatus
deriving DecidableEq

/-- `device_active_leases`. -/
structure ActiveLease where
  leaseEpoch : Nat
  deviceId : String
  offlineExecuteUntil : Instant
  releasedAt : Option Instant
deriving DecidableEq

/-- The device tables of one account. -/
structure DeviceTables where
  accountState : Bool
  bindings : List DeviceBinding
  allocations : List LeaseEpochAllocation
  leases : List ActiveLease
  bindingKey : (bindings.map DeviceBinding.deviceId).Nodup
  allocationKey : (allocations.map LeaseEpochAllocation.leaseEpoch).Nodup
  leaseKey : (leases.map ActiveLease.leaseEpoch).Nodup
  /-- `device_active_leases_one_held`. -/
  oneHeld : (leases.filter (fun l => l.releasedAt.isNone)).length ≤ 1

/-- `WorkspaceTenantScope`. -/
structure TenantScope where
  accountId : String
  workspaceId : String
  valid : validIdentifier accountId = true ∧ validIdentifier workspaceId = true
deriving DecidableEq

namespace DeviceTables

variable (T : DeviceTables) (scope : TenantScope) (now : Instant)

def bound (deviceId : String) : Bool :=
  (Keyed.lookup DeviceBinding.deviceId deviceId T.bindings).any (fun b => b.status = .bound)

/-- The join with the allocation of the epoch, activated for this workspace. -/
def activated (leaseEpoch : Nat) : Bool :=
  T.allocations.any (fun a => a.leaseEpoch = leaseEpoch && a.workspaceId = some scope.workspaceId &&
    a.status = .activated)

/-- A lease that is neither released nor run out. -/
def held (l : ActiveLease) : Bool :=
  l.releasedAt.isNone && now < l.offlineExecuteUntil && T.activated scope l.leaseEpoch

/-- `lockAndValidateActiveLease`. -/
def lockAndValidateActiveLease (sourceDeviceId : String) (activeLeaseEpoch : Nat) : Bool :=
  if ¬ (validIdentifier sourceDeviceId ∧ 1 ≤ activeLeaseEpoch ∧
    activeLeaseEpoch ≤ maxSafeInteger) then
    false
  else if ¬ T.accountState then false
  else if ¬ T.bound sourceDeviceId then false
  else
    match T.leases.find? (T.held scope now) with
    | none => false
    | some lease =>
      if lease.deviceId ≠ sourceDeviceId then false
      else (T.leases.filter (fun l => l.deviceId = sourceDeviceId &&
        l.leaseEpoch = activeLeaseEpoch && T.activated scope l.leaseEpoch)).length == 1

end DeviceTables

/-- What the stored procedures raise. -/
inductive DrainError where
  | selectorsUnresolved
  | domainAuthorityUnresolved
  | appendMalformed
  | domainSealed
  | sequenceConflict
  | sealSelectorsUnresolved
  | sealProofReused
deriving DecidableEq

namespace DrainError

def code : DrainError → String
  | selectorsUnresolved => "42501"
  | domainAuthorityUnresolved => "42501"
  | appendMalformed => "22023"
  | domainSealed => "55000"
  | sequenceConflict => "23505"
  | sealSelectorsUnresolved => "42501"
  | sealProofReused => "23505"

def message : DrainError → String
  | selectorsUnresolved => "mutation drain selectors are unresolved"
  | domainAuthorityUnresolved => "mutation drain domain authority is unresolved"
  | appendMalformed => "mutation drain append is malformed"
  | domainSealed => "mutation drain domain is sealed"
  | sequenceConflict => "mutation device_mutation_sequence conflicts with immutable drain evidence"
  | sealSelectorsUnresolved => "mutation drain seal selectors are unresolved"
  | sealProofReused => "duplicate key value violates unique constraint"

/-- `insufficient_privilege`. -/
def OnAuthority (e : DrainError) : Prop := e.code = "42501"

instance (e : DrainError) : Decidable e.OnAuthority := inferInstanceAs (Decidable (_ = _))

end DrainError

/-- The selector checks the procedures share. -/
def validSelectors (sourceDeviceId : String) (activeLeaseEpoch : Nat) : Bool :=
  validIdentifier sourceDeviceId && 1 ≤ activeLeaseEpoch && activeLeaseEpoch ≤ maxSafeInteger

/-- `workspace_mutation_drain_assert_active_domain`. -/
def assertActiveDomain (T : DeviceTables) (scope : TenantScope) (now : Instant)
    (sourceDeviceId : String) (activeLeaseEpoch : Nat) : Except DrainError Unit :=
  if ¬ validSelectors sourceDeviceId activeLeaseEpoch then .error .selectorsUnresolved
  else if ¬ T.accountState then .error .domainAuthorityUnresolved
  else if ¬ T.bound sourceDeviceId then .error .domainAuthorityUnresolved
  else if ¬ T.leases.any (fun l => l.deviceId = sourceDeviceId && l.leaseEpoch = activeLeaseEpoch &&
      T.held scope now l) then .error .domainAuthorityUnresolved
  else .ok ()

/-- The lease of the epoch, if there is one, has not been released. -/
def DeviceTables.Unreleased (T : DeviceTables) (leaseEpoch : Nat) : Prop :=
  ∀ l ∈ T.leases, l.leaseEpoch = leaseEpoch → l.releasedAt = none

instance (T : DeviceTables) (leaseEpoch : Nat) : Decidable (T.Unreleased leaseEpoch) :=
  inferInstanceAs (Decidable (∀ l ∈ T.leases, l.leaseEpoch = leaseEpoch → l.releasedAt = none))

/-! ### The two layers compared -/

section

variable {T : DeviceTables}

/-- At most one lease of the account is held. -/
theorem DeviceTables.held_unique {l l' : ActiveLease} (hl : l ∈ T.leases) (hl' : l' ∈ T.leases)
    (h : l.releasedAt = none) (h' : l'.releasedAt = none) : l = l' := by
  have hmem : l ∈ T.leases.filter (fun l => l.releasedAt.isNone) := by
    simp [mem_filter, hl, h]
  have hmem' : l' ∈ T.leases.filter (fun l => l.releasedAt.isNone) := by
    simp [mem_filter, hl', h']
  have hone := T.oneHeld
  match hfilter : T.leases.filter (fun l => l.releasedAt.isNone) with
  | [] => rw [hfilter] at hmem; cases hmem
  | [x] =>
    rw [hfilter] at hmem hmem'
    rw [mem_singleton.mp hmem, mem_singleton.mp hmem']
  | x :: y :: rest =>
    rw [hfilter] at hone
    simp at hone

theorem held_iff {l : ActiveLease} :
    T.held scope now l = true ↔
      l.releasedAt = none ∧ now < l.offlineExecuteUntil ∧
        T.activated scope l.leaseEpoch = true := by
  simp [DeviceTables.held, and_assoc]

/-- The query for the epoch's lease returns one row or none. -/
theorem historical_iff :
    (T.leases.filter (fun l => l.deviceId = d && l.leaseEpoch = e &&
      T.activated scope l.leaseEpoch)).length = 1 ↔
      ∃ l ∈ T.leases, l.deviceId = d ∧ l.leaseEpoch = e ∧ T.activated scope e = true := by
  have hle : (T.leases.filter (fun l => l.deviceId = d && l.leaseEpoch = e &&
      T.activated scope l.leaseEpoch)).length ≤ 1 := by
    refine le_trans (List.Sublist.length_le ?_) (length_filter_le_one T.leaseKey e)
    apply monotone_filter_right
    intro l hl
    simp only [Bool.and_eq_true, decide_eq_true_eq] at hl ⊢
    exact hl.1.2
  constructor
  · intro hone
    obtain ⟨l, hl⟩ := length_pos_iff_exists_mem.mp (by omega :
      0 < (T.leases.filter (fun l => l.deviceId = d && l.leaseEpoch = e &&
        T.activated scope l.leaseEpoch)).length)
    simp only [mem_filter, Bool.and_eq_true, decide_eq_true_eq] at hl
    exact ⟨l, hl.1, hl.2.1.1, hl.2.1.2, hl.2.1.2 ▸ hl.2.2⟩
  · rintro ⟨l, hl, hd, he, hact⟩
    refine le_antisymm hle (length_pos_iff_exists_mem.mpr ⟨l, ?_⟩)
    simp only [mem_filter, Bool.and_eq_true, decide_eq_true_eq]
    exact ⟨hl, ⟨hd, he⟩, he ▸ hact⟩

/-- What the authority checks: the device holds the account's lease, and the epoch's lease
was its own. -/
theorem lockAndValidateActiveLease_iff :
    T.lockAndValidateActiveLease scope now d e = true ↔
      validSelectors d e = true ∧ T.accountState = true ∧ T.bound d = true ∧
        (∃ l ∈ T.leases, T.held scope now l = true ∧ l.deviceId = d) ∧
        ∃ l ∈ T.leases, l.deviceId = d ∧ l.leaseEpoch = e ∧ T.activated scope e = true := by
  have hsel : (validIdentifier d = true ∧ 1 ≤ e ∧ e ≤ maxSafeInteger) ↔
      validSelectors d e = true := by
    simp [validSelectors, and_assoc]
  unfold DeviceTables.lockAndValidateActiveLease
  simp only [hsel]
  by_cases h1 : validSelectors d e = true <;> by_cases h2 : T.accountState = true <;>
    by_cases h3 : T.bound d = true <;> simp only [h1, h2, h3, not_true, not_false_iff, if_true,
      if_false, false_and, and_false, true_and, Bool.false_eq_true]
  cases hfind : T.leases.find? (T.held scope now) with
  | none =>
    have hnone := List.find?_eq_none.mp hfind
    simp only [Bool.false_eq_true, false_iff]
    rintro ⟨⟨l, hl, hheld, -⟩, -⟩
    exact hnone l hl hheld
  | some lease =>
    have hmem := mem_of_find?_eq_some hfind
    have hheld : T.held scope now lease = true := List.find?_some hfind
    have hdevice : (∃ l ∈ T.leases, T.held scope now l = true ∧ l.deviceId = d) ↔
        lease.deviceId = d := by
      constructor
      · rintro ⟨l, hl, hl', rfl⟩
        rw [T.held_unique hmem hl (held_iff.mp hheld).1 (held_iff.mp hl').1]
      · intro h
        exact ⟨lease, hmem, hheld, h⟩
    rw [hdevice]
    by_cases hd : lease.deviceId = d
    · simp only [hd, ne_eq, not_true, if_false, true_and, beq_iff_eq]
      exact historical_iff
    · simp [hd]

theorem assertActiveDomain_eq_ok :
    assertActiveDomain T scope now d e = .ok () ↔
      validSelectors d e = true ∧ T.accountState = true ∧ T.bound d = true ∧
        ∃ l ∈ T.leases, l.deviceId = d ∧ l.leaseEpoch = e ∧ T.held scope now l = true := by
  unfold assertActiveDomain
  by_cases h1 : validSelectors d e = true <;> by_cases h2 : T.accountState = true <;>
    by_cases h3 : T.bound d = true <;> simp [h1, h2, h3, and_assoc]

variable (T scope now d e) in
/-- The procedures refuse a domain on authority grounds only. -/
theorem assertActiveDomain_cases :
    assertActiveDomain T scope now d e = .ok () ∨
      ∃ err : DrainError, assertActiveDomain T scope now d e = .error err ∧ err.OnAuthority := by
  unfold assertActiveDomain
  split
  · exact .inr ⟨_, rfl, rfl⟩
  split
  · exact .inr ⟨_, rfl, rfl⟩
  split
  · exact .inr ⟨_, rfl, rfl⟩
  split
  · exact .inr ⟨_, rfl, rfl⟩
  · exact .inl rfl

/-- The ledger admits a pair of device and epoch when the authority does and the lease of
the epoch has not been released. -/
theorem assertActiveDomain_iff :
    assertActiveDomain T scope now d e = .ok () ↔
      T.lockAndValidateActiveLease scope now d e = true ∧ T.Unreleased e := by
  rw [assertActiveDomain_eq_ok, lockAndValidateActiveLease_iff]
  constructor
  · rintro ⟨hsel, hacc, hbound, l, hl, hd, he, hheld⟩
    refine ⟨⟨hsel, hacc, hbound, ⟨l, hl, hheld, hd⟩, l, hl, hd, he, ?_⟩, ?_⟩
    · exact he ▸ (held_iff.mp hheld).2.2
    · intro l' hl' he'
      rw [inj_on_of_nodup_map T.leaseKey hl' hl (he'.trans he.symm)]
      exact (held_iff.mp hheld).1
  · rintro ⟨⟨hsel, hacc, hbound, ⟨l, hl, hheld, hd⟩, l', hl', hd', he', -⟩, hun⟩
    -- the epoch's lease is not released, so it is the one the device holds
    have hsame : l' = l := T.held_unique hl' hl (hun l' hl' he') (held_iff.mp hheld).1
    exact ⟨hsel, hacc, hbound, l, hl, hd, hsame ▸ he', hheld⟩

end

/-! ## The ledger -/

/-- `mutation_drain_records`. -/
structure DrainRecord where
  sourceDeviceId : String
  activeLeaseEpoch : Nat
  deviceMutationSequence : Nat
  canonicalEnvelope : Bytes
  envelopeDigest : Digest
  quarantineReason : Option DrainQuarantineReason
deriving DecidableEq

/-- The primary key. -/
def DrainRecord.key (r : DrainRecord) : String × Nat × Nat :=
  (r.sourceDeviceId, r.activeLeaseEpoch, r.deviceMutationSequence)

/-- `mutation_drain_heads`. -/
structure DrainHead where
  sourceDeviceId : String
  activeLeaseEpoch : Nat
  head : Watermark.Pass Digest
deriving DecidableEq

def DrainHead.key (h : DrainHead) : String × Nat := (h.sourceDeviceId, h.activeLeaseEpoch)

/-- `mutation_drain_seals`. -/
structure DrainSeal where
  sourceDeviceId : String
  activeLeaseEpoch : Nat
  lastAssignedDeviceMutationSequence : Nat
  rollingDigest : Digest
  proofId : String
deriving DecidableEq

def DrainSeal.key (s : DrainSeal) : String × Nat := (s.sourceDeviceId, s.activeLeaseEpoch)

structure DrainTables where
  records : List DrainRecord
  recordKey : (records.map DrainRecord.key).Nodup
  heads : List DrainHead
  seals : List DrainSeal
deriving DecidableEq

namespace DrainTables

def empty : DrainTables := ⟨[], nodup_nil, [], []⟩

variable (sha256 : Bytes → Digest) (L : DrainTables)

/-- The records of one device and epoch. -/
def domainRecords (sourceDeviceId : String) (activeLeaseEpoch : Nat) : List DrainRecord :=
  L.records.filter (fun r => r.sourceDeviceId = sourceDeviceId &&
    r.activeLeaseEpoch = activeLeaseEpoch)

/-- One more envelope: `sha256(v_digest || int4send(octet_length(…)) || …)`. -/
def drainStep (digest : Digest) (r : DrainRecord) : Digest :=
  sha256 (digest.bytes ++ Bytes.lengthPrefixed r.canonicalEnvelope)

/-- `sha256(convert_to('GOODDEALER-DRAIN-SHA256-V1', 'UTF8'))`. -/
def genesis : Digest := sha256 "GOODDEALER-DRAIN-SHA256-V1".toUTF8.toList

/-- The loop over the records of the domain, ordered by sequence. -/
def foldHead (sourceDeviceId : String) (activeLeaseEpoch : Nat) : Watermark.Pass Digest :=
  Watermark.scan DrainRecord.deviceMutationSequence (drainStep sha256) (genesis sha256)
    (sortByKey DrainRecord.deviceMutationSequence
      (L.domainRecords sourceDeviceId activeLeaseEpoch))

/-- The head of the domain, written over the one that is there. -/
def writeHead (sourceDeviceId : String) (activeLeaseEpoch : Nat) : DrainTables :=
  let head := L.foldHead sha256 sourceDeviceId activeLeaseEpoch
  { L with
    heads := Keyed.put DrainHead.key ⟨sourceDeviceId, activeLeaseEpoch, head⟩
      (fun h => { h with head := head }) L.heads }

def record (key : String × Nat × Nat) : Option DrainRecord :=
  Keyed.lookup DrainRecord.key key L.records

def sealed (sourceDeviceId : String) (activeLeaseEpoch : Nat) : Bool :=
  (Keyed.lookup DrainSeal.key (sourceDeviceId, activeLeaseEpoch) L.seals).isSome

/-- `INSERT` of a record whose key is free. -/
def insert (r : DrainRecord) (h : L.record r.key = none) : DrainTables :=
  { L with
    records := L.records ++ [r]
    recordKey := nodup_append_new L.recordKey h }

/-- `INSERT … ON CONFLICT DO NOTHING`, and the comparison with the record that is there. -/
def append (r : DrainRecord) : Except DrainError DrainTables :=
  if h : L.record r.key = none then .ok (L.insert r h)
  else if L.record r.key = some r then .ok L
  else .error .sequenceConflict

end DrainTables

/-- The arguments that an append does not refuse as malformed. -/
def WellFormedAppend (sourceDeviceId : String) (activeLeaseEpoch deviceMutationSequence : Nat)
    (canonicalEnvelope : Bytes) : Prop :=
  validSelectors sourceDeviceId activeLeaseEpoch ∧ validSequence deviceMutationSequence ∧
    1 ≤ canonicalEnvelope.length ∧ canonicalEnvelope.length ≤ 65536

instance (d : String) (e n : Nat) (envelope : Bytes) :
    Decidable (WellFormedAppend d e n envelope) :=
  inferInstanceAs (Decidable (_ ∧ _))

section

variable (sha256 : Bytes → Digest) (T : DeviceTables) (scope : TenantScope) (now : Instant)
  (L : DrainTables) (sourceDeviceId : String) (activeLeaseEpoch : Nat)

/-- `workspace_mutation_drain_recompute_head`. -/
def recomputeHead : Except DrainError (DrainTables × Watermark.Pass Digest) :=
  if ¬ validSelectors sourceDeviceId activeLeaseEpoch then .error .selectorsUnresolved
  else
    match assertActiveDomain T scope now sourceDeviceId activeLeaseEpoch with
    | .error e => .error e
    | .ok () => .ok (L.writeHead sha256 sourceDeviceId activeLeaseEpoch,
        L.foldHead sha256 sourceDeviceId activeLeaseEpoch)

/-- `workspace_mutation_drain_lock_domain`. -/
def lockDomain : Except DrainError (DrainTables × Watermark.Pass Digest × Bool) :=
  if ¬ validSelectors sourceDeviceId activeLeaseEpoch then .error .selectorsUnresolved
  else
    match recomputeHead sha256 T scope now L sourceDeviceId activeLeaseEpoch with
    | .error e => .error e
    | .ok (locked, head) => .ok (locked, head, locked.sealed sourceDeviceId activeLeaseEpoch)

/-- `workspace_mutation_drain_append_record`. -/
def appendRecord (deviceMutationSequence : Nat) (canonicalEnvelope : Bytes) :
    Except DrainError (DrainTables × Digest) :=
  if ¬ WellFormedAppend sourceDeviceId activeLeaseEpoch deviceMutationSequence
    canonicalEnvelope then
    .error .appendMalformed
  else
    match lockDomain sha256 T scope now L sourceDeviceId activeLeaseEpoch with
    | .error e => .error e
    | .ok (locked, _, isSealed) =>
      if isSealed then .error .domainSealed
      else
        match locked.append ⟨sourceDeviceId, activeLeaseEpoch, deviceMutationSequence,
          canonicalEnvelope, sha256 canonicalEnvelope, none⟩ with
        | .error e => .error e
        | .ok appended =>
          match recomputeHead sha256 T scope now appended sourceDeviceId activeLeaseEpoch with
          | .error e => .error e
          | .ok (written, _) => .ok (written, sha256 canonicalEnvelope)

end

/-- The appends of a batch's accepted mutations, in one transaction. -/
def appendAccepted (sha256 : Bytes → Digest) (T : DeviceTables) (scope : TenantScope)
    (now : Instant) (envelope : SubmittedSyncMutation → Bytes) :
    DrainTables → List SubmittedSyncMutation → Except DrainError DrainTables
  | L, [] => .ok L
  | L, m :: ms =>
    (appendRecord sha256 T scope now L m.sourceDeviceId m.activeLeaseEpoch
      m.deviceMutationSequence (envelope m)).bind fun appended =>
        appendAccepted sha256 T scope now envelope appended.1 ms

/-! ### What an append does -/

section

variable {T : DeviceTables} {L L' : DrainTables}

@[simp] theorem writeHead_seals : (L.writeHead sha256 d e).seals = L.seals := rfl

@[simp] theorem writeHead_sealed (d' : String) (e' : Nat) :
    (L.writeHead sha256 d e).sealed d' e' = L.sealed d' e' := rfl

section

variable (h : assertActiveDomain T scope now d e = .ok ())

include h

theorem recomputeHead_of_ok :
    recomputeHead sha256 T scope now L d e =
      .ok (L.writeHead sha256 d e, L.foldHead sha256 d e) := by
  have hsel := (assertActiveDomain_eq_ok.mp h).1
  simp [recomputeHead, hsel, h]

end

variable {n : Nat} {envelope : Bytes} {err : DrainError} {r : DrainRecord}

theorem appendRecord_unauthorized (hwf : WellFormedAppend d e n envelope)
    (h : assertActiveDomain T scope now d e = .error err) :
    appendRecord sha256 T scope now L d e n envelope = .error err := by
  unfold appendRecord
  rw [if_neg (not_not.mpr hwf)]
  simp [lockDomain, recomputeHead, hwf.1, h]

/-- An append with authority: refused for the seal or for a different record, or done. -/
theorem appendRecord_authorized (hwf : WellFormedAppend d e n envelope)
    (h : assertActiveDomain T scope now d e = .ok ()) :
    appendRecord sha256 T scope now L d e n envelope =
      if L.sealed d e then .error .domainSealed
      else
        match (L.writeHead sha256 d e).append ⟨d, e, n, envelope, sha256 envelope, none⟩ with
        | .error err => .error err
        | .ok appended => .ok (appended.writeHead sha256 d e, sha256 envelope) := by
  unfold appendRecord
  rw [if_neg (not_not.mpr hwf)]
  simp [lockDomain, hwf.1, recomputeHead_of_ok h]

theorem append_ok (h : L.append r = .ok L') :
    (∀ x, x ∈ L'.records ↔ x ∈ L.records ∨ x = r) ∧ L'.seals = L.seals ∧ L'.heads = L.heads := by
  unfold DrainTables.append at h
  split at h
  next hnone =>
    cases h
    refine ⟨fun x => ?_, rfl, rfl⟩
    rw [DrainTables.insert, mem_append, mem_singleton]
  next =>
  split at h
  next hsome =>
    cases h
    have hmem := (lookup_eq_some hsome).1
    refine ⟨fun x => ⟨.inl, ?_⟩, rfl, rfl⟩
    rintro (hx | rfl)
    · exact hx
    · exact hmem
  · cases h

theorem append_error (h : L.append r = .error err) : err = .sequenceConflict := by
  unfold DrainTables.append at h
  split at h
  · cases h
  split at h
  · cases h
  · cases h
    rfl

/-- An append that succeeded. -/
structure Appended (sha256 : Bytes → Digest) (T : DeviceTables) (scope : TenantScope)
    (now : Instant)
    (L : DrainTables) (d : String) (e n : Nat) (envelope : Bytes) (L' : DrainTables) : Prop where
  wellFormed : WellFormedAppend d e n envelope
  authority : assertActiveDomain T scope now d e = .ok ()
  unsealed : L.sealed d e = false
  records : ∀ x, x ∈ L'.records ↔
    x ∈ L.records ∨ x = ⟨d, e, n, envelope, sha256 envelope, none⟩
  seals : L'.seals = L.seals
  heads : ∃ appended : DrainTables, appended.heads = (L.writeHead sha256 d e).heads ∧
    L' = appended.writeHead sha256 d e

theorem appendRecord_ok {digest : Digest}
    (h : appendRecord sha256 T scope now L d e n envelope = .ok (L', digest)) :
    Appended sha256 T scope now L d e n envelope L' := by
  by_cases hwf : WellFormedAppend d e n envelope
  · rcases assertActiveDomain_cases scope now d e T with hok | ⟨err, herr, -⟩
    · rw [appendRecord_authorized hwf hok] at h
      split at h
      · cases h
      next hunsealed =>
      split at h
      · cases h
      next appended happend =>
        cases h
        obtain ⟨hrecords, hseals, hheads⟩ := append_ok happend
        exact ⟨hwf, hok, by simpa using hunsealed, hrecords, hseals, appended, hheads, rfl⟩
    · rw [appendRecord_unauthorized hwf herr] at h
      cases h
  · rw [appendRecord, if_pos hwf] at h
    cases h

/-- With authority no append is refused on authority grounds. -/
theorem appendRecord_not_onAuthority (hok : assertActiveDomain T scope now d e = .ok ())
    (h : appendRecord sha256 T scope now L d e n envelope = .error err) : ¬ err.OnAuthority := by
  by_cases hwf : WellFormedAppend d e n envelope
  · rw [appendRecord_authorized hwf hok] at h
    split at h
    · cases h
      decide
    split at h
    next herr =>
      cases h
      rw [append_error herr]
      decide
    · cases h
  · rw [appendRecord, if_pos hwf] at h
    cases h
    decide

end

/-! ## Persisting an admitted batch -/

section

variable {T : DeviceTables}

/-- A mutation whose domain has authority. -/
def Authorized (T : DeviceTables) (scope : TenantScope) (now : Instant)
    (m : SubmittedSyncMutation) : Prop :=
  assertActiveDomain T scope now m.sourceDeviceId m.activeLeaseEpoch = .ok ()

/-- With authority for each mutation, the batch is not refused on authority grounds. -/
theorem appendAccepted_not_onAuthority {envelope : SubmittedSyncMutation → Bytes} :
    ∀ {ms : List SubmittedSyncMutation} {L : DrainTables} {err : DrainError},
      (∀ m ∈ ms, Authorized T scope now m) →
      appendAccepted sha256 T scope now envelope L ms = .error err → ¬ err.OnAuthority := by
  intro ms
  induction ms with
  | nil =>
    intro L err _ h
    cases h
  | cons m ms ih =>
    intro L err hok h
    rw [appendAccepted] at h
    cases happend : appendRecord sha256 T scope now L m.sourceDeviceId m.activeLeaseEpoch
        m.deviceMutationSequence (envelope m) with
    | error err' =>
      rw [happend] at h
      cases h
      exact appendRecord_not_onAuthority (hok m mem_cons_self) happend
    | ok appended =>
      rw [happend] at h
      exact ih (forall_mem_cons.mp hok).2 h

/-- A ledger in which nothing can get into the way of the one-byte envelope. -/
structure Trivial (sha256 : Bytes → Digest) (L : DrainTables) : Prop where
  unsealed : L.seals = []
  records : ∀ r ∈ L.records, r = { r with
    canonicalEnvelope := [0], envelopeDigest := sha256 [0], quarantineReason := none }

/-- The append of a submitted mutation is not malformed. -/
theorem wellFormedAppend_submitted (m : SubmittedSyncMutation) :
    WellFormedAppend m.sourceDeviceId m.activeLeaseEpoch m.deviceMutationSequence [0] := by
  have hsel := m.valid
  simp [WellFormedAppend, validSelectors, validSequence, hsel.sourceDeviceId,
    hsel.activeLeaseEpoch.1, hsel.activeLeaseEpoch.2, hsel.deviceMutationSequence.1,
    hsel.deviceMutationSequence.2]

theorem Trivial.append {L : DrainTables} (h : Trivial sha256 L) {m : SubmittedSyncMutation}
    (hok : Authorized T scope now m) :
    ∃ L', appendRecord sha256 T scope now L m.sourceDeviceId m.activeLeaseEpoch
        m.deviceMutationSequence [0] = .ok (L', sha256 [0]) ∧ Trivial sha256 L' := by
  have hunsealed : L.sealed m.sourceDeviceId m.activeLeaseEpoch = false := by
    simp [DrainTables.sealed, h.unsealed]
  obtain ⟨appended, happend⟩ : ∃ appended, (L.writeHead sha256 m.sourceDeviceId
      m.activeLeaseEpoch).append ⟨m.sourceDeviceId, m.activeLeaseEpoch, m.deviceMutationSequence,
        [0], sha256 [0], none⟩ = .ok appended := by
    unfold DrainTables.append
    split
    · exact ⟨_, rfl⟩
    next hne =>
    obtain ⟨r, hr⟩ := Option.ne_none_iff_exists'.mp hne
    obtain ⟨hmem, hkey⟩ := lookup_eq_some hr
    -- the record that is there has the same envelope, so the append is a repetition
    have hsame := h.records r hmem
    simp only [DrainRecord.key, Prod.mk.injEq] at hkey
    rw [hkey.1, hkey.2.1, hkey.2.2] at hsame
    rw [hr, if_pos (congrArg some hsame)]
    exact ⟨_, rfl⟩
  refine ⟨appended.writeHead sha256 m.sourceDeviceId m.activeLeaseEpoch, ?_, ?_⟩
  · rw [appendRecord_authorized (wellFormedAppend_submitted m) hok, hunsealed, happend]
    rfl
  · obtain ⟨hrecords, hseals, -⟩ := append_ok happend
    refine ⟨hseals.trans h.unsealed, fun r hr => ?_⟩
    rcases (hrecords r).mp hr with hr | rfl
    · exact h.records r hr
    · rfl

/-- In such a ledger the first mutation without authority is what refuses the batch. -/
theorem Trivial.refused : ∀ {ms : List SubmittedSyncMutation} {L : DrainTables},
    Trivial sha256 L → (∃ m ∈ ms, ¬ Authorized T scope now m) →
      ∃ err, appendAccepted sha256 T scope now (fun _ => [0]) L ms = .error err ∧
        err.OnAuthority := by
  intro ms
  induction ms with
  | nil =>
    rintro L _ ⟨m, hm, -⟩
    cases hm
  | cons m ms ih =>
    rintro L hL ⟨x, hx, hbad⟩
    by_cases hok : Authorized T scope now m
    · obtain ⟨L', happend, hL'⟩ := hL.append hok
      have hx' : x ∈ ms := by
        rcases mem_cons.mp hx with rfl | hx
        · exact absurd hok hbad
        · exact hx
      obtain ⟨err, herr, hauth⟩ := ih hL' ⟨x, hx', hbad⟩
      refine ⟨err, ?_, hauth⟩
      rw [appendAccepted, happend]
      exact herr
    · obtain ⟨err, herr, hauth⟩ :=
        (assertActiveDomain_cases scope now m.sourceDeviceId m.activeLeaseEpoch T).resolve_left hok
      refine ⟨err, ?_, hauth⟩
      rw [appendAccepted, appendRecord_unauthorized (wellFormedAppend_submitted m) herr]
      rfl

/-- The ledger admits the pairs of device and epoch that the authority admits and whose
lease has not been released.  So a batch the authority admits is persisted, in every state
of the ledger and whatever the envelopes are, without a refusal on authority grounds exactly
when no lease of an accepted mutation's epoch has been released. -/
theorem appendAccepted_iff (sha256 : Bytes → Digest) (T : DeviceTables) (scope : TenantScope)
    (now : Instant) {batch accepted : List SubmittedSyncMutation} (hsub : accepted ⊆ batch)
    (hlease : ∀ m ∈ batch,
      T.lockAndValidateActiveLease scope now m.sourceDeviceId m.activeLeaseEpoch = true) :
    ((∀ (envelope : SubmittedSyncMutation → Bytes) (L : DrainTables) (err : DrainError),
        appendAccepted sha256 T scope now envelope L accepted = .error err → ¬ err.OnAuthority) ↔
      ∀ m ∈ accepted, T.Unreleased m.activeLeaseEpoch) ∧
    ∀ d e, assertActiveDomain T scope now d e = .ok () ↔
      T.lockAndValidateActiveLease scope now d e = true ∧ T.Unreleased e := by
  have hauth : ∀ m ∈ accepted, Authorized T scope now m ↔ T.Unreleased m.activeLeaseEpoch := by
    intro m hm
    rw [Authorized, assertActiveDomain_iff]
    exact and_iff_right (hlease m (hsub hm))
  refine ⟨⟨?_, ?_⟩, fun d e => assertActiveDomain_iff⟩
  · intro h m hm
    by_contra hreleased
    have hempty : Trivial sha256 DrainTables.empty := ⟨rfl, by rintro _ ⟨⟩⟩
    obtain ⟨err, herr, honAuth⟩ :=
      hempty.refused ⟨m, hm, fun hok => hreleased ((hauth m hm).mp hok)⟩
    exact h _ _ err herr honAuth
  · intro hun envelope L err herr
    exact appendAccepted_not_onAuthority (fun m hm => (hauth m hm).mpr (hun m hm)) herr

end

/-- The device had epoch 1 until another took over, and took over again with epoch 3. -/
def sampleDevices : DeviceTables where
  accountState := true
  bindings := [⟨"device", .bound⟩, ⟨"other", .bound⟩]
  allocations := [⟨1, some "workspace", .activated⟩, ⟨2, some "workspace", .activated⟩,
    ⟨3, some "workspace", .activated⟩]
  leases := [⟨1, "device", 100, some 5⟩, ⟨2, "other", 100, some 6⟩, ⟨3, "device", 100, none⟩]
  bindingKey := by decide
  allocationKey := by decide
  leaseKey := by decide
  oneHeld := by decide

def sampleScope : TenantScope := ⟨"account", "workspace", by decide⟩

def sampleEpochNote (epoch sequence : Nat) : SubmittedSyncMutationWire where
  mutationId := "m"
  workspaceSchemaVersion := 1
  entityId := "a.example"
  operationKind := .upsert
  deletedAt := none
  baseServerRevision := 0
  changedFields := [.note (some "mine")]
  sourceDeviceId := "device"
  activeLeaseEpoch := epoch
  deviceMutationSequence := sequence

/-- Committed offline, before the takeover. -/
def sampleHistorical : SubmittedSyncMutation := ⟨sampleEpochNote 1 1, by decide⟩

def sampleCurrent : SubmittedSyncMutation := ⟨sampleEpochNote 3 1, by decide⟩

theorem appendAccepted_iff_current :
    (∀ m ∈ [sampleCurrent], sampleDevices.lockAndValidateActiveLease sampleScope 10
      m.sourceDeviceId m.activeLeaseEpoch = true) ∧
    ∀ envelope L err, appendAccepted checksum sampleDevices sampleScope 10 envelope L
      [sampleCurrent] = .error err → ¬ err.OnAuthority :=
  ⟨by decide, (appendAccepted_iff checksum sampleDevices sampleScope 10 (List.Subset.refl _)
    (by decide)).1.mpr (by decide)⟩

theorem not_appendAccepted_historical :
    sampleDevices.lockAndValidateActiveLease sampleScope 10 sampleHistorical.sourceDeviceId
        sampleHistorical.activeLeaseEpoch = true ∧
      appendAccepted checksum sampleDevices sampleScope 10 (fun _ => [0]) .empty
        [sampleHistorical] = .error .domainAuthorityUnresolved ∧
      DrainError.OnAuthority .domainAuthorityUnresolved := by
  decide

/-! ## Seals -/

/-- What `device_read_just_consumed_drain_proof` returns of a proof. -/
structure DrainProof where
  sourceDeviceId : String
  activeLeaseEpoch : Nat
  deviceMutationSequence : Nat
  mutationDigest : Digest
deriving DecidableEq

/-- `^[!-~]{1,200}$`. -/
def validProofId (proofId : String) : Bool :=
  1 ≤ proofId.toList.length && proofId.toList.length ≤ 200 &&
    proofId.toList.all (fun c => '!' ≤ c && c ≤ '~')

/-- The insertion of the seal, and the comparison with the seals that are there. -/
def DrainTables.installSeal (L : DrainTables) (s : DrainSeal) :
    Except DrainError (DrainTables × Bool) :=
  match Keyed.lookup DrainSeal.key s.key L.seals with
  | none =>
    if L.seals.any (fun x => x.proofId = s.proofId) then .error .sealProofReused
    else .ok ({ L with seals := L.seals ++ [s] }, true)
  | some _ =>
    let existing := L.seals.filter (fun x => x.key = s.key || x.proofId = s.proofId)
    .ok (L, existing.all (fun x => x = s) && existing.length == 1)

/-- `workspace_mutation_drain_install_accepted_seal`. -/
def installAcceptedSeal (sha256 : Bytes → Digest) (T : DeviceTables) (scope : TenantScope)
    (now : Instant) (L : DrainTables) (proofId : String) (proof : Option DrainProof) :
    Except DrainError (DrainTables × Bool) :=
  if ¬ validProofId proofId then .error .sealSelectorsUnresolved
  else
    match proof with
    | none => .ok (L, false)
    | some p =>
      if ¬ (validSelectors p.sourceDeviceId p.activeLeaseEpoch ∧
          p.deviceMutationSequence ≤ maxSafeInteger) then .ok (L, false)
      else
        match assertActiveDomain T scope now p.sourceDeviceId p.activeLeaseEpoch with
        | .error e => .error e
        | .ok () =>
          let head := L.foldHead sha256 p.sourceDeviceId p.activeLeaseEpoch
          if head.contiguous ≠ p.deviceMutationSequence ∨
              head.highest ≠ p.deviceMutationSequence ∨ head.digest ≠ p.mutationDigest then
            .ok (L, false)
          else
            match recomputeHead sha256 T scope now L p.sourceDeviceId p.activeLeaseEpoch with
            | .error e => .error e
            | .ok (written, _) => written.installSeal ⟨p.sourceDeviceId, p.activeLeaseEpoch,
                p.deviceMutationSequence, p.mutationDigest, proofId⟩

/-- Nothing is missing below the highest sequence of the domain. -/
def DrainTables.Complete (sha256 : Bytes → Digest) (L : DrainTables) (d : String) (e : Nat) :
    Prop :=
  (L.foldHead sha256 d e).contiguous = (L.foldHead sha256 d e).highest

/-- While the domain has authority, there is a proof that seals it. -/
def DrainTables.Sealable (sha256 : Bytes → Digest) (L : DrainTables) (d : String) (e : Nat) :
    Prop :=
  ∀ T scope now, assertActiveDomain T scope now d e = .ok () →
    ∃ proofId sequence digest L',
      installAcceptedSeal sha256 T scope now L proofId (some ⟨d, e, sequence, digest⟩) =
        .ok (L', true)

section

variable {T : DeviceTables} {L L' : DrainTables}

/-- A domain that is sealed is complete. -/
theorem complete_of_installAcceptedSeal {proofId : String} {sequence : Nat} {digest : Digest}
    (h : installAcceptedSeal sha256 T scope now L proofId (some ⟨d, e, sequence, digest⟩) =
      .ok (L', true)) : L.Complete sha256 d e := by
  unfold installAcceptedSeal at h
  split at h
  · cases h
  dsimp only at h
  split at h
  · cases h
  split at h
  · cases h
  split at h
  · cases h
  next hhead =>
    simp only [not_or, not_not] at hhead
    exact hhead.1.trans hhead.2.1.symm

/-- A complete domain of a ledger without seals can be sealed. -/
theorem sealable_of_complete (h : L.Complete sha256 d e) (hseals : L.seals = [])
    (hsafe : (L.foldHead sha256 d e).highest ≤ maxSafeInteger) : L.Sealable sha256 d e := by
  intro T scope now hok
  refine ⟨"proof", (L.foldHead sha256 d e).highest, (L.foldHead sha256 d e).digest,
    { L.writeHead sha256 d e with
      seals := [⟨d, e, (L.foldHead sha256 d e).highest, (L.foldHead sha256 d e).digest, "proof"⟩] },
    ?_⟩
  have hid : validProofId "proof" = true := by decide
  have hsel := (assertActiveDomain_eq_ok.mp hok).1
  have hcomplete : (L.foldHead sha256 d e).contiguous = (L.foldHead sha256 d e).highest := h
  unfold installAcceptedSeal
  rw [if_neg (not_not.mpr hid)]
  simp only [hsel, hsafe, hok, hcomplete, true_and, not_true, if_false, ne_eq, or_self,
    recomputeHead_of_ok hok, DrainTables.installSeal, writeHead_seals, hseals, Keyed.lookup_nil,
    any_nil, Bool.false_eq_true, nil_append]

end

/-! ### The head of a domain -/

/-- The sequences of a domain are distinct. -/
theorem domainRecords_nodup (L : DrainTables) (d : String) (e : Nat) :
    ((L.domainRecords d e).map DrainRecord.deviceMutationSequence).Nodup := by
  have hkeys : ((L.domainRecords d e).map DrainRecord.key).Nodup :=
    (filter_sublist.map DrainRecord.key).nodup L.recordKey
  rw [List.Nodup, pairwise_map] at hkeys ⊢
  refine hkeys.imp_of_mem ?_
  intro a b ha hb hne hseq
  apply hne
  simp only [DrainTables.domainRecords, mem_filter, Bool.and_eq_true, decide_eq_true_eq] at ha hb
  rw [DrainRecord.key, DrainRecord.key, ha.2.1, ha.2.2, hb.2.1, hb.2.2, hseq]

theorem foldHead_spec (sha256 : Bytes → Digest) {L : DrainTables}
    (hpos : ∀ r ∈ L.domainRecords d e, 1 ≤ r.deviceMutationSequence) :
    (L.foldHead sha256 d e).highest =
        Watermark.highest DrainRecord.deviceMutationSequence (L.domainRecords d e) ∧
      (L.Complete sha256 d e ↔ ∀ n, 1 ≤ n → n ≤ (L.foldHead sha256 d e).highest →
        ∃ r ∈ L.domainRecords d e, r.deviceMutationSequence = n) := by
  have hmem : ∀ r, r ∈ sortByKey DrainRecord.deviceMutationSequence (L.domainRecords d e) ↔
      r ∈ L.domainRecords d e := fun r => mem_sortByKey
  obtain ⟨xs, hfront, hscan⟩ := Watermark.scan_eq (DrainTables.drainStep sha256)
    (DrainTables.genesis sha256) (ascending_sortByKey (domainRecords_nodup L d e))
    fun r hr => hpos r ((hmem r).mp hr)
  have hhead : L.foldHead sha256 d e = _ := hscan
  refine ⟨by rw [hhead]; exact Watermark.highest_congr hmem, ?_⟩
  rw [DrainTables.Complete, hhead]
  refine hfront.complete_iff.trans (forall_congr' fun n => ?_)
  rw [lookup_isSome]
  simp only [hmem, mem_map]

end GoodDealer.Cloud
