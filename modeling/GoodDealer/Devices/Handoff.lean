/-
# `GoodDealer.Devices.Handoff` — a drained handoff and the checks that complete it

Three services work on the row of a device switch.  The drain transition moves it from
draining to bootstrapping, the bootstrap steps and the activation carry it on to completed.
The row binds one signing key.  For the drain it is the key of the SOURCE: the proof is
signed with it.  The two later services look the same key up among the keys of the TARGET.
A key id is of one device only, and the proof is refused if source and target are one device,
so they never find it (`drained_handoff_never_admitted`).

Rows are those of one account.  What other owners decide in a transaction (the seals, the
capability and its authority, the signature of a lease) is an answer in the call.
-/
import GoodDealer.Cloud.DrainLedger
import GoodDealer.Lib.Machine
import GoodDealer.Lib.Table
import GoodDealer.Lib.Transaction

namespace GoodDealer.Devices

open Cloud Table List

/-! ## The device tables of an account -/

inductive SigningKeyStatus where
  | active
  | rotated
  | revoked
deriving DecidableEq

/-- `device_signing_keys`. -/
structure SigningKey where
  deviceId : String
  keyVersion : Nat
  keyId : String
  status : SigningKeyStatus
deriving DecidableEq

inductive WorkflowStatus where
  | requested
  | draining
  | waitingExpiry
  | bootstrapping
  | completed
  | cancelled
  | failed
deriving DecidableEq

/-- The statuses of the index `device_switch_workflows_one_nonterminal`. -/
def WorkflowStatus.nonterminal : WorkflowStatus → Bool
  | .requested | .draining | .waitingExpiry | .bootstrapping => true
  | .completed | .cancelled | .failed => false

/-- `device_switch_workflows`. -/
structure SwitchWorkflow where
  workspaceId : String
  workflowId : String
  status : WorkflowStatus
  workflowRevision : Nat
  fromDeviceId : Option String
  toDeviceId : String
  boundKeyId : String
  boundKeyVersion : Nat
  boundAccountSecurityEpoch : Nat
  pendingLeaseEpoch : Option Nat
  stateDeadline : Instant
deriving DecidableEq

def SwitchWorkflow.key (w : SwitchWorkflow) : String × String := (w.workspaceId, w.workflowId)

/-- `device_lease_epoch_allocations`; a desktop login allocates for no workflow. -/
structure EpochAllocation where
  leaseEpoch : Nat
  workflow : Option (String × String)
  status : LeaseAllocationStatus
deriving DecidableEq

/-- `device_account_states`. -/
structure AccountState where
  highestAllocatedLeaseEpoch : Nat
  currentLeaseEpoch : Nat
  exclusiveExecutionBlockUntil : Option Instant
deriving DecidableEq

def AccountState.unblocked (a : AccountState) (now : Instant) : Bool :=
  a.exclusiveExecutionBlockUntil.all (· ≤ now)

/-- `device_drain_proofs`; the purpose is fixed, and a proof is accepted when it is consumed. -/
structure DrainProof where
  workspaceId : String
  proofId : String
  proofDigest : String
  workflowId : String
  sourceDeviceId : String
  activeLeaseEpoch : Nat
  signingKeyId : String
  signingKeyVersion : Nat
  issuedAt : Instant
  expiresAt : Instant
  consumedAt : Option Instant
deriving DecidableEq

/-- What the identity module locks of the account's security state. -/
structure AccountSecurity where
  normal : Bool
  accountSecurityEpoch : Nat
deriving DecidableEq

structure AccountTables where
  security : Option AccountSecurity
  account : Option AccountState
  bindings : List DeviceBinding
  signingKeys : List SigningKey
  proofs : List DrainProof
  workflows : List SwitchWorkflow
  allocations : List EpochAllocation
  leases : List ActiveLease
deriving DecidableEq

namespace AccountTables

variable (t : AccountTables)

def bound (deviceId : String) : Bool :=
  t.bindings.any fun b => decide (b.deviceId = deviceId ∧ b.status = .bound)

def activeKey (deviceId keyId : String) (keyVersion : Nat) : Bool :=
  t.signingKeys.any fun k => decide
    (k.deviceId = deviceId ∧ k.keyId = keyId ∧ k.keyVersion = keyVersion ∧ k.status = .active)

def workflow (key : String × String) : Option SwitchWorkflow :=
  t.workflows.find? fun w => w.key == key

def heldLease : Option ActiveLease := t.leases.find? fun l => l.releasedAt.isNone

/-! ## The services -/

inductive DrainRefusal where
  | accountSecurityConflict
  | accountStateUnresolved
  | proofConflict
  | bindingConflict
  | signingKeyConflict
  | workflowConflict
  | proofReplayConflict
  | workflowExpired
  | leaseConflict
  | streamHeadConflict
  | proofExpired
  /-- A statement raised, or a row that is always returned was not. -/
  | raised
deriving DecidableEq

structure DrainCall where
  workspaceId : String
  workflowId : String
  expectedWorkflowRevision : Nat
  targetDeviceId : String
  proofId : String
  proofDigest : String
  /-- `readCommittedReplay` finds the committed transition. -/
  replayed : Bool
  /-- The three ledgers install their seals. -/
  seals : Bool
  /-- The capability can be inserted. -/
  capability : Bool
deriving DecidableEq

def DrainCall.key (c : DrainCall) : String × String := (c.workspaceId, c.workflowId)

def DrainCall.presents (c : DrainCall) (p : DrainProof) : Bool :=
  p.workspaceId == c.workspaceId && p.proofId == c.proofId

/-- `device_consume_drain_proof`: what it returns of a proof it accepts.  A column that is null
does not differ from anything. -/
def consumeDrainProof (now : Instant) (c : DrainCall) : Except DrainRefusal (String × Nat) := do
  let p ← found .proofConflict (t.proofs.find? c.presents)
  demand (p.proofDigest == c.proofDigest && p.workflowId == c.workflowId) .proofConflict
  demand p.consumedAt.isNone .proofReplayConflict
  demand (p.issuedAt ≤ now && now < p.expiresAt) .proofExpired
  let w ← found .workflowConflict (t.workflow c.key)
  demand (decide (w.status = .draining ∧ w.workflowRevision = c.expectedWorkflowRevision ∧
    w.fromDeviceId.all (· == p.sourceDeviceId) ∧ w.toDeviceId = c.targetDeviceId ∧
    w.boundKeyId = p.signingKeyId ∧ w.boundKeyVersion = p.signingKeyVersion)) .workflowConflict
  demand (now < w.stateDeadline) .workflowExpired
  let security ← found .accountSecurityConflict t.security
  demand (security.normal && security.accountSecurityEpoch == w.boundAccountSecurityEpoch)
    .accountSecurityConflict
  demand (p.sourceDeviceId != c.targetDeviceId && t.bound p.sourceDeviceId &&
    t.bound c.targetDeviceId) .bindingConflict
  demand (t.activeKey p.sourceDeviceId p.signingKeyId p.signingKeyVersion) .signingKeyConflict
  let held ← found .leaseConflict t.heldLease
  demand (decide (held.deviceId = p.sourceDeviceId ∧ held.leaseEpoch = p.activeLeaseEpoch))
    .leaseConflict
  return (p.sourceDeviceId, p.activeLeaseEpoch)

/-- The statements of a transition that goes through: the proof is consumed, the lease of the
source is released and the next epoch is allocated for the target. -/
def drained (now : Instant) (account : AccountState) (c : DrainCall)
    (held : ActiveLease) : AccountTables :=
  { t with
    proofs := updateWhere c.presents (fun p => { p with consumedAt := some now }) t.proofs
    leases := updateWhere (fun l => decide (l.leaseEpoch = held.leaseEpoch ∧
      l.deviceId = held.deviceId ∧ l.releasedAt = none))
      (fun l => { l with releasedAt := some now }) t.leases
    account := some { account with
      highestAllocatedLeaseEpoch := account.highestAllocatedLeaseEpoch + 1 }
    allocations := t.allocations ++ [⟨account.highestAllocatedLeaseEpoch + 1, some c.key, .pending⟩]
    workflows := updateWhere (fun w => w.key == c.key) (fun w => { w with
      status := .bootstrapping
      pendingLeaseEpoch := some (account.highestAllocatedLeaseEpoch + 1)
      workflowRevision := w.workflowRevision + 1 }) t.workflows }

/-- `#commitOnce` of `PostgresDeviceDrainTransition`. -/
def commitOnce (now : Instant) (c : DrainCall) : Except DrainRefusal AccountTables := do
  let security ← found .accountSecurityConflict t.security
  demand security.normal .accountSecurityConflict
  let account ← found .accountStateUnresolved t.account
  let p ← found .proofConflict (t.proofs.find? c.presents)
  demand (t.bound p.sourceDeviceId && t.bound c.targetDeviceId) .bindingConflict
  demand (t.activeKey p.sourceDeviceId p.signingKeyId p.signingKeyVersion) .signingKeyConflict
  let w ← found .workflowConflict (t.workflow c.key)
  demand (decide (w.fromDeviceId = some p.sourceDeviceId ∧ w.toDeviceId = c.targetDeviceId ∧
    w.boundKeyId = p.signingKeyId ∧ w.boundKeyVersion = p.signingKeyVersion)) .workflowConflict
  demand (w.boundAccountSecurityEpoch == security.accountSecurityEpoch) .accountSecurityConflict
  if w.status = .bootstrapping then
    demand (w.workflowRevision == c.expectedWorkflowRevision + 1) .workflowConflict
    demand c.replayed .proofReplayConflict
    pure t
  else
    demand (decide (w.status = .draining ∧ w.workflowRevision = c.expectedWorkflowRevision))
      .workflowConflict
    demand (now < w.stateDeadline) .workflowExpired
    let held ← found .leaseConflict t.heldLease
    demand (decide (held.deviceId = p.sourceDeviceId ∧ held.leaseEpoch = p.activeLeaseEpoch))
      .leaseConflict
    let consumed ← t.consumeDrainProof now c
    demand (consumed == (p.sourceDeviceId, p.activeLeaseEpoch)) .proofConflict
    demand c.seals .streamHeadConflict
    demand (account.highestAllocatedLeaseEpoch < maxSafeInteger) .raised
    demand (t.allocations.all fun a => a.leaseEpoch != account.highestAllocatedLeaseEpoch + 1 &&
      a.workflow.all (fun key => key.2 != c.workflowId)) .raised
    demand c.capability .raised
    pure (t.drained now account c held)

/-- The account, binding, workflow and signing-key checks of `PostgresBootstrapStepService`, for
a capability of this device and security epoch. -/
def stepAdmits (deviceId : String) (accountSecurityEpoch : Nat) (key : String × String) : Bool :=
  match t.security, t.account, t.workflow key with
  | some security, some _, some w =>
    security.normal && security.accountSecurityEpoch == accountSecurityEpoch && t.bound deviceId &&
    decide (w.status = .bootstrapping ∧ w.toDeviceId = deviceId ∧
      w.boundAccountSecurityEpoch = security.accountSecurityEpoch ∧ w.pendingLeaseEpoch ≠ none) &&
    t.activeKey deviceId w.boundKeyId w.boundKeyVersion
  | _, _, _ => false

/-- The same checks of `PostgresBootstrapActivation`: the account with its epochs, the workflow
and the epoch that is pending for it. -/
def activationAdmits (now : Instant) (key : String × String) (expectedWorkflowRevision : Nat) :
    Option (AccountState × SwitchWorkflow × Nat) :=
  t.security.bind fun security => t.account.bind fun account => (t.workflow key).bind fun w =>
    w.pendingLeaseEpoch.bind fun pendingEpoch =>
      if security.normal && account.unblocked now && decide (w.status = .bootstrapping ∧
          w.workflowRevision = expectedWorkflowRevision ∧
          w.boundAccountSecurityEpoch = security.accountSecurityEpoch ∧
          pendingEpoch = account.highestAllocatedLeaseEpoch ∧
          account.currentLeaseEpoch < pendingEpoch) && t.bound w.toDeviceId &&
          t.activeKey w.toDeviceId w.boundKeyId w.boundKeyVersion then
        some (account, w, pendingEpoch)
      else none

/-- The statements of an activation: the pending epoch becomes the lease of the target. -/
def activated (account : AccountState) (w : SwitchWorkflow) (pendingEpoch : Nat)
    (offlineExecuteUntil : Instant) : AccountTables :=
  { t with
    leases := t.leases ++ [⟨pendingEpoch, w.toDeviceId, offlineExecuteUntil, none⟩]
    allocations := updateWhere
      (fun a => decide (a.leaseEpoch = pendingEpoch ∧ a.status = .pending))
      (fun a => { a with status := .activated }) t.allocations
    account := some { account with currentLeaseEpoch := pendingEpoch }
    workflows := updateWhere (fun x => x.key == w.key && decide (x.status = .bootstrapping))
      (fun x => { x with
        status := .completed
        pendingLeaseEpoch := none
        workflowRevision := x.workflowRevision + 1 }) t.workflows }

structure ActivationCall where
  key : String × String
  expectedWorkflowRevision : Nat
  /-- Capability, authority, entitlement and signature are in order. -/
  ready : Bool
  offlineExecuteUntil : Instant
deriving DecidableEq

/-- `#activateOnce` of `PostgresBootstrapActivation`. -/
def activateOnce (now : Instant) (c : ActivationCall) : Option (AccountTables × Nat) :=
  match t.activationAdmits now c.key c.expectedWorkflowRevision with
  | none => none
  | some (account, w, pendingEpoch) =>
    if t.allocations.any (fun a => decide (a.leaseEpoch = pendingEpoch ∧ a.workflow = some c.key ∧
        a.status = .pending)) && c.ready && t.heldLease.isNone &&
        t.leases.all (fun l => l.leaseEpoch != pendingEpoch) then
      some (t.activated account w pendingEpoch c.offlineExecuteUntil, pendingEpoch)
    else none

structure LoginCall where
  deviceId : String
  accountSecurityEpoch : Nat
  entitled : Bool
  /-- The stored envelope of the held lease verifies. -/
  verified : Bool
  /-- The held lease is due for renewal or no longer online. -/
  renewalDue : Bool
  signed : Bool
  offlineExecuteUntil : Instant
deriving DecidableEq

/-- The statements of a login that is given a new lease. -/
def granted (account : AccountState) (c : LoginCall) : AccountTables :=
  { t with
    allocations := t.allocations ++
      [⟨account.highestAllocatedLeaseEpoch + 1, none, .activated⟩]
    leases := t.leases ++
      [⟨account.highestAllocatedLeaseEpoch + 1, c.deviceId, c.offlineExecuteUntil, none⟩]
    account := some { account with
      highestAllocatedLeaseEpoch := account.highestAllocatedLeaseEpoch + 1
      currentLeaseEpoch := account.highestAllocatedLeaseEpoch + 1 } }

def renewed (held : ActiveLease) (c : LoginCall) : AccountTables :=
  { t with
    leases := updateWhere (fun l => decide (l.leaseEpoch = held.leaseEpoch ∧
      l.deviceId = c.deviceId ∧ l.releasedAt = none))
      (fun l => { l with offlineExecuteUntil := c.offlineExecuteUntil }) t.leases }

/-- `ensureCurrentLease` of `PostgresDesktopLoginLease`, with the epoch of the lease. -/
def ensureCurrentLease (now : Instant) (c : LoginCall) : Option (AccountTables × Nat) :=
  match t.security, t.account with
  | some security, some account =>
    if (c.entitled && security.normal && security.accountSecurityEpoch == c.accountSecurityEpoch &&
        account.unblocked now && t.bound c.deviceId &&
        t.signingKeys.any (fun k => decide (k.deviceId = c.deviceId ∧ k.status = .active))) = false
    then
      none
    else
      match t.heldLease with
      | some held =>
        if ¬ (held.deviceId = c.deviceId ∧ held.leaseEpoch = account.currentLeaseEpoch ∧
            c.verified = true) then none
        else if c.renewalDue = false then some (t, held.leaseEpoch)
        else if c.signed = false then none
        else some (t.renewed held c, held.leaseEpoch)
      | none =>
        if account.highestAllocatedLeaseEpoch < account.currentLeaseEpoch ∨
            maxSafeInteger ≤ account.highestAllocatedLeaseEpoch ∨ c.signed = false ∨
            t.allocations.any (fun a => a.leaseEpoch == account.highestAllocatedLeaseEpoch + 1) then
          none
        else some (t.granted account c, account.highestAllocatedLeaseEpoch + 1)
  | _, _ => none

/-- A step of the bootstrap advances the revision of its workflow. -/
def stepped (key : String × String) : AccountTables :=
  { t with
    workflows := updateWhere (fun w => w.key == key)
      (fun w => { w with workflowRevision := w.workflowRevision + 1 }) t.workflows }

/-- The workflow row that the switch request or its end writes, as the checks and the index of
the table allow it. -/
def writable (w : SwitchWorkflow) : Bool :=
  decide (w.status ≠ .bootstrapping ∧ w.pendingLeaseEpoch = none) &&
    (!w.status.nonterminal || t.workflows.all (fun x => x.key == w.key || !x.status.nonterminal))

def written (w : SwitchWorkflow) : AccountTables :=
  { t with workflows := t.workflows.filter (fun x => x.key != w.key) ++ [w] }

end AccountTables

/-! ## Runs -/

inductive DeviceCall where
  | drain (now : Instant) (c : AccountTables.DrainCall)
  /-- A bootstrap step of a device; `accepted` is what its other checks say. -/
  | step (deviceId : String) (accountSecurityEpoch : Nat) (key : String × String) (accepted : Bool)
  | activate (now : Instant) (c : AccountTables.ActivationCall)
  | login (now : Instant) (c : AccountTables.LoginCall)
  | write (w : SwitchWorkflow)
deriving DecidableEq

/-- The services on one account; the answer is the epoch of the lease that is handed out. -/
def devices : Machine AccountTables DeviceCall (Option Nat) where
  step t call :=
    match call with
    | .drain now c => ((t.commitOnce now c).toOption.getD t, none)
    | .step deviceId epoch key accepted =>
      (if t.stepAdmits deviceId epoch key && accepted then t.stepped key else t, none)
    | .activate now c =>
      match t.activateOnce now c with
      | some (t', epoch) => (t', some epoch)
      | none => (t, none)
    | .login now c =>
      match t.ensureCurrentLease now c with
      | some (t', epoch) => (t', some epoch)
      | none => (t, none)
    | .write w => (if t.writable w then t.written w else t, none)

namespace AccountTables

variable {t t' : AccountTables} {w : SwitchWorkflow} {now : Instant} {call : DeviceCall}
  {key : String × String} {c : LoginCall} {epoch : Nat}

/-- What the drain has checked and nobody changes later: the bound key is an active one of a
device that is not the target. -/
def Handed (t : AccountTables) (w : SwitchWorkflow) : Prop :=
  ∃ source, source ≠ w.toDeviceId ∧ t.activeKey source w.boundKeyId w.boundKeyVersion = true

/-- What the services do to the tables. -/
inductive Moves (t : AccountTables) : DeviceCall → AccountTables → Prop
  | drained {now : Instant} {c : DrainCall} {account : AccountState} {held : ActiveLease}
      {w : SwitchWorkflow} (haccount : t.account = some account) (hw : t.workflow c.key = some w)
      (hstatus : w.status = .draining) (hhanded : t.Handed w) (hheld : t.heldLease = some held) :
      Moves t (.drain now c) (t.drained now account c held)
  | stepped {deviceId : String} {epoch : Nat} {key : String × String} {accepted : Bool} :
      Moves t (.step deviceId epoch key accepted) (t.stepped key)
  | activated {now : Instant} {c : ActivationCall} {account : AccountState} {w : SwitchWorkflow}
      {pendingEpoch : Nat} (haccount : t.account = some account)
      (hw : t.workflow c.key = some w) (hstatus : w.status = .bootstrapping)
      (hpending : w.pendingLeaseEpoch = some pendingEpoch)
      (hlast : pendingEpoch = account.highestAllocatedLeaseEpoch)
      (hnew : account.currentLeaseEpoch < pendingEpoch) (hfree : t.heldLease = none)
      (hreserved : ⟨pendingEpoch, some c.key, .pending⟩ ∈ t.allocations) :
      Moves t (.activate now c) (t.activated account w pendingEpoch c.offlineExecuteUntil)
  | renewed {now : Instant} {c : LoginCall} {held : ActiveLease} (hheld : t.heldLease = some held)
      (hdevice : held.deviceId = c.deviceId)
      (haccepted : (t.ensureCurrentLease now c).isSome = true) :
      Moves t (.login now c) (t.renewed held c)
  | granted {now : Instant} {c : LoginCall} {account : AccountState}
      (haccount : t.account = some account) (hfree : t.heldLease = none)
      (haccepted : (t.ensureCurrentLease now c).isSome = true) :
      Moves t (.login now c) (t.granted account c)
  | written {w : SwitchWorkflow} (hw : t.writable w = true) : Moves t (.write w) (t.written w)

theorem consumeDrainProof_distinct {c : DrainCall} {consumed : String × Nat} {p : DrainProof}
    (h : t.consumeDrainProof now c = .ok consumed) (hp : t.proofs.find? c.presents = some p) :
    p.sourceDeviceId ≠ c.targetDeviceId := by
  simp only [consumeDrainProof, bind_eq_ok, found_eq_ok, demand_eq_ok, Bool.and_eq_true,
    bne_iff_ne] at h
  obtain ⟨_, hp', _, -, _, -, _, -, _, -, _, -, _, -, _, -, _, -, _, ⟨⟨hne, -⟩, -⟩, -⟩ := h
  cases hp.symm.trans hp'
  exact hne

theorem commitOnce_cases {c : DrainCall} (h : t.commitOnce now c = .ok t') :
    (t' = t ∧ ∃ w, t.workflow c.key = some w ∧ w.status = .bootstrapping) ∨
      Moves t (.drain now c) t' := by
  unfold commitOnce at h
  simp only [bind_eq_ok, found_eq_ok, demand_eq_ok] at h
  obtain ⟨_, -, _, -, account, haccount, p, hp, _, -, _, hkey, w, hw, _, hrow, _, -, h⟩ := h
  obtain ⟨-, hto, hid, hversion⟩ := of_decide_eq_true hrow
  split at h
  next hstatus =>
    -- a drain that is sent again is answered from the row and writes nothing
    simp only [bind_eq_ok, demand_eq_ok] at h
    obtain ⟨_, -, _, -, h⟩ := h
    cases h
    exact .inl ⟨rfl, w, hw, hstatus⟩
  · simp only [bind_eq_ok, found_eq_ok, demand_eq_ok] at h
    obtain ⟨_, hdraining, _, -, held, hheld, _, -, consumed, hconsumed, _, -, _, -, _, -, _,
      -, _, -, h⟩ := h
    cases h
    have hhanded : t.Handed w := by
      refine ⟨p.sourceDeviceId, ?_, by rw [hid, hversion]; exact hkey⟩
      rw [hto]
      exact consumeDrainProof_distinct hconsumed hp
    exact .inr (.drained haccount hw (of_decide_eq_true hdraining).1 hhanded hheld)

theorem activationAdmits_eq_some {revision : Nat} {account : AccountState} {pendingEpoch : Nat} :
    t.activationAdmits now key revision = some (account, w, pendingEpoch) ↔
      ∃ security, t.security = some security ∧ t.account = some account ∧
        t.workflow key = some w ∧ w.pendingLeaseEpoch = some pendingEpoch ∧
        security.normal = true ∧ account.unblocked now = true ∧ w.status = .bootstrapping ∧
        w.workflowRevision = revision ∧
        w.boundAccountSecurityEpoch = security.accountSecurityEpoch ∧
        pendingEpoch = account.highestAllocatedLeaseEpoch ∧
        account.currentLeaseEpoch < pendingEpoch ∧ t.bound w.toDeviceId = true ∧
        t.activeKey w.toDeviceId w.boundKeyId w.boundKeyVersion = true := by
  simp only [activationAdmits, Option.bind_eq_some_iff, Option.ite_none_right_eq_some,
    Option.some.injEq, Prod.mk.injEq, Bool.and_eq_true, decide_eq_true_eq]
  constructor
  · rintro ⟨security, hs, a, ha, x, hx, e, he, ⟨⟨⟨⟨hn, hu⟩, hst, hr, hb, hl, hc⟩, ht⟩, hk⟩,
      rfl, rfl, rfl⟩
    exact ⟨security, hs, ha, hx, he, hn, hu, hst, hr, hb, hl, hc, ht, hk⟩
  · rintro ⟨security, hs, ha, hx, he, hn, hu, hst, hr, hb, hl, hc, ht, hk⟩
    exact ⟨security, hs, account, ha, w, hx, pendingEpoch, he,
      ⟨⟨⟨⟨hn, hu⟩, hst, hr, hb, hl, hc⟩, ht⟩, hk⟩, rfl, rfl, rfl⟩

theorem activateOnce_moves {c : ActivationCall}
    (h : t.activateOnce now c = some (t', epoch)) : Moves t (.activate now c) t' ∧
      ∃ w, t.workflow c.key = some w ∧ w.pendingLeaseEpoch = some epoch := by
  unfold activateOnce at h
  split at h
  · cases h
  next account w pendingEpoch hadmits =>
  obtain ⟨_, -, haccount, hw, hpending, -, -, hstatus, -, -, hlast, hnew, -⟩ :=
    activationAdmits_eq_some.mp hadmits
  split at h
  next hready =>
    cases h
    simp only [Bool.and_eq_true, Option.isNone_iff_eq_none, any_eq_true,
      decide_eq_true_eq] at hready
    obtain ⟨⟨⟨⟨⟨_, _, _⟩, hmem, rfl, rfl, rfl⟩, _⟩, hfree⟩, _⟩ := hready
    exact ⟨.activated haccount hw hstatus hpending hlast hnew hfree hmem, w, hw, hpending⟩
  · cases h

theorem ensureCurrentLease_cases (h : t.ensureCurrentLease now c = some (t', epoch)) :
    (∃ held, t.heldLease = some held ∧ held.deviceId = c.deviceId ∧ epoch = held.leaseEpoch ∧
      (t' = t ∨ t' = t.renewed held c)) ∨
    ∃ account, t.account = some account ∧ t.heldLease = none ∧
      epoch = account.highestAllocatedLeaseEpoch + 1 ∧ t' = t.granted account c := by
  unfold ensureCurrentLease at h
  split at h
  next security account hsecurity haccount =>
    split at h
    · cases h
    split at h
    next held hheld =>
      split at h
      · cases h
      next hown =>
      have hdevice := (Classical.not_not.mp hown).1
      split at h
      · cases h
        exact .inl ⟨held, hheld, hdevice, rfl, .inl rfl⟩
      split at h
      · cases h
      · cases h
        exact .inl ⟨held, hheld, hdevice, rfl, .inr rfl⟩
    next hfree =>
    split at h
    · cases h
    · cases h
      exact .inr ⟨account, haccount, hfree, rfl, rfl⟩
  · cases h

/-- A call leaves the tables as they are, or is one of the moves. -/
theorem next_cases (t : AccountTables) (call : DeviceCall) :
    devices.next t call = t ∨ Moves t call (devices.next t call) := by
  cases call with
  | drain now c =>
    show (t.commitOnce now c).toOption.getD t = t ∨ Moves t _ ((t.commitOnce now c).toOption.getD t)
    cases h : t.commitOnce now c with
    | error => exact .inl rfl
    | ok t' => exact (commitOnce_cases h).imp_left And.left
  | step deviceId epoch key accepted =>
    show (if t.stepAdmits deviceId epoch key && accepted then t.stepped key else t) = t ∨
      Moves t _ (if t.stepAdmits deviceId epoch key && accepted then t.stepped key else t)
    split
    · exact .inr .stepped
    · exact .inl rfl
  | activate now c =>
    cases h : t.activateOnce now c with
    | none => exact .inl (by simp only [Machine.next, devices, h])
    | some r => exact .inr (by simpa only [Machine.next, devices, h] using (activateOnce_moves h).1)
  | login now c =>
    cases h : t.ensureCurrentLease now c with
    | none => exact .inl (by simp only [Machine.next, devices, h])
    | some r =>
      simp only [Machine.next, devices, h]
      rcases ensureCurrentLease_cases h with ⟨held, hheld, hdevice, -, hr | hr⟩ |
        ⟨account, haccount, hfree, -, hr⟩
      · exact .inl hr
      · exact .inr (hr ▸ .renewed hheld hdevice (h ▸ rfl))
      · exact .inr (hr ▸ .granted haccount hfree (h ▸ rfl))
  | write w =>
    show (if t.writable w then t.written w else t) = t ∨
      Moves t _ (if t.writable w then t.written w else t)
    split
    next hw => exact .inr (.written hw)
    · exact .inl rfl

/-! ## What the tables keep -/

/-- What the keys, the checks and the indexes of the tables enforce. -/
structure Sound (t : AccountTables) : Prop where
  keyIds : (t.signingKeys.map SigningKey.keyId).Nodup
  workflowKeys : (t.workflows.map SwitchWorkflow.key).Nodup
  oneNonterminal : ∀ w ∈ t.workflows, ∀ x ∈ t.workflows, w.status.nonterminal = true →
    x.status.nonterminal = true → w.key = x.key
  current : ∀ a, t.account = some a → a.currentLeaseEpoch ≤ a.highestAllocatedLeaseEpoch

theorem mem_of_workflow (h : t.workflow key = some w) :
    w ∈ t.workflows ∧ w.key = key := by
  have hkey := List.find?_some h
  exact ⟨mem_of_find?_eq_some h, by simpa using hkey⟩

/-- An update of rows in place that makes no row nonterminal. -/
theorem Sound.updated (h : t.Sound) {p : SwitchWorkflow → Bool}
    {f : SwitchWorkflow → SwitchWorkflow}
    (hworkflows : t'.workflows = updateWhere p f t.workflows)
    (hkeys : t'.signingKeys = t.signingKeys) (hkey : ∀ w, (f w).key = w.key)
    (hstatus : ∀ w ∈ t.workflows, p w = true → (f w).status.nonterminal = true →
      w.status.nonterminal = true)
    (hcurrent : ∀ a, t'.account = some a → a.currentLeaseEpoch ≤ a.highestAllocatedLeaseEpoch) :
    t'.Sound where
  keyIds := by rw [hkeys]; exact h.keyIds
  workflowKeys := by rw [hworkflows]; exact nodup_updateWhere h.workflowKeys hkey
  oneNonterminal := by
    have hold : ∀ w ∈ t'.workflows, w.status.nonterminal = true →
        ∃ x ∈ t.workflows, x.key = w.key ∧ x.status.nonterminal = true := by
      rw [hworkflows]
      refine forall_updateWhere (fun w hw hp hn => ?_) (fun w hw _ hn => ⟨w, hw, rfl, hn⟩)
      exact ⟨w, hw, (hkey w).symm, hstatus w hw hp hn⟩
    intro w hw x hx hn hn'
    obtain ⟨w₀, hw₀, hkeyw, hnw⟩ := hold w hw hn
    obtain ⟨x₀, hx₀, hkeyx, hnx⟩ := hold x hx hn'
    rw [← hkeyw, ← hkeyx]
    exact h.oneNonterminal w₀ hw₀ x₀ hx₀ hnw hnx
  current := hcurrent

/-- The row under a key is the one that is found. -/
theorem Sound.eq_of_key (h : t.Sound) {x : SwitchWorkflow} (hw : w ∈ t.workflows)
    (hx : x ∈ t.workflows) (hkey : w.key = x.key) : w = x :=
  inj_on_of_nodup_map h.workflowKeys hw hx hkey

theorem Sound.moves (h : t.Sound) (hmove : Moves t call t') : t'.Sound := by
  cases hmove with
  | drained haccount hw hstatus hhanded hheld =>
    refine h.updated rfl rfl (fun _ => rfl) (fun x hx hp _ => ?_) ?_
    · obtain ⟨hmem, hkey⟩ := mem_of_workflow hw
      rw [h.eq_of_key hx hmem ((beq_iff_eq.mp hp).trans hkey.symm), hstatus]
      rfl
    · rintro _ ⟨⟩
      exact Nat.le_succ_of_le (h.current _ haccount)
  | stepped => exact h.updated rfl rfl (fun _ => rfl) (fun _ _ _ hn => hn) h.current
  | activated haccount hw hstatus hpending hlast hnew hfree =>
    refine h.updated rfl rfl (fun _ => rfl) (fun _ _ _ hn => by cases hn) ?_
    rintro _ ⟨⟩
    exact le_of_eq hlast
  | renewed hheld hdevice => exact ⟨h.keyIds, h.workflowKeys, h.oneNonterminal, h.current⟩
  | granted haccount hfree =>
    refine ⟨h.keyIds, h.workflowKeys, h.oneNonterminal, ?_⟩
    rintro _ ⟨⟩
    exact le_rfl
  | @written w hw =>
    simp only [writable, Bool.and_eq_true, Bool.or_eq_true, Bool.not_eq_true', all_eq_true,
      beq_iff_eq] at hw
    have hother : ∀ x ∈ t.workflows.filter (fun x => x.key != w.key), x.key ≠ w.key :=
      fun x hx => bne_iff_ne.mp (mem_filter.mp hx).2
    -- the index admits a nonterminal row only if no other one is there
    have hnone : ∀ x ∈ t.workflows.filter (fun x => x.key != w.key),
        w.status.nonterminal = true → x.status.nonterminal = false := by
      intro x hx hn
      rcases hw.2 with hw | hw
      · rw [hn] at hw; cases hw
      · exact (hw x (mem_of_mem_filter hx)).resolve_left (hother x hx)
    refine ⟨h.keyIds, ?_, ?_, h.current⟩
    · exact nodup_append_row (h.workflowKeys.sublist (filter_sublist.map _)) hother
    · intro x hx y hy hn hn'
      rcases mem_append.mp hx with hx | hx <;> rcases mem_append.mp hy with hy | hy
      · exact h.oneNonterminal x (mem_of_mem_filter hx) y (mem_of_mem_filter hy) hn hn'
      · rw [mem_singleton.mp hy] at hn'
        exact absurd (hnone x hx hn') (by simp [hn])
      · rw [mem_singleton.mp hx] at hn
        exact absurd (hnone y hy hn) (by simp [hn'])
      · rw [mem_singleton.mp hx, mem_singleton.mp hy]

/-- Where a bootstrapping row comes from: it was so before, and only a login has touched the
leases since, or it was drained just now. -/
theorem Moves.bootstrapping (h : Moves t call t') (ht : t.Sound)
    {w' : SwitchWorkflow} (hw' : w' ∈ t'.workflows) (hb : w'.status = .bootstrapping) :
    (∃ w ∈ t.workflows, w.status = .bootstrapping ∧
      w' = { w with workflowRevision := w'.workflowRevision } ∧
      (t'.account = t.account ∧ t'.leases = t.leases ∧ t'.allocations = t.allocations ∨
        ∃ now c, call = .login now c ∧ (t.ensureCurrentLease now c).isSome = true)) ∨
    ∃ now c account held w, call = .drain now c ∧ t.account = some account ∧
      t.heldLease = some held ∧ t.workflow c.key = some w ∧ t.Handed w ∧
      t' = t.drained now account c held ∧
      w' = { w with
        status := .bootstrapping
        pendingLeaseEpoch := some (account.highestAllocatedLeaseEpoch + 1)
        workflowRevision := w.workflowRevision + 1 } := by
  cases h with
  | @drained now c account held w haccount hw hstatus hhanded hheld =>
    obtain ⟨hmem, hkey⟩ := mem_of_workflow hw
    rcases mem_updateWhere.mp hw' with ⟨x, hx, hp, rfl⟩ | ⟨hx, hp⟩
    · obtain rfl := ht.eq_of_key hx hmem ((beq_iff_eq.mp hp).trans hkey.symm)
      exact .inr ⟨now, c, account, held, x, rfl, haccount, hheld, hw, hhanded, rfl, rfl⟩
    · -- no other row is nonterminal
      have hsame := ht.oneNonterminal w' hx w hmem (by rw [hb]; rfl) (by rw [hstatus]; rfl)
      exact absurd (hsame.trans hkey) (by simpa using hp)
  | stepped =>
    rcases mem_updateWhere.mp hw' with ⟨x, hx, -, rfl⟩ | ⟨hx, -⟩
    · exact .inl ⟨x, hx, hb, rfl, .inl ⟨rfl, rfl, rfl⟩⟩
    · exact .inl ⟨w', hx, hb, rfl, .inl ⟨rfl, rfl, rfl⟩⟩
  | @activated now c account w _ haccount hw hstatus hpending hlast hnew hfree =>
    rcases mem_updateWhere.mp hw' with ⟨x, -, -, rfl⟩ | ⟨hx, hp⟩
    · cases hb
    · -- the workflow that was activated is the nonterminal one
      have hsame := ht.oneNonterminal w' hx w (mem_of_workflow hw).1 (by rw [hb]; rfl)
        (by rw [hstatus]; rfl)
      simp [hsame, hb] at hp
  | renewed _ _ haccepted | granted _ _ haccepted =>
    exact .inl ⟨w', hw', hb, rfl, .inr ⟨_, _, rfl, haccepted⟩⟩
  | @written w hw =>
    rcases mem_append.mp hw' with hx | hx
    · exact .inl ⟨w', mem_of_mem_filter hx, hb, rfl, .inl ⟨rfl, rfl, rfl⟩⟩
    · rw [mem_singleton.mp hx] at hb
      simp [writable, hb] at hw

/-! ## Completing a handoff -/

/-- Every bootstrapping workflow was drained. -/
def Completing (t : AccountTables) : Prop :=
  ∀ w ∈ t.workflows, w.status = .bootstrapping → t.Handed w

theorem Completing.moves (h : t.Completing) (ht : t.Sound)
    (hmove : Moves t call t') : t'.Completing := by
  intro w' hw' hb
  -- no service removes a device or rotates a key
  have hkept : ∀ w, t.Handed w → t'.Handed w := fun w hw => by cases hmove <;> exact hw
  rcases hmove.bootstrapping ht hw' hb with ⟨w, hw, hstatus, hsame, -⟩ |
    ⟨_, _, _, _, w, -, -, -, -, hhanded, -, rfl⟩
  · rw [hsame]
    exact hkept w (h w hw hstatus)
  · exact hkept w hhanded

/-- A key id is of one device. -/
theorem Sound.activeKey_device (h : t.Sound) {d d' keyId : String} {version version' : Nat}
    (hd : t.activeKey d keyId version = true) (hd' : t.activeKey d' keyId version' = true) :
    d = d' := by
  simp only [activeKey, any_eq_true, decide_eq_true_eq] at hd hd'
  obtain ⟨k, hk, rfl, hid, -⟩ := hd
  obtain ⟨k', hk', rfl, hid', -⟩ := hd'
  rw [inj_on_of_nodup_map h.keyIds hk hk' (hid.trans hid'.symm)]

/-- The bound key is not one of the target, so neither service finds it. -/
theorem Completing.refused (h : t.Completing) (hs : t.Sound) (key : String × String) :
    (∀ deviceId epoch, t.stepAdmits deviceId epoch key = false) ∧
      ∀ now revision, t.activationAdmits now key revision = none := by
  have hkey : ∀ w, t.workflow key = some w → w.status = .bootstrapping →
      t.activeKey w.toDeviceId w.boundKeyId w.boundKeyVersion ≠ true := by
    intro w hw hstatus hactive
    obtain ⟨source, hne, hsource⟩ := h w (mem_of_workflow hw).1 hstatus
    exact hne (hs.activeKey_device hsource hactive)
  constructor
  · intro deviceId epoch
    rw [Bool.eq_false_iff]
    intro hadmits
    unfold stepAdmits at hadmits
    split at hadmits
    next w _ _ hw =>
      simp only [Bool.and_eq_true, decide_eq_true_eq] at hadmits
      obtain ⟨⟨-, hstatus, rfl, -⟩, hactive⟩ := hadmits
      exact hkey w hw hstatus hactive
    next => cases hadmits
  · intro now revision
    rw [Option.eq_none_iff_forall_ne_some]
    rintro ⟨_, w, _⟩ hadmits
    obtain ⟨_, -, -, hw, -, -, -, hstatus, -, -, -, -, -, hactive⟩ :=
      activationAdmits_eq_some.mp hadmits
    exact hkey w hw hstatus hactive

/-- Whatever the services do after a drain, the checks of the bootstrap and of the activation
never pass for the workflow that was drained. -/
theorem drained_handoff_never_admitted {t₁ : AccountTables} {drainedAt : Instant} {c : DrainCall}
    {w₀ : SwitchWorkflow} (hs : t.Sound) (hw₀ : t.workflow c.key = some w₀)
    (hdraining : w₀.status = .draining) (hcommit : t.commitOnce drainedAt c = .ok t₁)
    (calls : List DeviceCall) :
    (∀ deviceId epoch, (devices.run t₁ calls).stepAdmits deviceId epoch c.key = false) ∧
      ∀ now revision, (devices.run t₁ calls).activationAdmits now c.key revision = none := by
  -- before the drain no workflow is bootstrapping: the draining one is the only one open
  have hnone : t.Completing := by
    intro x hx hb
    obtain ⟨hmem, -⟩ := mem_of_workflow hw₀
    have hkey := hs.oneNonterminal x hx w₀ hmem (by rw [hb]; rfl) (by rw [hdraining]; rfl)
    rw [hs.eq_of_key hx hmem hkey, hdraining] at hb
    cases hb
  have hmove : Moves t (.drain drainedAt c) t₁ := by
    rcases commitOnce_cases hcommit with ⟨-, x, hx, hb⟩ | hmove
    · cases hw₀.symm.trans hx
      rw [hdraining] at hb
      cases hb
    · exact hmove
  have hinv : (devices.run t₁ calls).Sound ∧ (devices.run t₁ calls).Completing := by
    refine devices.run_of_step (I := fun t => t.Sound ∧ t.Completing) (fun t call ht => ?_) calls
      ⟨hs.moves hmove, hnone.moves hs hmove⟩
    rcases next_cases t call with heq | hmove
    · rw [heq]
      exact ht
    · exact ⟨ht.1.moves hmove, ht.2.moves ht.1 hmove⟩
  exact hinv.2.refused hinv.1 c.key

/-- Two devices with a key each; the laptop holds the lease and hands over to `target`. -/
def twoDevices (target : String) : AccountTables where
  security := some ⟨true, 1⟩
  account := some ⟨1, 1, none⟩
  bindings := [⟨"laptop", .bound⟩, ⟨"desktop", .bound⟩]
  signingKeys := [⟨"laptop", 1, "key-laptop", .active⟩, ⟨"desktop", 1, "key-desktop", .active⟩]
  proofs := [⟨"workspace", "proof", "digest", "switch", "laptop", 1, "key-laptop", 1, 5, 50, none⟩]
  workflows :=
    [⟨"workspace", "switch", .draining, 1, some "laptop", target, "key-laptop", 1, 1, none, 100⟩]
  allocations := [⟨1, none, .activated⟩]
  leases := [⟨1, "laptop", 90, none⟩]

def handOver (target : String) : DrainCall :=
  ⟨"workspace", "switch", 1, target, "proof", "digest", false, true, true⟩

theorem twoDevices_sound (target : String) : (twoDevices target).Sound where
  keyIds := show ["key-laptop", "key-desktop"].Nodup by decide
  workflowKeys := nodup_singleton _
  oneNonterminal := by
    intro w hw x hx _ _
    rw [mem_singleton.mp hw, mem_singleton.mp hx]
  current := by
    rintro _ ⟨⟩
    exact Nat.le_refl 1

/-- The desktop logs in after the drain, and is not admitted either. -/
theorem drained_handoff_never_admitted_login : ∃ t₁,
    (twoDevices "desktop").commitOnce 10 (handOver "desktop") = .ok t₁ ∧
      (devices.run t₁ [.login 20 ⟨"desktop", 1, true, true, false, true, 200⟩]).stepAdmits
        "desktop" 1 (handOver "desktop").key = false :=
  have hcommit : (twoDevices "desktop").commitOnce 10 (handOver "desktop") = .ok _ := rfl
  ⟨_, hcommit, (drained_handoff_never_admitted (twoDevices_sound _) rfl rfl hcommit _).1 _ _⟩

/-- A handover to the other device is drained, and neither service goes on with it. -/
theorem drained_handoff_stuck : ∃ t₁,
    (twoDevices "desktop").commitOnce 10 (handOver "desktop") = .ok t₁ ∧
      t₁.bound "desktop" = true ∧ t₁.activeKey "desktop" "key-desktop" 1 = true ∧
      t₁.stepAdmits "desktop" 1 ("workspace", "switch") = false ∧
      t₁.activationAdmits 20 ("workspace", "switch") 2 = none :=
  ⟨_, rfl, by decide, by decide, by decide, by decide⟩

end AccountTables

end GoodDealer.Devices
