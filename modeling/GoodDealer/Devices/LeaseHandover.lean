/-
# `GoodDealer.Devices.LeaseHandover` — who gets the lease of an account

Three services hand out or take back the one lease: the drain releases it and reserves the
next epoch, the activation turns that epoch into the lease of the target, and a login takes
a lease for its own device.  Epochs only go up and one lease at most is held, whatever the
order.  The login looks at the held lease alone, though: between the drain and the activation
none is held, and it allocates an epoch after the reserved one
(`login_overtakes_handoff`).  In runs in which no login is accepted during that time, every
handoff stays activatable (`lease_handover`).

The epoch of a login is allocated for no workspace.  The sync guards look for the allocation in
the workspace that syncs, so they admit the holder of a lease only if it got it by a switch
(`holder_syncs_iff`).
-/
import GoodDealer.Devices.Handoff

namespace GoodDealer.Devices

open Cloud Table List

namespace AccountTables

variable {t t' : AccountTables} {call : DeviceCall}

/-- Epochs of leases go up, the current one is the last of them, and one lease at most is held. -/
structure LeasesSound (t : AccountTables) : Prop where
  increasing : (t.leases.map ActiveLease.leaseEpoch).Pairwise (· < ·)
  current : ∀ a, t.account = some a → ∀ e ∈ t.leases.map ActiveLease.leaseEpoch,
    e ≤ a.currentLeaseEpoch
  oneHeld : ∀ l ∈ t.leases, ∀ x ∈ t.leases, l.releasedAt = none → x.releasedAt = none →
    l.leaseEpoch = x.leaseEpoch

theorem heldLease_eq_none : t.heldLease = none ↔ ∀ l ∈ t.leases, l.releasedAt ≠ none := by
  simp [heldLease]

variable {l x : ActiveLease} {account : AccountState}

/-- After the drain no lease is held. -/
theorem LeasesSound.drained_free (h : t.LeasesSound) {now : Instant}
    {c : DrainCall} {held : ActiveLease} (hheld : t.heldLease = some held) :
    (t.drained now account c held).heldLease = none := by
  refine heldLease_eq_none.mpr
    (forall_updateWhere (fun _ _ _ h => by cases h) fun l hl hkept hfree => ?_)
  have hmem := mem_of_find?_eq_some hheld
  have hopen : held.releasedAt = none := by simpa using List.find?_some hheld
  have hepoch := h.oneHeld l hl held hmem hfree hopen
  rw [inj_on_of_nodup_map (h.increasing.imp ne_of_lt) hl hmem hepoch,
    decide_eq_false_iff_not] at hkept
  exact hkept ⟨rfl, rfl, hopen⟩

/-- When none is held, a new lease is the only one. -/
theorem eq_of_held (hfree : t.heldLease = none) (hx : x ∈ t.leases ++ [l])
    (hopen : x.releasedAt = none) : x = l := by
  rcases mem_append.mp hx with hx | hx
  · exact absurd hopen (heldLease_eq_none.mp hfree x hx)
  · exact mem_singleton.mp hx

/-- A new lease above the current epoch, when none is held. -/
theorem LeasesSound.appended (h : t.LeasesSound) {account' : AccountState}
    (haccount : t.account = some account) (hfree : t.heldLease = none)
    (hl : account.currentLeaseEpoch < l.leaseEpoch) (hleases : t'.leases = t.leases ++ [l])
    (haccount' : t'.account = some account')
    (hcurrent : account'.currentLeaseEpoch = l.leaseEpoch) :
    t'.LeasesSound := by
  have hbelow : ∀ e ∈ t.leases.map ActiveLease.leaseEpoch, e < l.leaseEpoch :=
    fun e he => lt_of_le_of_lt (h.current account haccount e he) hl
  refine ⟨?_, ?_, ?_⟩
  · rw [hleases, map_append, pairwise_append]
    refine ⟨h.increasing, pairwise_singleton _ _, fun e he x hx => ?_⟩
    rw [mem_singleton.mp hx]
    exact hbelow e he
  · intro a ha e he
    rw [haccount'] at ha
    cases ha
    rw [hleases, map_append, mem_append] at he
    rw [hcurrent]
    rcases he with he | he
    · exact le_of_lt (hbelow e he)
    · exact le_of_eq (mem_singleton.mp he)
  · have hlast : ∀ x ∈ t'.leases, x.releasedAt = none → x = l := by
      rw [hleases]
      exact fun x hx => eq_of_held hfree hx
    intro x hx y hy hopen hopen'
    rw [hlast x hx hopen, hlast y hy hopen']

theorem LeasesSound.moves (h : t.LeasesSound) (ht : t.Sound) (hmove : Moves t call t') :
    t'.LeasesSound := by
  cases hmove with
  | @drained now c account held w haccount hw hstatus hhanded hheld =>
    -- the lease that is released keeps its row and its epoch
    have hepochs : (t.drained now account c held).leases.map ActiveLease.leaseEpoch =
        t.leases.map ActiveLease.leaseEpoch := by
      apply map_updateWhere
      exact fun _ => rfl
    refine ⟨hepochs ▸ h.increasing, ?_, ?_⟩
    · rintro _ ⟨⟩ e he
      exact h.current account haccount e (hepochs ▸ he)
    · intro l hl _ _ hopen
      exact absurd hopen (heldLease_eq_none.mp (h.drained_free hheld) l hl)
  | stepped => exact ⟨h.increasing, h.current, h.oneHeld⟩
  | activated haccount hw hstatus hpending hlast hnew hfree =>
    exact h.appended haccount hfree hnew rfl rfl rfl
  | @renewed now c held hheld hdevice =>
    have hepochs : (t.renewed held c).leases.map ActiveLease.leaseEpoch =
        t.leases.map ActiveLease.leaseEpoch := by
      apply map_updateWhere
      exact fun _ => rfl
    have hold : ∀ l ∈ (t.renewed held c).leases, ∃ x ∈ t.leases,
        x.leaseEpoch = l.leaseEpoch ∧ x.releasedAt = l.releasedAt :=
      forall_updateWhere (fun l hl _ => ⟨l, hl, rfl, rfl⟩) (fun l hl _ => ⟨l, hl, rfl, rfl⟩)
    refine ⟨hepochs ▸ h.increasing, fun a ha e he => h.current a ha e (hepochs ▸ he), ?_⟩
    intro l hl x hx hopen hopen'
    obtain ⟨l₀, hl₀, hl', hlr⟩ := hold l hl
    obtain ⟨x₀, hx₀, hx', hxr⟩ := hold x hx
    rw [← hl', ← hx']
    exact h.oneHeld l₀ hl₀ x₀ hx₀ (hlr.trans hopen) (hxr.trans hopen')
  | granted haccount hfree =>
    exact h.appended haccount hfree (Nat.lt_succ_of_le (ht.current _ haccount)) rfl rfl rfl
  | written => exact ⟨h.increasing, h.current, h.oneHeld⟩

/-! ## Handoffs -/

/-- What the activation asks of the epochs: the pending one is reserved, it is the last one and
above the current one, and no lease is held. -/
def Activatable (t : AccountTables) (w : SwitchWorkflow) : Prop :=
  ∃ a e, t.account = some a ∧ w.pendingLeaseEpoch = some e ∧ e = a.highestAllocatedLeaseEpoch ∧
    a.currentLeaseEpoch < e ∧ t.heldLease = none ∧ ⟨e, some w.key, .pending⟩ ∈ t.allocations

def HandoffsOpen (t : AccountTables) : Prop :=
  ∀ w ∈ t.workflows, w.status = .bootstrapping → t.Activatable w

/-- No login is accepted while a workflow is bootstrapping. -/
def NoLoginInHandoff (t : AccountTables) : DeviceCall → Prop
  | .login now c => (t.ensureCurrentLease now c).isSome = true →
    ∀ w ∈ t.workflows, w.status ≠ .bootstrapping
  | _ => True

instance (t : AccountTables) : ∀ call, Decidable (t.NoLoginInHandoff call)
  | .login _ _ => inferInstanceAs (Decidable (_ → ∀ w ∈ t.workflows, w.status ≠ .bootstrapping))
  | .drain _ _ | .step _ _ _ _ | .activate _ _ | .write _ => isTrue trivial

theorem HandoffsOpen.moves (h : t.HandoffsOpen) (ht : t.Sound) (hl : t.LeasesSound)
    (hmove : Moves t call t') (hcall : t.NoLoginInHandoff call) : t'.HandoffsOpen := by
  intro w' hw' hb
  rcases hmove.bootstrapping ht hw' hb with ⟨w, hw, hstatus, hsame, hrest⟩ |
    ⟨now, c, account, held, w, rfl, haccount, hheld, hw, -, rfl, rfl⟩
  · rcases hrest with ⟨haccount, hleases, hallocations⟩ | ⟨now, c, rfl, haccepted⟩
    · -- nothing that the handoff rests on has moved
      obtain ⟨a, e, ha, hpending, hlast, hnew, hfree, hreserved⟩ := h w hw hstatus
      rw [hsame]
      refine ⟨a, e, haccount.trans ha, hpending, hlast, hnew, ?_, hallocations ▸ hreserved⟩
      rwa [heldLease, hleases]
    · exact absurd hstatus (hcall haccepted w hw)
  · -- a drain reserves the epoch after the last one and leaves no lease held
    refine ⟨_, _, rfl, rfl, rfl, Nat.lt_succ_of_le (ht.current _ haccount),
      hl.drained_free hheld, ?_⟩
    unfold drained
    rw [← (mem_of_workflow hw).2]
    exact mem_concat_self

/-- Who is handed a lease, and under which epoch: the holder its own, or, if none is held, a
device under an epoch above all epochs of leases; never a login while a workflow is
bootstrapping. -/
def HandsOut (t : AccountTables) (call : DeviceCall) : Prop :=
  ∀ e, devices.out t call = some e →
    (∀ held, t.heldLease = some held → e = held.leaseEpoch ∧
      ∃ now c, call = .login now c ∧ c.deviceId = held.deviceId) ∧
    (t.heldLease = none → ∀ l ∈ t.leases, l.leaseEpoch < e) ∧
    ∀ now c, call = .login now c → ∀ w ∈ t.workflows, w.status ≠ .bootstrapping

theorem handsOut (ht : t.Sound) (hl : t.LeasesSound) (hcall : t.NoLoginInHandoff call) :
    t.HandsOut call := by
  have hbelow : ∀ a, t.account = some a → ∀ e, a.currentLeaseEpoch < e →
      ∀ l ∈ t.leases, l.leaseEpoch < e := fun a ha e he l hmem =>
    lt_of_le_of_lt (hl.current a ha _ (mem_map_of_mem hmem)) he
  intro e hout
  cases call with
  | drain | step | write => cases hout
  | activate now c =>
    cases hactivate : t.activateOnce now c with
    | none => simp [Machine.out, devices, hactivate] at hout
    | some r =>
      obtain ⟨t', epoch⟩ := r
      simp only [Machine.out, devices, hactivate, Option.some.injEq] at hout
      obtain ⟨hmove, w, hw, hpending⟩ := activateOnce_moves hactivate
      cases hmove with
      | activated haccount hx hstatus hpending' hlast hnew hfree =>
        -- what is handed out is the pending epoch, and the guard puts it above the current one
        cases hw.symm.trans hx
        obtain rfl := Option.some.inj (hpending.symm.trans hpending')
        refine ⟨fun held hheld => ?_, fun _ => hout ▸ hbelow _ haccount _ hnew,
          fun _ _ h => by cases h⟩
        rw [hfree] at hheld
        cases hheld
  | login now c =>
    cases hlogin : t.ensureCurrentLease now c with
    | none => simp [Machine.out, devices, hlogin] at hout
    | some r =>
      obtain ⟨t', epoch⟩ := r
      simp only [Machine.out, devices, hlogin, Option.some.injEq] at hout
      subst hout
      rcases ensureCurrentLease_cases hlogin with ⟨held, hheld, hdevice, rfl, -⟩ |
        ⟨account, haccount, hfree, rfl, -⟩
      · refine ⟨fun x hx => ?_, fun hfree => ?_, fun _ _ _ => hcall (hlogin ▸ rfl)⟩
        · cases hheld.symm.trans hx
          exact ⟨rfl, now, c, rfl, hdevice.symm⟩
        · rw [hheld] at hfree
          cases hfree
      · refine ⟨fun x hx => ?_, fun _ => ?_, fun _ _ _ => hcall (hlogin ▸ rfl)⟩
        · rw [hfree] at hx
          cases hx
        · exact hbelow _ haccount _ (Nat.lt_succ_of_le (ht.current _ haccount))

/-- In a run in which no login is accepted during a handoff, one lease at most is held, epochs are
handed out in order and only to the holder or when none is held, and every handoff stays
activatable until it is activated or ends. -/
theorem lease_handover (hs : t.Sound) (hl : t.LeasesSound) (ho : t.HandoffsOpen)
    {calls : List DeviceCall} (hcalls : devices.Along NoLoginInHandoff t calls) :
    devices.Along HandsOut t calls ∧ (devices.run t calls).LeasesSound ∧
      (devices.run t calls).HandoffsOpen := by
  have hstep : ∀ t call, (t.Sound ∧ t.LeasesSound ∧ t.HandoffsOpen) → t.NoLoginInHandoff call →
      (devices.next t call).Sound ∧ (devices.next t call).LeasesSound ∧
        (devices.next t call).HandoffsOpen := by
    rintro t call ⟨hs, hl, ho⟩ hcall
    rcases next_cases t call with heq | hmove
    · rw [heq]
      exact ⟨hs, hl, ho⟩
    · exact ⟨hs.moves hmove, hl.moves hs hmove, ho.moves hs hl hmove hcall⟩
  refine ⟨devices.along_of_inv hstep (fun t call h hcall => handsOut h.1 h.2.1 hcall) ⟨hs, hl, ho⟩
    hcalls, ?_⟩
  exact (devices.run_inv hstep ⟨hs, hl, ho⟩ hcalls).2

/-- A login of the laptop. -/
def laptopLogin : LoginCall := ⟨"laptop", 1, true, true, false, true, 200⟩

/-- The laptop logs in before it hands over. -/
theorem lease_handover_drained :
    devices.Along HandsOut (twoDevices "desktop")
      [.login 5 laptopLogin, .drain 10 (handOver "desktop")] ∧
      (devices.run (twoDevices "desktop")
        [.login 5 laptopLogin, .drain 10 (handOver "desktop")]).LeasesSound ∧
      (devices.run (twoDevices "desktop")
        [.login 5 laptopLogin, .drain 10 (handOver "desktop")]).HandoffsOpen :=
  lease_handover (twoDevices_sound "desktop")
    ⟨pairwise_singleton _ _, by rintro _ ⟨⟩; decide, by decide⟩
    (fun w hw hb => by rw [mem_singleton.mp hw] at hb; cases hb) (by decide)

/-- The drained source logs in during the handoff and is given a lease again, and the epoch that
is pending for the target is no longer the last one. -/
theorem login_overtakes_handoff :
    let t := devices.run (twoDevices "desktop") [.drain 10 (handOver "desktop")]
    t.workflows.map (fun w => (w.status, w.pendingLeaseEpoch)) = [(.bootstrapping, some 2)] ∧
      devices.out t (.login 20 laptopLogin) = some 3 ∧
      (devices.next t (.login 20 laptopLogin)).account = some ⟨3, 3, none⟩ ∧
      ¬ (devices.next t (.login 20 laptopLogin)).HandoffsOpen := by
  refine ⟨by decide, by decide, by decide, fun h => ?_⟩
  obtain ⟨a, e, ha, hpending, hlast, -⟩ := h _ mem_cons_self rfl
  cases ha
  cases hpending
  cases hlast

/-! ## Who may sync -/

/-- The epoch of a lease that is held is allocated and activated. -/
def HeldActivated (t : AccountTables) : Prop :=
  ∀ l ∈ t.leases, l.releasedAt = none →
    ∃ a ∈ t.allocations, a.leaseEpoch = l.leaseEpoch ∧ a.status = .activated

theorem HeldActivated.moves (h : t.HeldActivated) (hl : t.LeasesSound) (hmove : Moves t call t') :
    t'.HeldActivated := by
  cases hmove with
  | drained haccount hw hstatus hhanded hheld =>
    exact fun l hmem hopen => absurd hopen (heldLease_eq_none.mp (hl.drained_free hheld) l hmem)
  | stepped | written => exact h
  | activated haccount hw hstatus hpending hlast hnew hfree hreserved =>
    intro l hmem hopen
    rw [eq_of_held hfree hmem hopen]
    exact exists_updateWhere hreserved (fun _ => ⟨rfl, rfl⟩) (fun hkept => by simp at hkept)
  | renewed => exact forall_updateWhere_of h
  | granted haccount hfree =>
    intro l hmem hopen
    rw [eq_of_held hfree hmem hopen]
    exact ⟨_, mem_concat_self, rfl, rfl⟩

/-- The rows of the account as the sync guards read them, with the keys of the tables. -/
structure ReadAs (t : AccountTables) (T : DeviceTables) : Prop where
  account : T.accountState = t.account.isSome
  bindings : T.bindings = t.bindings
  allocations : T.allocations =
    t.allocations.map fun a => ⟨a.leaseEpoch, a.workflow.map Prod.fst, a.status⟩
  leases : T.leases = t.leases

/-- `resolveActiveDevice`; the joins of its query go along keys.  `session` is the device of the
principal's session, if it is live, `currentLeaseEpoch` the column of the account's state and
`issuedAt` that of the leases. -/
def resolveActiveDevice (T : DeviceTables) (scope : TenantScope) (now : Instant)
    (currentLeaseEpoch : Nat) (issuedAt : Nat → Instant) (session : Option String) :
    Option String :=
  match session, Keyed.lookup ActiveLease.leaseEpoch currentLeaseEpoch T.leases with
  | some deviceId, some lease =>
    if T.accountState && T.bound deviceId && lease.deviceId = deviceId && T.held scope now lease &&
        issuedAt lease.leaseEpoch ≤ now && validIdentifier deviceId then some deviceId
    else none
  | _, _ => none

/-- After any calls, the holder of the current lease is resolved and admitted exactly when the
epoch was allocated by a switch in this workspace. -/
theorem holder_syncs_iff (hs : t.Sound) (hl : t.LeasesSound) (ha : t.HeldActivated)
    (calls : List DeviceCall) (T : DeviceTables) (hT : (devices.run t calls).ReadAs T)
    (account : AccountState) (haccount : (devices.run t calls).account = some account)
    (lease : ActiveLease) (hheld : (devices.run t calls).heldLease = some lease)
    (hcurrent : lease.leaseEpoch = account.currentLeaseEpoch)
    (hbound : T.bound lease.deviceId = true)
    (hcolumns : validSelectors lease.deviceId lease.leaseEpoch = true) (now : Instant)
    (hlive : now < lease.offlineExecuteUntil) (issuedAt : Nat → Instant)
    (hissued : issuedAt lease.leaseEpoch ≤ now) (scope : TenantScope) :
    (resolveActiveDevice T scope now account.currentLeaseEpoch issuedAt (some lease.deviceId) =
        some lease.deviceId ∧
      T.lockAndValidateActiveLease scope now lease.deviceId lease.leaseEpoch = true) ↔
    ∃ a ∈ (devices.run t calls).allocations, a.leaseEpoch = lease.leaseEpoch ∧
      a.workflow.map Prod.fst = some scope.workspaceId := by
  have hrun : (devices.run t calls).Sound ∧ (devices.run t calls).LeasesSound ∧
      (devices.run t calls).HeldActivated := by
    refine devices.run_of_step (I := fun t => t.Sound ∧ t.LeasesSound ∧ t.HeldActivated)
      (fun t call ⟨hs, hl, ha⟩ => ?_) calls ⟨hs, hl, ha⟩
    rcases next_cases t call with heq | hmove
    · rw [heq]
      exact ⟨hs, hl, ha⟩
    · exact ⟨hs.moves hmove, hl.moves hs hmove, ha.moves hl hmove⟩
  generalize devices.run t calls = t at *
  have hmem : lease ∈ T.leases := hT.leases ▸ mem_of_find?_eq_some hheld
  have hopen : lease.releasedAt = none := by simpa using List.find?_some hheld
  have hactivated : T.activated scope lease.leaseEpoch = true ↔ ∃ a ∈ t.allocations,
      a.leaseEpoch = lease.leaseEpoch ∧ a.workflow.map Prod.fst = some scope.workspaceId := by
    simp only [DeviceTables.activated, hT.allocations, any_map, any_eq_true, Function.comp_apply,
      Bool.and_eq_true, decide_eq_true_eq]
    constructor
    · rintro ⟨a, hmem, ⟨hepoch, hworkspace⟩, -⟩
      exact ⟨a, hmem, hepoch, hworkspace⟩
    · rintro ⟨a, hmem, hepoch, hworkspace⟩
      -- the epoch has one allocation, and that is activated
      obtain ⟨x, hx, hx', hstatus⟩ := hrun.2.2 lease (hT.leases ▸ ‹lease ∈ T.leases›) hopen
      have hkey := T.allocationKey
      rw [hT.allocations, List.map_map] at hkey
      obtain rfl : a = x := inj_on_of_nodup_map hkey hmem hx (hepoch.trans hx'.symm)
      exact ⟨a, hmem, ⟨hepoch, hworkspace⟩, hstatus⟩
  have hguard : T.held scope now lease = true ↔ T.activated scope lease.leaseEpoch = true := by
    simp [DeviceTables.held, hopen, hlive]
  have hid : validIdentifier lease.deviceId = true := by
    simp only [validSelectors, Bool.and_eq_true] at hcolumns
    exact hcolumns.1.1
  have hrow : Keyed.lookup ActiveLease.leaseEpoch account.currentLeaseEpoch T.leases = some lease :=
    hcurrent ▸ Keyed.lookup_of_mem T.leaseKey hmem
  have hstate : T.accountState = true := by rw [hT.account, haccount]; rfl
  rw [← hactivated, lockAndValidateActiveLease_iff]
  simp only [resolveActiveDevice, hrow]
  constructor
  · rintro ⟨-, -, -, -, -, _, -, -, -, hact⟩
    exact hact
  · intro hact
    exact ⟨by simp [hstate, hbound, hguard.mpr hact, hissued, hid], hcolumns, hstate, hbound,
      ⟨lease, hmem, hguard.mpr hact, rfl⟩, lease, hmem, rfl, rfl, hact⟩

/-- The rows of the laptop's lease, with the workspace of its allocation. -/
def laptopRows (workspaceId : Option String) : DeviceTables :=
  ⟨true, (twoDevices "desktop").bindings, [⟨1, workspaceId, .activated⟩],
    [⟨1, "laptop", 200, none⟩], by decide, nodup_singleton _, nodup_singleton _, by decide⟩

/-- The lease of a switch is renewed. -/
theorem holder_syncs_iff_switched :
    resolveActiveDevice (laptopRows (some "workspace")) sampleScope 6 1 (fun _ => 5)
      (some "laptop") = some "laptop" ∧
    (laptopRows (some "workspace")).lockAndValidateActiveLease sampleScope 6 "laptop" 1 = true :=
  have h := twoDevices_sound "desktop"
  (holder_syncs_iff (t := { twoDevices "desktop" with
      allocations := [⟨1, some ("workspace", "earlier"), .activated⟩] })
    ⟨h.keyIds, h.workflowKeys, h.oneNonterminal, h.current⟩
    ⟨pairwise_singleton _ _, by rintro _ ⟨⟩; decide, by decide⟩
    (fun l hl _ => ⟨_, mem_singleton_self _, by rw [mem_singleton.mp hl], rfl⟩)
    [.login 5 { laptopLogin with renewalDue := true }] _ ⟨rfl, rfl, rfl, rfl⟩ _ rfl _ rfl rfl
    (by decide) (by decide) 6 (by decide) (fun _ => 5) (by decide) sampleScope).mpr
    ⟨_, mem_singleton_self _, rfl, rfl⟩

/-- The laptop logs in to an account without a lease: its own lease is for no workspace. -/
theorem login_holder_refused :
    let t := devices.run { twoDevices "desktop" with
      account := some ⟨0, 0, none⟩, allocations := [], leases := [] } [.login 5 laptopLogin]
    t.ReadAs (laptopRows none) ∧ t.heldLease = some ⟨1, "laptop", 200, none⟩ ∧
      t.account = some ⟨1, 1, none⟩ ∧
      resolveActiveDevice (laptopRows none) sampleScope 6 1 (fun _ => 5) (some "laptop") = none ∧
      (laptopRows none).lockAndValidateActiveLease sampleScope 6 "laptop" 1 = false :=
  ⟨⟨rfl, rfl, rfl, rfl⟩, rfl, rfl, by decide, by decide⟩

end AccountTables

end GoodDealer.Devices
