/-
# `GoodDealer.Cloud.JobFencing` — leases, epochs and completions of jobs

The lease of a job is in two rows, and each operation looks at a part of it.  `Sound` is what
ties the parts together:

* a leased job is the current job of its partition, under the same worker and epoch, and its
  lease does not outlast that of the partition;
* a held partition is held under its highest epoch, by a leased job;
* no attempt has an epoch above the highest of its partition.

Every write of a transaction keeps `Sound`, and the fencing of the runtime follows from it.
-/
import GoodDealer.Cloud.JobWrites

namespace GoodDealer.Cloud

open List Keyed

/-! ## The invariant -/

/-- The partition row of a leased job names its lease. -/
structure LeaseHolder.Holds (h : LeaseHolder) (j : JobRow) (lease : JobLease) : Prop where
  job : h.jobId = j.jobId
  epoch : h.leaseEpoch = j.leaseEpoch
  worker : h.worker = lease.worker
  outlasts : lease.expiresAt ≤ h.expiresAt

namespace JobTables

/-- The partition a job belongs to. -/
def partitionOf (T : JobTables) (jobId : String) : Option (String × String) :=
  (T.job jobId).map JobRow.partition

/-- The epochs of one partition go up. -/
def EpochsIncrease (T : JobTables) (attempts : List (String × Nat × Nat)) : Prop :=
  attempts.Pairwise (fun k k' => T.partitionOf k.1 = T.partitionOf k'.1 → k.2.2 < k'.2.2)

/-- The attempt belongs to a job, and its epoch is not above the highest of the partition. -/
structure Counted (T : JobTables) (k : String × Nat × Nat) (j : JobRow) (p : PartitionLease) :
    Prop where
  job : T.job k.1 = some j
  partition : T.partition j.partition = some p
  attempt : k.2.1 ≤ j.attemptCount
  epoch : k.2.2 ≤ p.highestLeaseEpoch

structure Sound (T : JobTables) : Prop where
  jobKeys : (T.jobs.map JobRow.jobId).Nodup
  partitionKeys : (T.partitions.map PartitionLease.key).Nodup
  leased : ∀ j ∈ T.jobs, ∀ lease, j.state = .leased lease →
    ∃ p h, T.partition j.partition = some p ∧ h ∈ p.state.holder ∧ h.Holds j lease
  held : ∀ p ∈ T.partitions, ∀ h ∈ p.state.holder, h.leaseEpoch = p.highestLeaseEpoch ∧
    ∃ j ∈ T.jobs, j.jobId = h.jobId ∧ j.partition = p.key ∧ j.isLeased = true
  counted : ∀ k ∈ T.attempts.map JobAttempt.key, ∃ j p, T.Counted k j p
  epochs : T.EpochsIncrease (T.attempts.map JobAttempt.key)

end JobTables

/-! ## Every write keeps the invariant -/

namespace JobTables

/-- No job moves to another partition, and the counters do not go back. -/
structure Grows (T T' : JobTables) : Prop where
  jobs : ∀ id j, T.job id = some j → ∃ j', T'.job id = some j' ∧ j'.partition = j.partition ∧
    j.attemptCount ≤ j'.attemptCount
  partitions : ∀ k p, T.partition k = some p → ∃ p', T'.partition k = some p' ∧
    p.highestLeaseEpoch ≤ p'.highestLeaseEpoch

variable {T T' : JobTables}

variable {p q : PartitionLease} {j row : JobRow} {k : String × String} {id : String}
  {f : JobRow → JobRow}
  {g : PartitionLease → PartitionLease} {clock : Nat → Instant}

theorem Grows.counted (h : T.Grows T') {k : String × Nat × Nat} (hk : T.Counted k j p) :
    ∃ j' p', T'.Counted k j' p' := by
  obtain ⟨j', hj', hpartition, hattempt⟩ := h.jobs _ _ hk.job
  obtain ⟨p', hp', hepoch⟩ := h.partitions _ _ hk.partition
  exact ⟨j', p', hj', hpartition ▸ hp', hk.attempt.trans hattempt, hk.epoch.trans hepoch⟩

theorem Grows.partitionOf (h : T.Grows T') (hj : T.job id = some j) :
    T'.partitionOf id = T.partitionOf id := by
  obtain ⟨j', hj', hpartition, _⟩ := h.jobs _ _ hj
  rw [JobTables.partitionOf, hj', JobTables.partitionOf, hj, Option.map_some, Option.map_some,
    hpartition]

theorem Grows.epochs (h : T.Grows T') (hT : T.Sound) :
    T'.EpochsIncrease (T.attempts.map JobAttempt.key) := by
  refine List.Pairwise.imp_of_mem (fun {k k'} hk hk' hlt heq => ?_) hT.epochs
  obtain ⟨j, p, hj⟩ := hT.counted k hk
  obtain ⟨j', p', hj'⟩ := hT.counted k' hk'
  rw [h.partitionOf hj.job, h.partitionOf hj'.job] at heq
  exact hlt heq

theorem Sound.job_of_mem (h : T.Sound) (hj : j ∈ T.jobs) : T.job j.jobId = some j :=
  lookup_of_mem h.jobKeys hj

/-- At most one job of a partition is leased. -/
theorem Sound.exclusive (h : T.Sound) {j' : JobRow} (hj : j ∈ T.jobs) (hj' : j' ∈ T.jobs)
    (hpartition : j.partition = j'.partition) {lease lease' : JobLease}
    (hleased : j.state = .leased lease) (hleased' : j'.state = .leased lease') : j = j' := by
  obtain ⟨p, holder, hp, hholder, hholds⟩ := h.leased j hj lease hleased
  obtain ⟨p', holder', hp', hholder', hholds'⟩ := h.leased j' hj' lease' hleased'
  rw [← hpartition, hp] at hp'
  cases hp'
  cases Option.some.inj (hholder.symm.trans hholder')
  have hid : j.jobId = j'.jobId := hholds.job.symm.trans hholds'.job
  have hfound := h.job_of_mem hj
  rw [hid, h.job_of_mem hj'] at hfound
  exact (Option.some.inj hfound).symm

/-! ### One row is changed -/

section

variable (hjobs : T'.jobs = adjust JobRow.jobId id f T.jobs)
  (hf : ∀ j, j.jobId = id → (f j).jobId = id)

include hjobs hf

theorem job_adjust (id' : String) :
    T'.job id' = if id' = id then (T.job id).map f else T.job id' := by
  rw [job, hjobs]
  split
  next h => rw [h, lookup_adjust_self hf]; rfl
  next h => rw [lookup_adjust_ne hf h]; rfl

theorem jobKeys_adjust :
    T'.jobs.map JobRow.jobId = T.jobs.map JobRow.jobId := by
  rw [hjobs]
  exact keys_adjust hf _

end

theorem partition_adjust (hg : ∀ p, p.key = k → (g p).key = k) {partitions : List PartitionLease}
    (hpartitions : T'.partitions = adjust PartitionLease.key k g partitions)
    (k' : String × String) :
    T'.partition k' = if k' = k then (Keyed.lookup PartitionLease.key k partitions).map g
      else Keyed.lookup PartitionLease.key k' partitions := by
  rw [partition, hpartitions]
  split
  next h => rw [h, lookup_adjust_self hg]
  next h => rw [lookup_adjust_ne hg h]

theorem partition_ensure (T : JobTables) (k k' : String × String) :
    (T.ensurePartition k).partition k' =
      if k' = k then some ((T.partition k).getD (.fresh k)) else T.partition k' := by
  show Keyed.lookup PartitionLease.key k'
    (Keyed.put PartitionLease.key (.fresh k) id T.partitions) = _
  split
  next h =>
    rw [h, lookup_put_self (show (PartitionLease.fresh k).key = k from rfl), Option.map_id]
    · rfl
    · exact fun _ hb => hb
  next h => exact lookup_put_ne (fun _ hb => hb) h _

theorem mem_ensure (hp : p ∈ (T.ensurePartition k).partitions) :
    p ∈ T.partitions ∨ p = .fresh k := by
  rcases mem_put hp with hp | hp | ⟨q, hq, _, rfl⟩
  · exact .inl hp
  · exact .inr hp
  · exact .inl hq

theorem partitionKeys_ensure (h : (T.partitions.map PartitionLease.key).Nodup)
    (k : String × String) : ((T.ensurePartition k).partitions.map PartitionLease.key).Nodup := by
  show ((Keyed.put PartitionLease.key (.fresh k) id T.partitions).map PartitionLease.key).Nodup
  cases hk : Keyed.lookup PartitionLease.key k T.partitions with
  | none =>
    rw [put_of_lookup_none hk]
    exact nodup_append_new h hk
  | some p =>
    rw [put_of_lookup_some hk, keys_adjust]
    · exact h
    · exact fun _ hb => hb

section

variable (h : T.Sound)

include h

/-- One job row is replaced. -/
theorem Sound.mem_adjust
    (hj : T.job id = some j) (hjobs : T'.jobs = adjust JobRow.jobId id f T.jobs) {x : JobRow} :
    x ∈ T'.jobs ↔ x = f j ∨ (x ∈ T.jobs ∧ x.jobId ≠ id) := by
  rw [hjobs, Keyed.mem_adjust]
  constructor
  · rintro ⟨y, hy, rfl⟩
    split
    next hid =>
      have hfound := h.job_of_mem hy
      rw [hid, hj] at hfound
      exact .inl (congrArg f (Option.some.inj hfound).symm)
    next hne => exact .inr ⟨hy, hne⟩
  · obtain ⟨hmem, hid⟩ := lookup_eq_some hj
    rintro (rfl | ⟨hx, hne⟩)
    · exact ⟨j, hmem, by rw [if_pos hid]⟩
    · exact ⟨x, hx, by rw [if_neg hne]⟩

/-- One partition row is replaced. -/
theorem Sound.mem_adjust_partitions (hp : T.partition k = some p)
    (hpartitions : T'.partitions = adjust PartitionLease.key k g T.partitions)
    (hq : q ∈ T'.partitions) : q = g p ∨ (q ∈ T.partitions ∧ q.key ≠ k) := by
  rw [hpartitions, Keyed.mem_adjust] at hq
  obtain ⟨q₀, hq₀, rfl⟩ := hq
  split
  next hkey =>
    have hfound : T.partition q₀.key = some q₀ := lookup_of_mem h.partitionKeys hq₀
    rw [hkey, hp] at hfound
    exact .inl (congrArg g (Option.some.inj hfound).symm)
  next hne => exact .inr ⟨hq₀, hne⟩

/-! ### The writes -/

/-- The attempts of the past stay counted, so a write that adds none has to keep the rest. -/
theorem Sound.of_grows (hgrows : T.Grows T')
    (hattempts : T'.attempts.map JobAttempt.key = T.attempts.map JobAttempt.key)
    (hjobs : T'.jobs.map JobRow.jobId = T.jobs.map JobRow.jobId ∨ (T'.jobs.map JobRow.jobId).Nodup)
    (hpartitions : (T'.partitions.map PartitionLease.key).Nodup)
    (hleased : ∀ j ∈ T'.jobs, ∀ lease, j.state = .leased lease →
      ∃ p holder, T'.partition j.partition = some p ∧ holder ∈ p.state.holder ∧
        holder.Holds j lease)
    (hheld : ∀ p ∈ T'.partitions, ∀ holder ∈ p.state.holder,
      holder.leaseEpoch = p.highestLeaseEpoch ∧
      ∃ j ∈ T'.jobs, j.jobId = holder.jobId ∧ j.partition = p.key ∧ j.isLeased = true) :
    T'.Sound := by
  refine ⟨?_, hpartitions, hleased, hheld, ?_, ?_⟩
  · rcases hjobs with hjobs | hjobs
    · rw [hjobs]
      exact h.jobKeys
    · exact hjobs
  · rw [hattempts]
    intro k hk
    obtain ⟨j, p, hcounted⟩ := h.counted k hk
    exact hgrows.counted hcounted
  · rw [hattempts]
    exact hgrows.epochs h

theorem Sound.record (hjobs : T'.jobs = T.jobs)
    (hpartitions : T'.partitions = T.partitions) (hattempts : T'.attempts = T.attempts) :
    T'.Sound := by
  have hjob : T'.job = T.job := by unfold job; rw [hjobs]
  have hpartition : T'.partition = T.partition := by unfold partition; rw [hpartitions]
  refine h.of_grows ⟨fun id j hj => ⟨j, hjob ▸ hj, rfl, le_rfl⟩,
    fun k p hp => ⟨p, hpartition ▸ hp, le_rfl⟩⟩ (by rw [hattempts]) (.inl (by rw [hjobs]))
    (hpartitions ▸ h.partitionKeys) ?_ ?_
  · rw [hjobs, hpartition]
    exact h.leased
  · rw [hpartitions, hjobs]
    exact h.held

theorem Sound.insert (frozen : FrozenJob) {jobId : String} (now : Instant)
    (hfresh : T.job jobId = none) :
    Sound { T with jobs := T.jobs ++ [frozen.row jobId now] } := by
  refine h.of_grows ⟨fun id j hj => ⟨j, ?_, rfl, le_rfl⟩, fun k p hp => ⟨p, hp, le_rfl⟩⟩
    rfl (.inr (nodup_append_new h.jobKeys hfresh)) h.partitionKeys ?_ ?_
  · show Keyed.lookup JobRow.jobId id (T.jobs ++ _) = some j
    rw [Keyed.lookup_append, show Keyed.lookup JobRow.jobId id T.jobs = some j from hj,
      Option.some_or]
  · exact forall_mem_append.mpr ⟨h.leased, forall_mem_singleton.mpr fun _ hlease => by cases hlease⟩
  · intro p hp holder hholder
    obtain ⟨hepoch, j, hj, hrest⟩ := h.held p hp holder hholder
    exact ⟨hepoch, j, mem_append_left _ hj, hrest⟩

end

theorem partition_ensure_of_some {k' : String × String} (hp : T.partition k' = some p) :
    (T.ensurePartition k).partition k' = some p := by
  rw [partition_ensure]
  split
  next h => rw [← h, hp, Option.getD_some]
  · exact hp

theorem Sound.ensure (h : T.Sound) (k : String × String) : (T.ensurePartition k).Sound := by
  refine h.of_grows ⟨fun id j hj => ⟨j, hj, rfl, le_rfl⟩,
    fun k' p hp => ⟨p, partition_ensure_of_some hp, le_rfl⟩⟩ rfl (.inl rfl)
    (partitionKeys_ensure h.partitionKeys k) ?_ ?_
  · intro j hj lease hlease
    obtain ⟨p, holder, hp, hholder⟩ := h.leased j hj lease hlease
    exact ⟨p, holder, partition_ensure_of_some hp, hholder⟩
  · intro p hp holder hholder
    rcases mem_ensure hp with hp | rfl
    · exact h.held p hp holder hholder
    · cases hholder

/-- The candidate is a stored job. -/
theorem Claimed.mem (h : T.Claimed clock row p) :
    row ∈ T.jobs ∧ T.claimable (clock 0) row = true :=
  mem_filter.mp (argmin_mem h.candidate)

/-- The partition of the candidate, if it has a row. -/
theorem Claimed.partition_eq
    (h : T.Claimed clock row p) (hq : T.partition row.partition = some q) : q = p :=
  Option.some.inj ((partition_ensure_of_some hq).symm.trans h.partition)

section

variable {workerId : String} {claimed : T.Claimed clock row p}
  (leased : T.Leased clock workerId row p claimed T')
include leased

theorem Leased.job (id : String) :
    T'.job id =
      if id = row.jobId then
        some (row.claimed workerId (p.highestLeaseEpoch + 1) (clock 2) claimed.attempt
          claimed.epoch)
      else T.job id := by
  have hrow : (T.job row.jobId).isSome = true :=
    lookup_isSome.mpr (mem_map_of_mem claimed.mem.1)
  obtain ⟨j, hj⟩ := Option.isSome_iff_exists.mp hrow
  rw [job_adjust leased.jobs (fun _ _ => rfl), hj]
  rfl

theorem Leased.partition (k : String × String) :
    T'.partition k = if k = row.partition then some (p.hold row workerId (clock 3) claimed.epoch)
      else T.partition k := by
  have hkey : (p.hold row workerId (clock 3) claimed.epoch).key = row.partition :=
    (lookup_eq_some claimed.partition).2
  rw [partition_adjust (fun _ _ => hkey) leased.partitions]
  split
  next => rw [show Keyed.lookup PartitionLease.key row.partition
      (T.ensurePartition row.partition).partitions = some p from claimed.partition, Option.map_some]
  next h =>
    show (T.ensurePartition row.partition).partition k = _
    rw [partition_ensure, if_neg h]

/-- A claimed row is stored in place of the candidate. -/
theorem Leased.mem (hT : T.Sound) :
    j ∈ T'.jobs ↔ j = row.claimed workerId (p.highestLeaseEpoch + 1) (clock 2) claimed.attempt
      claimed.epoch ∨ (j ∈ T.jobs ∧ j.jobId ≠ row.jobId) :=
  hT.mem_adjust (hT.job_of_mem claimed.mem.1) leased.jobs

theorem Leased.mem_partitions (hq : q ∈ T'.partitions) :
    q = p.hold row workerId (clock 3) claimed.epoch ∨
      (q ∈ T.partitions ∧ q.key ≠ row.partition) := by
  rw [leased.partitions, mem_adjust] at hq
  obtain ⟨q₀, hq₀, rfl⟩ := hq
  split
  · exact .inl rfl
  next hne =>
    rcases mem_ensure hq₀ with hq₀ | rfl
    · exact .inr ⟨hq₀, hne⟩
    · exact absurd rfl hne

theorem Leased.grows (hT : T.Sound) : T.Grows T' where
  jobs := by
    intro id j hj
    rw [leased.job]
    split
    next h =>
      rw [h, hT.job_of_mem claimed.mem.1] at hj
      cases hj
      exact ⟨_, rfl, rfl, Nat.le_succ _⟩
    · exact ⟨j, hj, rfl, le_rfl⟩
  partitions := by
    intro k q hq
    rw [leased.partition]
    split
    next h =>
      have hp : q = p := claimed.partition_eq (h ▸ hq)
      rw [hp]
      exact ⟨_, rfl, Nat.le_succ _⟩
    · exact ⟨q, hq, le_rfl⟩

theorem Leased.counted_new : T'.Counted
    (row.jobId, row.attemptCount + 1, p.highestLeaseEpoch + 1)
    (row.claimed workerId (p.highestLeaseEpoch + 1) (clock 2) claimed.attempt claimed.epoch)
    (p.hold row workerId (clock 3) claimed.epoch) where
  job := by rw [leased.job, if_pos rfl]
  partition := by
    rw [leased.partition]
    exact if_pos rfl
  attempt := le_rfl
  epoch := le_rfl

/-- The new epoch is above every epoch of the partition. -/
theorem Leased.epochs (hT : T.Sound) : T'.EpochsIncrease (T'.attempts.map JobAttempt.key) := by
  rw [leased.attempts]
  refine pairwise_append.mpr ⟨(leased.grows hT).epochs hT, pairwise_singleton _ _, ?_⟩
  intro k hk k' hk' hsame
  rw [mem_singleton.mp hk'] at hsame ⊢
  obtain ⟨j, q, hcounted⟩ := hT.counted k hk
  rw [(leased.grows hT).partitionOf hcounted.job, (leased.grows hT).partitionOf
    (hT.job_of_mem claimed.mem.1), partitionOf, partitionOf, hcounted.job,
    hT.job_of_mem claimed.mem.1, Option.map_some, Option.map_some, Option.some_inj] at hsame
  have hq : q = p := claimed.partition_eq (hsame ▸ hcounted.partition)
  exact Nat.lt_succ_of_le (hq ▸ hcounted.epoch)

theorem Leased.sound (hT : T.Sound) (hclock : Monotone clock) : T'.Sound where
  jobKeys := by
    rw [jobKeys_adjust leased.jobs (fun _ _ => rfl)]
    exact hT.jobKeys
  partitionKeys := by
    rw [leased.partitions, keys_adjust]
    · exact partitionKeys_ensure hT.partitionKeys _
    · exact fun _ _ => (lookup_eq_some claimed.partition).2
  leased := by
    intro j hj lease hlease
    rcases (leased.mem hT).mp hj with rfl | ⟨hj, hne⟩
    · cases hlease
      refine ⟨_, _, leased.counted_new.partition, rfl, rfl, rfl, rfl, ?_⟩
      exact Nat.add_le_add_right (hclock (by decide)) _
    · obtain ⟨q, holder, hq, hholder, hholds⟩ := hT.leased j hj lease hlease
      refine ⟨q, holder, ?_, hholder, hholds⟩
      rw [leased.partition]
      split
      next hsame =>
        -- the partition of the candidate is held by no other job
        have hp := claimed.partition_eq (hsame ▸ hq)
        have hid := claimed.current holder (hp ▸ hholder)
        exact absurd (hholds.job.symm.trans hid) hne
      · exact hq
  held := by
    intro q hq holder hholder
    rcases leased.mem_partitions hq with rfl | ⟨hq, hne⟩
    · cases hholder
      exact ⟨rfl, _, (leased.mem hT).mpr (.inl rfl), rfl,
        (lookup_eq_some claimed.partition).2.symm, rfl⟩
    · obtain ⟨hepoch, j, hj, hid, hpartition, hleased⟩ := hT.held q hq holder hholder
      refine ⟨hepoch, j, (leased.mem hT).mpr (.inr ⟨hj, fun hsame => hne ?_⟩), hid, hpartition,
        hleased⟩
      have hfound := hT.job_of_mem hj
      rw [hsame, hT.job_of_mem claimed.mem.1] at hfound
      rw [← hpartition, Option.some.inj hfound]
  counted := by
    rw [leased.attempts]
    refine forall_mem_append.mpr
      ⟨fun k hk => ?_, forall_mem_singleton.mpr ⟨_, _, leased.counted_new⟩⟩
    obtain ⟨j, q, hcounted⟩ := hT.counted k hk
    exact (leased.grows hT).counted hcounted
  epochs := leased.epochs hT

end

/-! The renewal of a lease. -/

theorem renewed_frozen (j : JobRow) (t : Instant) : (j.renewed t).jobId = j.jobId ∧
    (j.renewed t).partition = j.partition ∧ (j.renewed t).attemptCount = j.attemptCount ∧
    (j.renewed t).leaseEpoch = j.leaseEpoch := by
  unfold JobRow.renewed
  split <;> exact ⟨rfl, rfl, rfl, rfl⟩

theorem renewed_state {lease : JobLease} (h : j.state = .leased lease) (t : Instant) :
    (j.renewed t).state = .leased { lease with
      expiresAt := min (t + interval j.runtimePolicy.leaseSeconds) lease.deadlineAt } := by
  unfold JobRow.renewed
  rw [h]

theorem extend_frozen (p : PartitionLease) (a : LeaseAuthority) (e : Instant) :
    (p.extend a e).key = p.key ∧ (p.extend a e).highestLeaseEpoch = p.highestLeaseEpoch := by
  unfold PartitionLease.extend
  split
  · exact ⟨rfl, rfl⟩
  · split <;> exact ⟨rfl, rfl⟩

theorem extend_holder {a : LeaseAuthority} {h : LeaseHolder} (hh : h ∈ p.state.holder)
    (hworker : h.worker = a.workerId) (hepoch : h.leaseEpoch = a.leaseEpoch) (e : Instant) :
    (p.extend a e).state.holder = some { h with expiresAt := e } := by
  have hh : p.state.holder = some h := hh
  unfold PartitionLease.extend
  split
  next hnone =>
    rw [hnone] at hh
    cases hh
  next holder hsome =>
  rw [hsome] at hh
  cases hh
  rw [if_pos ⟨hworker, hepoch⟩]
  rfl

section

variable {a : LeaseAuthority} {now : Instant} {j' : JobRow} {lease lease' : JobLease}
  {h : LeaseHolder} (fenced : T.Fenced a now j lease p h)
include fenced

theorem Fenced.mem : j ∈ T.jobs ∧ j.jobId = a.jobId := lookup_eq_some fenced.job

variable (hT : T.Sound)

include hT

/-- The fenced job is the only leased job of the partition. -/
theorem Fenced.only (hj' : j' ∈ T.jobs)
    (hlease : j'.state = .leased lease') (hpartition : j'.partition = a.partition) : j' = j :=
  hT.exclusive hj' fenced.mem.1 (hpartition.trans fenced.partitionName.symm) hlease fenced.state

/-- A partition other than the fenced one is held by another job. -/
theorem Fenced.held_elsewhere (hj' : j' ∈ T.jobs)
    (hpartition : j'.partition = q.key) (hne : q.key ≠ a.partition) : j'.jobId ≠ a.jobId := by
  intro hid
  have hfound := hT.job_of_mem hj'
  rw [hid, fenced.job] at hfound
  rw [← hpartition, ← Option.some.inj hfound, fenced.partitionName] at hne
  exact hne rfl

/-- A write of the fenced job and its partition, which may end or prolong the lease. -/
theorem Fenced.adjusted (hjobs : T'.jobs = adjust JobRow.jobId a.jobId f T.jobs)
    (hpartitions : T'.partitions = adjust PartitionLease.key a.partition g T.partitions)
    (hattempts : T'.attempts.map JobAttempt.key = T.attempts.map JobAttempt.key)
    (hf : ∀ j, (f j).jobId = j.jobId ∧ (f j).partition = j.partition ∧
      (f j).attemptCount = j.attemptCount)
    (hg : ∀ q, (g q).key = q.key ∧ (g q).highestLeaseEpoch = q.highestLeaseEpoch)
    (hleased : ∀ lease', (f j).state = .leased lease' →
      ∃ holder ∈ (g p).state.holder, holder.Holds (f j) lease')
    (hheld : ∀ holder ∈ (g p).state.holder, holder.leaseEpoch = p.highestLeaseEpoch ∧
      holder.jobId = a.jobId ∧ (f j).isLeased = true) : T'.Sound := by
  have hrow : ∀ j : JobRow, j.jobId = a.jobId → (f j).jobId = a.jobId := fun j => (hf j).1.trans
  have hkey : ∀ q : PartitionLease, q.key = a.partition → (g q).key = a.partition :=
    fun q => (hg q).1.trans
  have hpartition := partition_adjust hkey hpartitions
  have hfound :
      Keyed.lookup PartitionLease.key a.partition T.partitions = some p := fenced.partition
  refine hT.of_grows ⟨?_, ?_⟩ hattempts (.inl (jobKeys_adjust hjobs hrow)) ?_ ?_ ?_
  · intro id j₀ hj₀
    rw [job_adjust hjobs hrow]
    split
    next hid =>
      rw [hid] at hj₀
      rw [hj₀]
      exact ⟨_, rfl, (hf j₀).2.1, (hf j₀).2.2.ge⟩
    · exact ⟨j₀, hj₀, rfl, le_rfl⟩
  · intro k q hq
    rw [hpartition]
    split
    next hk =>
      rw [hk, fenced.partition] at hq
      cases hq
      rw [hfound]
      exact ⟨_, rfl, (hg p).2.ge⟩
    · exact ⟨q, hq, le_rfl⟩
  · rw [hpartitions, keys_adjust hkey]
    exact hT.partitionKeys
  · intro j' hj' lease' hlease'
    rcases (hT.mem_adjust fenced.job hjobs).mp hj' with rfl | ⟨hj', hne⟩
    · obtain ⟨holder, hholder, hholds⟩ := hleased lease' hlease'
      rw [hpartition, (hf j).2.1, if_pos fenced.partitionName, hfound]
      exact ⟨_, holder, rfl, hholder, hholds⟩
    · obtain ⟨q, holder, hq, hholder, hholds⟩ := hT.leased j' hj' lease' hlease'
      refine ⟨q, holder, ?_, hholder, hholds⟩
      -- a row that names another job is not the row of the partition
      rw [hpartition, if_neg fun hsame => hne (fenced.only hT hj' hlease' hsame ▸ fenced.mem.2)]
      exact hq
  · intro q hq holder hholder
    rcases hT.mem_adjust_partitions fenced.partition hpartitions hq with rfl | ⟨hq, hne⟩
    · obtain ⟨hepoch, hid, hleased⟩ := hheld holder hholder
      refine ⟨hepoch.trans (hg p).2.symm, _, (hT.mem_adjust fenced.job hjobs).mpr (.inl rfl),
        ?_, ?_, hleased⟩
      · exact (hrow j fenced.mem.2).trans hid.symm
      · rw [(hf j).2.1, (hg p).1, fenced.partitionName, (lookup_eq_some fenced.partition).2]
    · obtain ⟨hepoch, j', hj', hid, hname, hleased⟩ := hT.held q hq holder hholder
      exact ⟨hepoch, j', (hT.mem_adjust fenced.job hjobs).mpr
        (.inr ⟨hj', fenced.held_elsewhere hT hj' hname hne⟩), hid, hname, hleased⟩

theorem Fenced.renew_sound {t t' : Instant} (renewed : T.Renewed a j t t' T') :
    T'.Sound := by
  have hnew := extend_holder fenced.holder fenced.holderWorker fenced.holderEpoch
    (min (t' + interval j.runtimePolicy.leaseSeconds) j.deadline)
  refine fenced.adjusted hT renewed.jobs renewed.partitions (congrArg _ renewed.attempts)
    (fun j => ⟨(renewed_frozen j t).1, (renewed_frozen j t).2.1, (renewed_frozen j t).2.2.1⟩)
    (fun q => extend_frozen q a _) ?_ ?_
  · intro lease' hlease'
    rw [renewed_state fenced.state] at hlease'
    cases hlease'
    refine ⟨_, hnew, ?_, ?_, ?_, ?_⟩
    · exact fenced.holderJob.trans ((renewed_frozen j t).1.trans fenced.mem.2).symm
    · exact fenced.holderEpoch.trans ((renewed_frozen j t).2.2.2.trans fenced.epoch).symm
    · exact fenced.holderWorker.trans fenced.worker.symm
    · rw [JobRow.deadline, fenced.state]
      exact min_le_min_right _ (Nat.add_le_add_right renewed.later _)
  · intro holder hholder
    rw [hnew] at hholder
    cases hholder
    refine ⟨(hT.held p (lookup_eq_some fenced.partition).1 h fenced.holder).1, fenced.holderJob, ?_⟩
    rw [JobRow.isLeased, renewed_state fenced.state]

theorem Fenced.end_sound {state : JobState} (ended : T.Ended a state T') :
    T'.Sound := by
  obtain ⟨availableAt, hjobs⟩ := ended.jobs
  refine fenced.adjusted hT hjobs ended.partitions ended.attempts (fun _ => ⟨rfl, rfl, rfl⟩)
    (fun q => ?_) (fun lease' hlease' => absurd hlease' (ended.unleased lease')) ?_
  · split <;> exact ⟨rfl, rfl⟩
  · intro holder hholder
    rw [if_pos] at hholder
    · cases hholder
    · refine (Option.any_eq_true _ _).mpr ⟨h, fenced.holder, ?_⟩
      simp [fenced.holderWorker, fenced.holderEpoch]

end

theorem Sound.requeue (h : T.Sound) (hstate : j.state = .quarantined)
    (hj : T.job j.jobId = some j) {now : Instant} (room : j.replayGeneration + 1 ≤ maxSafeInteger)
    (hjobs : T'.jobs = adjust JobRow.jobId j.jobId (fun _ => j.requeued now room) T.jobs)
    (hpartitions : T'.partitions = T.partitions) (hattempts : T'.attempts = T.attempts) :
    T'.Sound := by
  have hsame : T'.partition = T.partition := by
    unfold partition
    rw [hpartitions]
  refine h.of_grows ⟨?_, ?_⟩ (congrArg _ hattempts)
    (.inl (jobKeys_adjust hjobs (fun _ _ => rfl))) (hpartitions ▸ h.partitionKeys) ?_ ?_
  · intro id j₀ hj₀
    rw [job_adjust hjobs (fun _ _ => rfl)]
    split
    next hid =>
      rw [hid, hj] at hj₀
      cases hj₀
      rw [hj]
      exact ⟨_, rfl, rfl, le_rfl⟩
    · exact ⟨j₀, hj₀, rfl, le_rfl⟩
  · intro k q hq
    exact ⟨q, hsame ▸ hq, le_rfl⟩
  · intro j' hj' lease hlease
    rw [hsame]
    rcases (h.mem_adjust hj hjobs).mp hj' with rfl | ⟨hj', _⟩
    · cases hlease
    · exact h.leased j' hj' lease hlease
  · rw [hpartitions]
    intro q hq holder hholder
    obtain ⟨hepoch, j', hj', hid, hname, hleased⟩ := h.held q hq holder hholder
    refine ⟨hepoch, j', (h.mem_adjust hj hjobs).mpr (.inr ⟨hj', fun hsame => ?_⟩), hid, hname,
      hleased⟩
    -- a quarantined job is not leased
    have hfound := h.job_of_mem hj'
    rw [hsame, hj] at hfound
    rw [← Option.some.inj hfound, JobRow.isLeased, hstate] at hleased
    cases hleased

theorem Sound.write {mayClaim mayReplay : JobRow → Prop} (h : T.Sound)
    (hwrite : JobWrite mayClaim mayReplay T T') : T'.Sound := by
  cases hwrite with
  | record jobs partitions attempts => exact h.record jobs partitions attempts
  | insert frozen jobId now fresh => exact h.insert frozen now fresh
  | ensure k => exact h.ensure k
  | claim mono claimed _ leased => exact leased.sound h mono
  | renew fenced renewed =>
    obtain ⟨lease, p, holder, hfenced⟩ := fenced_of_lockFenced fenced
    exact hfenced.renew_sound h renewed
  | finish fenced ended _ =>
    obtain ⟨lease, p, holder, hfenced⟩ := fenced_of_lockFenced fenced
    exact hfenced.end_sound h ended
  | requeue _ quarantined stored room jobs partitions attempts =>
    exact h.requeue quarantined stored room jobs partitions attempts

end JobTables

/-! ## The row of one job -/

/-- The state of a job that can be claimed. -/
def JobState.Waiting (state : JobState) : Prop :=
  state = .available ∨ state = .retryWait ∨ ∃ lease, state = .leased lease

variable (mayClaim mayReplay : JobRow → Prop) (mayComplete : Prop) in
/-- How the row of one job can change. -/
inductive RowStep : Option JobRow → Option JobRow → Prop
  | same (row : Option JobRow) : RowStep row row
  | inserted (frozen : FrozenJob) (id : String) (now : Instant) :
      RowStep none (some (frozen.row id now))
  | claimed {row : JobRow} (permitted : mayClaim row) (waiting : row.state.Waiting)
      {worker : String} {epoch : Nat} {now : Instant} (hcount : row.attemptCount + 1 ≤ 100)
      (hepoch : epoch ≤ maxSafeInteger) : RowStep (some row)
        (some (row.claimed worker epoch now hcount hepoch))
  | renewed {j : JobRow} {lease : JobLease} (leased : j.state = .leased lease) (now : Instant) :
      RowStep (some j) (some (j.renewed now))
  | ended {j : JobRow} {lease : JobLease} (leased : j.state = .leased lease) {state : JobState}
      (availableAt : Instant → Instant) (pauses : state = .quarantined ∨
        state = .retryWait ∧ j.attemptCount < j.runtimePolicy.maxAttempts) :
      RowStep (some j)
        (some { j with state := state, availableAt := availableAt j.availableAt })
  | completed {j : JobRow} (permitted : mayComplete) (digest : Bytes) :
      RowStep (some j) (some { j with state := .completed digest })
  | requeued {j : JobRow} (permitted : mayReplay j) (quarantined : j.state = .quarantined)
      {now : Instant} (room : j.replayGeneration + 1 ≤ maxSafeInteger) :
      RowStep (some j) (some (j.requeued now room))

section

variable {mayClaim mayReplay : JobRow → Prop} {mayComplete : Prop} {T T' : JobTables} {j : JobRow}
  {digest : Bytes}

/-- Of a replaced row: its own step, and the other rows stay. -/
theorem RowStep.of_adjust {id : String} {f : JobRow → JobRow}
    (hjobs : T'.jobs = adjust JobRow.jobId id f T.jobs)
    (hf : ∀ j, j.jobId = id → (f j).jobId = id) (hj : T.job id = some j)
    (hstep : RowStep mayClaim mayReplay mayComplete (some j) (some (f j))) (id' : String) :
    RowStep mayClaim mayReplay mayComplete (T.job id') (T'.job id') := by
  rw [JobTables.job_adjust hjobs hf]
  split
  next h =>
    rw [h, hj]
    exact hstep
  · exact .same _

theorem waiting_of_due {now : Instant} (h : j.due now = true) : j.state.Waiting := by
  unfold JobRow.due at h
  cases hstate : j.state with
  | available => exact .inl rfl
  | retryWait => exact .inr (.inl rfl)
  | leased lease => exact .inr (.inr ⟨lease, rfl⟩)
  | completed digest | quarantined =>
    rw [hstate] at h
    cases h

/-- No write completes a job. -/
theorem JobWrite.row (hT : T.Sound) (h : JobWrite mayClaim mayReplay T T') (id : String) :
    RowStep mayClaim mayReplay mayComplete (T.job id) (T'.job id) := by
  cases h with
  | record jobs _ _ =>
    rw [show T'.job id = T.job id by rw [JobTables.job, jobs]; rfl]
    exact .same _
  | insert frozen jobId now fresh =>
    show RowStep _ _ _ (T.job id) (Keyed.lookup JobRow.jobId id (T.jobs ++ [frozen.row jobId now]))
    rw [Keyed.lookup_append, Keyed.lookup_cons, Keyed.lookup_nil]
    show RowStep _ _ _ (T.job id) ((T.job id).or _)
    cases hid : T.job id with
    | some j => exact .same _
    | none =>
      rw [Option.none_or]
      split
      · exact .inserted frozen jobId now
      · exact .same _
  | ensure k => exact .same _
  | claim _ claimed permitted leased =>
    have hdue : _ := (Bool.and_eq_true_iff.mp claimed.mem.2).1
    exact .of_adjust leased.jobs (fun _ _ => rfl) (hT.job_of_mem claimed.mem.1)
      (.claimed permitted (waiting_of_due hdue) claimed.attempt claimed.epoch) id
  | @renew _ a _ j fenced t t' renewed =>
    obtain ⟨lease, _, _, hfenced⟩ := JobTables.fenced_of_lockFenced fenced
    exact .of_adjust renewed.jobs (fun j hj => (JobTables.renewed_frozen j t).1.trans hj)
      hfenced.job (.renewed hfenced.state t) id
  | finish fenced ended pauses =>
    obtain ⟨lease, _, _, hfenced⟩ := JobTables.fenced_of_lockFenced fenced
    obtain ⟨availableAt, hjobs⟩ := ended.jobs
    exact .of_adjust hjobs (fun _ hj => hj) hfenced.job
      (.ended hfenced.state availableAt pauses) id
  | requeue permitted quarantined stored room jobs _ _ =>
    exact .of_adjust jobs (fun _ _ => rfl) stored (.requeued permitted quarantined room) id

/-- A step that completes no job leaves the completed rows alone. -/
theorem RowStep.completed_iff {row row' : Option JobRow}
    (h : RowStep mayClaim mayReplay False row row') (hj : j.state = .completed digest) :
    row' = some j ↔ row = some j := by
  -- the row that is replaced is not completed, before and after
  have hreplaced : ∀ {x x' : JobRow}, x.state ≠ .completed digest → x'.state ≠ .completed digest →
      (some x' = some j ↔ some x = some j) := fun hx hx' =>
    ⟨fun e => absurd (Option.some.inj e ▸ hj) hx', fun e => absurd (Option.some.inj e ▸ hj) hx⟩
  cases h with
  | same => rfl
  | inserted =>
    refine ⟨fun e => ?_, nofun⟩
    rw [← Option.some.inj e] at hj
    cases hj
  | claimed _ waiting =>
    refine hreplaced ?_ nofun
    rcases waiting with h | h | ⟨_, h⟩ <;> rw [h] <;> exact nofun
  | renewed leased now =>
    exact hreplaced (by rw [leased]; exact nofun)
      (by rw [JobTables.renewed_state leased]; exact nofun)
  | ended leased availableAt pauses =>
    refine hreplaced (by rw [leased]; exact nofun) ?_
    rcases pauses with rfl | ⟨rfl, _⟩ <;> exact nofun
  | completed permitted => exact permitted.elim
  | requeued _ quarantined => exact hreplaced (by rw [quarantined]; exact nofun) nofun

end

/-! ## Completed jobs -/

variable {digest : Bytes}

/-- The completion of a fenced job, in the tables. -/
theorem JobTables.job_complete {T : JobTables} {a : LeaseAuthority} (id : String) :
    (T.completeFenced a digest).job id =
      if id = a.jobId then (T.job a.jobId).map (fun j => { j with state := .completed digest })
      else T.job id := by
  have hjobs : (T.completeFenced a digest).jobs =
      adjust JobRow.jobId a.jobId _ T.jobs := rfl
  exact JobTables.job_adjust hjobs (fun _ hj => hj) id

/-! ## The runtime -/

section

variable {ρ D X W : Type}

/-- The handle an operation presents. -/
def JobOperation.handle : JobOperation W → Option Nat
  | .renew handle | .execute handle _ | .retry handle _ | .quarantine handle _ _ => some handle
  | .enqueue .. | .claim .. | .verifyReplayAuthorization .. | .replay _ => none

/-- What a handle stands for, until it is consumed or lost. -/
def JobSystem.authority (s : JobSystem ρ D) (handle : Nat) : Option LeaseAuthority :=
  (Keyed.lookup Prod.fst handle s.handles).map Prod.snd

/-- The handle was consumed, a later epoch of its partition was leased, or its lease has run
out. -/
inductive HandleLost (s : JobSystem ρ D) (handle : Nat) (now : Instant) : Prop
  | consumed (gone : s.authority handle = none)
  | takenOver (a : LeaseAuthority) (t : JobAttempt) (held : s.authority handle = some a)
      (attempt : t ∈ (s.tables a.scope).attempts)
      (partition : (s.tables a.scope).partitionOf t.jobId = some a.partition)
      (later : a.leaseEpoch < t.leaseEpoch)
  | expired (a : LeaseAuthority) (j : JobRow) (lease : JobLease)
      (held : s.authority handle = some a)
      (job : (s.tables a.scope).job a.jobId = some j) (leased : j.state = .leased lease)
      (past : lease.expiresAt ≤ now)

/-- The lease of the job has not run out. -/
def JobRow.Unexpired (j : JobRow) (now : Instant) : Prop :=
  ∃ lease, j.state = .leased lease ∧ now < lease.expiresAt

variable [DecidableEq ρ] (P : ρ → PostgresJobRuntime D X W)

/-- The event executes the job of a handle to its completion, by one of the runtimes. -/
def CompletesBy (s : JobSystem ρ D) (e : JobEvent ρ D W) (runtime : ρ) (a : LeaseAuthority) :
    Prop :=
  (jobRuntime P).out s e = .executed .completed ∧
    ∃ op elapse handle, e = .call runtime op elapse ∧ op.handle = some handle ∧
      s.authority handle = some a

def Completes (s : JobSystem ρ D) (e : JobEvent ρ D W) (a : LeaseAuthority) : Prop :=
  ∃ runtime, CompletesBy P s e runtime a

/-- The handler's effects are committed with the completion, and only then. -/
structure Effects (s : JobSystem ρ D) (e : JobEvent ρ D W) : Prop where
  committed : ∀ runtime a, CompletesBy P s e runtime a → ∃ j digest,
    (s.tables a.scope).job a.jobId = some j ∧
    (P runtime).registry.Handles s.domain a.scope j ((jobRuntime P).next s e).domain digest ∧
    (((jobRuntime P).next s e).tables a.scope).job a.jobId =
      some { j with state := .completed digest }
  rolledBack : (∀ a, ¬ Completes P s e a) → (∀ domain, e ≠ .other domain) →
    ((jobRuntime P).next s e).domain = s.domain ∧
    ∀ scope id j digest, j.state = .completed digest →
      (((jobRuntime P).next s e).tables scope).job id = some j → (s.tables scope).job id = some j

/-- The fencing of a state. -/
structure JobsFenced (s : JobSystem ρ D) : Prop where
  exclusive : ∀ scope, ∀ j ∈ (s.tables scope).jobs, ∀ j' ∈ (s.tables scope).jobs,
    j.partition = j'.partition → j.Unexpired s.now → j'.Unexpired s.now → j = j'
  epochs : ∀ scope, (s.tables scope).attempts.Pairwise (fun t u =>
    (s.tables scope).partitionOf t.jobId = (s.tables scope).partitionOf u.jobId →
      t.leaseEpoch < u.leaseEpoch)
  stale : ∀ runtime op elapse handle, op.handle = some handle →
    HandleLost s handle (reading s.now elapse 0) →
    ((jobRuntime P).next s (.call runtime op elapse)).tables = s.tables ∧
      ((jobRuntime P).next s (.call runtime op elapse)).domain = s.domain
  effects : ∀ e, Effects P s e

/-- In a run, each job is completed at most once. -/
def CompletedOnce (s₀ : JobSystem ρ D) : Prop :=
  ∀ es e es' e' a a', Completes P ((jobRuntime P).run s₀ es) e a →
    Completes P ((jobRuntime P).run s₀ (es ++ e :: es')) e' a' →
    ¬ (a.scope = a'.scope ∧ a.jobId = a'.jobId)

/-! ### Steps of the runtime -/

variable {P}

theorem consumed_keeps (s : JobSystem ρ D) (runtime : ρ) (op : JobOperation W) :
    (s.consumed runtime op).tables = s.tables ∧ (s.consumed runtime op).domain = s.domain := by
  have hhandle : ∀ handle, (((s.consumeHandle handle).map Prod.fst).getD s).tables = s.tables ∧
      (((s.consumeHandle handle).map Prod.fst).getD s).domain = s.domain := by
    intro handle
    cases h : s.consumeHandle handle with
    | none => exact ⟨rfl, rfl⟩
    | some res => exact consumeHandle_keeps h
  cases op with
  | renew handle | execute handle _ | retry handle _ | quarantine handle _ _ => exact hhandle handle
  | replay capability =>
    simp only [JobSystem.consumed]
    cases h : s.consumeReplayCapability runtime capability with
    | none => exact ⟨rfl, rfl⟩
    | some res => exact consumeReplayCapability_keeps h
  | enqueue | claim | verifyReplayAuthorization => exact ⟨rfl, rfl⟩

/-- What an event can do. -/
inductive RuntimeStep (P : ρ → PostgresJobRuntime D X W) (s s' : JobSystem ρ D) :
    JobEvent ρ D W → JobReply → Prop
  | call {runtime : ρ} {op : JobOperation W} {elapse : Nat → Nat} {reply : JobReply}
      (step : JobStep (fun _ _ => True) (fun _ _ => True) (P runtime).registry s s' reply) :
      RuntimeStep P s s' (.call runtime op elapse) reply
  | idle {e : JobEvent ρ D W} (tables : s'.tables = s.tables) (domain : s'.domain = s.domain) :
      RuntimeStep P s s' e .none
  | other {domain : D} (tables : s'.tables = s.tables) : RuntimeStep P s s' (.other domain) .none

theorem runtime_step (s : JobSystem ρ D) (e : JobEvent ρ D W) :
    RuntimeStep P s ((jobRuntime P).next s e) e ((jobRuntime P).out s e) := by
  cases e with
  | call runtime op elapse =>
    have h : JobStep (fun _ _ => True) (fun _ _ => True) (P runtime).registry s _ _ :=
      call_step (P runtime) s runtime (reading_mono s.now elapse) op
        (fun _ _ _ _ _ => trivial) (fun _ _ _ _ _ _ => trivial)
    exact .call (h.congr rfl rfl)
  | aborted runtime op elapse =>
    obtain ⟨htables, hdomain⟩ := consumed_keeps s runtime op
    exact .idle htables hdomain
  | crash lost => exact .idle rfl rfl
  | other domain => exact .other rfl

/-- The tables of every tenant are sound. -/
def JobSystem.Sound (s : JobSystem ρ D) : Prop := ∀ scope, (s.tables scope).Sound

omit [DecidableEq ρ] in
theorem JobSystem.Sound.commit {s s' : JobSystem ρ D} (hs : s.Sound) {scope : TenantScope}
    {T' : JobTables} (htables : s'.tables = (s.commit scope T').tables) (hT : T'.Sound) :
    s'.Sound := by
  intro scope'
  rw [htables]
  show JobTables.Sound (if scope' = scope then T' else s.tables scope')
  split
  · exact hT
  · exact hs scope'

omit [DecidableEq ρ] in
theorem JobStep.sound {mayClaim mayReplay : TenantScope → JobRow → Prop}
    {R : JobKindRegistry D X W} {s s' : JobSystem ρ D} {reply : JobReply} (hs : s.Sound)
    (h : JobStep mayClaim mayReplay R s s' reply) : s'.Sound := by
  cases h with
  | same tables _ _ =>
    intro scope
    rw [tables]
    exact hs scope
  | write scope write tables _ _ => exact hs.commit tables ((hs scope).write write)
  | @complete a now j digest T' fenced executed tables =>
    obtain ⟨lease, p, holder, hfenced⟩ := JobTables.fenced_of_lockFenced fenced
    have hended := JobTables.completeFenced_ended (s.tables a.scope) a digest
    rw [← executed.tables] at hended
    exact hs.commit tables (hfenced.end_sound (hs a.scope) hended)

variable {s : JobSystem ρ D} {e : JobEvent ρ D W} {a : LeaseAuthority} {handle : Nat}

theorem sound_next (hs : s.Sound) (e : JobEvent ρ D W) : ((jobRuntime P).next s e).Sound := by
  have h := runtime_step (P := P) s e
  generalize (jobRuntime P).out s e = reply at h
  cases h with
  | call step => exact step.sound hs
  | idle tables _ | other tables =>
    intro scope
    rw [tables]
    exact hs scope

omit [DecidableEq ρ] in
theorem sound_initial (domain : D) : (JobSystem.initial domain : JobSystem ρ D).Sound := by
  intro scope
  refine ⟨nodup_nil, nodup_nil, ?_, ?_, ?_, List.Pairwise.nil⟩
  · exact fun j hj => by cases hj
  · exact fun p hp => by cases hp
  · exact fun k hk => by cases hk

theorem sound_run (domain : D) (es : List (JobEvent ρ D W)) :
    ((jobRuntime P).run (JobSystem.initial domain) es).Sound :=
  (jobRuntime P).run_of_step (I := JobSystem.Sound) (fun _ e hs => sound_next hs e) es
    (sound_initial domain)

/-! ### Lost handles -/

omit [DecidableEq ρ] in
theorem consumeHandle_eq (s : JobSystem ρ D) (handle : Nat) : s.consumeHandle handle =
    (s.authority handle).map fun a =>
      ({ s with handles := Keyed.remove Prod.fst handle s.handles }, a) := by
  unfold JobSystem.consumeHandle JobSystem.authority
  cases Keyed.lookup Prod.fst handle s.handles with
  | none | some entry => rfl

omit [DecidableEq ρ] in
/-- A handle that was taken over or has run out does not pass the fence. -/
theorem lockFenced_of_lost (hs : s.Sound) {now : Instant}
    (ha : s.authority handle = some a) (hlost : HandleLost s handle now) :
    (s.tables a.scope).lockFenced a now = none := by
  cases hlock : (s.tables a.scope).lockFenced a now with
  | none => rfl
  | some j =>
    obtain ⟨lease, p, h, hfenced⟩ := JobTables.fenced_of_lockFenced hlock
    cases hlost with
    | consumed gone =>
      rw [gone] at ha
      cases ha
    | takenOver a' t held attempt partition later =>
      cases Option.some.inj (held.symm.trans ha)
      -- the holder of the partition has the highest epoch
      obtain ⟨hp, _⟩ := lookup_eq_some hfenced.partition
      obtain ⟨hhighest, _⟩ := (hs a.scope).held p hp h hfenced.holder
      obtain ⟨j', p', hcounted⟩ := (hs a.scope).counted t.key (mem_map_of_mem attempt)
      have hname : j'.partition = a.partition := by
        rw [JobTables.partitionOf, show (s.tables a.scope).job t.jobId = some j' from hcounted.job,
          Option.map_some] at partition
        exact Option.some.inj partition
      have hsame := hcounted.partition
      rw [hname, hfenced.partition] at hsame
      cases hsame
      have hle : t.leaseEpoch ≤ p.highestLeaseEpoch := hcounted.epoch
      rw [← hhighest, hfenced.holderEpoch] at hle
      exact absurd later (not_lt.mpr hle)
    | expired a' j' lease' held job leased past =>
      cases Option.some.inj (held.symm.trans ha)
      cases Option.some.inj (job.symm.trans hfenced.job)
      rw [hfenced.state] at leased
      cases leased
      exact absurd hfenced.live (not_lt.mpr past)

/-- An operation with a lost handle changes nothing. -/
theorem stale_unchanged (hs : s.Sound) (runtime : ρ) (op : JobOperation W) (elapse : Nat → Nat)
    (hop : op.handle = some handle)
    (hlost : HandleLost s handle (reading s.now elapse 0)) :
    ((jobRuntime P).next s (.call runtime op elapse)).tables = s.tables ∧
      ((jobRuntime P).next s (.call runtime op elapse)).domain = s.domain := by
  show (s.call (P runtime) runtime (reading s.now elapse) op).1.tables = s.tables ∧
    (s.call (P runtime) runtime (reading s.now elapse) op).1.domain = s.domain
  have hbody : ∀ body : JobSystem ρ D → LeaseAuthority → JobSystem ρ D × JobReply,
      (∀ s' a, s'.tables = s.tables → s'.domain = s.domain →
        (s.tables a.scope).lockFenced a (reading s.now elapse 0) = none →
        (body s' a).1.tables = s.tables ∧ (body s' a).1.domain = s.domain) →
      (s.withHandle handle body).1.tables = s.tables ∧
        (s.withHandle handle body).1.domain = s.domain := by
    intro body h
    rw [JobSystem.withHandle, consumeHandle_eq]
    cases ha : s.authority handle with
    | none => exact ⟨rfl, rfl⟩
    | some a => exact h _ a rfl rfl (lockFenced_of_lost hs ha hlost)
  cases op with
  | renew | execute | retry | quarantine =>
    cases hop
    refine hbody _ fun s' a htables hdomain hlock => ?_
    simp only [JobTables.renew, executeDatabaseJob, retry, quarantine, htables, hlock]
    exact ⟨htables ▸ commit_self s' a.scope, hdomain⟩
  | enqueue | claim | verifyReplayAuthorization | replay => cases hop

/-! ### Completions -/

/-- A completion is a commit of the handler's effects for the fenced job of the handle. -/
theorem executed_of_completes {runtime : ρ} (h : CompletesBy P s e runtime a) :
    ∃ now j digest T', (s.tables a.scope).lockFenced a now = some j ∧
      Executed (P runtime).registry s.domain (s.tables a.scope) a
        ((jobRuntime P).next s e).domain T' j digest ∧
      ((jobRuntime P).next s e).tables = (s.commit a.scope T').tables := by
  obtain ⟨hout, op, elapse, handle, rfl, hop, ha⟩ := h
  have hcall :
      (s.call (P runtime) runtime (reading s.now elapse) op).2 = .executed .completed := hout
  show ∃ now j digest T', _ ∧ Executed _ _ _ _
    (s.call (P runtime) runtime (reading s.now elapse) op).1.domain T' j digest ∧
    (s.call (P runtime) runtime (reading s.now elapse) op).1.tables = _
  cases op with
  | execute _ quarantineId =>
    cases hop
    rw [JobSystem.call, JobSystem.withHandle, consumeHandle_eq, ha] at hcall ⊢
    simp only [Option.map_some] at hcall ⊢
    split at hcall
    · cases hcall
    next d T outcome hok =>
    cases hcall
    rcases execute_cases hok with ⟨hstale, _⟩ | ⟨hrejected, _⟩ | ⟨_, j, digest, hlock, hexecuted⟩
    · cases hstale
    · cases hrejected
    · exact ⟨_, j, digest, T, hlock, hexecuted, rfl⟩
  | renew | retry | quarantine =>
    cases hop
    rw [JobSystem.call, JobSystem.withHandle, consumeHandle_eq, ha] at hcall
    simp only [Option.map_some] at hcall
    split at hcall <;> cases hcall
  | enqueue | claim | verifyReplayAuthorization | replay => cases hop

/-- Only an operation that presents a handle completes a job. -/
theorem exists_completes (hout : (jobRuntime P).out s e = .executed .completed) :
    ∃ a, Completes P s e a := by
  cases e with
  | aborted | crash | other => cases hout
  | call runtime op elapse =>
    have hcall : (s.call (P runtime) runtime (reading s.now elapse) op).2 = .executed .completed :=
      hout
    have hhandle : ∀ handle, op.handle = some handle →
        (∀ a, s.authority handle ≠ some a) →
        (s.call (P runtime) runtime (reading s.now elapse) op).2 = .failed .handleConsumed := by
      intro handle hop hgone
      have hnone : s.authority handle = none := by
        cases ha : s.authority handle with
        | none => rfl
        | some a => exact absurd ha (hgone a)
      cases op <;> cases hop <;>
        rw [JobSystem.call, JobSystem.withHandle, consumeHandle_eq, hnone] <;> rfl
    by_contra hnone
    have hgone : ∀ handle, op.handle = some handle → ∀ a, s.authority handle ≠ some a :=
      fun handle hop a ha => hnone ⟨a, runtime, hout, op, elapse, handle, rfl, hop, ha⟩
    cases hop : op.handle with
    | some handle =>
      rw [hhandle handle hop (hgone handle hop)] at hcall
      cases hcall
    | none =>
      cases op with
      | enqueue scope request jobId quarantineId | claim scope workerId =>
        rw [JobSystem.call] at hcall
        split at hcall <;> cases hcall
      | verifyReplayAuthorization scope input | replay capability =>
        rw [JobSystem.call] at hcall
        split at hcall
        · cases hcall
        · split at hcall <;> cases hcall
      | renew | execute | retry | quarantine => cases hop

theorem effects (hs : s.Sound) (e : JobEvent ρ D W) : Effects P s e where
  committed := by
    intro runtime a h
    obtain ⟨now, j, digest, T', _, hexecuted, htables⟩ := executed_of_completes h
    refine ⟨j, digest, hexecuted.job, hexecuted.handled, ?_⟩
    rw [htables, hexecuted.tables]
    show (if a.scope = a.scope then _ else _ : JobTables).job a.jobId = _
    rw [if_pos rfl, JobTables.job_complete, if_pos rfl, hexecuted.job]
    rfl
  rolledBack := by
    intro hnone hother
    have hout : (jobRuntime P).out s e ≠ .executed .completed := by
      intro hout
      obtain ⟨a, ha⟩ := exists_completes hout
      exact hnone a ha
    have hstep := runtime_step (P := P) s e
    generalize (jobRuntime P).out s e = reply at hstep hout
    generalize (jobRuntime P).next s e = s' at hstep ⊢
    cases hstep with
    | call step =>
      cases step with
      | same tables domain _ => exact ⟨domain, fun scope id j digest _ hj => tables ▸ hj⟩
      | write scope write tables domain _ =>
        refine ⟨domain, fun scope' id j digest hj hjob => ?_⟩
        rw [tables] at hjob
        replace hjob : JobTables.job (if scope' = scope then _ else s.tables scope') id = some j :=
          hjob
        split at hjob
        next h =>
          rw [h]
          exact ((write.row (hs scope) _).completed_iff hj).mp hjob
        · exact hjob
      | complete => exact absurd rfl hout
    | idle tables domain => exact ⟨domain, fun scope id j digest _ hj => tables ▸ hj⟩
    | other => exact absurd rfl (hother _)

/-- The job is completed. -/
def JobTables.Done (T : JobTables) (id : String) : Prop :=
  ∃ j digest, T.job id = some j ∧ j.state = .completed digest

theorem done_next (hs : s.Sound) (e : JobEvent ρ D W) {scope : TenantScope} {id : String}
    (h : (s.tables scope).Done id) : (((jobRuntime P).next s e).tables scope).Done id := by
  obtain ⟨j, digest, hj, hstate⟩ := h
  have hstep := runtime_step (P := P) s e
  generalize (jobRuntime P).out s e = reply at hstep
  generalize (jobRuntime P).next s e = s' at hstep ⊢
  cases hstep with
  | idle tables _ | other tables => exact ⟨j, digest, tables ▸ hj, hstate⟩
  | call step =>
    cases step with
    | same tables _ _ => exact ⟨j, digest, tables ▸ hj, hstate⟩
    | @write _ scope' T' write tables _ _ =>
      refine ⟨j, digest, ?_, hstate⟩
      rw [tables]
      show JobTables.job (if scope = scope' then T' else s.tables scope) id = some j
      split
      next h =>
        rw [h] at hj
        exact ((write.row (hs scope') _).completed_iff hstate).mpr hj
      · exact hj
    | @complete a now j' digest' T' fenced executed tables =>
      obtain ⟨lease, p, holder, hfenced⟩ := JobTables.fenced_of_lockFenced fenced
      rw [tables]
      show JobTables.Done (if scope = a.scope then T' else s.tables scope) id
      split
      next h =>
        rw [h] at hj
        refine ⟨j, digest, ?_, hstate⟩
        rw [executed.tables, JobTables.job_complete, if_neg]
        · exact hj
        · -- the completed job is not the fenced one
          intro hid
          rw [hid, hfenced.job] at hj
          cases hj
          rw [hfenced.state] at hstate
          cases hstate
      · exact ⟨j, digest, hj, hstate⟩

theorem not_done_of_completes (h : Completes P s e a) : ¬ (s.tables a.scope).Done a.jobId := by
  rintro ⟨j, digest, hj, hstate⟩
  obtain ⟨runtime, h⟩ := h
  obtain ⟨_, _, _, _, hlock, _⟩ := executed_of_completes h
  obtain ⟨lease, p, holder, hfenced⟩ := JobTables.fenced_of_lockFenced hlock
  cases Option.some.inj (hj.symm.trans hfenced.job)
  rw [hfenced.state] at hstate
  cases hstate

theorem completedOnce (domain : D) : CompletedOnce P (JobSystem.initial domain) := by
  intro es e es' e' a a' hfirst hsecond ⟨hscope, hid⟩
  have hs := sound_run (P := P) domain es
  obtain ⟨runtime, hfirst⟩ := hfirst
  obtain ⟨_, digest, _, _, hjob⟩ := (effects hs e).committed runtime a hfirst
  have hdone := (jobRuntime P).run_of_step
    (I := fun s => s.Sound ∧ (s.tables a.scope).Done a.jobId)
    (fun s e h => ⟨sound_next h.1 e, done_next h.1 e h.2⟩) es'
    ⟨sound_next hs e, _, digest, hjob, rfl⟩
  rw [Machine.run_append, Machine.run_cons] at hsecond
  rw [hscope, hid] at hdone
  exact not_done_of_completes hsecond hdone.2

/-- Over every interleaving of the operations by any number of workers and runtimes, with aborted
transactions and lost handles at any point: in each state at most one lease of a partition is
unexpired, the epochs of a partition go up, a lost handle changes nothing and the effects of a
handler are committed with the completion of its job and only then; and no job is completed
twice. -/
theorem jobs_fenced (P : ρ → PostgresJobRuntime D X W) (domain : D) :
    (∀ es, JobsFenced P ((jobRuntime P).run (JobSystem.initial domain) es)) ∧
      CompletedOnce P (JobSystem.initial domain) := by
  refine ⟨fun es => ?_, completedOnce domain⟩
  have hs := sound_run (P := P) domain es
  refine ⟨?_, ?_, ?_, effects hs⟩
  · rintro scope j hj j' hj' hpartition ⟨lease, hlease, _⟩ ⟨lease', hlease', _⟩
    exact (hs scope).exclusive hj hj' hpartition hlease hlease'
  · intro scope
    exact pairwise_map.mp (hs scope).epochs
  · intro runtime op elapse handle hop hlost
    exact stale_unchanged hs runtime op elapse hop hlost

end

end GoodDealer.Cloud
