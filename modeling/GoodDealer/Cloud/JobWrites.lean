/-
# `GoodDealer.Cloud.JobWrites` — what an operation of the job runtime can write

`JobWrite` lists what a transaction can do to the tables of its tenant, a completion apart, and
`JobStep` what a call of a runtime can do to the system.  Each operation is taken apart once, into
one of them; what is proved about every run goes through these two relations.

    claim_cases     nothing, or the candidate is leased under the next epoch of its partition
    execute_cases   nothing, a quarantine, or the handler's effects with the completion
    retry_cases     nothing, a quarantine, or `retry_wait` while attempts are left
    call_step       the operation as a step of the system
-/
import GoodDealer.Cloud.JobRuntime
import Mathlib.Order.Monotone.Basic

namespace GoodDealer.Cloud

variable {T T' : JobTables} {quarantineId : String} {reason : QuarantineReason} {a : LeaseAuthority}
  {clock : Nat → Instant}

/-- What identifies an attempt. -/
def JobAttempt.key (t : JobAttempt) : String × Nat × Nat := (t.jobId, t.attemptNo, t.leaseEpoch)

/-! ## What a transaction can write -/

namespace JobTables

/-- The candidate can be claimed. -/
structure Claimed (T : JobTables) (clock : Nat → Instant) (row : JobRow) (p : PartitionLease) :
    Prop where
  candidate : T.candidate (clock 0) = some row
  partition : (T.ensurePartition row.partition).partition row.partition = some p
  inactive : p.active (clock 1) = false
  current : ∀ h ∈ p.state.holder, h.jobId = row.jobId
  attempt : row.attemptCount + 1 ≤ 100
  epoch : p.highestLeaseEpoch + 1 ≤ maxSafeInteger

/-- The tables after a claim; `T'` has the attempts of the last lease closed. -/
structure Leased (T : JobTables) (clock : Nat → Instant) (workerId : String) (row : JobRow)
    (p : PartitionLease) (h : Claimed T clock row p) (T' : JobTables) : Prop where
  jobs : T'.jobs = Keyed.adjust JobRow.jobId row.jobId (fun _ => row.claimed workerId
    (p.highestLeaseEpoch + 1) (clock 2) h.attempt h.epoch) T.jobs
  partitions : T'.partitions = Keyed.adjust PartitionLease.key row.partition
    (fun _ => p.hold row workerId (clock 3) h.epoch) (T.ensurePartition row.partition).partitions
  attempts : T'.attempts.map JobAttempt.key = T.attempts.map JobAttempt.key ++
    [(row.jobId, row.attemptCount + 1, p.highestLeaseEpoch + 1)]

/-- The tables after the lease of a fenced job was renewed; the partition's row is written last. -/
structure Renewed (T : JobTables) (a : LeaseAuthority) (j : JobRow) (t t' : Instant)
    (T' : JobTables) : Prop where
  later : t ≤ t'
  jobs : T'.jobs = Keyed.adjust JobRow.jobId a.jobId (·.renewed t) T.jobs
  partitions : T'.partitions = Keyed.adjust PartitionLease.key a.partition
    (·.extend a (min (t' + interval j.runtimePolicy.leaseSeconds) j.deadline)) T.partitions
  attempts : T'.attempts = T.attempts

/-- The tables after the lease of a handle was ended with a state. -/
structure Ended (T : JobTables) (a : LeaseAuthority) (state : JobState) (T' : JobTables) :
    Prop where
  unleased : ∀ lease, state ≠ .leased lease
  jobs : ∃ availableAt : Instant → Instant, T'.jobs = Keyed.adjust JobRow.jobId a.jobId
    (fun j => { j with state := state, availableAt := availableAt j.availableAt }) T.jobs
  partitions : T'.partitions = (T.releasePartition a).partitions
  attempts : T'.attempts.map JobAttempt.key = T.attempts.map JobAttempt.key

end JobTables

variable (mayClaim mayReplay : JobRow → Prop) in
/-- What one transaction can do to the tables of its tenant, a completion apart; a claimed and a
replayed row meets the condition that is known of it. -/
inductive JobWrite : JobTables → JobTables → Prop
  | record {T T' : JobTables} (jobs : T'.jobs = T.jobs) (partitions : T'.partitions = T.partitions)
      (attempts : T'.attempts = T.attempts) : JobWrite T T'
  | insert {T : JobTables} (frozen : FrozenJob) (jobId : String) (now : Instant)
      (fresh : T.job jobId = none) :
      JobWrite T { T with jobs := T.jobs ++ [frozen.row jobId now] }
  | ensure {T : JobTables} (k : String × String) :
      JobWrite T (T.ensurePartition k)
  | claim {T T' : JobTables} {clock : Nat → Instant} {workerId : String} {row : JobRow}
      {p : PartitionLease} (mono : Monotone clock) (claimed : T.Claimed clock row p)
      (permitted : mayClaim row)
      (leased : T.Leased clock workerId row p claimed T') : JobWrite T T'
  | renew {T T' : JobTables} {a : LeaseAuthority} {now : Instant} {j : JobRow}
      (fenced : T.lockFenced a now = some j) {t t' : Instant} (renewed : T.Renewed a j t t' T') :
      JobWrite T T'
  | finish {T T' : JobTables} {a : LeaseAuthority} {now : Instant} {j : JobRow} {state : JobState}
      (fenced : T.lockFenced a now = some j) (ended : T.Ended a state T')
      (pauses : state = .quarantined ∨
        state = .retryWait ∧ j.attemptCount < j.runtimePolicy.maxAttempts) :
      JobWrite T T'
  | requeue {T T' : JobTables} {j : JobRow} (permitted : mayReplay j)
      (quarantined : j.state = .quarantined)
      (stored : T.job j.jobId = some j) {now : Instant}
      (room : j.replayGeneration + 1 ≤ maxSafeInteger)
      (jobs : T'.jobs = Keyed.adjust JobRow.jobId j.jobId (fun _ => j.requeued now room) T.jobs)
      (partitions : T'.partitions = T.partitions) (attempts : T'.attempts = T.attempts) :
      JobWrite T T'

theorem reading_mono (now : Instant) (elapse : Nat → Nat) : Monotone (reading now elapse) :=
  monotone_nat_of_le_succ fun _ => Nat.le_add_right _ _

namespace JobTables

/-- What `lockFenced` has checked. -/
structure Fenced (T : JobTables) (a : LeaseAuthority) (now : Instant) (j : JobRow)
    (lease : JobLease) (p : PartitionLease) (h : LeaseHolder) : Prop where
  job : T.job a.jobId = some j
  state : j.state = .leased lease
  worker : lease.worker = a.workerId
  epoch : j.leaseEpoch = a.leaseEpoch
  attempt : j.attemptCount = a.attempt
  partitionName : j.partition = a.partition
  live : now < lease.expiresAt
  partition : T.partition a.partition = some p
  holder : h ∈ p.state.holder
  holderJob : h.jobId = a.jobId
  holderWorker : h.worker = a.workerId
  holderEpoch : h.leaseEpoch = a.leaseEpoch

variable {j : JobRow}

theorem fenced_of_lockFenced {now : Instant}
    (hlock : T.lockFenced a now = some j) : ∃ lease p h, T.Fenced a now j lease p h := by
  unfold lockFenced at hlock
  split at hlock
  · cases hlock
  next j' hjob =>
  split at hlock
  next hcheck =>
    cases hlock
    rw [Bool.and_eq_true] at hcheck
    obtain ⟨hrow, hpartition⟩ := hcheck
    unfold fencedJob at hrow
    split at hrow
    next lease hstate =>
      simp only [Bool.and_eq_true, decide_eq_true_eq] at hrow
      obtain ⟨⟨⟨⟨⟨⟨hworker, hepoch⟩, hattempt⟩, hkind⟩, hkey⟩, hlive⟩, _⟩ := hrow
      obtain ⟨p, hp, hholder⟩ := (Option.any_eq_true _ _).mp hpartition
      obtain ⟨h, hh, hnamed⟩ := (Option.any_eq_true _ _).mp hholder
      simp only [Bool.and_eq_true, decide_eq_true_eq] at hnamed
      obtain ⟨⟨⟨hid, hw⟩, he⟩, _⟩ := hnamed
      have hname : j.partition = a.partition := by
        rw [JobRow.partition, hkind, hkey, LeaseAuthority.partition]
      exact ⟨lease, p, h, hjob, hstate, hworker, hepoch, hattempt, hname, hlive, hname ▸ hp, hh,
        hid, hw, he⟩
    · cases hrow
  · cases hlock

/-- A second lock finds the row of the first. -/
theorem lockFenced_again {now now' : Instant} {j' : JobRow} (h : T.lockFenced a now = some j)
    (h' : T.lockFenced a now' = some j') : T.job a.jobId = some j ∧ j = j' := by
  obtain ⟨_, _, _, hjob⟩ := fenced_of_lockFenced h
  obtain ⟨_, _, _, hjob'⟩ := fenced_of_lockFenced h'
  exact ⟨hjob.job, Option.some.inj (hjob.job.symm.trans hjob'.job)⟩

/-- A change of outcomes. -/
theorem map_key_map {f : JobAttempt → JobAttempt} (hf : ∀ t, (f t).key = t.key)
    (attempts : List JobAttempt) :
    (attempts.map f).map JobAttempt.key = attempts.map JobAttempt.key := by
  rw [List.map_map]
  exact List.map_congr_left fun t _ => hf t

theorem expireAttempts_keeps (T : JobTables) (row : JobRow) :
    (T.expireAttempts row).jobs = T.jobs ∧ (T.expireAttempts row).partitions = T.partitions ∧
      (T.expireAttempts row).attempts.map JobAttempt.key = T.attempts.map JobAttempt.key := by
  unfold expireAttempts
  split
  · refine ⟨rfl, rfl, map_key_map (fun t => ?_) _⟩
    split <;> rfl
  · exact ⟨rfl, rfl, rfl⟩

/-- A claim grants nothing, or leases the candidate under the next epoch of its partition. -/
theorem claim_cases {scope : TenantScope} {workerId : String}
    {granted : Option LeaseAuthority} (h : T.claim scope workerId clock = .ok (T', granted)) :
    (granted = none ∧ (T' = T ∨ ∃ k, T' = T.ensurePartition k)) ∨
    ∃ row p, ∃ claimed : T.Claimed clock row p, T.Leased clock workerId row p claimed T' ∧
      granted = some ((row.claimed workerId (p.highestLeaseEpoch + 1) (clock 2) claimed.attempt
        claimed.epoch).authority scope workerId) := by
  unfold claim at h
  split at h
  · cases h
  split at h
  · cases h
    exact .inl ⟨rfl, .inl rfl⟩
  next row hrow =>
  simp only at h
  split at h
  · cases h
  next p hp =>
  split at h
  · cases h
    exact .inl ⟨rfl, .inr ⟨_, rfl⟩⟩
  next hfree =>
  split at h
  next hcount =>
    split at h
    next hepoch =>
      split at h
      · cases h
      · cases h
        rw [Bool.not_eq_true, Bool.or_eq_false_iff] at hfree
        have hcurrent : ∀ h ∈ p.state.holder, h.jobId = row.jobId := by
          intro h hh
          simpa using (Option.any_eq_false _ _).mp hfree.2 h hh
        obtain ⟨hjobs, hpartitions, hattempts⟩ :=
          expireAttempts_keeps (T.ensurePartition row.partition) row
        have hkey : (p.hold row workerId (clock 3) hepoch).key = row.partition :=
          (Keyed.lookup_eq_some hp).2
        refine .inr ⟨row, p, ⟨hrow, hp, hfree.1, hcurrent, hcount, hepoch⟩, ⟨?_, ?_, ?_⟩, rfl⟩
        · rw [← show (T.ensurePartition row.partition).jobs = T.jobs from rfl, ← hjobs]
          rfl
        · rw [← hpartitions, ← hkey]
          rfl
        · rw [← show (T.ensurePartition row.partition).attempts = T.attempts from rfl,
            ← hattempts]
          exact List.map_append
    · cases h
  · cases h

/-! ### The endings of a lease -/

theorem endAttempt_keys (T : JobTables) (a : LeaseAuthority) (outcome : AttemptOutcome) :
    (T.endAttempt a outcome).attempts.map JobAttempt.key = T.attempts.map JobAttempt.key := by
  refine map_key_map (fun t => ?_) _
  split <;> rfl

theorem completeFenced_ended (T : JobTables) (a : LeaseAuthority) (digest : Bytes) :
    T.Ended a (.completed digest) (T.completeFenced a digest) where
  unleased := fun _ h => by cases h
  jobs := ⟨id, rfl⟩
  partitions := rfl
  attempts := endAttempt_keys T a _

theorem scheduleRetry_ended (T : JobTables) (a : LeaseAuthority) (j : JobRow) (now : Instant) :
    T.Ended a .retryWait (T.scheduleRetry a j now) where
  unleased := fun _ h => by cases h
  jobs := ⟨fun _ => now + interval j.backoffSeconds, rfl⟩
  partitions := rfl
  attempts := by
    refine map_key_map (fun t => ?_) _
    split <;> rfl

theorem insertQuarantine_ok
    {incoming : Option Digest} (h : T.insertQuarantine j quarantineId reason incoming = .ok T') :
    T'.jobs = T.jobs ∧ T'.partitions = T.partitions ∧ T'.attempts = T.attempts := by
  unfold insertQuarantine at h
  split at h
  · cases h
  split at h
  · cases h
  · cases h
    exact ⟨rfl, rfl, rfl⟩

theorem quarantineFenced_ended (h : T.quarantineFenced a j reason quarantineId = .ok T') :
    T.Ended a .quarantined T' := by
  unfold quarantineFenced at h
  split at h
  · cases h
  next T₁ hinsert =>
  cases h
  obtain ⟨hjobs, hpartitions, hattempts⟩ := insertQuarantine_ok hinsert
  refine ⟨(fun _ h => by cases h), ⟨id, hjobs⟩, ?_, ?_⟩
  · rw [releasePartition, hpartitions]
    rfl
  · rw [show (T₁.releasePartition a).attempts = T₁.attempts from rfl, hattempts]
    exact endAttempt_keys T a _

end JobTables

section

variable {D X W : Type} {R : JobKindRegistry D X W}

/-- The handler ran on the fenced job and its completion was written. -/
structure Executed (R : JobKindRegistry D X W) (d : D) (T : JobTables) (a : LeaseAuthority)
    (d' : D) (T' : JobTables) (j : JobRow) (digest : Bytes) : Prop where
  job : T.job a.jobId = some j
  handled : R.Handles d a.scope j d' digest
  tables : T' = T.completeFenced a digest

variable {d : D} {outcome : RetryOutcome}

theorem execute_cases {d' : D} {outcome : ExecuteOutcome}
    (h : executeDatabaseJob R d T a quarantineId clock = .ok (d', T', outcome)) :
    (outcome = .stale ∧ d' = d ∧ T' = T) ∨
    (outcome = .authorizationRejected ∧ d' = d ∧
      (∃ j, T.lockFenced a (clock 0) = some j) ∧ T.Ended a .quarantined T') ∨
    (outcome = .completed ∧ ∃ j digest, T.lockFenced a (clock 0) = some j ∧
      Executed R d T a d' T' j digest) := by
  unfold executeDatabaseJob at h
  split at h
  · cases h
    exact .inl ⟨rfl, rfl, rfl⟩
  next j hfenced =>
  split at h
  · split at h
    · cases h
    next hquarantined =>
      cases h
      exact .inr (.inl ⟨rfl, rfl, ⟨j, hfenced⟩, JobTables.quarantineFenced_ended hquarantined⟩)
  next definition hdefinition =>
  split at h
  · cases h
  · split at h
    · cases h
      exact .inl ⟨rfl, rfl, rfl⟩
    split at h
    · cases h
    next hquarantined =>
      cases h
      exact .inr (.inl ⟨rfl, rfl, ⟨j, hfenced⟩, JobTables.quarantineFenced_ended hquarantined⟩)
  split at h
  · cases h
  next j' hagain =>
  split at h
  · cases h
  next payload hpayload =>
  split at h
  · cases h
  next d₁ digest hhandle =>
  split at h
  · cases h
  split at h
  · cases h
  · cases h
    obtain ⟨hjob, rfl⟩ := JobTables.lockFenced_again hfenced hagain
    exact .inr (.inr ⟨rfl, j, digest, hfenced, hjob,
      ⟨definition, payload, hdefinition, hpayload, hhandle⟩, rfl⟩)

/-- The quarantine a retry ends in. -/
theorem retryQuarantined_ok {j : JobRow} (h : (match T.quarantineFenced a j reason quarantineId with
      | .error e => .error e
      | .ok T' => .ok (T', RetryOutcome.quarantined)) = Except.ok (T', outcome)) :
    outcome = .quarantined ∧ T.Ended a .quarantined T' := by
  split at h
  · cases h
  next hok =>
    cases h
    exact ⟨rfl, JobTables.quarantineFenced_ended hok⟩

theorem retry_cases (h : retry R d T a quarantineId clock = .ok (T', outcome)) :
    (outcome = .stale ∧ T' = T) ∨
    ∃ j, T.lockFenced a (clock 0) = some j ∧
      ((outcome = .quarantined ∧ T.Ended a .quarantined T') ∨
        (outcome = .retryScheduled ∧ j.attemptCount < j.runtimePolicy.maxAttempts ∧
          T.Ended a .retryWait T')) := by
  unfold retry at h
  simp only at h
  split at h
  · cases h
    exact .inl ⟨rfl, rfl⟩
  next j hfenced =>
  split at h
  · exact .inr ⟨j, hfenced, .inl (retryQuarantined_ok h)⟩
  split at h
  · exact .inr ⟨j, hfenced, .inl (retryQuarantined_ok h)⟩
  split at h
  · cases h
  · split at h
    · cases h
      exact .inl ⟨rfl, rfl⟩
    · exact .inr ⟨j, hfenced, .inl (retryQuarantined_ok h)⟩
  split at h
  · cases h
    exact .inl ⟨rfl, rfl⟩
  next j' hagain =>
  split at h
  · exact .inr ⟨j, hfenced, .inl (retryQuarantined_ok h)⟩
  next hattempts =>
  cases h
  obtain ⟨-, rfl⟩ := JobTables.lockFenced_again hfenced hagain
  exact .inr ⟨j, hfenced, .inr ⟨rfl, not_le.mp hattempts,
    JobTables.scheduleRetry_ended T a j _⟩⟩

theorem quarantine_cases {done : Bool}
    (h : quarantine T a reason quarantineId clock = .ok (T', done)) :
    T' = T ∨ ∃ j, T.lockFenced a (clock 0) = some j ∧ T.Ended a .quarantined T' := by
  unfold quarantine at h
  split at h
  · cases h
    exact .inl rfl
  next j hfenced =>
  split at h
  · cases h
  next hok =>
    cases h
    exact .inr ⟨j, hfenced, JobTables.quarantineFenced_ended hok⟩

theorem replay_cases {scope : TenantScope} {r : ReplayInput} {outcome : ReplayOutcome}
    (h : replay R d T scope r clock = .ok (T', outcome)) :
    (outcome ≠ .requeued ∧ T' = T) ∨ (outcome = .requeued ∧ ∃ j, T.job r.jobId = some j ∧
      j.state = .quarantined ∧ ∃ room : j.replayGeneration + 1 ≤ maxSafeInteger,
        T'.jobs = Keyed.adjust JobRow.jobId j.jobId (fun _ => j.requeued (clock 0) room) T.jobs ∧
        T'.partitions = T.partitions ∧ T'.attempts = T.attempts) := by
  unfold replay at h
  split at h
  · cases h
    exact .inl ⟨by decide, rfl⟩
  next j hjob =>
  split at h
  · cases h
    exact .inl ⟨by decide, rfl⟩
  next hstate =>
  split at h
  · cases h
  split at h
  · cases h
    exact .inl ⟨by decide, rfl⟩
  split at h
  · cases h
    exact .inl ⟨by decide, rfl⟩
  split at h
  · cases h
  · cases h
    exact .inl ⟨by decide, rfl⟩
  split at h
  next room =>
    split at h
    · cases h
    · cases h
      have hid : r.jobId = j.jobId := (Keyed.lookup_eq_some hjob).2.symm
      refine .inr ⟨rfl, j, hjob, Classical.not_not.mp (not_or.mp hstate).1, room, ?_,
        rfl, rfl⟩
      rw [← hid]
  · cases h

theorem enqueue_cases {P : PostgresJobRuntime D X W} {request : PersistentJobCreateRequest W}
    {jobId : String} {outcome : EnqueueOutcome}
    (h : enqueue P T request jobId quarantineId clock = .ok (T', outcome)) :
    (T'.jobs = T.jobs ∧ T'.partitions = T.partitions ∧ T'.attempts = T.attempts) ∨
    ∃ frozen, T.job jobId = none ∧
      T' = { T with jobs := T.jobs ++ [FrozenJob.row frozen jobId (clock 0)] } := by
  unfold enqueue at h
  split at h
  · cases h
  next frozen _ =>
  split at h
  · split at h
    · cases h
    next hfresh =>
      cases h
      exact .inr ⟨frozen, Option.not_isSome_iff_eq_none.mp hfresh, rfl⟩
  split at h
  · cases h
    exact .inl ⟨rfl, rfl, rfl⟩
  split at h
  · cases h
  next hinsert =>
    cases h
    exact .inl (JobTables.insertQuarantine_ok hinsert)

end

/-! ## What a step can do -/

section

variable {ρ D X W : Type} {mayClaim mayReplay : TenantScope → JobRow → Prop}

/-- What one operation can do: nothing, a write to the tables of one tenant that completes no job,
or the completion of a job with the effects of its handler. -/
inductive JobStep (mayClaim mayReplay : TenantScope → JobRow → Prop) (R : JobKindRegistry D X W)
    (s s' : JobSystem ρ D) : JobReply → Prop
  | same {reply : JobReply} (tables : s'.tables = s.tables) (domain : s'.domain = s.domain)
      (other : reply ≠ .executed .completed) : JobStep mayClaim mayReplay R s s' reply
  | write {reply : JobReply} (scope : TenantScope) {T' : JobTables}
      (write : JobWrite (mayClaim scope) (mayReplay scope) (s.tables scope) T')
      (tables : s'.tables = (s.commit scope T').tables) (domain : s'.domain = s.domain)
      (other : reply ≠ .executed .completed) : JobStep mayClaim mayReplay R s s' reply
  | complete {a : LeaseAuthority} {now : Instant} {j : JobRow} {digest : Bytes} {T' : JobTables}
      (fenced : (s.tables a.scope).lockFenced a now = some j)
      (executed : Executed R s.domain (s.tables a.scope) a s'.domain T' j digest)
      (tables : s'.tables = (s.commit a.scope T').tables) :
      JobStep mayClaim mayReplay R s s' (.executed .completed)

variable {s s' : JobSystem ρ D} {c : ReplayCapability ρ} {R : JobKindRegistry D X W}
  {capability handle : Nat}

/-- A step is about the tables and the state of the target modules. -/
theorem JobStep.congr {s₁ s₂ : JobSystem ρ D} {reply : JobReply}
    (h : JobStep mayClaim mayReplay R s s₁ reply) (tables : s₂.tables = s₁.tables)
    (domain : s₂.domain = s₁.domain) : JobStep mayClaim mayReplay R s s₂ reply := by
  cases h with
  | same htables hdomain other => exact .same (tables.trans htables) (domain.trans hdomain) other
  | write scope hwrite htables hdomain other =>
    exact .write scope hwrite (tables.trans htables) (domain.trans hdomain) other
  | complete fenced executed htables =>
    exact .complete fenced (domain ▸ executed) (tables.trans htables)

theorem commit_self (s : JobSystem ρ D) (scope : TenantScope) :
    (s.commit scope (s.tables scope)).tables = s.tables := by
  funext scope'
  show (if scope' = scope then s.tables scope else s.tables scope') = s.tables scope'
  split
  next h => rw [h]
  · rfl

theorem consumeHandle_keeps
    (h : s.consumeHandle handle = some (s', a)) : s'.tables = s.tables ∧ s'.domain = s.domain := by
  unfold JobSystem.consumeHandle at h
  split at h
  · cases h
  · cases h
    exact ⟨rfl, rfl⟩

section

variable [DecidableEq ρ] {owner : ρ}
  (h : s.consumeReplayCapability owner capability = some (s', c))

include h

theorem consumeReplayCapability_keeps : s'.tables = s.tables ∧ s'.domain = s.domain := by
  unfold JobSystem.consumeReplayCapability at h
  split at h
  · cases h
  split at h
  · cases h
  · cases h
    exact ⟨rfl, rfl⟩

theorem consumeReplayCapability_held :
    ∃ entry ∈ Keyed.lookup Prod.fst capability s.capabilities, entry.2 = c := by
  unfold JobSystem.consumeReplayCapability at h
  split at h
  · cases h
  next entry hentry =>
  split at h
  · cases h
  · cases h
    exact ⟨_, hentry, rfl⟩

end

/-- An operation with a handle steps as its body does. -/
theorem withHandle_step {body : JobSystem ρ D → LeaseAuthority → JobSystem ρ D × JobReply}
    (hbody : ∀ s' a, s'.tables = s.tables → s'.domain = s.domain →
      JobStep mayClaim mayReplay R s (body s' a).1 (body s' a).2) :
    JobStep mayClaim mayReplay R s (s.withHandle handle body).1 (s.withHandle handle body).2 := by
  unfold JobSystem.withHandle
  split
  · exact .same rfl rfl (by simp)
  next s' a hconsumed =>
    obtain ⟨htables, hdomain⟩ := consumeHandle_keeps hconsumed
    exact hbody s' a htables hdomain

section

variable (htables : s'.tables = s.tables) (hdomain : s'.domain = s.domain)

include htables hdomain

variable {d : D} {scope : TenantScope} {reply : JobReply}

/-- A write made by an operation that has consumed its handle. -/
theorem JobStep.of_write
    (h : T' = s'.tables scope ∨ JobWrite (mayClaim scope) (mayReplay scope) (s'.tables scope) T')
    (other : reply ≠ .executed .completed) :
    JobStep mayClaim mayReplay R s (s'.commit scope T') reply := by
  rcases h with rfl | hwrite
  · exact .same ((commit_self s' scope).trans htables) hdomain other
  · rw [htables] at hwrite
    refine .write scope hwrite ?_ hdomain other
    show (fun scope' => if scope' = scope then T' else s'.tables scope') = _
    rw [htables]
    rfl

theorem renewed_step (hclock : Monotone clock) {granted : Option LeaseAuthority}
    (h : (s'.tables a.scope).renew a clock = (T', granted))
    (other : reply ≠ .executed .completed) :
    JobStep mayClaim mayReplay R s (s'.commit a.scope T') reply := by
  refine JobStep.of_write htables hdomain ?_ other
  unfold JobTables.renew at h
  split at h
  · cases h
    exact .inl rfl
  next j hfenced =>
    cases h
    exact .inr (.renew hfenced ⟨hclock (by decide), rfl, rfl, rfl⟩)

theorem execute_step {outcome : ExecuteOutcome}
    (h : executeDatabaseJob R s'.domain (s'.tables a.scope) a quarantineId clock =
      .ok (d, T', outcome)) :
    JobStep mayClaim mayReplay R s { s'.commit a.scope T' with domain := d }
      (.executed outcome) := by
  rcases execute_cases h with ⟨rfl, rfl, hT⟩ | ⟨rfl, rfl, ⟨j, hfenced⟩, hended⟩ |
    ⟨rfl, j, digest, hfenced, hexecuted⟩
  · exact JobStep.of_write htables hdomain (.inl hT) (by simp)
  · exact JobStep.of_write htables hdomain (.inr (.finish hfenced hended (.inl rfl))) (by simp)
  · rw [htables] at hfenced hexecuted
    rw [hdomain] at hexecuted
    refine .complete hfenced hexecuted ?_
    show (fun scope' => if scope' = a.scope then T' else s'.tables scope') = _
    rw [htables]
    rfl

theorem retry_step {outcome : RetryOutcome}
    (h : retry R d (s'.tables a.scope) a quarantineId clock = .ok (T', outcome)) :
    JobStep mayClaim mayReplay R s (s'.commit a.scope T') (.retried outcome) := by
  refine JobStep.of_write htables hdomain ?_ (by simp)
  rcases retry_cases h with ⟨_, hT⟩ | ⟨j, hfenced, ⟨_, hended⟩ | ⟨_, hattempts, hended⟩⟩
  · exact .inl hT
  · exact .inr (.finish hfenced hended (.inl rfl))
  · exact .inr (.finish hfenced hended (.inr ⟨rfl, hattempts⟩))

theorem quarantine_step {done : Bool}
    (h : quarantine (s'.tables a.scope) a reason quarantineId clock = .ok (T', done)) :
    JobStep mayClaim mayReplay R s (s'.commit a.scope T') (.quarantined done) := by
  refine JobStep.of_write htables hdomain ?_ (by simp)
  rcases quarantine_cases h with hT | ⟨j, hfenced, hended⟩
  · exact .inl hT
  · exact .inr (.finish hfenced hended (.inl rfl))

theorem replay_step {r : ReplayInput} {outcome : ReplayOutcome}
    (h : replay R d (s'.tables scope) scope r clock = .ok (T', outcome))
    (hreplay : ∀ j ∈ (s.tables scope).job r.jobId, mayReplay scope j) :
    JobStep mayClaim mayReplay R s (s'.commit scope T') (.replayed outcome) := by
  refine JobStep.of_write htables hdomain ?_ (by simp)
  rcases replay_cases h with ⟨_, hT⟩ | ⟨_, j, hjob, hstate, room, hjobs, hpartitions, hattempts⟩
  · exact .inl hT
  · have hid : r.jobId = j.jobId := (Keyed.lookup_eq_some hjob).2.symm
    have hpermitted : mayReplay scope j := hreplay j (htables ▸ hjob)
    exact .inr (.requeue hpermitted hstate (hid ▸ hjob) room hjobs hpartitions hattempts)

end

/-- What a call can do. -/
theorem call_step [DecidableEq ρ] (P : PostgresJobRuntime D X W) (s : JobSystem ρ D) (runtime : ρ)
    (hclock : Monotone clock) (op : JobOperation W)
    (hclaim : ∀ scope workerId, op = .claim scope workerId →
      ∀ row ∈ (s.tables scope).candidate (clock 0), mayClaim scope row)
    (hreplay : ∀ capability, op = .replay capability →
      ∀ c ∈ Keyed.lookup Prod.fst capability s.capabilities,
      ∀ j ∈ (s.tables c.2.scope).job c.2.input.jobId, mayReplay c.2.scope j) :
    JobStep mayClaim mayReplay P.registry s (s.call P runtime clock op).1
      (s.call P runtime clock op).2 := by
  cases op with
  | enqueue scope request jobId quarantineId =>
    simp only [JobSystem.call]
    split
    · exact .same rfl rfl (by simp)
    next h =>
    refine JobStep.of_write rfl rfl (.inr ?_) (by simp)
    rcases enqueue_cases h with ⟨hjobs, hpartitions, hattempts⟩ | ⟨frozen, hfresh, rfl⟩
    · exact .record hjobs hpartitions hattempts
    · exact .insert frozen jobId _ hfresh
  | claim scope workerId =>
    simp only [JobSystem.call]
    split
    · exact .same rfl rfl (by simp)
    next h =>
      refine JobStep.of_write rfl rfl ?_ (by simp)
      rcases JobTables.claim_cases h with ⟨_, hT | ⟨k, hT⟩⟩ | ⟨_, _, _, _, hgranted⟩
      · exact .inl hT
      · exact .inr (hT ▸ .ensure k)
      · cases hgranted
    next h =>
    rcases JobTables.claim_cases h with ⟨hgranted, _⟩ | ⟨row, p, claimed, leased, _⟩
    · cases hgranted
    · have hpermitted := hclaim scope workerId rfl row claimed.candidate
      exact .write scope (.claim hclock claimed hpermitted leased) rfl rfl (by simp)
  | renew handle =>
    refine withHandle_step fun s' a htables hdomain => ?_
    split
    next h => exact renewed_step htables hdomain hclock h (by simp)
    next h =>
      refine JobStep.congr (renewed_step htables hdomain hclock h ?_) rfl rfl
      simp
  | execute handle quarantineId =>
    refine withHandle_step fun s' a htables hdomain => ?_
    simp only
    split
    · exact .same htables hdomain (by simp)
    next h => exact execute_step htables hdomain h
  | retry handle quarantineId =>
    refine withHandle_step fun s' a htables hdomain => ?_
    split
    · exact .same htables hdomain (by simp)
    next h => exact retry_step htables hdomain h
  | quarantine handle reason quarantineId =>
    refine withHandle_step fun s' a htables hdomain => ?_
    split
    · exact .same htables hdomain (by simp)
    next h => exact quarantine_step htables hdomain h
  | verifyReplayAuthorization scope input =>
    simp only [JobSystem.call]
    split
    · exact .same rfl rfl (by simp)
    · split <;> exact .same rfl rfl (by simp)
  | replay capability =>
    simp only [JobSystem.call]
    split
    · exact .same rfl rfl (by simp)
    next s' c hconsumed =>
    obtain ⟨htables, hdomain⟩ := consumeReplayCapability_keeps hconsumed
    split
    · exact .same htables hdomain (by simp)
    next h =>
      obtain ⟨entry, hentry, hc⟩ := consumeReplayCapability_held hconsumed
      exact replay_step htables hdomain h (hc ▸ hreplay capability rfl entry hentry)

end

end GoodDealer.Cloud
