/-
# `GoodDealer.Cloud.JobAttempts` — how many attempts a job gets

`retry` looks at `max_attempts`; the claim of a job whose lease ran out does not.  A handler that
throws has consumed its handle, so its attempt, too, ends only when the lease runs out, and the job
is claimed again and again.  `attempt_count` is bounded by a `CHECK`, the claim order puts jobs
with run out leases first, and so the claim after the hundredth attempt fails for the whole tenant
(`poisoned_claim`).

`Attended` is the condition under which the attempts stay bounded and every claim goes through: the
lease of a last attempt is ended before it runs out, and a job that has used up its hundred attempts
is not replayed.
-/
import GoodDealer.Cloud.JobFencing

namespace GoodDealer.Cloud

open List

section

variable {ρ D X W : Type}

/-! ## The condition -/

/-- No attempt that is the last one has run out, and the epochs are not exhausted. -/
@[mk_iff] structure JobTables.ClaimReady (T : JobTables) (now : Instant) : Prop where
  ended : ∀ j ∈ T.jobs, j.isLeased = true → j.due now = true →
    j.attemptCount < j.runtimePolicy.maxAttempts
  epochs : ∀ p ∈ T.partitions, p.highestLeaseEpoch < maxSafeInteger

instance (T : JobTables) (now : Instant) : Decidable (T.ClaimReady now) :=
  decidable_of_iff _ (T.claimReady_iff now).symm

/-- The condition on an event. -/
def Attended (s : JobSystem ρ D) : JobEvent ρ D W → Prop
  | .call _ (.claim scope _) elapse => (s.tables scope).ClaimReady (reading s.now elapse 0)
  | .call _ (.replay capability) _ =>
    ∀ c ∈ Keyed.lookup Prod.fst capability s.capabilities,
      ∀ j ∈ (s.tables c.2.scope).job c.2.input.jobId, j.attemptCount < 100
  | _ => True

/-! ## The property -/

/-- The attempts a job has had. -/
def JobTables.attemptsOf (T : JobTables) (id : String) : Nat :=
  ((T.job id).map JobRow.attemptCount).getD 0

/-- How often a job has been replayed. -/
def JobTables.generationOf (T : JobTables) (id : String) : Nat :=
  ((T.job id).map JobRow.replayGeneration).getD 0

/-- Since a state in which the job had been replayed as often as now, it got at most
`max_attempts` attempts, and with the last one it left the queue. -/
structure JobRow.Bounded (j : JobRow) (before : Nat) : Prop where
  attempts : j.attemptCount ≤ before + j.runtimePolicy.maxAttempts
  last : before + j.runtimePolicy.maxAttempts ≤ j.attemptCount →
    j.state ≠ .available ∧ j.state ≠ .retryWait

/-- A claim goes through, and serves a job if one can be claimed. -/
def JobTables.Serves (T : JobTables) (clock : Nat → Instant) : Prop :=
  ∀ scope workerId, validIdentifier workerId = true →
    ∃ T' granted, T.claim scope workerId clock = .ok (T', granted) ∧
      ((∃ j ∈ T.jobs, T.claimable (clock 0) j = true) → granted.isSome = true)

variable [DecidableEq ρ]

/-- Attempts are bounded between replays, and no job stops the claims of its tenant. -/
structure AttemptsBounded (P : ρ → PostgresJobRuntime D X W) (s₀ : JobSystem ρ D)
    (es : List (JobEvent ρ D W)) : Prop where
  bounded : ∀ es₁ es₂, es = es₁ ++ es₂ → ∀ scope id j,
    (((jobRuntime P).run s₀ es).tables scope).job id = some j →
    (((jobRuntime P).run s₀ es₁).tables scope).generationOf id = j.replayGeneration →
    j.Bounded ((((jobRuntime P).run s₀ es₁).tables scope).attemptsOf id)
  serves : ∀ scope elapse,
    (((jobRuntime P).run s₀ es).tables scope).ClaimReady
      (reading ((jobRuntime P).run s₀ es).now elapse 0) →
    (((jobRuntime P).run s₀ es).tables scope).Serves (reading ((jobRuntime P).run s₀ es).now elapse)

variable {j : JobRow} {P : ρ → PostgresJobRuntime D X W} {es : List (JobEvent ρ D W)} {id : String}

/-! ## Pacing -/

/-- A waiting job has attempts left. -/
structure JobRow.Paced (j : JobRow) : Prop where
  waiting : j.state = .retryWait → j.attemptCount < j.runtimePolicy.maxAttempts
  available : j.state = .available → j.attemptCount < 100

/-- The row of a job against its row at an earlier state. -/
structure JobRow.Since (j : JobRow) (before generation : Nat) : Prop where
  paced : j.Paced
  later : generation ≤ j.replayGeneration
  attempts : generation = j.replayGeneration → j.attemptCount ≤ before + j.runtimePolicy.maxAttempts
  available : generation = j.replayGeneration → j.state = .available → j.attemptCount = before

/-- A claim of a job whose lease ran out is not its last. -/
def mayClaim (row : JobRow) : Prop :=
  row.isLeased = true → row.attemptCount < row.runtimePolicy.maxAttempts

def mayReplay (j : JobRow) : Prop := j.attemptCount < 100

/-- One step of a row. -/
theorem JobRow.Since.step {j' : JobRow} {before generation : Nat} (h : j.Since before generation)
    (hstep : RowStep mayClaim mayReplay True (some j) (some j')) : j'.Since before generation := by
  cases hstep with
  | same => exact h
  | claimed permitted waiting hcount hepoch =>
    refine ⟨⟨(fun e => by cases e), (fun e => by cases e)⟩, h.later, fun hgeneration => ?_,
      (fun _ e => by cases e)⟩
    show j.attemptCount + 1 ≤ before + j.runtimePolicy.maxAttempts
    have hmax := j.runtimePolicy.attempts.1
    rcases waiting with hstate | hstate | ⟨lease, hstate⟩
    · have := h.available hgeneration hstate
      omega
    · have := h.paced.waiting hstate
      omega
    · have := permitted (by rw [JobRow.isLeased, hstate])
      omega
  | renewed leased now =>
    obtain ⟨_, _, hattempts, _⟩ := JobTables.renewed_frozen j now
    have hstate := JobTables.renewed_state leased now
    have hrest : (j.renewed now).replayGeneration = j.replayGeneration ∧
        (j.renewed now).runtimePolicy = j.runtimePolicy := by
      unfold JobRow.renewed
      split <;> exact ⟨rfl, rfl⟩
    refine ⟨⟨fun e => ?_, fun e => ?_⟩, ?_, fun hgeneration => ?_, fun _ e => ?_⟩
    · rw [hstate] at e
      cases e
    · rw [hstate] at e
      cases e
    · rw [hrest.1]
      exact h.later
    · rw [hattempts, hrest.2]
      exact h.attempts (hgeneration.trans hrest.1)
    · rw [hstate] at e
      cases e
  | ended _ availableAt pauses =>
    rcases pauses with rfl | ⟨rfl, hattempts⟩
    · refine ⟨⟨?_, ?_⟩, h.later, h.attempts, fun _ => ?_⟩ <;> rintro ⟨⟩
    · refine ⟨⟨fun _ => hattempts, ?_⟩, h.later, h.attempts, fun _ => ?_⟩ <;> rintro ⟨⟩
  | completed => refine ⟨⟨?_, ?_⟩, h.later, h.attempts, fun _ => ?_⟩ <;> rintro ⟨⟩
  | requeued permitted _ room =>
    -- a replay starts a new generation
    have hgeneration : ¬ generation = j.replayGeneration + 1 := by
      have := h.later
      omega
    exact ⟨⟨(fun e => by cases e), fun _ => permitted⟩, Nat.le_succ_of_le h.later,
      fun e => absurd e hgeneration, fun e => absurd e hgeneration⟩

theorem JobRow.Since.refl (h : j.Paced) : j.Since j.attemptCount j.replayGeneration :=
  ⟨h, le_rfl, fun _ => Nat.le_add_right _ _, fun _ _ => rfl⟩

theorem JobRow.Since.bounded {before generation : Nat} (h : j.Since before generation)
    (hgeneration : generation = j.replayGeneration) : j.Bounded before := by
  refine ⟨h.attempts hgeneration, fun hlast => ⟨fun hstate => ?_, fun hstate => ?_⟩⟩
  · have := h.available hgeneration hstate
    have := j.runtimePolicy.attempts.1
    omega
  · have := h.paced.waiting hstate
    omega

/-! ## Runs -/

/-- Every job of the tables has a row that goes back to its row in the earlier tables. -/
structure JobTables.RowSince (T₁ T : JobTables) (id : String) : Prop where
  kept : T.job id = none → T₁.job id = none
  since : ∀ j ∈ T.job id, j.Since (T₁.attemptsOf id) (T₁.generationOf id)

theorem JobTables.RowSince.step {T₁ T T' : JobTables} (h : T₁.RowSince T id)
    (hstep : RowStep mayClaim mayReplay True (T.job id) (T'.job id)) : T₁.RowSince T' id := by
  cases hrow : T.job id with
  | none =>
    have hgone := h.kept hrow
    rw [hrow] at hstep
    generalize hrow' : T'.job id = row' at hstep
    cases hstep with
    | same => exact ⟨fun _ => hgone, fun j hj => by rw [hrow'] at hj; cases hj⟩
    | inserted frozen id' now =>
      refine ⟨fun _ => hgone, fun j hj => ?_⟩
      rw [hrow'] at hj
      cases hj
      rw [JobTables.attemptsOf, JobTables.generationOf, hgone]
      exact ⟨⟨(fun e => by cases e), fun _ => Nat.zero_lt_succ _⟩, le_rfl, fun _ => Nat.zero_le _,
        fun _ _ => rfl⟩
  | some j =>
    rw [hrow] at hstep
    cases hrow' : T'.job id with
    | none =>
      rw [hrow'] at hstep
      cases hstep
    | some j' =>
      rw [hrow'] at hstep
      refine ⟨(fun e => by rw [hrow'] at e; cases e), fun j'' hj'' => ?_⟩
      rw [hrow'] at hj''
      cases hj''
      exact (h.since j hrow).step hstep

theorem rowStep_next {s : JobSystem ρ D} (hs : s.Sound) {e : JobEvent ρ D W} (he : Attended s e)
    (scope : TenantScope) (id : String) :
    RowStep mayClaim mayReplay True ((s.tables scope).job id)
      ((((jobRuntime P).next s e).tables scope).job id) := by
  cases e with
  | aborted runtime op elapse =>
    rw [show ((jobRuntime P).next s (.aborted runtime op elapse)).tables = s.tables from
      (consumed_keeps s runtime op).1]
    exact .same _
  | crash lost | other domain => exact .same _
  | call runtime op elapse =>
    have hclaim : ∀ scope workerId, op = .claim scope workerId →
        ∀ row ∈ (s.tables scope).candidate (reading s.now elapse 0), mayClaim row := by
      rintro scope workerId rfl row hrow hleased
      obtain ⟨hmem, hclaimable⟩ := mem_filter.mp (argmin_mem hrow)
      exact JobTables.ClaimReady.ended he row hmem hleased (Bool.and_eq_true_iff.mp hclaimable).1
    have hreplay : ∀ capability, op = .replay capability →
        ∀ c ∈ Keyed.lookup Prod.fst capability s.capabilities,
        ∀ j ∈ (s.tables c.2.scope).job c.2.input.jobId, mayReplay j := by
      rintro capability rfl c hc j hj
      exact he c hc j hj
    have hstep : JobStep (fun _ => mayClaim) (fun _ => mayReplay) (P runtime).registry s _ _ :=
      call_step (P runtime) s runtime (reading_mono s.now elapse) op hclaim hreplay
    · generalize (s.call (P runtime) runtime (reading s.now elapse) op).2 = reply at hstep
      show RowStep _ _ _ _
        (((s.call (P runtime) runtime (reading s.now elapse) op).1.tables scope).job id)
      generalize (s.call (P runtime) runtime (reading s.now elapse) op).1 = s' at hstep ⊢
      cases hstep with
      | same tables _ _ =>
        rw [tables]
        exact .same _
      | @write _ scope' T' write tables _ _ =>
        rw [tables]
        show RowStep _ _ _ _ (JobTables.job (if scope = scope' then T' else s.tables scope) id)
        split
        next h =>
          rw [h]
          exact write.row (hs scope') id
        · exact .same _
      | @complete a now j digest T' fenced executed tables =>
        rw [tables]
        show RowStep _ _ _ _ (JobTables.job (if scope = a.scope then T' else s.tables scope) id)
        split
        next h =>
          rw [h, executed.tables, JobTables.job_complete]
          split
          next hid =>
            rw [hid, executed.job]
            exact .completed trivial digest
          · exact .same _
        · exact .same _

/-- The rows of a run go back to the rows of any earlier state of it. -/
theorem rowSince_run {s₁ : JobSystem ρ D} (hs₁ : s₁.Sound)
    (hpaced : ∀ scope id, ∀ j ∈ (s₁.tables scope).job id, j.Paced)
    (hrun : (jobRuntime P).Along Attended s₁ es) (scope : TenantScope) (id : String) :
    (s₁.tables scope).RowSince (((jobRuntime P).run s₁ es).tables scope) id := by
  have hstart : (s₁.tables scope).RowSince (s₁.tables scope) id := by
    refine ⟨fun h => h, fun j hj => ?_⟩
    rw [JobTables.attemptsOf, JobTables.generationOf,
      show (s₁.tables scope).job id = some j from hj]
    exact .refl (hpaced scope id j hj)
  exact ((jobRuntime P).run_inv
    (I := fun s => s.Sound ∧ (s₁.tables scope).RowSince (s.tables scope) id)
    (fun s e h he => ⟨sound_next h.1 e, h.2.step (rowStep_next h.1 he scope id)⟩)
    ⟨hs₁, hstart⟩ hrun).2

theorem paced_run {domain : D}
    (hrun : (jobRuntime P).Along Attended (JobSystem.initial domain) es) (scope : TenantScope)
    (id : String) :
    ∀ j ∈ (((jobRuntime P).run (JobSystem.initial domain) es).tables scope).job id, j.Paced :=
  fun j hj => ((rowSince_run (sound_initial domain)
    (fun _ _ j hj => by cases hj) hrun scope id).since j hj).paced

/-! ## Claims go through -/

namespace JobTables

variable {T : JobTables}

theorem isLeased_iff : j.isLeased = true ↔ ∃ lease, j.state = .leased lease := by
  unfold JobRow.isLeased
  cases j.state <;> simp

variable {row : JobRow} {p : PartitionLease} {clock : Nat → Instant} {now : Instant}

/-- The candidate's partition is held by no other job. -/
theorem Sound.candidate_current (hT : T.Sound) (hrow : T.candidate now = some row)
    (hp : T.partition row.partition = some p) {h : LeaseHolder} (hh : h ∈ p.state.holder) :
    h.jobId = row.jobId := by
  obtain ⟨hmem, hclaimable⟩ := mem_filter.mp (argmin_mem hrow)
  obtain ⟨hpmem, hkey⟩ := Keyed.lookup_eq_some hp
  obtain ⟨_, j, hj, hid, hpartition, hleased⟩ := hT.held p hpmem h hh
  obtain ⟨lease, hstate⟩ := isLeased_iff.mp hleased
  obtain ⟨p', h', hp', hh', hholds⟩ := hT.leased j hj lease hstate
  rw [hkey] at hpartition
  rw [hpartition, hp] at hp'
  cases hp'
  cases Option.some.inj (hh.symm.trans hh')
  rw [claimable, Bool.and_eq_true] at hclaimable
  -- the partition has run out, so the lease has, and its job precedes jobs that are not leased
  have hinactive : h.expiresAt ≤ now := by
    have hany := hclaimable.2
    rw [hp, Option.any_some, PartitionLease.active, hh] at hany
    simpa using hany
  have hdue : T.claimable now j = true := by
    rw [claimable, Bool.and_eq_true, hpartition]
    refine ⟨?_, hclaimable.2⟩
    rw [JobRow.due, hstate]
    exact decide_eq_true (hholds.outlasts.trans hinactive)
  have hbefore := not_lt_of_mem_argmin (mem_filter.mpr ⟨hj, hdue⟩) hrow
  rw [← hid]
  cases hrowLeased : row.isLeased with
  | true =>
    obtain ⟨lease', hrowState⟩ := isLeased_iff.mp hrowLeased
    rw [hT.exclusive hj hmem hpartition hstate hrowState]
  | false =>
    refine absurd ?_ hbefore
    rw [JobRow.claimOrder, JobRow.claimOrder, hrowLeased, hleased, Prod.Lex.toLex_lt_toLex]
    exact .inl Bool.false_lt_true

/-- An attempt that a claim would insert is new. -/
theorem Sound.attempt_fresh (hT : T.Sound) (hrow : row ∈ T.jobs)
    (hp : T.partition row.partition = some p) :
    (T.attempts.map JobAttempt.key).any (fun k => k.1 = row.jobId &&
      (k.2.1 = row.attemptCount + 1 || k.2.2 = p.highestLeaseEpoch + 1)) = false := by
  refine any_eq_false.mpr fun k hk h => ?_
  rw [Bool.and_eq_true, Bool.or_eq_true, decide_eq_true_eq, decide_eq_true_eq,
    decide_eq_true_eq] at h
  obtain ⟨hid, hsame⟩ := h
  obtain ⟨j, q, hcounted⟩ := hT.counted k hk
  have hj := hcounted.job
  rw [hid, hT.job_of_mem hrow] at hj
  cases hj
  have hq := hcounted.partition
  rw [hp] at hq
  cases hq
  have hattempt := hcounted.attempt
  have hepoch := hcounted.epoch
  omega

/-- The row of the candidate's partition, stored or new, is free. -/
structure Free (T : JobTables) (clock : Nat → Instant) (row : JobRow) (p : PartitionLease) :
    Prop where
  inactive : p.active (clock 1) = false
  current : p.state.holder.any (fun h => h.jobId ≠ row.jobId) = false
  epoch : p.highestLeaseEpoch + 1 ≤ maxSafeInteger

theorem Sound.free (hT : T.Sound) (hclock : Monotone clock)
    (hready : T.ClaimReady (clock 0)) (hrow : T.candidate (clock 0) = some row)
    (hp : (T.ensurePartition row.partition).partition row.partition = some p) :
    T.Free clock row p := by
  obtain ⟨_, hclaimable⟩ := mem_filter.mp (argmin_mem hrow)
  rw [claimable, Bool.and_eq_true, Bool.not_eq_true'] at hclaimable
  rw [partition_ensure, if_pos rfl] at hp
  cases hstored : T.partition row.partition with
  | none =>
    rw [hstored] at hp
    cases hp
    exact ⟨rfl, rfl, show 0 + 1 ≤ maxSafeInteger by decide⟩
  | some q =>
    rw [hstored] at hp
    cases hp
    refine ⟨?_, ?_, hready.epochs q (Keyed.lookup_eq_some hstored).1⟩
    · have hbefore := hclaimable.2
      rw [hstored, Option.any_some] at hbefore
      refine (Option.any_eq_false _ _).mpr fun h hh => ?_
      have hpast := (Option.any_eq_false _ _).mp hbefore h hh
      rw [decide_eq_false_iff_not] at hpast ⊢
      exact fun hlt => hpast ((hclock (Nat.zero_le 1)).trans_lt hlt)
    · refine (Option.any_eq_false _ _).mpr fun h hh => ?_
      rw [decide_eq_false_iff_not]
      exact fun hne => hne (hT.candidate_current hrow hstored hh)

/-- A candidate has attempts left. -/
theorem candidate_attempts (hpaced : ∀ j ∈ T.jobs, j.Paced)
    (hready : T.ClaimReady now) (hrow : T.candidate now = some row) :
    row.attemptCount + 1 ≤ 100 := by
  obtain ⟨hmem, hclaimable⟩ := mem_filter.mp (argmin_mem hrow)
  rw [claimable, Bool.and_eq_true] at hclaimable
  have hmax := row.runtimePolicy.attempts.2
  rcases waiting_of_due hclaimable.1 with hstate | hstate | ⟨lease, hstate⟩
  · exact (hpaced row hmem).available hstate
  · have := (hpaced row hmem).waiting hstate
    omega
  · have := hready.ended row hmem (isLeased_iff.mpr ⟨lease, hstate⟩) hclaimable.1
    omega

/-- Every claim of a tenant goes through. -/
theorem Sound.serves (hT : T.Sound) (hpaced : ∀ j ∈ T.jobs, j.Paced)
    (hclock : Monotone clock) (hready : T.ClaimReady (clock 0)) : T.Serves clock := by
  intro scope workerId hworker
  unfold claim
  rw [if_neg (not_not.mpr hworker)]
  cases hcandidate : T.candidate (clock 0) with
  | none =>
    refine ⟨T, none, rfl, fun ⟨j, hj, hclaimable⟩ => ?_⟩
    have hnil := argmin_eq_none.mp hcandidate
    exact absurd (mem_filter.mpr ⟨hj, hclaimable⟩) (hnil ▸ not_mem_nil)
  | some row =>
    obtain ⟨hmem, _⟩ := mem_filter.mp (argmin_mem hcandidate)
    obtain ⟨p, hp⟩ : ∃ p, (T.ensurePartition row.partition).partition row.partition = some p := by
      rw [partition_ensure, if_pos rfl]
      exact ⟨_, rfl⟩
    have hfree := hT.free hclock hready hcandidate hp
    have hcount := candidate_attempts hpaced hready hcandidate
    have hfresh := (hT.ensure row.partition).attempt_fresh hmem hp
    rw [← (expireAttempts_keeps _ row).2.2, any_map] at hfresh
    simp only [hp, hfree.inactive, hfree.current, Bool.or_false, Bool.false_eq_true, if_false,
      hcount, hfree.epoch, dite_true]
    rw [if_neg]
    · exact ⟨_, _, rfl, fun _ => rfl⟩
    · rw [Bool.not_eq_true]
      exact hfresh

end JobTables

/-- In every run in which the lease of a last attempt is ended before it runs out and no job with a
hundred attempts is replayed, a job gets at most `max_attempts` attempts between replays and is then
out of the queue, and every claim goes through and serves a claimable job if there is one. -/
theorem attempts_bounded (P : ρ → PostgresJobRuntime D X W) (domain : D)
    (es : List (JobEvent ρ D W))
    (hrun : (jobRuntime P).Along Attended (JobSystem.initial domain) es) :
    AttemptsBounded P (JobSystem.initial domain) es where
  bounded := by
    rintro es₁ es₂ rfl scope id j hj hgeneration
    obtain ⟨hrun₁, hrun₂⟩ := ((jobRuntime P).along_append _ es₁ es₂).mp hrun
    rw [Machine.run_append] at hj
    have hsince := rowSince_run (sound_run domain es₁) (paced_run hrun₁) hrun₂ scope id
    exact (hsince.since j hj).bounded hgeneration
  serves := by
    intro scope elapse hready
    have hs := sound_run (P := P) domain es
    refine (hs scope).serves (fun j hj => ?_) (reading_mono _ elapse) hready
    exact paced_run hrun scope j.jobId j ((hs scope).job_of_mem hj)

end

/-! ## The sample runtime -/

/-- One attempt, under a lease of one second. -/
def samplePolicy : RuntimePolicy :=
  ⟨"policy", 1, 1, 1, 1, 1, .databaseSafe, by decide, by decide, by decide, by decide⟩

/-- A kind of jobs whose handler always throws; the payload is the partition. -/
def sampleDefinition : JobKindDefinition Unit String String where
  jobKind := "kind"
  targetModule := "module"
  payloadVersion := 1
  runtimePolicy := samplePolicy
  decodePayload := some
  decodeCanonicalPayload := fun _ => some ""
  encodeCanonicalPayload := fun _ => [0]
  derivePartitionKey := id
  revalidate := fun _ _ _ => some true
  handle := fun _ _ _ _ => none

def sampleRuntime : Unit → PostgresJobRuntime Unit String String := fun _ =>
  { registry := ⟨[sampleDefinition], by decide⟩
    encoding := ⟨checksum, fun _ => [0], fun _ _ => []⟩
    verify := fun _ _ _ _ _ => some true }

def sampleEnqueue (name : String) : JobEvent Unit Unit String :=
  .call () (.enqueue sampleScope ⟨"kind", "module", 1, name, name,
    ⟨.systemFanOut, "ref"⟩, ⟨.systemPolicy, "ref", 1, checksum []⟩, samplePolicy, name⟩ name
      "quarantine") (fun _ => 0)

/-- A claim after a second. -/
def sampleClaimLater : JobEvent Unit Unit String :=
  .call () (.claim sampleScope "worker") (fun i => if i = 0 then 1000000 else 0)

/-- One attempt, and its retry. -/
theorem attempts_bounded_retried : AttemptsBounded sampleRuntime (JobSystem.initial ())
    [sampleEnqueue "a", sampleClaimLater, .call () (.retry 0 "quarantine") (fun _ => 0)] :=
  attempts_bounded sampleRuntime () _ ⟨trivial, (show JobTables.ClaimReady
    (((jobRuntime sampleRuntime).next (JobSystem.initial ()) (sampleEnqueue "a")).tables
      sampleScope) 1000000 by decide), trivial, trivial⟩

/-- The job is claimed `n` times, each time after its lease ran out; then another job of another
partition is enqueued. -/
def samplePoisoned (n : Nat) : JobSystem Unit Unit :=
  (jobRuntime sampleRuntime).run (JobSystem.initial ())
    (sampleEnqueue "a" :: List.replicate n sampleClaimLater ++ [sampleEnqueue "b"])

/-- A job with one attempt gets a second one when its worker dies; and after a hundred no claim of
the tenant goes through, though another job can be claimed. -/
theorem poisoned_claim :
    ¬ AttemptsBounded sampleRuntime (JobSystem.initial ())
        [sampleEnqueue "a", sampleClaimLater, sampleClaimLater] ∧
    (jobRuntime sampleRuntime).out (samplePoisoned 100) sampleClaimLater =
      .failed (.checkViolation "attempt_count") ∧
    ∃ j ∈ ((samplePoisoned 100).tables sampleScope).jobs, j.jobId = "b" ∧
      ((samplePoisoned 100).tables sampleScope).claimable ((samplePoisoned 100).now + 1000000) j =
        true := by
  refine ⟨fun h => ?_, by decide +kernel⟩
  have hbounded := h.bounded [] _ rfl sampleScope "a" _ rfl rfl
  exact absurd hbounded.attempts (by decide)

end GoodDealer.Cloud
