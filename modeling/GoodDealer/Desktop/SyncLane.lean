/-
# `GoodDealer.Desktop.SyncLane` — when the sync lane runs its next cycle

The lane keeps a retry deadline for the pull and one for the checkpoint, and waits for the
earliest.  A stage that was not attempted leaves its deadline as it is, also when the deadline
has come: the lane then starts the next cycle at once.  A run rests after each of its cycles
exactly if every stage whose deadline has come is attempted (`syncLane_rests_iff`).
-/
import GoodDealer.Lib.Machine

namespace GoodDealer.Desktop

/-! ## The stages of a cycle -/

inductive SyncStageOutcome where
  | notAttempted | valid | retryable | authorizationBlocked | securityBlocked | recoveryRequired
deriving DecidableEq

inductive DesktopLocalHostError where
  | authorityRejected | cloudProtocolRejected | applicationRootRejected | storageRejected
  | unavailable

inductive NativeCloudRequestError where
  | authorityStale | unavailable | outcomeUnknown | retryable | authorizationRequired
  | authorizationDenied | protocolBlocked | configurationBlocked

def stageFromHostError : DesktopLocalHostError → SyncStageOutcome
  | .authorityRejected => .notAttempted
  | .cloudProtocolRejected | .applicationRootRejected => .securityBlocked
  | .storageRejected | .unavailable => .retryable

def stageFromRequestError : NativeCloudRequestError → SyncStageOutcome
  | .retryable | .unavailable | .outcomeUnknown => .retryable
  | .authorizationRequired | .authorizationDenied => .authorizationBlocked
  | .protocolBlocked | .configurationBlocked => .securityBlocked
  | .authorityStale => .notAttempted

inductive DesktopSyncPullDisposition where
  | completed | retryable | authorizationBlocked | securityBlocked | rebootstrapRequired

/-- Where a stage stops: at the cancel fence, before it or at the commit; at a task that is
lost; at a host that refuses to prepare it or, for the checkpoint, has none due; at a request
that fails when it is sent or committed; or at the end, with a disposition. -/
inductive StageEnd (D : Type) where
  | cancelled
  | lost
  | notDue
  | hostRejected (error : DesktopLocalHostError)
  | requestRejected (error : NativeCloudRequestError)
  | done (disposition : D)

/-- What `run_pull` and `run_checkpoint` have in common. -/
def runStage {D : Type} (outcome : D → SyncStageOutcome) : StageEnd D → SyncStageOutcome
  | .cancelled | .notDue => .notAttempted
  | .lost => .retryable
  | .hostRejected error => stageFromHostError error
  | .requestRejected error => stageFromRequestError error
  | .done disposition => outcome disposition

def runPull : StageEnd DesktopSyncPullDisposition → SyncStageOutcome :=
  runStage fun
    | .completed => .valid
    | .retryable => .retryable
    | .authorizationBlocked => .authorizationBlocked
    | .securityBlocked => .securityBlocked
    | .rebootstrapRequired => .recoveryRequired

/-- A checkpoint has the one disposition `Completed`. -/
def runCheckpoint : StageEnd Unit → SyncStageOutcome := runStage fun _ => .valid

/-! ## The lane -/

/-- Nanoseconds of the monotonic clock. -/
abbrev LaneInstant := Nat

structure SyncCyclePlan where
  pullDue : Bool
  checkpointDue : Bool

structure SyncCycleResult where
  pull : SyncStageOutcome
  checkpoint : SyncStageOutcome
  durablePushWake : Option LaneInstant

structure TransientDeadline where
  failures : Nat
  retryAt : Option LaneInstant

namespace TransientDeadline

def isDue (t : TransientDeadline) (now : LaneInstant) : Bool := t.retryAt.all (· ≤ now)

/-- The failures are a `u16` that saturates. -/
def apply (t : TransientDeadline) (outcome : SyncStageOutcome) (now : LaneInstant) :
    TransientDeadline :=
  match outcome with
  | .notAttempted => t
  | .valid | .authorizationBlocked | .securityBlocked | .recoveryRequired => ⟨0, none⟩
  | .retryable =>
    ⟨min (t.failures + 1) 65535, some (now + min (1 <<< min t.failures 8) 300 * 1000000000)⟩

end TransientDeadline

structure SyncLaneState where
  pull : TransientDeadline
  checkpoint : TransientDeadline
  durablePushWake : Option LaneInstant

namespace SyncLaneState

def new : SyncLaneState := ⟨⟨0, none⟩, ⟨0, none⟩, none⟩

def plan (s : SyncLaneState) (now : LaneInstant) : SyncCyclePlan :=
  ⟨s.pull.isDue now, s.checkpoint.isDue now⟩

def apply (s : SyncLaneState) (result : SyncCycleResult) (now : LaneInstant) : SyncLaneState :=
  ⟨s.pull.apply result.pull now, s.checkpoint.apply result.checkpoint now, result.durablePushWake⟩

def earliestDeadline (s : SyncLaneState) : Option LaneInstant :=
  ([s.durablePushWake, s.pull.retryAt, s.checkpoint.retryAt].filterMap id).min?

end SyncLaneState

/-- A cycle of the lane, with what happens in it. -/
structure LaneCycle where
  startedAt : LaneInstant
  pull : StageEnd DesktopSyncPullDisposition
  checkpoint : StageEnd Unit
  durablePushWake : Option LaneInstant
  appliedAt : LaneInstant

/-- `run_sync_cycle`, without the outcome of the push, which the lane does not read. -/
def runSyncCycle (plan : SyncCyclePlan) (c : LaneCycle) : SyncCycleResult where
  pull := if plan.pullDue then runPull c.pull else .notAttempted
  checkpoint := if plan.checkpointDue then runCheckpoint c.checkpoint else .notAttempted
  durablePushWake := c.durablePushWake

/-- `SyncLane::run`, one cycle after the other. -/
def syncLane : Machine SyncLaneState LaneCycle Unit where
  step s c := (s.apply (runSyncCycle (s.plan c.startedAt) c) c.appliedAt, ())

/-! ## Resting between cycles -/

/-- The stage is attempted: no fence, stale authority or missing checkpoint stops it. -/
def StageEnd.Attempted {D : Type} : StageEnd D → Prop
  | .cancelled | .notDue | .hostRejected .authorityRejected | .requestRejected .authorityStale =>
    False
  | _ => True

/-- A stage whose deadline has come when the cycle ends was due from its start and was
attempted. -/
def LaneCycle.Attempts {D : Type} (c : LaneCycle) (t : TransientDeadline) (e : StageEnd D) : Prop :=
  ∀ d ∈ t.retryAt, d ≤ c.appliedAt → d ≤ c.startedAt ∧ e.Attempted

/-- The next deadline is later than `now`, if there is one. -/
def SyncLaneState.Rests (s : SyncLaneState) (now : LaneInstant) : Prop :=
  ∀ d ∈ s.earliestDeadline, now < d

variable {now : LaneInstant} {t : TransientDeadline}

theorem lt_min?_iff {l : List Nat} : (∀ d ∈ l.min?, now < d) ↔ ∀ d ∈ l, now < d := by
  cases hmin : l.min? with
  | none => simp [List.min?_eq_none_iff.mp hmin]
  | some m =>
    have hle := List.le_min?_iff (x := now + 1) hmin
    simpa [Nat.succ_le_iff] using hle

theorem apply_rests (outcome : SyncStageOutcome) :
    (∀ d ∈ (t.apply outcome now).retryAt, now < d) ↔
      (outcome = .notAttempted → ∀ d ∈ t.retryAt, now < d) := by
  cases outcome with
  | retryable =>
    have hdelay : 0 < min (1 <<< min t.failures 8) 300 := by
      rw [Nat.one_shiftLeft]
      exact Nat.lt_min.mpr ⟨Nat.two_pow_pos _, by decide⟩
    simp [TransientDeadline.apply, hdelay]
  | _ => simp [TransientDeadline.apply]

section

variable {D : Type} {outcome : D → SyncStageOutcome} (houtcome : ∀ d, outcome d ≠ .notAttempted)

include houtcome

theorem runStage_eq_notAttempted (e : StageEnd D) :
    runStage outcome e = .notAttempted ↔ ¬ e.Attempted := by
  cases e with
  | hostRejected error => cases error <;> simp [runStage, stageFromHostError, StageEnd.Attempted]
  | requestRejected error =>
    cases error <;> simp [runStage, stageFromRequestError, StageEnd.Attempted]
  | done d => simp [runStage, StageEnd.Attempted, houtcome d]
  | _ => simp [runStage, StageEnd.Attempted]

/-- The deadline of one stage after a cycle. -/
theorem stage_rests (c : LaneCycle) (e : StageEnd D) :
    (∀ d ∈ (t.apply (if t.isDue c.startedAt then runStage outcome e else .notAttempted)
      c.appliedAt).retryAt, c.appliedAt < d) ↔ c.Attempts t e := by
  rw [apply_rests, LaneCycle.Attempts, TransientDeadline.isDue]
  cases t.retryAt with
  | none => simp
  | some d =>
    by_cases hdue : d ≤ c.startedAt
    · simp [hdue, runStage_eq_notAttempted houtcome, not_imp_comm]
    · simp [hdue]

end

theorem next_rests_iff {s : SyncLaneState} {c : LaneCycle}
    (hwake : ∀ d ∈ c.durablePushWake, c.appliedAt < d) :
    (syncLane.next s c).Rests c.appliedAt ↔
      c.Attempts s.pull c.pull ∧ c.Attempts s.checkpoint c.checkpoint := by
  rw [SyncLaneState.Rests, SyncLaneState.earliestDeadline, lt_min?_iff]
  have hmem : ∀ (o : Option Nat) (l : List (Option Nat)), (∀ d ∈ (o :: l).filterMap id,
      c.appliedAt < d) ↔ (∀ d ∈ o, c.appliedAt < d) ∧ ∀ d ∈ l.filterMap id, c.appliedAt < d := by
    intro o l
    cases o <;> simp
  rw [hmem, hmem, hmem]
  refine (and_iff_right hwake).trans (and_congr (stage_rests ?_ c c.pull) ?_)
  · rintro (_ | _) <;> simp
  · exact (and_iff_left (by simp)).trans (stage_rests (by simp) c c.checkpoint)

/-- A run of the lane rests after every cycle exactly if in every cycle each stage whose
deadline comes is attempted. -/
theorem syncLane_rests_iff (s : SyncLaneState) (cycles : List LaneCycle)
    (hwake : ∀ c ∈ cycles, ∀ d ∈ c.durablePushWake, c.appliedAt < d) :
    syncLane.Along (fun s c => (syncLane.next s c).Rests c.appliedAt) s cycles ↔
      syncLane.Along (fun s c => c.Attempts s.pull c.pull ∧ c.Attempts s.checkpoint c.checkpoint)
        s cycles := by
  induction cycles generalizing s with
  | nil => rfl
  | cons c cycles ih =>
    obtain ⟨hc, hcycles⟩ := List.forall_mem_cons.mp hwake
    exact and_congr (next_rests_iff hc) (ih _ hcycles)

/-- A pull that fails at second 0 and succeeds when it is due again. -/
theorem syncLane_rests_retry :
    syncLane.Along (fun s c => (syncLane.next s c).Rests c.appliedAt) .new
      [⟨0, .lost, .notDue, none, 0⟩, ⟨1000000000, .done .completed, .notDue, none, 1000000000⟩] :=
  (syncLane_rests_iff _ _ (by simp)).mpr
    ⟨⟨by rintro _ ⟨⟩, by rintro _ ⟨⟩⟩, ⟨fun _ _ hd => ⟨hd, trivial⟩, by rintro _ ⟨⟩⟩, trivial⟩

/-- A pull that fails at second 0 and finds a stale authority when it is due again: the
deadline that has come is the next one. -/
theorem syncLane_spins :
    (syncLane.run .new
      [⟨0, .lost, .notDue, none, 0⟩,
        ⟨1000000000, .hostRejected .authorityRejected, .notDue, none,
          1000000000⟩]).earliestDeadline = some 1000000000 := rfl

end GoodDealer.Desktop
