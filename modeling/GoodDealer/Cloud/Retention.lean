/-
# `GoodDealer.Cloud.Retention` — what compaction may not overtake

Compaction moves the watermark up to what readers, pins and the newest available
checkpoint allow *at that moment*.  Whether the bound still holds later depends on
the other operations:

* every active reader stays at or above the watermark (`ReaderInv`, no condition);
* an unreleased pin does, if no pin is taken on a checkpoint below the watermark;
* an available checkpoint does, if a supersession leaves one.

`pin` checks only that the checkpoint is available, and `supersede` only that it
is not the last available one, so neither condition is enforced.
-/
import GoodDealer.Cloud.Service

namespace GoodDealer.Cloud

open List Keyed Symbolic

variable {H : Type} {P : Platform H} {ttl : LeaseTtl} {w w' : Workspace H}

/-! ## The watermark -/

variable {e : CloudEvent H} {s : PersistentCheckpointStatus} {id : String}

/-- The head never moves back. -/
theorem head_step [DecidableEq H] (hs : CloudStep P ttl w e w') : w.head ≤ w'.head := by
  cases hs with
  | ingest _ _ hc =>
    rw [Workspace.head, Workspace.head, (MutationLog.append_eq_some hc.log).2.2.2.2.1]
    exact Nat.le_add_right ..
  | compact hlog _ _ _ _ =>
    exact le_of_eq (MutationLog.compactPrefix_eq_some hlog).2.2.2.2.1.symm
  | cursor hs | pull hs => cases hs <;> exact le_rfl
  | _ => exact le_rfl

/-! ## Pins -/

/-- Unreleased pins are at or above the watermark. -/
def PinsRetained (w : Workspace H) : Prop :=
  ∀ p ∈ w.pins, p.released = false → w.watermark ≤ p.expectedThroughServerRevision

/-- A pin is taken on a checkpoint at or above the watermark. -/
def PinAtOrAbove [DecidableEq H] (w : Workspace H) (e : CloudEvent H) : Prop :=
  ∀ b ∈ acceptedPin w e, w.watermark ≤ b.throughServerRevision

instance [DecidableEq H] (w : Workspace H) (e : CloudEvent H) : Decidable (PinAtOrAbove w e) :=
  inferInstanceAs (Decidable (∀ _ ∈ _, _ ≤ _))

theorem pinsRetained_of_subset (h : PinsRetained w) (hw : w'.watermark = w.watermark)
    (hpins : ∀ p ∈ w'.pins, p.released = false → p ∈ w.pins) : PinsRetained w' := by
  intro p hp hr
  rw [hw]
  exact h p (hpins p hp hr) hr

theorem pinsRetained_step [DecidableEq H] (h : PinsRetained w) (hguard : PinAtOrAbove w e)
    (hs : CloudStep P ttl w e w') : PinsRetained w' := by
  cases hs with
  | ingest _ _ hc =>
    refine pinsRetained_of_subset h (MutationLog.append_eq_some hc.log).2.2.2.1 ?_
    rw [hc.rest]
    exact fun p hp _ => hp
  | release | supersede =>
    exact pinsRetained_of_subset h rfl (fun p hp hr => mem_releaseExpiredPins hp hr)
  | pin hb hpins =>
    intro p hp hr
    rcases hpins p hp with hp | ⟨q, hq, hqr, hqt⟩
    · rw [hp]
      exact hguard _ hb
    · rw [← hqt]
      exact h q hq (hqr.trans hr)
  | releasePin hpins => exact pinsRetained_of_subset h rfl hpins
  | compact hlog _ _ hpins _ =>
    intro p hp hr
    rw [Workspace.watermark, (MutationLog.compactPrefix_eq_some hlog).2.2.2.1]
    exact hpins p hp hr
  | cursor hs | pull hs => cases hs <;> exact h
  | _ => exact h

/-- Compaction has overtaken no unexpired reader and no unexpired pin, and the
next page of an unexpired reader can be read from the log. -/
structure Retained [DecidableEq H] (P : Platform H) (w : Workspace H) : Prop where
  readers : ∀ c ∈ w.readers, c.isActive = true → w.now < c.leaseExpiresAt →
    w.watermark ≤ c.readThroughServerRevision
  pins : ∀ p ∈ w.pins, p.released = false → w.now < p.expiresAt →
    w.watermark ≤ p.expectedThroughServerRevision
  pages : ∀ c ∈ w.readers, c.isActive = true → w.now < c.leaseExpiresAt →
    ∀ pageLimit, 1 ≤ pageLimit → pageLimit ≤ maxMutationsPerPage →
      (readPage P w.log c.readThroughServerRevision (w.pageTarget c) pageLimit).isSome = true

theorem retained_of_inv [DecidableEq H] (hreader : ReaderInv P w) (hpins : PinsRetained w) :
    Retained P w := by
  have hrow : ∀ c ∈ w.readers, c.isActive = true → ReaderRows P w c := fun c hc ha =>
    hreader.rows c.deviceId c (lookup_of_mem hreader.unique hc) ha
  refine ⟨fun c hc ha _ => (hrow c hc ha).retained, fun p hp hr _ => hpins p hp hr, ?_⟩
  intro c hc ha _ n h1 hn
  obtain ⟨base, hbase, _⟩ := readPage_eq P (w.readerBinding c) 0
    ((hrow c hc ha).bounds h1 hn)
  rw [hbase]
  rfl

/-- A run that takes pins at or above the watermark only never lets compaction
overtake a reader or a pin. -/
theorem retained_run_of_pins_above [DecidableEq H] {w₀ : Workspace H} (h₀ : w₀.Initial)
    {es : List (CloudEvent H)} (hes : (service P ttl).Along PinAtOrAbove w₀ es) :
    Retained P ((service P ttl).run w₀ es) := by
  have hboth : ReaderInv P ((service P ttl).run w₀ es) ∧
      PinsRetained ((service P ttl).run w₀ es) := by
    refine (service P ttl).run_inv (I := fun w => ReaderInv P w ∧ PinsRetained w)
      (G := PinAtOrAbove) (fun w e hw hg => ?_) ⟨readerInv_initial h₀, ?_⟩ hes
    · have hs : CloudStep P ttl w e _ := service_step hw.1 e
      exact ⟨readerInv_step hw.1 hs, pinsRetained_step hw.2 hg hs⟩
    · intro p hp
      rw [h₀.pins] at hp
      cases hp
  exact retained_of_inv hboth.1 hboth.2

/-! ### On the sample workspace -/

/-- Two checkpoints, at revisions 0 and 1, and the log compacted to the newer one. -/
def sampleCompaction : List (CloudEvent Symbolic) :=
  publishAt "c0" 0 ++ [.ingest samplePorts [sampleNote "m1" 1]] ++ publishAt "c1" 1 ++
    [.compact 1 none (.oldestUnresolved none)]

/-- A pin of one of the two. -/
def samplePin (checkpointId : String) (through : Nat) (row : DomainAssetProjectionRow) :
    CheckpointPinBinding Symbolic where
  checkpointId := checkpointId
  throughServerRevision := through
  checkpointDigest := platform.sha256
    (.entityDigests [⟨some "p0000", platform.sha256 (.domainAssets [row])⟩])
  consumerKind := .bootstrap
  consumerId := "consumer"
  expiresAt := 60

theorem retained_run_of_pins_above_sample :
    (sampleServed (sampleCompaction ++ [.pin (samplePin "c1" 1 { sampleRow with note := some "n" }),
        .openReader "device" 1])).pins.length = 1 ∧
    Retained platform (sampleServed
      (sampleCompaction ++ [.pin (samplePin "c1" 1 { sampleRow with note := some "n" }),
        .openReader "device" 1])) :=
  ⟨by decide, retained_run_of_pins_above sampleWorkspace_initial (by decide)⟩

/-- The older checkpoint is still available, so a pin of it is accepted below the
watermark. -/
theorem not_retained_after_pin_below :
    ¬ Retained platform (sampleServed
      (sampleCompaction ++ [.pin (samplePin "c0" 0 sampleRow)])) := by
  intro h
  exact absurd h.pins (by decide)

/-! ## Checkpoints -/

/-- What every stored checkpoint keeps: its id is its own, its revision was the
head once, and its snapshot passes the projection schema. -/
structure CheckpointsSound (w : Workspace H) : Prop where
  unique : (w.checkpoints.map PersistentCheckpoint.checkpointId).Nodup
  known : ∀ c ∈ w.checkpoints, c.throughServerRevision ≤ w.head
  snapshot : ∀ c ∈ w.checkpoints, ValidProjection c.snapshot

/-- Some available checkpoint is at or above the watermark. -/
def PlanRetained (w : Workspace H) : Prop :=
  w.watermark = 0 ∨ ∃ c ∈ w.checkpoints, c.isAvailable = true ∧
    w.watermark ≤ c.throughServerRevision

/-- A supersession leaves an available checkpoint at or above the watermark. -/
def SupersedeLeavesPlan (w : Workspace H) (e : CloudEvent H) : Prop :=
  ∀ id ∈ acceptedSupersede w e, ∃ c ∈ w.checkpoints, c.checkpointId ≠ id ∧ c.isAvailable = true ∧
    w.watermark ≤ c.throughServerRevision

instance (w : Workspace H) (e : CloudEvent H) : Decidable (SupersedeLeavesPlan w e) :=
  inferInstanceAs (Decidable (∀ _ ∈ _, ∃ _ ∈ _, _))

/-- A status change keeps everything else of a checkpoint. -/
theorem mem_setStatus {c : PersistentCheckpoint H} :
    c ∈ (w.setStatus id s).checkpoints ↔
      ∃ c₀ ∈ w.checkpoints, c = if c₀.checkpointId = id then { c₀ with status := s } else c₀ :=
  mem_adjust

section

variable (h : CheckpointsSound w)

include h

theorem checkpointsSound_setStatus (id : String)
    (s : PersistentCheckpointStatus) : CheckpointsSound (w.setStatus id s) where
  unique := by
    rw [Workspace.setStatus, keys_adjust]
    · exact h.unique
    · exact fun _ hc => hc
  known := fun c hc => by
    obtain ⟨c₀, hc₀, rfl⟩ := mem_setStatus.mp hc
    split <;> exact h.known c₀ hc₀
  snapshot := fun c hc => by
    obtain ⟨c₀, hc₀, rfl⟩ := mem_setStatus.mp hc
    split <;> exact h.snapshot c₀ hc₀

theorem checkpointsSound_frame (hc : w'.checkpoints = w.checkpoints)
    (hhead : w.head ≤ w'.head) : CheckpointsSound w' := by
  refine ⟨hc ▸ h.unique, fun c hmem => ?_, fun c hmem => ?_⟩
  · rw [hc] at hmem
    exact le_trans (h.known c hmem) hhead
  · rw [hc] at hmem
    exact h.snapshot c hmem

theorem checkpointsSound_step [DecidableEq H]
    (hs : CloudStep P ttl w e w') : CheckpointsSound w' := by
  have hhead := head_step hs
  cases hs with
  | ingest _ _ hc => exact checkpointsSound_frame h (by rw [hc.rest]) hhead
  | @build _ _ c _ hthrough hsnapshot hnew =>
    refine ⟨nodup_append_new h.unique hnew, ?_, ?_⟩
    · exact forall_mem_append.mpr ⟨h.known, forall_mem_singleton.mpr (le_of_eq hthrough)⟩
    · obtain ⟨hvalid, heq⟩ := parseProjection_eq_some.mp hsnapshot
      exact forall_mem_append.mpr ⟨h.snapshot, forall_mem_singleton.mpr (heq ▸ hvalid)⟩
  | promote => exact checkpointsSound_setStatus h _ _
  | supersede =>
    exact checkpointsSound_setStatus (w := w.releaseExpired) (checkpointsSound_frame h rfl hhead)
      _ _
  | cursor hs | pull hs => cases hs <;> exact checkpointsSound_frame h rfl hhead
  | _ => exact checkpointsSound_frame h rfl hhead

end

theorem checkpointsSound_initial (h : w.Initial) : CheckpointsSound w := by
  constructor
  · rw [h.checkpoints]
    exact nodup_nil
  · intro c hc
    rw [h.checkpoints] at hc
    cases hc
  · intro c hc
    rw [h.checkpoints] at hc
    cases hc

/-- Verification and publication do not touch an available checkpoint. -/
theorem available_of_promote
    {c c₀ : PersistentCheckpoint H} (h : CheckpointsSound w) (hc : w.checkpoint id = some c)
    (hp : Promotes c s) (hc₀ : c₀ ∈ w.checkpoints) (hav : c₀.isAvailable = true) :
    c₀ ∈ (w.setStatus id s).checkpoints := by
  refine mem_setStatus.mpr ⟨c₀, hc₀, ?_⟩
  rw [if_neg]
  intro hid
  have hfind : w.checkpoint c₀.checkpointId = some c₀ := lookup_of_mem h.unique hc₀
  rw [hid] at hfind
  cases (hc.symm.trans hfind)
  have hstatus : c.status = .available := by simpa [PersistentCheckpoint.isAvailable] using hav
  rcases hp with ⟨hb, _⟩ | ⟨hb, _⟩ <;> rw [hstatus] at hb <;> cases hb

theorem planRetained_of_subset (h : PlanRetained w) (hw : w'.watermark = w.watermark)
    (hsub : ∀ c ∈ w.checkpoints, c.isAvailable = true → c ∈ w'.checkpoints) :
    PlanRetained w' := by
  rcases h with h | ⟨c, hc, hav, hle⟩
  · exact .inl (hw.trans h)
  · exact .inr ⟨c, hsub c hc hav, hav, hw ▸ hle⟩

theorem planRetained_step [DecidableEq H] (hsound : CheckpointsSound w) (h : PlanRetained w)
    (hguard : SupersedeLeavesPlan w e) (hs : CloudStep P ttl w e w') : PlanRetained w' := by
  cases hs with
  | ingest _ _ hc =>
    refine planRetained_of_subset h (MutationLog.append_eq_some hc.log).2.2.2.1 ?_
    rw [hc.rest]
    exact fun c hmem _ => hmem
  | build =>
    exact planRetained_of_subset h rfl (fun c hc _ => mem_append_left _ hc)
  | promote hc hp =>
    exact planRetained_of_subset h rfl (fun c₀ hc₀ hav =>
      available_of_promote hsound hc hp hc₀ hav)
  | supersede hid =>
    obtain ⟨c, hc, hne, hav, hw⟩ := hguard _ hid
    exact .inr ⟨c, mem_setStatus.mpr ⟨c, hc, by rw [if_neg hne]⟩, hav, hw⟩
  | compact hlog _ _ _ hcheckpoint =>
    obtain ⟨c, hc, hav, hle⟩ := hcheckpoint
    refine .inr ⟨c, hc, hav, ?_⟩
    rw [Workspace.watermark, (MutationLog.compactPrefix_eq_some hlog).2.2.2.1]
    exact hle
  | cursor hs | pull hs => cases hs <;> exact h
  | _ => exact h

/-- A compacted workspace can be rebuilt from an available checkpoint: the log holds
every revision after it, and the plan is returned whole as long as it fits the
page bound of the plan schema. -/
structure Rebootstrappable [DecidableEq H] (P : Platform H) (w : Workspace H) : Prop where
  checkpoint : 0 < w.watermark → ∃ c ∈ w.checkpoints, c.isAvailable = true ∧
    w.watermark ≤ c.throughServerRevision ∧
    ∀ r, c.throughServerRevision < r → r ≤ w.head → ∃ m ∈ w.log.entries, m.serverRevision = r
  plan : 0 < w.watermark →
    (∃ c ∈ w.checkpoints, c.isAvailable = true ∧
      w.head ≤ c.throughServerRevision + maxRebootstrapPages * maxMutationsPerPage) →
    ∃ plan, readRebootstrapPlan P w = some (some plan) ∧ plan.checkpoint ∈ w.checkpoints ∧
      plan.checkpoint.isAvailable = true ∧ plan.snapshot = plan.checkpoint.snapshot ∧
      plan.mutations.flatMap (·.mutations) =
        w.log.readRange plan.checkpoint.throughServerRevision w.head

theorem rebootstrappable_of_inv [DecidableEq H] (hsound : CheckpointsSound w)
    (hplan : PlanRetained w) : Rebootstrappable P w := by
  have hexists : 0 < w.watermark → ∃ c ∈ w.checkpoints, c.isAvailable = true ∧
      w.watermark ≤ c.throughServerRevision := fun hpos =>
    hplan.resolve_left (Nat.ne_of_gt hpos)
  constructor
  · intro hpos
    obtain ⟨c, hc, hav, hle⟩ := hexists hpos
    refine ⟨c, hc, hav, hle, fun r hlt hr => ?_⟩
    refine denseFrom_exists w.log.dense (lt_of_le_of_lt hle hlt) ?_
    rw [w.log.head]
    exact hr
  · rintro hpos ⟨b, hb, hbav, hbound⟩
    obtain ⟨c, hc, hav, hle⟩ := hexists hpos
    obtain ⟨latest, hlatest, hmem, hlav, hmax⟩ := readLatestAvailable_spec hc hav
    obtain ⟨plan, hread, hpc, hps, _, hpm⟩ := readRebootstrapPlan_eq (P := P) hlatest
      (hsound.snapshot latest hmem) (le_trans hle (hmax c hc hav)) (hsound.known latest hmem)
      (le_trans hbound (Nat.add_le_add_right (hmax b hb hbav) _))
    exact ⟨plan, hread, hpc ▸ hmem, hpc ▸ hlav, hpc ▸ hps, hpc ▸ hpm⟩

/-- A run whose supersessions leave a checkpoint at or above the watermark keeps
the workspace rebuildable. -/
theorem rebootstrappable_run_of_supersede [DecidableEq H] {w₀ : Workspace H} (h₀ : w₀.Initial)
    {es : List (CloudEvent H)} (hes : (service P ttl).Along SupersedeLeavesPlan w₀ es) :
    Rebootstrappable P ((service P ttl).run w₀ es) := by
  have hall := (service P ttl).run_inv
    (I := fun w => ReaderInv P w ∧ CheckpointsSound w ∧ PlanRetained w)
    (G := SupersedeLeavesPlan) (fun w e hw hg => by
      have hs : CloudStep P ttl w e _ := service_step hw.1 e
      exact ⟨readerInv_step hw.1 hs, checkpointsSound_step hw.2.1 hs,
        planRetained_step hw.2.1 hw.2.2 hg hs⟩)
    ⟨readerInv_initial h₀, checkpointsSound_initial h₀, .inl h₀.watermark⟩ hes
  exact rebootstrappable_of_inv hall.2.1 hall.2.2

theorem rebootstrappable_run_of_supersede_sample :
    (sampleServed (sampleCompaction ++ [.supersede "c0"])).watermark = 1 ∧
    Rebootstrappable platform (sampleServed (sampleCompaction ++ [.supersede "c0"])) :=
  ⟨by decide, rebootstrappable_run_of_supersede sampleWorkspace_initial (by decide)⟩

/-- Superseding the newest of two checkpoints after compacting to it is accepted:
the remaining one needs log entries that are gone, and reading the plan throws. -/
theorem not_rebootstrappable_after_supersede :
    readRebootstrapPlan platform (sampleServed (sampleCompaction ++ [.supersede "c1"])) = none ∧
    ¬ Rebootstrappable platform (sampleServed (sampleCompaction ++ [.supersede "c1"])) := by
  have hnone : ∀ c ∈ (sampleServed (sampleCompaction ++ [.supersede "c1"])).checkpoints,
      c.isAvailable = true → c.throughServerRevision = 0 := by decide
  refine ⟨by decide, fun h => ?_⟩
  obtain ⟨c, hc, hav, hle, _⟩ := h.checkpoint (by decide)
  rw [hnone c hc hav] at hle
  exact absurd hle (by decide)

end GoodDealer.Cloud
