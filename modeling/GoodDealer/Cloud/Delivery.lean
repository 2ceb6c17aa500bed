/-
# `GoodDealer.Cloud.Delivery` — one device's rows along a run

The rows of one device, seen along a run of the whole service.

* `DeviceStep` is `CloudStep` as one device sees it.
* A pull throws exactly on a stored delivery of another generation, or on a row
  version that cannot advance.  Only `reopenAfterRebootstrap` separates the two
  generations: it advances the cursor and leaves the delivery row behind.
-/
import GoodDealer.Cloud.Service

namespace GoodDealer.Cloud

variable {H : Type} {P : Platform H} {ttl : LeaseTtl} {w w' : Workspace H} {deviceId : String}
  {r : PullRequest H}

/-! ## One device's view of a step -/

variable [DecidableEq H] (P : Platform H) (ttl : LeaseTtl) (w w' : Workspace H)
  (deviceId : String) in
/-- A step as the rows of one device see it. -/
inductive DeviceStep : CloudEvent H → Prop where
  | same (e : CloudEvent H) (hreader : w'.reader deviceId = w.reader deviceId)
      (hdelivery : w'.delivery deviceId = w.delivery deviceId) : DeviceStep e
  | touched (e : CloudEvent H) {c c' : ReaderCursor H} (hc : w.reader deviceId = some c)
      (hc' : w'.reader deviceId = some c') (hdevice : c'.deviceId = c.deviceId)
      (hgen : c'.generation = c.generation)
      (hread : c'.readThroughServerRevision = c.readThroughServerRevision)
      (hactive : c'.isActive = true → c.isActive = true ∧ c'.page = c.page)
      (hdelivery : w'.delivery deviceId = w.delivery deviceId) : DeviceStep e
  | opened (e : CloudEvent H) {atRevision : Nat} (hopen : e.opening deviceId = some atRevision)
      (hnone : w.reader deviceId = none)
      (hc' : w'.reader deviceId = some (.opened ttl w.now deviceId atRevision))
      (hdelivery : w'.delivery deviceId = w.delivery deviceId) : DeviceStep e
  | reopened {baseline generation rowVersion : Nat} {c : ReaderCursor H}
      (hd : acceptedReopen ttl w (.reopen deviceId baseline generation rowVersion) =
        some deviceId)
      (hc : w.reader deviceId = some c) (hretired : c.isActive = false)
      (hc' : w'.reader deviceId = some (c.reopened ttl w.now baseline))
      (hdelivery : w'.delivery deviceId = w.delivery deviceId) :
      DeviceStep (.reopen deviceId baseline generation rowVersion)
  | pulled {r : PullRequest H} {res : PersistentReaderPullResult H}
      (hs : PullStep P ttl w deviceId r w' res) : DeviceStep (.pull deviceId r)

section

variable [DecidableEq H] {e : CloudEvent H} {d : String}

/-- A cursor of another device, or this one with a new lease or retired. -/
theorem deviceStep_setReader {c c' : ReaderCursor H} (hc : w.reader d = some c)
    (hdevice : c'.deviceId = c.deviceId) (hgen : c'.generation = c.generation)
    (hread : c'.readThroughServerRevision = c.readThroughServerRevision)
    (hactive : c'.isActive = true → c.isActive = true ∧ c'.page = c.page) :
    DeviceStep P ttl w (w.setReader c') deviceId e := by
  obtain rfl := reader_device hc
  by_cases hd : deviceId = c.deviceId
  · subst hd
    refine .touched e hc ?_ hdevice hgen hread hactive rfl
    rw [reader_setReader_self hdevice, hc]
    rfl
  · exact .same e (reader_setReader_ne (by rw [hdevice]; exact hd)) rfl

theorem deviceStep_cursor (hs : CursorStep ttl w d (e.opening d) w') :
    DeviceStep P ttl w w' deviceId e := by
  cases hs with
  | same => exact .same e rfl rfl
  | retire reason hc _ =>
    refine deviceStep_setReader hc rfl rfl rfl (fun ha => ?_)
    cases ha
  | renewed hc hactive => exact deviceStep_setReader hc rfl rfl rfl (fun _ => ⟨hactive, rfl⟩)
  | @opened a hopen hnone hretained hknown =>
    have hread := reader_opened (w := w) (c := .opened ttl w.now d a) deviceId
    have hdevice : (ReaderCursor.opened ttl w.now d a : ReaderCursor H).deviceId = d := rfl
    rw [hdevice] at hread
    by_cases hd : d = deviceId
    · subst hd
      rw [hnone, Option.none_or, if_pos rfl] at hread
      exact .opened e hopen hnone hread rfl
    · rw [if_neg hd, Option.or_none] at hread
      exact .same e hread rfl

theorem deviceStep_pull {res : PersistentReaderPullResult H}
    (hs : PullStep P ttl w d r w' res) : DeviceStep P ttl w w' deviceId (.pull d r) := by
  by_cases hd : deviceId = d
  · subst hd
    exact .pulled hs
  -- the rows of another device are not touched
  cases hs with
  | reject | replay => exact .same _ rfl rfl
  | retire reason code hc _ =>
    refine deviceStep_setReader hc rfl rfl rfl (fun ha => ?_)
    cases ha
  | @first c x hc _ hnone _ _ _ _ hx =>
    obtain rfl := reader_device hc
    refine .same _ rfl (delivery_store_ne ?_)
    rw [hx]
    exact hd
  | @confirm c p token x hc _ hp _ _ _ _ _ _ _ hx =>
    obtain rfl := reader_device hc
    refine .same _ ?_ ?_
    · have hne : deviceId ≠ (c.confirmed ttl w.now p).deviceId := hd
      exact reader_setReader_ne hne
    · refine (delivery_store_ne ?_).trans ?_
      · rw [hx]
        exact hd
      · exact Keyed.lookup_remove_ne hd w.deliveries

theorem deviceStep (hs : CloudStep P ttl w e w') (deviceId : String) :
    DeviceStep P ttl w w' deviceId e := by
  cases hs with
  | ingest _ _ hc =>
    refine .same _ ?_ ?_
    · rw [hc.rest]
      rfl
    · rw [hc.rest]
      rfl
  | @compact _ _ _ log readers _ hretire _ _ _ =>
    have hread := lookup_retireExpired hretire deviceId
    cases hc : w.reader deviceId with
    | none =>
      have hnone := hread.trans (congrArg (Option.map _) hc)
      exact .same _ (hnone.trans hc.symm) rfl
    | some c =>
      have hsome := hread.trans (congrArg (Option.map _) hc)
      rw [Option.map_some] at hsome
      split at hsome
      · refine .touched _ hc hsome rfl rfl rfl (fun ha => ?_) rfl
        cases ha
      · exact .touched _ hc hsome rfl rfl rfl (fun ha => ⟨ha, rfl⟩) rfl
  | @reopen d b g v c haccepted hc hretired _ _ =>
    obtain rfl := reader_device hc
    by_cases hd : deviceId = c.deviceId
    · subst hd
      have hdevice : (c.reopened ttl w.now b).deviceId = c.deviceId := rfl
      refine .reopened haccepted hc hretired ?_ rfl
      rw [reader_setReader_self hdevice, hc]
      rfl
    · have hne : deviceId ≠ (c.reopened ttl w.now b).deviceId := hd
      exact .same _ (reader_setReader_ne hne) rfl
  | cursor hs => exact deviceStep_cursor hs
  | pull hs => exact deviceStep_pull hs
  | _ => exact .same _ rfl rfl

end

/-! ## Generations -/

/-- A stored delivery is of its cursor's generation. -/
def SameGeneration (w : Workspace H) : Prop :=
  ∀ deviceId c p, w.reader deviceId = some c → w.delivery deviceId = some p →
    p.generation = c.generation

/-- A cursor is reopened only while no delivery of it is stored. -/
def ReopenWithoutDelivery (ttl : LeaseTtl) (w : Workspace H) (e : CloudEvent H) : Prop :=
  ∀ deviceId ∈ acceptedReopen ttl w e, w.delivery deviceId = none

instance [DecidableEq H] (ttl : LeaseTtl) (w : Workspace H) (e : CloudEvent H) :
    Decidable (ReopenWithoutDelivery ttl w e) :=
  inferInstanceAs (Decidable (∀ _ ∈ _, _ = _))

/-- What is stored for a device after one of its pulls. -/
theorem sameGeneration_pullStep [DecidableEq H]
    {res : PersistentReaderPullResult H} (h : SameGeneration w)
    (hs : PullStep P ttl w deviceId r w' res) {c' : ReaderCursor H} {p' : PendingDelivery H}
    (hc' : w'.reader deviceId = some c') (hp' : w'.delivery deviceId = some p') :
    p'.generation = c'.generation := by
  cases hs with
  | reject | replay => exact h _ _ _ hc' hp'
  | @retire c reason code hc _ =>
    obtain rfl := reader_device hc
    have hdevice : (c.retire reason).deviceId = c.deviceId := rfl
    rw [reader_setReader_self hdevice, hc] at hc'
    cases hc'
    exact h _ c _ hc hp'
  | @first c d hc _ hnone _ _ _ _ hd =>
    obtain rfl := reader_device hc
    have hdevice : d.pendingDelivery.deviceId = c.deviceId := by rw [hd]; rfl
    rw [delivery_store_self hnone hdevice] at hp'
    cases hp'
    cases hc.symm.trans hc'
    rw [hd]
    rfl
  | @confirm c p token d hc _ hp _ _ _ _ _ _ _ hd =>
    obtain rfl := reader_device hc
    have hdevice : d.pendingDelivery.deviceId = c.deviceId := by rw [hd]; rfl
    rw [delivery_store_self (delivery_confirm w ttl c p) hdevice] at hp'
    cases hp'
    cases (reader_confirm hc).symm.trans hc'
    rw [hd]
    rfl

theorem sameGeneration_step [DecidableEq H] {e : CloudEvent H} (hinv : ReaderInv P w)
    (h : SameGeneration w) (hguard : ReopenWithoutDelivery ttl w e) (hs : CloudStep P ttl w e w') :
    SameGeneration w' := by
  intro deviceId c' p' hc' hp'
  cases deviceStep hs deviceId with
  | same _ hreader hdelivery =>
    rw [hreader] at hc'
    rw [hdelivery] at hp'
    exact h deviceId c' p' hc' hp'
  | touched _ hc hc'' _ hgen _ _ hdelivery =>
    rw [hdelivery] at hp'
    cases hc''.symm.trans hc'
    rw [hgen]
    exact h deviceId _ p' hc hp'
  | opened _ _ hnone _ hdelivery =>
    rw [hdelivery, hinv.delivery_none hnone] at hp'
    cases hp'
  | reopened haccepted _ _ _ hdelivery =>
    rw [hdelivery, hguard deviceId haccepted] at hp'
    cases hp'
  | pulled hpull => exact sameGeneration_pullStep h hpull hc' hp'

/-- A well-formed pull is answered, as long as the cursor's row version can
advance: by a rejection, or by a page that starts where the cursor stands. -/
def PullDefined [DecidableEq H] (P : Platform H) (ttl : LeaseTtl) (w : Workspace H) : Prop :=
  ∀ (deviceId : String) (r : PullRequest H), validIdentifier deviceId = true → r.Valid →
    (∀ c, w.reader deviceId = some c → c.rowVersion < maxSafeInteger) →
    ∃ w' res, pullV2 P ttl w deviceId r = some (w', res) ∧
      ∀ d, res = .accepted d → ∃ c, w'.reader deviceId = some c ∧
        d.page.fromServerRevisionExclusive = c.readThroughServerRevision

/-- An accepted page starts where the cursor stands after the pull. -/
theorem PullStep.from_eq [DecidableEq H] {d : PullDelivery H}
    (hs : PullStep P ttl w deviceId r w' (.accepted d)) :
    ∃ c, w'.reader deviceId = some c ∧
      d.page.fromServerRevisionExclusive = c.readThroughServerRevision := by
  cases hs with
  | @first c _ hc _ _ _ _ _ _ hd | @replay c _ _ hc _ _ _ _ _ _ hd => exact ⟨c, hc, by rw [hd]; rfl⟩
  | @confirm c p _ _ hc _ _ _ _ _ _ _ _ _ hd =>
    obtain rfl := reader_device hc
    exact ⟨c.confirmed ttl w.now p, reader_confirm hc, by rw [hd]; rfl⟩

theorem pullDefined_of_inv [DecidableEq H] (hinv : ReaderInv P w) (hsame : SameGeneration w) :
    PullDefined P ttl w := by
  intro deviceId r hdevice hvalid hversion
  rcases pullV2_spec ttl r (fun c hc ha => hinv.rows deviceId c hc ha) with
    ⟨_, hthrows⟩ | ⟨w', res, hsome, hstep⟩
  · obtain ⟨c, hc, _, hcause⟩ := hthrows.cause hdevice hvalid
    rcases hcause with hmax | ⟨p, hp, hne⟩
    · exact absurd (hversion c hc) (not_lt.mpr hmax)
    · exact absurd (hsame deviceId c p hc hp) hne
  · refine ⟨w', res, hsome, ?_⟩
    rintro d rfl
    exact hstep.from_eq

/-- In a run that reopens cursors only without a stored delivery, no pull throws on
what the service wrote. -/
theorem pullDefined_run_of_reopen [DecidableEq H] {w₀ : Workspace H} (h₀ : w₀.Initial)
    {es : List (CloudEvent H)} (hes : (service P ttl).Along (ReopenWithoutDelivery ttl) w₀ es) :
    PullDefined P ttl ((service P ttl).run w₀ es) := by
  have hboth := (service P ttl).run_inv (I := fun w => ReaderInv P w ∧ SameGeneration w)
    (G := ReopenWithoutDelivery ttl)
    (fun w e hw hg => by
      have hs : CloudStep P ttl w e _ := service_step hw.1 e
      exact ⟨readerInv_step hw.1 hs, sameGeneration_step hw.1 hw.2 hg hs⟩)
    ⟨readerInv_initial h₀, fun d c p hc => by
      rw [Workspace.reader, h₀.readers] at hc
      cases hc⟩ hes
  exact pullDefined_of_inv hboth.1 hboth.2

/-- A first pull, from the opening revision. -/
def samplePull : PullRequest Symbolic := ⟨0, none, none, 256⟩

/-- Sixteen minutes. -/
def sampleWait : CloudEvent Symbolic := .tick (960 * 1000000)

/-- Opened, left to expire, and reopened. -/
theorem pullDefined_run_of_reopen_sample :
    ((service Symbolic.platform sampleTtl).run sampleWorkspace
      [.openReader "device" 0, sampleWait, .pull "device" samplePull,
        .reopen "device" 0 1 2]).reader "device" ≠ none ∧
    PullDefined Symbolic.platform sampleTtl
      ((service Symbolic.platform sampleTtl).run sampleWorkspace
        [.openReader "device" 0, sampleWait, .pull "device" samplePull, .reopen "device" 0 1 2]) :=
  ⟨by decide, pullDefined_run_of_reopen sampleWorkspace_initial (by decide)⟩

/-- With a delivery pending when the lease ran out, the reopened cursor cannot be pulled. -/
theorem not_pullDefined_after_reopen :
    ¬ PullDefined Symbolic.platform sampleTtl
      ((service Symbolic.platform sampleTtl).run sampleWorkspace
        [.openReader "device" 0, .pull "device" samplePull, sampleWait,
          .pull "device" samplePull, .reopen "device" 0 1 2]) := by
  intro h
  obtain ⟨w', res, hsome, _⟩ := h "device" samplePull (by decide) (by decide) (by decide)
  have hnone : pullV2 Symbolic.platform sampleTtl
      ((service Symbolic.platform sampleTtl).run sampleWorkspace
        [.openReader "device" 0, .pull "device" samplePull, sampleWait,
          .pull "device" samplePull, .reopen "device" 0 1 2]) "device" samplePull = none := by
    decide
  rw [hnone] at hsome
  cases hsome

end GoodDealer.Cloud
