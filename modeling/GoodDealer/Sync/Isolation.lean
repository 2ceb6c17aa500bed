/-
# `GoodDealer.Sync.Isolation` — finding the mutations a cloud does not take

A request that the cloud calls malformed is cut in two, left half first, until the
mutation at fault is alone and is rejected.  A cycle has nine requests.  That is enough
to get to the first mutation of any batch: each cut halves the fragment on top, so the
left spine from 256 down to 1 takes nine (`resolved_of_requests`).

The cycle here is the one of `Sync.Push` over any cloud (`runPush_eq`).
-/
import GoodDealer.Sync.PushQueue

namespace GoodDealer.Sync

open Cloud Desktop List Symbolic

variable {H σ : Type} {row : OutboxRow H} {s t s' : Store H} {owner deviceId : String}
  {cs : List (ClaimedSyncMutation H)} {bad : SubmittedSyncMutationWire → Prop} {now : Timestamp}
  {J : SerdeJson H} {P : Platform H} {attempts : Nat}

/-! ## A push cycle over any cloud -/

/-- A cloud as the desktop sees it: what it answers to a request, `none` for a server
error. -/
structure PushPort (σ : Type) where
  answer : σ → List SubmittedSyncMutationWire → σ × Option PushResponse

/-- The loop of `run_push` over a cloud, with the number of requests it may still make. -/
def runPushOver [DecidableEq H] (C : PushPort σ) (now : Timestamp) :
    Nat → σ → Store H → List (DesktopSyncPushClaim H) → σ × Store H
  | _, c, s, [] => (c, s)
  | 0, c, s, unresolved => (c, deferPushClaims s now unresolved)
  | n + 1, c, s, claim :: unresolved =>
    match C.answer c claim.mutations with
    | (c', none) => (c', deferPushClaims s now (claim :: unresolved))
    | (c', some response) =>
      match answerPush s now claim unresolved response with
      | (s', none) => (c', s')
      | (s', some unresolved') => runPushOver C now n c' s' unresolved'

/-- The cloud of the product. -/
def postgresPort [DecidableEq H] (P : Platform H) (ports : IngestPorts) (session : PushSession) :
    PushPort (Workspace H) where
  answer w ms :=
    match push P ports session w ms with
    | none => (w, none)
    | some (w', outcome) => (w', some outcome.response)

section

variable [DecidableEq H] (P : Platform H) (env : PushEnvironment) (s : PushWorld H)
  (unresolved : List (DesktopSyncPushClaim H))

/-- The exchange of a cycle is the cloud's push, and what the desktop does with the answer. -/
theorem pushExchange_eq
    (claim : DesktopSyncPushClaim H) :
    pushExchange P env s claim unresolved =
      match push P env.ports env.session s.cloud claim.mutations with
      | none => (⟨s.cloud, deferPushClaims s.store env.now (claim :: unresolved)⟩, none)
      | some (cloud, outcome) =>
        (⟨cloud, (answerPush s.store env.now claim unresolved outcome.response).1⟩,
          (answerPush s.store env.now claim unresolved outcome.response).2) := by
  unfold pushExchange answerPush
  cases push P env.ports env.session s.cloud claim.mutations with
  | none => rfl
  | some r =>
    obtain ⟨cloud, outcome⟩ := r
    simp only
    cases completeNativeSyncPush s.store claim outcome.response with
    | error => rfl
    | ok done =>
      obtain ⟨store, d⟩ := done
      cases d <;> rfl

/-- A cycle that gets all its answers is the cycle over the cloud of the product. -/
theorem runPush_eq (handled : Nat → Bool) (hcancelled : ∀ n, env.cancelled n = false)
    (hovertaken : ∀ n, env.overtaken n = false) (hlost : ∀ n, env.lost n = none) (n : Nat) :
    ((runPush P env handled n s unresolved).cloud, (runPush P env handled n s unresolved).store) =
      runPushOver (postgresPort P env.ports env.session) env.now n s.cloud s.store unresolved := by
  induction n generalizing s unresolved with
  | zero =>
    cases unresolved with
    | nil => rfl
    | cons => simp only [runPush, runPushOver, hcancelled, Bool.false_eq_true, if_false]
  | succ n ih =>
    cases unresolved with
    | nil => rfl
    | cons claim rest =>
      simp only [runPush, runPushOver, hcancelled, hovertaken, hlost, Bool.false_eq_true, if_false,
        pushExchange_eq, postgresPort]
      cases push P env.ports env.session s.cloud claim.mutations with
      | none => rfl
      | some r =>
        obtain ⟨cloud, outcome⟩ := r
        simp only
        cases answerPush s.store env.now claim rest outcome.response with
        | mk store stack =>
          cases stack with
          | none => rfl
          | some stack => exact ih ⟨cloud, store⟩ stack

end

/-- A cloud that refuses a request as malformed exactly when a bad mutation is in it. -/
structure Isolates (H : Type) (C : PushPort σ) (bad : SubmittedSyncMutationWire → Prop) : Prop where
  rejects : ∀ c ms, (∃ m ∈ ms, bad m) → (C.answer c ms).2 = some (.rejected .inputRejected)
  accepts : ∀ c ms, (∀ m ∈ ms, ¬ bad m) → ms.length ≤ maxMutationsPerPage →
    ∃ acknowledgements head, (C.answer c ms).2 = some (.accepted acknowledgements head) ∧
      ∀ cs : List (ClaimedSyncMutation H), cs.map (·.mutation) = ms →
        validatePushResponse acknowledgements head cs = true

/-! ## Completions that go through -/

section

variable {head : Nat}

/-- The revisions of a valid answer are server revisions. -/
theorem revision_of_match :
    ∀ {prior : Nat} {as : List MutationAssignment} {cs : List (ClaimedSyncMutation H)},
      acknowledgementsMatch head prior as cs = true →
      ∀ a ∈ List.zipWith (fun a c => (⟨c, a.serverRevision⟩ : SyncMutationAcknowledgement H)) as cs,
        1 ≤ a.serverRevision ∧ a.serverRevision ≤ head
  | _, [], [], _, a, ha => by cases ha
  | _, [], _ :: _, h, _, _ => by cases h
  | _, _ :: _, [], h, _, _ => by cases h
  | _, x :: xs, c :: cs, h, a, ha => by
    simp only [acknowledgementsMatch, Bool.and_eq_true, decide_eq_true_eq, bne_iff_ne] at h
    rw [zipWith_cons_cons] at ha
    rcases mem_cons.mp ha with rfl | ha
    · exact ⟨Nat.one_le_iff_ne_zero.mpr h.1.1.1.2, h.1.1.2⟩
    · exact revision_of_match h.2 a ha

variable [DecidableEq H] {c : ClaimedSyncMutation H}

/-- A batch goes through when its claims hold their rows and name each row once. -/
theorem foldlM_of_held {α : Type} {settle : Store H → α → Except BusinessDatabaseError (Store H)}
    (claim : α → ClaimedSyncMutation H) {target : α → OutboxRow H → DeliveryState}
    (hone : ∀ {t t' : Store H} {a : α}, settle t a = .ok t' →
      SettlesOne owner (claim a) (target a) t t') :
    ∀ {batch : List α} {s : Store H},
      (∀ a ∈ batch, ∀ t : Store H, (t.heldRow owner (claim a)).isSome = true →
        ∃ t', settle t a = .ok t') →
      (batch.map (fun a => (claim a).mutation.mutationId)).Nodup →
      (∀ a ∈ batch, (s.heldRow owner (claim a)).isSome = true) →
      ∃ s', batch.foldlM settle s = .ok s'
  | [], s, _, _, _ => ⟨s, rfl⟩
  | a :: as, s, hsettle, hnodup, hheld => by
    obtain ⟨hfresh, hnodup'⟩ := nodup_cons.mp hnodup
    obtain ⟨t, ht⟩ := hsettle a mem_cons_self s (hheld a mem_cons_self)
    have hheld' : ∀ b ∈ as, (t.heldRow owner (claim b)).isSome = true := by
      intro b hb
      have hne : (claim b).mutation.mutationId ≠ (claim a).mutation.mutationId :=
        fun heq => hfresh (mem_map.mpr ⟨b, hb, heq⟩)
      rw [Store.heldRow, (hone ht).untouched _ hne]
      exact hheld b (mem_cons_of_mem _ hb)
    obtain ⟨s', hs'⟩ := foldlM_of_held claim hone
      (fun b hb => hsettle b (mem_cons_of_mem a hb)) hnodup' hheld'
    refine ⟨s', ?_⟩
    rw [foldlM_cons, ht]
    exact hs'

theorem acknowledgeOne_of_held {a : SyncMutationAcknowledgement H}
    (hid : validIdentifier a.claimed.mutation.mutationId = true)
    (hrevision : 1 ≤ a.serverRevision ∧ a.serverRevision ≤ maxSafeInteger)
    (h : (s.heldRow owner a.claimed).isSome = true) : ∃ s', acknowledgeOne owner s a = .ok s' := by
  obtain ⟨row, hrow⟩ := Option.isSome_iff_exists.mp h
  have hbound : ¬ (a.serverRevision < 1 ∨ maxSafeInteger < a.serverRevision) := by omega
  unfold acknowledgeOne
  simp only [hid, hrow, hbound, Bool.not_true, Bool.false_eq_true, if_false]
  exact ⟨_, rfl⟩

/-- The claims hold their rows, and name each row once. -/
structure Held (s : Store H) (owner : String) (cs : List (ClaimedSyncMutation H)) : Prop where
  length : cs.length ≤ maxMutationsPerPage
  ids : (cs.map (·.mutation.mutationId)).Nodup
  valid : ∀ c ∈ cs, validIdentifier c.mutation.mutationId = true
  held : ∀ c ∈ cs, (s.heldRow owner c).isSome = true

/-- The rows of `cs` get the states `target`, and no other row is touched. -/
structure Settles (s s' : Store H) (cs : List (ClaimedSyncMutation H))
    (target : ClaimedSyncMutation H → OutboxRow H → DeliveryState) : Prop where
  settled : ∀ c ∈ cs, SettledTo s s' c (target c)
  untouched : ∀ i, i ∉ cs.map (·.mutation.mutationId) → s'.outboxRow i = s.outboxRow i

namespace Held

variable {cs' : List (ClaimedSyncMutation H)}

theorem perm (h : Held s owner cs) (hp : cs.Perm cs') : Held s owner cs' where
  length := by rw [← hp.length_eq]; exact h.length
  ids := ((hp.map _).nodup_iff).mp h.ids
  valid := fun c hc => h.valid c (hp.mem_iff.mpr hc)
  held := fun c hc => h.held c (hp.mem_iff.mpr hc)

theorem sublist (h : Held s owner cs) (hsub : cs' <+ cs) : Held s owner cs' where
  length := hsub.length_le.trans h.length
  ids := (hsub.map _).nodup h.ids
  valid := fun c hc => h.valid c (hsub.subset hc)
  held := fun c hc => h.held c (hsub.subset hc)

/-- Settling the claims in front leaves the others their rows. -/
theorem rest (h : Held s owner (cs ++ cs'))
    (hother : ∀ i, i ∉ cs.map (·.mutation.mutationId) → t.outboxRow i = s.outboxRow i) :
    Held t owner cs' := by
  have hright := h.sublist (sublist_append_right cs cs')
  refine ⟨hright.length, hright.ids, hright.valid, fun c hc => ?_⟩
  have hids := h.ids
  rw [map_append, nodup_append] at hids
  have hnot : c.mutation.mutationId ∉ cs.map (·.mutation.mutationId) :=
    fun hmem => hids.2.2 _ hmem _ (mem_map_of_mem hc) rfl
  rw [Store.heldRow, hother _ hnot]
  exact hright.held c hc

variable (h : Held s owner cs) (hne : cs ≠ [])

include h hne

theorem guard :
    (cs.isEmpty || decide (256 < cs.length)) = false := by
  have hempty : cs.isEmpty = false := isEmpty_eq_false_iff.mpr hne
  have hlength : cs.length ≤ 256 := h.length
  simp [hempty, not_lt.mpr hlength]

theorem settle (target : OutboxRow H → DeliveryState) :
    ∃ s', settleAll (settleHeld target owner) s cs = .ok s' := by
  rw [settleAll, h.guard hne]
  refine foldlM_of_held id settleHeld_settles (fun c hc _ hheld => ?_) h.ids h.held
  obtain ⟨row, hrow⟩ := Option.isSome_iff_exists.mp hheld
  rw [id_eq] at hrow
  simp [settleHeld, h.valid c hc, hrow]

theorem defer (howner : validIdentifier owner = true)
    (now : Timestamp) :
    ∃ s', deferRetryableSyncBatch s owner cs now = .ok s' ∧
      Settles s s' cs fun _ => deferredState now := by
  obtain ⟨s', hs'⟩ := h.settle hne (deferredState now)
  have hdefer : deferRetryableSyncBatch s owner cs now = .ok s' := by
    rw [deferRetryableSyncBatch, howner]
    exact hs'
  obtain ⟨hsettled, hdone⟩ := deferRetryableSyncBatch_ok hdefer
  exact ⟨s', hdefer, hsettled, fun i hi => hdone.untouched hi⟩

theorem reject (howner : validIdentifier owner = true) :
    ∃ s', rejectSyncBatch s owner cs false = .ok s' ∧ Settles s s' cs fun _ _ => .rejected := by
  obtain ⟨s', hs'⟩ := h.settle hne (rejectedState false)
  have hreject : rejectSyncBatch s owner cs false = .ok s' := by
    rw [rejectSyncBatch, howner]
    exact hs'
  obtain ⟨hsettled, hdone⟩ := rejectSyncBatch_ok hreject
  exact ⟨s', hreject, hsettled, fun i hi => hdone.untouched hi⟩

end Held

/-- A valid answer to claims that hold their rows is carried out. -/
theorem Held.acknowledge {as : List MutationAssignment}
    (h : Held s owner cs) (hne : cs ≠ []) (howner : validIdentifier owner = true)
    (hvalid : validatePushResponse as head cs = true) :
    ∃ s', acknowledgeSyncBatch s owner
        (List.zipWith (fun a c => ⟨c, a.serverRevision⟩) as cs) = .ok s' ∧
      (∀ c ∈ cs, ∃ revision, SettledTo s s' c fun _ => .acknowledged revision) ∧
      ∀ i, i ∉ cs.map (·.mutation.mutationId) → s'.outboxRow i = s.outboxRow i := by
  simp only [validatePushResponse, Bool.and_eq_true, decide_eq_true_eq] at hvalid
  obtain ⟨⟨_, hhead⟩, hmatch⟩ := hvalid
  have hclaimed := map_claimed_zipWith (acknowledgementsMatch_length hmatch)
  generalize hbatch : List.zipWith (fun a c => (⟨c, a.serverRevision⟩ :
    SyncMutationAcknowledgement H)) as cs = batch at hclaimed
  have hmem : ∀ a ∈ batch, a.claimed ∈ cs := by
    intro a ha
    rw [← hclaimed]
    exact mem_map_of_mem ha
  have hlength : batch.length = cs.length := by
    rw [← hclaimed, length_map]
  have hguard : (batch.isEmpty || decide (256 < batch.length)) = false := by
    have hcs := h.guard hne
    rw [← hlength] at hcs
    have hempty : batch.isEmpty = cs.isEmpty := by
      rw [← hclaimed, isEmpty_map]
    rw [hempty]
    exact hcs
  have hids : (batch.map (fun a => a.claimed.mutation.mutationId)).Nodup := by
    have hnodup := h.ids
    rwa [← hclaimed, List.map_map] at hnodup
  have hone : ∀ a ∈ batch, ∀ t : Store H, (t.heldRow owner a.claimed).isSome = true →
      ∃ t', acknowledgeOne owner t a = .ok t' := by
    intro a ha t hheld
    have hrevision := revision_of_match hmatch a (by rw [hbatch]; exact ha)
    exact acknowledgeOne_of_held (h.valid _ (hmem a ha))
      ⟨hrevision.1, le_trans hrevision.2 hhead⟩ hheld
  obtain ⟨s', hs'⟩ := foldlM_of_held (·.claimed) acknowledgeOne_settles hone hids
    fun a ha => h.held _ (hmem a ha)
  have hack : acknowledgeSyncBatch s owner batch = .ok s' := by
    rw [acknowledgeSyncBatch, howner, settleAll, hguard]
    exact hs'
  obtain ⟨hsettled, hdone⟩ := acknowledgeSyncBatch_ok hack
  rw [hclaimed] at hdone
  refine ⟨s', hack, ?_, fun i hi => hdone.untouched hi⟩
  intro c hc
  rw [← hclaimed] at hc
  obtain ⟨a, ha, rfl⟩ := mem_map.mp hc
  exact ⟨a.serverRevision, hsettled a ha⟩

end

/-! ## One cycle -/

/-- How a cycle leaves a batch: the mutations of `done` are rejected if they are bad and
acknowledged if not, those of `later` wait for the next attempt, and no other row is
touched. -/
structure Resolved (bad : SubmittedSyncMutationWire → Prop) (now : Timestamp) (s s' : Store H)
    (done later : List (ClaimedSyncMutation H)) : Prop where
  rejected : ∀ c ∈ done, bad c.mutation → SettledTo s s' c fun _ => .rejected
  acknowledged : ∀ c ∈ done, ¬ bad c.mutation →
    ∃ revision, SettledTo s s' c fun _ => .acknowledged revision
  deferred : ∀ c ∈ later, SettledTo s s' c (deferredState now)
  untouched : ∀ i, i ∉ (done ++ later).map (·.mutation.mutationId) →
    s'.outboxRow i = s.outboxRow i

section

variable {done later : List (ClaimedSyncMutation H)}

theorem Resolved.nil (s : Store H) : Resolved bad now s s [] [] :=
  ⟨by simp, by simp, by simp, fun _ _ => rfl⟩

/-- A fragment is resolved before the rest of the stack. -/
theorem Resolved.append (hcs : Resolved bad now s t cs []) (h : Resolved bad now t s' done later)
    (hids : ((cs ++ (done ++ later)).map (·.mutation.mutationId)).Nodup) :
    Resolved bad now s s' (cs ++ done) later := by
  rw [map_append, nodup_append] at hids
  have hother : ∀ i, i ∉ cs.map (·.mutation.mutationId) → t.outboxRow i = s.outboxRow i := by
    intro i hi
    exact hcs.untouched i (by rwa [append_nil])
  have hafter : ∀ c ∈ cs,
      s'.outboxRow c.mutation.mutationId = t.outboxRow c.mutation.mutationId := by
    intro c hc
    exact h.untouched _ fun hmem => hids.2.2 _ (mem_map_of_mem hc) _ hmem rfl
  have hbefore : ∀ c ∈ done ++ later,
      t.outboxRow c.mutation.mutationId = s.outboxRow c.mutation.mutationId := by
    intro c hc
    exact hother _ fun hmem => hids.2.2 _ hmem _ (mem_map_of_mem hc) rfl
  refine ⟨?_, ?_, ?_, ?_⟩
  · intro c hc hbad
    rcases mem_append.mp hc with hc | hc
    · exact (hcs.rejected c hc hbad).after (hafter c hc)
    · exact (h.rejected c hc hbad).before (hbefore c (mem_append_left _ hc))
  · intro c hc hgood
    rcases mem_append.mp hc with hc | hc
    · obtain ⟨revision, hsettled⟩ := hcs.acknowledged c hc hgood
      exact ⟨revision, hsettled.after (hafter c hc)⟩
    · obtain ⟨revision, hsettled⟩ := h.acknowledged c hc hgood
      exact ⟨revision, hsettled.before (hbefore c (mem_append_left _ hc))⟩
  · intro c hc
    exact (h.deferred c hc).before (hbefore c (mem_append_right _ hc))
  · intro i hi
    rw [append_assoc, map_append, mem_append, not_or] at hi
    rw [h.untouched i hi.2, hother i hi.1]

/-- A stack whose fragments belong to one claim and are not empty. -/
structure Fragments (owner : String) (stack : List (DesktopSyncPushClaim H)) : Prop where
  owner : ∀ claim ∈ stack, claim.deliveryOwner = owner
  nonempty : ∀ claim ∈ stack, claim.claimed ≠ []

variable {unresolved : List (DesktopSyncPushClaim H)}

variable {claim : DesktopSyncPushClaim H}

theorem Fragments.split (h : Fragments owner (claim :: unresolved))
    (hmany : 1 < claim.claimed.length) :
    Fragments owner
      ((splitNativeSyncPush claim).1 :: (splitNativeSyncPush claim).2 :: unresolved) := by
  obtain ⟨howner, hrest⟩ := forall_mem_cons.mp h.owner
  obtain ⟨_, hunresolved⟩ := forall_mem_cons.mp h.nonempty
  refine ⟨forall_mem_cons.mpr ⟨howner, forall_mem_cons.mpr ⟨howner, hrest⟩⟩,
    forall_mem_cons.mpr ⟨ne_nil_of_length_pos ?_,
      forall_mem_cons.mpr ⟨ne_nil_of_length_pos ?_, hunresolved⟩⟩⟩
  · rw [splitNativeSyncPush, length_take]
    omega
  · rw [splitNativeSyncPush, length_drop]
    omega

theorem flatMap_split (claim : DesktopSyncPushClaim H)
    (unresolved : List (DesktopSyncPushClaim H)) :
    ((splitNativeSyncPush claim).1 :: (splitNativeSyncPush claim).2 :: unresolved).flatMap
      (·.claimed) = (claim :: unresolved).flatMap (·.claimed) := by
  simp only [flatMap_cons, splitNativeSyncPush, ← append_assoc, take_append_drop]

variable [DecidableEq H] {C : PushPort σ}

/-- Fragments that are not worked on go back to the outbox in one deferral. -/
theorem deferPushClaims_resolved (howner : validIdentifier owner = true)
    (hfragments : Fragments owner (claim :: unresolved))
    (hheld : Held s owner ((claim :: unresolved).flatMap (·.claimed))) :
    Resolved bad now s (deferPushClaims s now (claim :: unresolved)) []
      ((claim :: unresolved).flatMap (·.claimed)) := by
  have hperm : ((claim :: unresolved).flatMap (·.claimed)).Perm
      ((claim :: unresolved).reverse.flatMap (·.claimed)) :=
    (reverse_perm _).symm.flatMap_right _
  have hne : (claim :: unresolved).reverse.flatMap (·.claimed) ≠ [] := by
    intro hnil
    have hclaim := flatMap_eq_nil_iff.mp hnil claim
      (mem_reverse.mpr mem_cons_self)
    exact hfragments.nonempty claim mem_cons_self hclaim
  obtain ⟨s', hdefer, hsettles⟩ := (hheld.perm hperm).defer hne howner now
  have hresult : deferPushClaims s now (claim :: unresolved) = s' := by
    rw [deferPushClaims, hfragments.owner claim mem_cons_self, hdefer]
  rw [hresult]
  refine ⟨by simp, by simp, ?_, ?_⟩
  · exact fun c hc => hsettles.settled c (hperm.mem_iff.mp hc)
  · intro i hi
    refine hsettles.untouched i fun hmem => hi ?_
    rw [nil_append]
    exact ((hperm.map _).mem_iff).mpr hmem

section

variable (howner : validIdentifier claim.deliveryOwner = true)
  (hheld : Held s claim.deliveryOwner claim.claimed) (unresolved)

include howner hheld

/-- A fragment without a bad mutation is acknowledged. -/
theorem answerPush_accepted {as : List MutationAssignment} {head : Nat} (hne : claim.claimed ≠ [])
    (hvalid : validatePushResponse as head claim.claimed = true)
    (hgood : ∀ c ∈ claim.claimed, ¬ bad c.mutation) :
    ∃ t, answerPush s now claim unresolved (.accepted as head) = (t, some unresolved) ∧
      Resolved bad now s t claim.claimed [] := by
  obtain ⟨t, hack, hsettled, hother⟩ := hheld.acknowledge hne howner hvalid
  refine ⟨t, ?_, fun c hc hbad => absurd hbad (hgood c hc), fun c hc _ =>
    hsettled c hc, by simp, ?_⟩
  · simp only [answerPush, completeNativeSyncPush, hvalid, hack, Bool.not_true, Bool.false_eq_true,
      if_false]
  · rwa [append_nil]

/-- A bad mutation that is alone is rejected. -/
theorem answerPush_rejected {c : ClaimedSyncMutation H} (hone : claim.claimed = [c])
    (hbad : bad c.mutation) :
    ∃ t, answerPush s now claim unresolved (.rejected .inputRejected) = (t, some unresolved) ∧
      Resolved bad now s t claim.claimed [] := by
  obtain ⟨t, hreject, hsettles⟩ := hheld.reject (by simp [hone]) howner
  refine ⟨t, ?_, fun x hx _ => hsettles.settled x hx, ?_, by simp, ?_⟩
  · have hclose : closeOrIsolate s claim false = .ok (t, .deterministicRejected) := by
      rw [closeOrIsolate, if_neg (by simp [hone]), hreject]
    simp only [answerPush, completeNativeSyncPush, hclose]
  · intro x hx hgood
    rw [hone] at hx
    rw [mem_singleton.mp hx] at hgood
    exact absurd hbad hgood
  · rw [append_nil]
    exact hsettles.untouched

/-- What becomes of the fragment on top: it is cut in two, or resolved. -/
theorem exchange_cases (hC : Isolates H C bad) (hne : claim.claimed ≠ []) (now : Timestamp) (c : σ)
    :
    ∃ c' response, C.answer c claim.mutations = (c', some response) ∧
      (1 < claim.claimed.length ∧
          answerPush s now claim unresolved response =
            (s, some ((splitNativeSyncPush claim).1 ::
              (splitNativeSyncPush claim).2 :: unresolved)) ∨
        ∃ t, answerPush s now claim unresolved response = (t, some unresolved) ∧
          Resolved bad now s t claim.claimed []) := by
  by_cases hbad : ∃ m ∈ claim.mutations, bad m
  · refine ⟨_, _, Prod.ext rfl (hC.rejects c claim.mutations hbad), ?_⟩
    by_cases hmany : 1 < claim.claimed.length
    · refine .inl ⟨hmany, ?_⟩
      simp only [answerPush, completeNativeSyncPush, closeOrIsolate, if_pos hmany]
    · obtain ⟨x, hone⟩ : ∃ x, claim.claimed = [x] := by
        refine length_eq_one_iff.mp ?_
        have := length_pos_of_ne_nil hne
        omega
      have hx : bad x.mutation := by
        obtain ⟨m, hm, hmbad⟩ := hbad
        rw [DesktopSyncPushClaim.mutations, hone] at hm
        rwa [mem_singleton.mp hm] at hmbad
      exact .inr (answerPush_rejected unresolved howner hheld hone hx)
  · have hgood : ∀ m ∈ claim.mutations, ¬ bad m := fun m hm hb => hbad ⟨m, hm, hb⟩
    obtain ⟨as, head, hreply, hvalid⟩ := hC.accepts c claim.mutations hgood
      (by rw [DesktopSyncPushClaim.mutations, length_map]; exact hheld.length)
    exact ⟨_, _, Prod.ext rfl hreply, .inr (answerPush_accepted unresolved howner hheld hne
      (hvalid _ rfl) (fun x hx => hgood _ (mem_map_of_mem hx)))⟩

end

variable (now) in
/-- A stack is resolved from the left, and what is left over is deferred.  With `n + 1`
requests something is resolved if the fragment on top has at most `2 ^ n` mutations. -/
theorem runPushOver_resolved (hC : Isolates H C bad) (howner : validIdentifier owner = true)
    (n : Nat) : ∀ (c : σ) {s : Store H} {stack : List (DesktopSyncPushClaim H)},
      Fragments owner stack → Held s owner (stack.flatMap (·.claimed)) →
      ∃ done later, stack.flatMap (·.claimed) = done ++ later ∧
        Resolved bad now s (runPushOver C now n c s stack).2 done later ∧
        ∀ top rest m, stack = top :: rest → n = m + 1 → top.claimed.length ≤ 2 ^ m → done ≠ [] := by
  induction n with
  | zero =>
    intro c s stack hfragments hheld
    cases stack with
    | nil => exact ⟨[], [], rfl, .nil s, by rintro _ _ _ ⟨⟩⟩
    | cons claim rest =>
      exact ⟨[], _, rfl, deferPushClaims_resolved howner hfragments hheld, by rintro _ _ _ _ ⟨⟩⟩
  | succ n ih =>
    intro c s stack hfragments hheld
    cases stack with
    | nil => exact ⟨[], [], rfl, .nil s, by rintro _ _ _ ⟨⟩⟩
    | cons claim rest =>
      obtain rfl := hfragments.owner claim mem_cons_self
      have hne := hfragments.nonempty claim mem_cons_self
      rw [flatMap_cons] at hheld
      obtain ⟨c', response, hreply, hstep⟩ :=
        exchange_cases rest howner (hheld.sublist (sublist_append_left ..)) hC hne now c
      rcases hstep with ⟨hmany, hstep⟩ | ⟨t, hstep, htop⟩
      · obtain ⟨done, later, hsplit, hresolved, hprogress⟩ := ih c' (hfragments.split hmany)
          (by rw [flatMap_split, flatMap_cons]; exact hheld)
        rw [flatMap_split] at hsplit
        refine ⟨done, later, hsplit, ?_, ?_⟩
        · rw [runPushOver, hreply]
          simp only [hstep]
          exact hresolved
        · rintro _ _ m ⟨⟩ hm hlength
          -- a fragment of two or more is cut below the next power of two
          obtain ⟨k, rfl⟩ : ∃ k, m = k + 1 := by
            cases m with
            | zero => omega
            | succ k => exact ⟨k, rfl⟩
          refine hprogress _ _ k rfl (Nat.succ.inj hm) ?_
          simp only [splitNativeSyncPush, length_take]
          rw [Nat.pow_succ] at hlength
          omega
      · have hrest : Fragments claim.deliveryOwner rest :=
          ⟨(forall_mem_cons.mp hfragments.owner).2,
            (forall_mem_cons.mp hfragments.nonempty).2⟩
        have hother := htop.untouched
        rw [append_nil] at hother
        obtain ⟨done, later, hsplit, hresolved, _⟩ := ih c' hrest (hheld.rest hother)
        rw [hsplit] at hheld
        refine ⟨claim.claimed ++ done, later, ?_, ?_, ?_⟩
        · rw [flatMap_cons, hsplit, append_assoc]
        · rw [runPushOver, hreply]
          simp only [hstep]
          exact htop.append hresolved hheld.ids
        · exact fun _ _ _ _ _ _ => append_ne_nil_of_left_ne_nil hne _

end

/-! ## From the claim on -/

/-- Who runs a cycle, when it claims, and when it defers what is left over. -/
structure CycleTimes where
  deliveryOwner : String
  now : Timestamp
  deferredAt : Timestamp
deriving DecidableEq

/-- `SYNC_LEASE_SECONDS`. -/
def syncLeaseSeconds : Nat := 60

/-- `run_push`. -/
def pushCycle [DecidableEq H] (J : SerdeJson H) (P : Platform H) (C : PushPort σ)
    (times : CycleTimes) (c : σ) (s : Store H) : σ × Store H :=
  match claimSyncMutations J P s times.deliveryOwner times.now
    (times.now + syncLeaseSeconds) 256 with
  | .error _ => (c, s)
  | .ok (s', []) => (c, s')
  | .ok (s', claimed) => runPushOver C times.deferredAt 9 c s' [⟨claimed, times.deliveryOwner⟩]

/-- One cycle after the other. -/
def pushCycles [DecidableEq H] (J : SerdeJson H) (P : Platform H) (C : PushPort σ) :
    List CycleTimes → σ → Store H → σ × Store H
  | [], c, s => (c, s)
  | times :: rest, c, s =>
    pushCycles J P C rest (pushCycle J P C times c s).1 (pushCycle J P C times c s).2

section

variable [DecidableEq H] {lease : Timestamp} {limit : Nat}

section

variable (hs : s.UniqueMutationIds)
  (hvalid : ∀ row ∈ s.outbox, validIdentifier row.mutationId = true)
  (h : claimSyncMutations J P s owner now lease limit = .ok (s', cs))

include hs hvalid h

/-- A fresh claim holds its rows. -/
theorem Held.of_claim : Held s' owner cs := by
  have hlength := claimSyncMutations_length h hs
  obtain ⟨closed, taken, rest, hsplit, rfl, _, _, hclaims⟩ := claimSyncMutations_ok h hs
  have hnodup := hs.candidates limit
  rw [hsplit, map_append, map_append] at hnodup
  refine ⟨hlength, ?_, ?_, ?_⟩
  · rw [List.map_map]
    exact hnodup.of_append_left.of_append_right
  · intro c hc
    obtain ⟨row, hrow, rfl⟩ := mem_map.mp hc
    exact hvalid row (Store.mem_batch hsplit (mem_append_right _ hrow)).1
  · intro c hc
    obtain ⟨row, hrow, rfl⟩ := mem_map.mp hc
    have hlookup : s'.outboxRow (row.claimed P).mutation.mutationId =
        some (row.claim P owner lease) := hclaims.takenRow row hrow
    rw [Store.heldRow, hlookup]
    simp [OutboxRow.held, OutboxRow.claim, OutboxRow.claimed]

/-- A claimed batch after the nine requests of its cycle. -/
theorem runPushOver_claim {C : PushPort σ}
    (hC : Isolates H C bad) (hne : cs ≠ [])
    (deferredAt : Timestamp) (c : σ) :
    ∃ done later, cs = done ++ later ∧ done ≠ [] ∧
      Resolved bad deferredAt s' (runPushOver C deferredAt 9 c s' [⟨cs, owner⟩]).2 done later := by
  have hheld := Held.of_claim hs hvalid h
  have hfragments : Fragments owner [(⟨cs, owner⟩ : DesktopSyncPushClaim H)] :=
    ⟨forall_mem_singleton.mpr rfl, forall_mem_singleton.mpr hne⟩
  have hflat : [(⟨cs, owner⟩ : DesktopSyncPushClaim H)].flatMap (·.claimed) = cs := by
    rw [flatMap_cons, flatMap_nil, append_nil]
  obtain ⟨done, later, hsplit, hresolved, hprogress⟩ := runPushOver_resolved deferredAt hC
    (claimSyncMutations_guard h).1 9 c hfragments (by rw [hflat]; exact hheld)
  rw [hflat] at hsplit
  exact ⟨done, later, hsplit, hprogress _ _ 8 rfl rfl hheld.length, hresolved⟩

end

/-! ### A claim that cannot fail -/

/-- The row is not corrupted and may be attempted once more. -/
structure SoundRow (P : Platform H) (row : OutboxRow H) : Prop where
  digest : ∀ d, row.wireMutationDigest = some d → d = P.sha256 (.mutation row.mutation)
  attempts : row.attemptCount + 1 ≤ 1000000

theorem claimRows_sound : ∀ (rows : List (OutboxRow H)) (claimed : List (ClaimedSyncMutation H))
    (s : Store H), (∀ row ∈ rows, SoundRow P row) →
    ∃ res, claimRows J P owner now lease rows claimed s = .ok res
  | [], claimed, s, _ => ⟨(s, claimed), rfl⟩
  | row :: rows, claimed, s, h => by
    have hrow := h row mem_cons_self
    have hrest : ∀ r ∈ rows, SoundRow P r := (forall_mem_cons.mp h).2
    have hdigest : row.wireMutationDigest.any
        (fun d => decide (d ≠ P.sha256 (.mutation row.mutation))) = false := by
      rw [Option.any_eq_false]
      intro d hd
      simp [hrow.digest d hd]
    have hfence : ¬ maxSafeInteger < row.attemptCount + 1 := by
      have := hrow.attempts
      unfold maxSafeInteger
      omega
    unfold claimRows
    split
    · exact ⟨_, rfl⟩
    simp only [hdigest, Bool.false_eq_true, if_false, hfence]
    split
    · split
      · exact claimRows_sound rows _ _ hrest
      · exact ⟨_, rfl⟩
    · rw [if_neg (not_lt.mpr hrow.attempts)]
      exact claimRows_sound rows _ _ hrest

end

/-! ## Cycle after cycle -/

/-- The mutation has ended as it should. -/
structure Concluded (bad : SubmittedSyncMutationWire → Prop) (row : OutboxRow H) : Prop where
  rejected : bad row.mutation → row.state = .rejected
  acknowledged : ¬ bad row.mutation → ∃ revision, row.state = .acknowledged revision

theorem Concluded.isOpen (h : Concluded bad row) : row.isOpen = false := by
  by_cases hbad : bad row.mutation
  · rw [OutboxRow.isOpen, h.rejected hbad]
  · obtain ⟨revision, hstate⟩ := h.acknowledged hbad
    rw [OutboxRow.isOpen, hstate]

/-- An outbox that can be sent at `now`: one stream, every open row is due, intact and fits
a request.  `attempts` bounds how often a row was tried: a row gets one more attempt only
while it is among the first 256 open ones, and each cycle closes the first. -/
structure Sendable (J : SerdeJson H) (P : Platform H) (deviceId : String) (attempts : Nat)
    (now : Timestamp) (s : Store H) : Prop where
  numbered : Numbered deviceId s
  upwards : OpenUpwards s
  valid : ∀ row ∈ s.outbox, validIdentifier row.mutationId = true
  due : ∀ row ∈ s.outbox, row.isOpen = true → row.due now = true
  digest : ∀ row ∈ s.outbox, ∀ d, row.wireMutationDigest = some d →
    d = P.sha256 (.mutation row.mutation)
  fits : ∀ row ∈ s.outbox, row.isOpen = true →
    J.pushRequest [row.mutation] ≤ maxSyncPushRequestBytes
  tried : ∀ row ∈ s.outbox, ∀ first ∈ s.outbox, row.isOpen = true → first.isOpen = true →
    row.attemptCount ≤ attempts ∨
      row.attemptCount + row.mutation.deviceMutationSequence ≤
        attempts + 256 + first.mutation.deviceMutationSequence

theorem Sendable.sound (h : Sendable J P deviceId attempts now s)
    (hattempts : attempts + 257 ≤ 1000000) (hrow : row ∈ s.outbox)
    (hopen : row.isOpen = true) : SoundRow P row where
  digest := h.digest row hrow
  attempts := by
    have := h.tried row hrow row hrow hopen hopen
    omega

/-- What a cycle makes of the outbox: the first open rows are done, the ones after them
were tried once more, the others are as they were. -/
structure CycleEffect (bad : SubmittedSyncMutationWire → Prop) (P : Platform H) (times : CycleTimes)
    (done later : List (OutboxRow H)) (s s' : Store H) : Prop where
  update : DeliveryUpdate s s'
  front : (done ++ later) <+: s.candidates 256
  progress : s.candidates 256 ≠ [] → done ≠ []
  doneRow : ∀ row ∈ done, ∃ row', s'.outboxRow row.mutationId = some row' ∧
    row'.mutation = row.mutation ∧
    row'.wireMutationDigest = some (P.sha256 (.mutation row.mutation)) ∧ Concluded bad row'
  laterRow : ∀ row ∈ later, s'.outboxRow row.mutationId =
    some { row.claim P times.deliveryOwner (times.now + syncLeaseSeconds) with
      state := .pending (some (times.deferredAt + deferralDelay (row.attemptCount + 1))) }
  untouched : ∀ i, i ∉ (done ++ later).map OutboxRow.mutationId → s'.outboxRow i = s.outboxRow i

/-! ### The outbox after a cycle -/

namespace CycleEffect

variable {times : CycleTimes} {done later : List (OutboxRow H)}

variable (h : CycleEffect bad P times done later s s')

include h

theorem mem_outbox (hrow : row ∈ done ++ later) : row ∈ s.outbox ∧ row.isOpen = true :=
  Store.mem_candidates (h.front.subset hrow)

/-- The three ways of a row through a cycle. -/
theorem row_cases (hs : s.UniqueMutationIds)
    {row row' : OutboxRow H} (hrow : row ∈ s.outbox) (hrow' : row' ∈ s'.outbox)
    (heq : row'.mutation = row.mutation) :
    (row ∈ done ∧ row'.wireMutationDigest = some (P.sha256 (.mutation row.mutation)) ∧
        Concluded bad row') ∨
      (row ∈ later ∧ row' = { row.claim P times.deliveryOwner (times.now + syncLeaseSeconds) with
        state := .pending (some (times.deferredAt + deferralDelay (row.attemptCount + 1))) }) ∨
      (row ∉ done ++ later ∧ row' = row) := by
  have hlookup := lookup_of_update h.update hs hrow' heq
  by_cases hdone : row ∈ done
  · obtain ⟨r, hr, _, hdigest, hsettled⟩ := h.doneRow row hdone
    rw [hr] at hlookup
    cases hlookup
    exact .inl ⟨hdone, hdigest, hsettled⟩
  by_cases hlater : row ∈ later
  · rw [h.laterRow row hlater] at hlookup
    exact .inr (.inl ⟨hlater, (Option.some.inj hlookup).symm⟩)
  have hnot : row.mutationId ∉ (done ++ later).map OutboxRow.mutationId := by
    intro hmem
    obtain ⟨r, hr, hid⟩ := mem_map.mp hmem
    rw [hs.row_eq (h.mem_outbox hr).1 hrow hid] at hr
    exact (mem_append.mp hr).elim hdone hlater
  rw [h.untouched _ hnot, hs.lookup hrow] at hlookup
  exact .inr (.inr ⟨by simp [hdone, hlater], (Option.some.inj hlookup).symm⟩)

theorem closes (hs : s.UniqueMutationIds) :
    Closes s s' (done.map OutboxRow.mutation) where
  update := h.update
  open_iff := by
    intro row hrow row' hrow' heq
    have hnodup : ((done ++ later).map OutboxRow.mutationId).Nodup :=
      (hs.candidates 256).sublist (h.front.sublist.map _)
    have hmem : row.mutation ∈ done.map OutboxRow.mutation ↔ row ∈ done := by
      refine ⟨fun hm => ?_, fun hr => mem_map_of_mem hr⟩
      obtain ⟨r, hr, hrm⟩ := mem_map.mp hm
      have hmem := (h.mem_outbox (mem_append_left _ hr)).1
      rwa [← hs.row_eq hmem hrow (congrArg (·.mutationId) hrm)]
    rw [hmem]
    rcases h.row_cases hs hrow hrow' heq with ⟨hdone, _, hsettled⟩ | ⟨hlater, rfl⟩ | ⟨hnot, rfl⟩
    · rw [hsettled.isOpen]
      simp [hdone]
    · have hopen := (h.mem_outbox (mem_append_right _ hlater)).2
      have hnot : row ∉ done := by
        intro hdone
        rw [map_append, nodup_append] at hnodup
        exact hnodup.2.2 _ (mem_map_of_mem hdone) _ (mem_map_of_mem hlater) rfl
      exact ⟨fun _ => ⟨hopen, hnot⟩, fun _ => rfl⟩
    · exact ⟨fun hopen => ⟨hopen, fun hd => hnot (mem_append_left _ hd)⟩, And.left⟩

end CycleEffect

/-- A stretch of the stream is no longer than its numbers. -/
theorem lt_of_isChain_follows {x y : SubmittedSyncMutationWire} :
    ∀ {ms : List SubmittedSyncMutationWire}, ms.IsChain Follows → x ∈ ms.head? → y ∈ ms →
      y.deviceMutationSequence < x.deviceMutationSequence + ms.length
  | [], _, hx, _ => by cases hx
  | [z], _, hx, hy => by
    cases hx
    rw [mem_singleton.mp hy, length_singleton]
    omega
  | z :: w :: ms, hchain, hx, hy => by
    cases hx
    obtain ⟨hzw, hrest⟩ := isChain_cons_cons.mp hchain
    rw [length_cons]
    rcases mem_cons.mp hy with rfl | hy
    · omega
    · have hlt := lt_of_isChain_follows hrest (x := w) rfl hy
      unfold Follows at hzw
      omega

theorem OutboxRow.due_mono {now later : Timestamp} (h : row.due now = true)
    (hle : now ≤ later) : row.due later = true := by
  unfold OutboxRow.due at h ⊢
  split at h
  next next _ =>
    cases next with
    | none => rfl
    | some deadline =>
      rw [Option.all_some, decide_eq_true_eq] at h ⊢
      exact le_trans h hle
  next =>
    rw [decide_eq_true_eq] at h ⊢
    exact le_trans h hle
  all_goals cases h

theorem deferralDelay_le (n : Nat) : deferralDelay n ≤ 300 := min_le_right _ _

section

variable {times : CycleTimes} {later : Timestamp} {done rest : List (OutboxRow H)}

theorem Sendable.mono (h : Sendable J P deviceId attempts now s) (hle : now ≤ later) :
    Sendable J P deviceId attempts later s :=
  { h with due := fun row hrow hopen => OutboxRow.due_mono (h.due row hrow hopen) hle }

section

variable (h : Sendable J P deviceId attempts times.now s)
  (he : CycleEffect bad P times done rest s s')

include h he

/-- A row that is put back was less than 256 places behind the head of the batch, and
every row that is still open is behind that head. -/
theorem Sendable.row_behind {row first : OutboxRow H} (hrow : row ∈ rest)
    (hfirst : first ∈ s.outbox) (hopen : first.isOpen = true)
    (hnot : first.mutation ∉ done.map OutboxRow.mutation) :
    ∃ head ∈ s.outbox, head.isOpen = true ∧
      row.mutation.deviceMutationSequence < head.mutation.deviceMutationSequence + 256 ∧
      head.mutation.deviceMutationSequence < first.mutation.deviceMutationSequence := by
  have hfront := Front.candidates h.numbered h.upwards 256
  have hcandidate := he.front.subset (mem_append_right done hrow)
  obtain ⟨head, done', rfl⟩ :=
    exists_cons_of_ne_nil (he.progress (ne_nil_of_mem hcandidate))
  obtain ⟨tail, htail⟩ := he.front
  have hhead : head.mutation ∈ ((s.candidates 256).map OutboxRow.mutation).head? := by
    rw [← htail]
    rfl
  have hheadrow := he.mem_outbox (mem_append_left rest (mem_cons_self : head ∈ head :: done'))
  have hlength : ((s.candidates 256).map OutboxRow.mutation).length ≤ 256 := by
    rw [length_map, Store.candidates, length_take]
    exact min_le_left _ _
  refine ⟨head, hheadrow.1, hheadrow.2, ?_, ?_⟩
  · have hlt := lt_of_isChain_follows hfront.stream hhead (mem_map_of_mem hcandidate)
    omega
  · have hle : ¬ first.mutation.deviceMutationSequence < head.mutation.deviceMutationSequence := by
      intro hlt
      have hclosed := hfront.front _ hhead first hfirst hlt
      rw [hopen] at hclosed
      cases hclosed
    have hne : first.mutation.deviceMutationSequence ≠ head.mutation.deviceMutationSequence := by
      intro hseq
      refine hnot ?_
      rw [h.numbered.eq_of_sequence (mem_map_of_mem hfirst)
        (mem_map_of_mem hheadrow.1) hseq]
      exact mem_cons_self
    omega

/-- After a cycle the outbox can be sent again once the deferrals are over. -/
theorem Sendable.next (hnow : times.now ≤ times.deferredAt + 300) :
    Sendable J P deviceId attempts (times.deferredAt + 300) s' := by
  have hs := h.numbered.unique
  have hcloses := he.closes hs
  have hfront := Front.candidates h.numbered h.upwards 256
  obtain ⟨tail, htail⟩ := he.front
  rw [← htail, map_append, map_append] at hfront
  -- an open row was open before
  have hbefore : ∀ row' ∈ s'.outbox, row'.isOpen = true →
      ∃ row ∈ s.outbox, row'.mutation = row.mutation ∧ row.isOpen = true := by
    intro row' hrow' hopen
    obtain ⟨row, hrow, heq⟩ := he.update.row_before hrow'
    exact ⟨row, hrow, heq, ((hcloses.open_iff row hrow row' hrow' heq).mp hopen).1⟩
  refine
    { numbered := h.numbered.update he.update
      upwards := h.upwards.closes h.numbered hfront.left.left hcloses
      valid := ?_, due := ?_, digest := ?_, fits := ?_, tried := ?_ }
  · intro row' hrow'
    obtain ⟨row, hrow, heq⟩ := he.update.row_before hrow'
    rw [show row'.mutationId = row.mutationId from congrArg (·.mutationId) heq]
    exact h.valid row hrow
  · intro row' hrow' hopen
    obtain ⟨row, hrow, heq, hopen'⟩ := hbefore row' hrow' hopen
    rcases he.row_cases hs hrow hrow' heq with ⟨_, _, hsettled⟩ | ⟨_, rfl⟩ | ⟨_, rfl⟩
    · rw [hsettled.isOpen] at hopen
      cases hopen
    · have hdelay := deferralDelay_le (row.attemptCount + 1)
      exact decide_eq_true (Nat.add_le_add_left hdelay times.deferredAt)
    · exact OutboxRow.due_mono (h.due _ hrow hopen') hnow
  · intro row' hrow' d hd
    obtain ⟨row, hrow, heq⟩ := he.update.row_before hrow'
    rw [heq]
    rcases he.row_cases hs hrow hrow' heq with ⟨_, hdigest, _⟩ | ⟨_, rfl⟩ | ⟨_, rfl⟩
    · rw [hdigest] at hd
      exact (Option.some.inj hd).symm
    · exact (Option.some.inj hd).symm
    · exact h.digest _ hrow d hd
  · intro row' hrow' hopen
    obtain ⟨row, hrow, heq, hopen'⟩ := hbefore row' hrow' hopen
    rw [heq]
    exact h.fits row hrow hopen'
  · intro row' hrow' first' hfirst' hopen hfirst
    obtain ⟨row, hrow, heq, hopen'⟩ := hbefore row' hrow' hopen
    obtain ⟨first, hmem, heq'⟩ := he.update.row_before hfirst'
    have hnot := (hcloses.open_iff first hmem first' hfirst' heq').mp hfirst
    rcases he.row_cases hs hrow hrow' heq with ⟨_, _, hsettled⟩ | ⟨hrest, rfl⟩ | ⟨_, rfl⟩
    · rw [hsettled.isOpen] at hopen
      cases hopen
    · -- the row was behind the head of the batch, which is closed now
      obtain ⟨head, hhead, hheadopen, hrowlt, hfirstlt⟩ := h.row_behind he hrest hmem hnot.1 hnot.2
      have htried := h.tried row hrow head hhead hopen' hheadopen
      rw [heq']
      show row.attemptCount + 1 ≤ attempts ∨
        row.attemptCount + 1 + row.mutation.deviceMutationSequence ≤ _
      omega
    · rw [heq']
      exact h.tried _ hrow first hmem hopen' hnot.1

end

/-- The mutations that are still open. -/
def openMutations (s : Store H) : List SubmittedSyncMutationWire :=
  (s.outbox.filter OutboxRow.isOpen).map OutboxRow.mutation

theorem openMutations_nodup (hs : s.UniqueMutationIds) : (openMutations s).Nodup := by
  have hids := hs.sublist ((filter_sublist (p := OutboxRow.isOpen)).map OutboxRow.mutationId)
  rw [show OutboxRow.mutationId (H := H) = (·.mutationId) ∘ OutboxRow.mutation from rfl,
    ← List.map_map] at hids
  exact hids.of_map

theorem Closes.openMutations_subset {ms : List SubmittedSyncMutationWire} (h : Closes s s' ms) :
    openMutations s' ⊆ openMutations s := by
  intro m hm
  obtain ⟨row', hrow', rfl⟩ := mem_map.mp hm
  obtain ⟨hrow', hopen'⟩ := mem_filter.mp hrow'
  obtain ⟨row, hrow, heq⟩ := h.update.row_before hrow'
  have hwas := ((h.open_iff row hrow row' hrow' heq).mp hopen').1
  rw [heq]
  exact mem_map_of_mem (mem_filter.mpr ⟨hrow, hwas⟩)

/-- A cycle closes at least one row, if one is open. -/
theorem CycleEffect.length_lt (he : CycleEffect bad P times done rest s s')
    (hs : s.UniqueMutationIds) (hopen : s.candidates 256 ≠ []) :
    (openMutations s').length < (openMutations s).length := by
  obtain ⟨head, done', rfl⟩ := exists_cons_of_ne_nil (he.progress hopen)
  have hcloses := he.closes hs
  have hhead := he.mem_outbox (mem_append_left rest (mem_cons_self : head ∈ head :: done'))
  have hnodup := openMutations_nodup (he.update.uniqueMutationIds hs)
  have hfirst : head.mutation ∉ openMutations s' := by
    intro hmem
    obtain ⟨row', hrow', heq⟩ := mem_map.mp hmem
    obtain ⟨hrow', hopen'⟩ := mem_filter.mp hrow'
    exact ((hcloses.open_iff head hhead.1 row' hrow' heq).mp hopen').2 mem_cons_self
  have hsubset : head.mutation :: openMutations s' ⊆ openMutations s :=
    cons_subset.mpr ⟨mem_map_of_mem (mem_filter.mpr hhead),
      hcloses.openMutations_subset⟩
  exact (subperm_of_subset (nodup_cons.mpr ⟨hfirst, hnodup⟩) hsubset).length_le

end

section

variable [DecidableEq H] {C : PushPort σ}

theorem runPushOver_update (now : Timestamp) (n : Nat) (c : σ) (s : Store H)
    (stack : List (DesktopSyncPushClaim H)) :
    DeliveryUpdate s (runPushOver C now n c s stack).2 := by
  induction n generalizing c s stack with
  | zero =>
    cases stack with
    | nil => exact .refl s
    | cons claim rest => exact deferPushClaims_update s now (claim :: rest)
  | succ n ih =>
    cases stack with
    | nil => exact .refl s
    | cons claim rest =>
      rw [runPushOver]
      split
      · exact deferPushClaims_update s now (claim :: rest)
      next response _ =>
      have hone := answerPush_update s now claim rest response
      split
      next heq => rw [heq] at hone; exact hone
      next heq => rw [heq] at hone; exact hone.trans (ih _ _ _)

namespace Sendable

variable {times : CycleTimes}

variable (h : Sendable J P deviceId attempts times.now s) (hattempts : attempts + 257 ≤ 1000000)
  (howner : validIdentifier times.deliveryOwner = true)

include h hattempts howner

/-- A claim on a sendable outbox takes the first open rows and closes none. -/
theorem claim :
    ∃ s₁ taken,
      claimSyncMutations J P s times.deliveryOwner times.now (times.now + syncLeaseSeconds) 256 =
        .ok (s₁, taken.map (·.claimed P)) ∧
      taken <+: s.candidates 256 ∧ (s.candidates 256 ≠ [] → taken ≠ []) ∧
      ClaimedRows P times.deliveryOwner times.now (times.now + syncLeaseSeconds) [] taken s s₁ := by
  have hsound : ∀ row ∈ s.candidates 256, SoundRow P row := by
    intro row hrow
    obtain ⟨hmem, hopen⟩ := Store.mem_candidates hrow
    exact h.sound hattempts hmem hopen
  have hclaim :
      claimSyncMutations J P s times.deliveryOwner times.now (times.now + syncLeaseSeconds) 256 =
      claimRows J P times.deliveryOwner times.now (times.now + syncLeaseSeconds) (s.candidates 256)
        [] s := by
    have hlease : ¬ times.now + syncLeaseSeconds ≤ times.now :=
      not_le.mpr (Nat.lt_add_of_pos_right (by decide))
    unfold claimSyncMutations
    rw [if_neg (by simp [howner, hlease])]
    rfl
  obtain ⟨⟨s₁, cs⟩, hrows⟩ : ∃ res, claimSyncMutations J P s times.deliveryOwner times.now
      (times.now + syncLeaseSeconds) 256 = .ok res := by
    rw [hclaim]
    exact claimRows_sound _ _ _ hsound
  obtain ⟨closed, taken, rest, hsplit, rfl, hoversized, hstop, hclaims⟩ :=
    claimSyncMutations_ok hrows h.numbered.unique
  -- every open row fits a request, so none is closed
  have hclosed : closed = [] := by
    refine eq_nil_iff_forall_not_mem.mpr fun row hrow => ?_
    obtain ⟨hmem, hopen⟩ := Store.mem_batch hsplit (mem_append_left _ hrow)
    exact absurd (hoversized row hrow) (not_lt.mpr (h.fits row hmem hopen))
  subst hclosed
  refine ⟨s₁, taken, hrows, ⟨rest, hsplit.symm⟩, ?_, hclaims⟩
  -- every open row is due, so the claim does not stop in front of the first
  rintro hne rfl
  obtain ⟨row, rows, hcandidates⟩ := exists_cons_of_ne_nil hne
  obtain rfl : rest = row :: rows := hsplit.symm.trans hcandidates
  have hcandidate : row ∈ s.candidates 256 := by
    rw [hcandidates]
    exact mem_cons_self
  obtain ⟨hmem, hopen⟩ := Store.mem_candidates hcandidate
  have hdue := h.due row hmem hopen
  rw [hstop rfl row rfl] at hdue
  cases hdue

/-- One cycle on a sendable outbox. -/
theorem cycle (hC : Isolates H C bad) (c : σ) :
    ∃ done later, CycleEffect bad P times done later s (pushCycle J P C times c s).2 := by
  obtain ⟨s₁, taken, hclaim, hstart, hprogress, hclaims⟩ := h.claim hattempts howner
  have hupdate := claimSyncMutations_update hclaim
  rcases eq_nil_or_concat taken with rfl | hcons
  · refine ⟨[], [], ?_⟩
    have hcycle : pushCycle J P C times c s = (c, s₁) := by
      unfold pushCycle
      rw [hclaim]
      rfl
    rw [hcycle]
    exact ⟨hupdate, hstart, hprogress, fun _ hrow => absurd hrow not_mem_nil,
      fun _ hrow => absurd hrow not_mem_nil, hclaims.untouched⟩
  · have hne : taken.map (·.claimed P) ≠ [] := by
      obtain ⟨xs, x, rfl⟩ := hcons
      simp
    obtain ⟨done', later', hsplit, hdone', hresolved⟩ :=
      runPushOver_claim h.numbered.unique h.valid hclaim hC hne times.deferredAt c
    obtain ⟨done, later, rfl, rfl, rfl⟩ := map_eq_append_iff.mp hsplit
    have hcycle : (pushCycle J P C times c s).2 =
        (runPushOver C times.deferredAt 9 c s₁ [⟨(done ++ later).map (·.claimed P),
          times.deliveryOwner⟩]).2 := by
      unfold pushCycle
      rw [hclaim]
      split
      next heq => cases heq
      next heq => exact absurd (Prod.mk.inj (Except.ok.inj heq)).2 hne
      next heq => cases heq; rfl
    have hupdate' := hupdate.trans (runPushOver_update (C := C) times.deferredAt 9 c s₁
      [⟨(done ++ later).map (·.claimed P), times.deliveryOwner⟩])
    rw [← hcycle] at hresolved hupdate'
    generalize (pushCycle J P C times c s).2 = s₂ at hresolved hupdate'
    -- a row of the claim, before and after the cycle
    have hrow : ∀ {row target}, row ∈ done ++ later → SettledTo s₁ s₂ (row.claimed P) target →
        s₂.outboxRow row.mutationId =
          some { row.claim P times.deliveryOwner (times.now + syncLeaseSeconds) with
            state := target (row.claim P times.deliveryOwner (times.now + syncLeaseSeconds)) } := by
      rintro row target hmem ⟨r, hr, hr'⟩
      have hlookup : s₁.outboxRow (row.claimed P).mutation.mutationId = _ :=
        hclaims.takenRow row hmem
      rw [hlookup] at hr
      cases hr
      exact hr'
    refine ⟨done, later, ?_⟩
    refine ⟨hupdate', hstart, ?_, ?_, ?_, ?_⟩
    · intro _ hnil
      exact hdone' (by rw [hnil]; rfl)
    · intro row hmem
      have hmem' : row ∈ done ++ later := mem_append_left _ hmem
      by_cases hbad : bad row.mutation
      · have hsettled := hresolved.rejected _ (mem_map_of_mem hmem) hbad
        exact ⟨_, hrow hmem' hsettled, rfl, rfl, fun _ => rfl, fun hgood => absurd hbad hgood⟩
      · obtain ⟨revision, hsettled⟩ :=
          hresolved.acknowledged _ (mem_map_of_mem hmem) hbad
        exact ⟨_, hrow hmem' hsettled, rfl, rfl, fun hb => absurd hb hbad, fun _ => ⟨revision, rfl⟩⟩
    · intro row hmem
      exact hrow (mem_append_right _ hmem) (hresolved.deferred _ (mem_map_of_mem hmem))
    · intro i hi
      rw [hresolved.untouched i, hclaims.untouched i hi]
      rwa [← map_append, List.map_map]

end Sendable

/-- Cycles one after the other, each when the deferrals of the one before are over. -/
def Spaced : Timestamp → List CycleTimes → Prop
  | _, [] => True
  | start, times :: rest =>
    start ≤ times.now ∧ times.now ≤ times.deferredAt ∧ validIdentifier times.deliveryOwner = true ∧
      Spaced (times.deferredAt + 300) rest

instance decSpaced : ∀ (start : Timestamp) (cycles : List CycleTimes),
    Decidable (Spaced start cycles)
  | _, [] => isTrue trivial
  | start, times :: rest =>
    haveI := decSpaced (times.deferredAt + 300) rest
    inferInstanceAs (Decidable (start ≤ times.now ∧ times.now ≤ times.deferredAt ∧
      validIdentifier times.deliveryOwner = true ∧ Spaced (times.deferredAt + 300) rest))

/-- With a cycle for each open row, every open row ends as it should, and no other row is
touched. -/
theorem pushCycles_settles (hC : Isolates H C bad) (hattempts : attempts + 257 ≤ 1000000) :
    ∀ {cycles : List CycleTimes} {start : Timestamp} {s : Store H} (c : σ),
      Sendable J P deviceId attempts start s → Spaced start cycles →
      (openMutations s).length ≤ cycles.length → ∀ row ∈ s.outbox,
        ∃ row', (pushCycles J P C cycles c s).2.outboxRow row.mutationId = some row' ∧
          row'.mutation = row.mutation ∧ (row.isOpen = false → row' = row) ∧
          (row.isOpen = true → Concluded bad row')
  | [], start, s, c, h, _, hcount, row, hrow => by
    refine ⟨row, h.numbered.unique.lookup hrow, rfl, fun _ => rfl, fun hopen => ?_⟩
    have hmem : row.mutation ∈ openMutations s :=
      mem_map_of_mem (mem_filter.mpr ⟨hrow, hopen⟩)
    rw [length_eq_zero_iff.mp (Nat.le_zero.mp hcount)] at hmem
    cases hmem
  | times :: rest, start, s, c, h, ⟨hstart, hnow, howner, hspaced⟩, hcount, row, hrow => by
    have hs := h.numbered.unique
    obtain ⟨done, later, he⟩ := (h.mono hstart).cycle hattempts howner hC c
    have hnext := (h.mono hstart).next he (le_trans hnow (Nat.le_add_right _ _))
    have hcount' : (openMutations (pushCycle J P C times c s).2).length ≤ rest.length := by
      rw [length_cons] at hcount
      by_cases hopen : s.candidates 256 = []
      · -- nothing is open, so nothing is afterwards
        rw [h.numbered.candidates, take_eq_nil_iff] at hopen
        have hnone : openMutations s = [] := by
          rw [openMutations, hopen.resolve_left (by decide), map_nil]
        have hsubset := (he.closes hs).openMutations_subset
        rw [hnone] at hsubset
        rw [subset_nil.mp hsubset]
        exact Nat.zero_le _
      · have hlt := he.length_lt hs hopen
        omega
    have hmem : row.mutation ∈ (pushCycle J P C times c s).2.outbox.map OutboxRow.mutation := by
      rw [he.update.mutations]
      exact mem_map_of_mem hrow
    obtain ⟨row₁, hrow₁, heq₁⟩ := mem_map.mp hmem
    have hid : row₁.mutationId = row.mutationId := congrArg (·.mutationId) heq₁
    obtain ⟨row', hrow', heq', hkept, hsettled⟩ :=
      pushCycles_settles hC hattempts (pushCycle J P C times c s).1 hnext hspaced hcount' row₁ hrow₁
    rw [hid] at hrow'
    refine ⟨row', hrow', heq'.trans heq₁, ?_, ?_⟩
    · intro hclosed
      rcases he.row_cases hs hrow hrow₁ heq₁ with ⟨hdone, _⟩ | ⟨hlater, _⟩ | ⟨_, rfl⟩
      · rw [(he.mem_outbox (mem_append_left _ hdone)).2] at hclosed
        cases hclosed
      · rw [(he.mem_outbox (mem_append_right _ hlater)).2] at hclosed
        cases hclosed
      · exact hkept hclosed
    · intro hopen
      by_cases hopen₁ : row₁.isOpen = true
      · exact hsettled hopen₁
      · rw [Bool.not_eq_true] at hopen₁
        rcases he.row_cases hs hrow hrow₁ heq₁ with ⟨_, _, hdone⟩ | ⟨_, rfl⟩ | ⟨_, rfl⟩
        · rw [hkept hopen₁]
          exact hdone
        · cases hopen₁
        · rw [hopen] at hopen₁
          cases hopen₁

end

/-- Any cloud and any set of mutations it does not take: a cycle ends with a first part of
its batch resolved and the rest deferred, and cycle after cycle the whole outbox is. -/
theorem push_isolation [DecidableEq H] (J : SerdeJson H) (P : Platform H) (C : PushPort σ)
    (bad : SubmittedSyncMutationWire → Prop) (hC : Isolates H C bad) :
    (∀ (s s' : Store H) (owner : String) (now lease : Timestamp) (limit : Nat)
        (cs : List (ClaimedSyncMutation H)) (deferredAt : Timestamp) (c : σ),
      s.UniqueMutationIds → (∀ row ∈ s.outbox, validIdentifier row.mutationId = true) →
      claimSyncMutations J P s owner now lease limit = .ok (s', cs) → cs ≠ [] →
      ∃ done later, cs = done ++ later ∧ done ≠ [] ∧
        Resolved bad deferredAt s' (runPushOver C deferredAt 9 c s' [⟨cs, owner⟩]).2 done later) ∧
    (∀ (s : Store H) (deviceId : String) (attempts : Nat) (start : Timestamp)
        (cycles : List CycleTimes) (c : σ),
      Sendable J P deviceId attempts start s → attempts + 257 ≤ 1000000 → Spaced start cycles →
      (openMutations s).length ≤ cycles.length → ∀ row ∈ s.outbox,
        ∃ row', (pushCycles J P C cycles c s).2.outboxRow row.mutationId = some row' ∧
          row'.mutation = row.mutation ∧ (row.isOpen = false → row' = row) ∧
          (row.isOpen = true → Concluded bad row')) :=
  ⟨fun _ _ _ _ _ _ _ deferredAt c hs hvalid h hne =>
    runPushOver_claim hs hvalid h hC hne deferredAt c, fun _ _ _ _ _ c h hattempts hspaced hcount =>
      pushCycles_settles hC hattempts c h hspaced hcount⟩

/-! ### A sample -/

/-- The acknowledgements of a cloud that numbers each request from 1 on. -/
def sampleAcknowledgements : Nat → List SubmittedSyncMutationWire → List MutationAssignment
  | _, [] => []
  | n, m :: ms =>
    ⟨m.mutationId, m.deviceMutationSequence, n + 1, false⟩ :: sampleAcknowledgements (n + 1) ms

/-- A cloud that does not take the mutation `bad`. -/
def sampleCloud : PushPort Unit where
  answer _ ms :=
    if ms.any (fun m => m.mutationId == "bad") then ((), some (.rejected .inputRejected))
    else ((), some (.accepted (sampleAcknowledgements 0 ms) ms.length))

theorem sampleAcknowledgements_match {head n : Nat}
    (h : n + cs.length ≤ head) :
    acknowledgementsMatch head n (sampleAcknowledgements n (cs.map (·.mutation))) cs = true := by
  induction cs generalizing n with
  | nil => rfl
  | cons c cs ih =>
    rw [length_cons] at h
    have hrest := ih (n := n + 1) (by omega)
    simp only [map_cons, sampleAcknowledgements, acknowledgementsMatch, hrest]
    simp only [decide_true, Bool.and_true, Bool.true_and, Bool.and_eq_true, decide_eq_true_eq,
      bne_iff_ne]
    omega

theorem sampleAcknowledgements_length (n : Nat) (ms : List SubmittedSyncMutationWire) :
    (sampleAcknowledgements n ms).length = ms.length := by
  induction ms generalizing n with
  | nil => rfl
  | cons m ms ih => rw [sampleAcknowledgements, length_cons, length_cons, ih]

theorem sampleCloud_isolates (H : Type) :
    Isolates H sampleCloud (fun m => m.mutationId = "bad") where
  rejects := by
    rintro _ ms ⟨m, hm, hbad⟩
    have hany : ms.any (fun m => m.mutationId == "bad") = true :=
      any_eq_true.mpr ⟨m, hm, beq_iff_eq.mpr hbad⟩
    show (if ms.any _ = true then _ else _ : Unit × Option PushResponse).2 = _
    rw [hany]
    rfl
  accepts := by
    intro _ ms hgood hlength
    have hany : ms.any (fun m => m.mutationId == "bad") = false := by
      simpa using hgood
    refine ⟨sampleAcknowledgements 0 ms, ms.length, ?_, ?_⟩
    · show (if ms.any _ = true then _ else _ : Unit × Option PushResponse).2 = _
      rw [hany]
      rfl
    rintro cs rfl
    have hmax : maxMutationsPerPage ≤ maxSafeInteger := by decide
    rw [length_map] at hlength
    have hmatch : acknowledgementsMatch cs.length 0
        (sampleAcknowledgements 0 (cs.map (·.mutation))) cs = true :=
      sampleAcknowledgements_match (le_of_eq (Nat.zero_add _))
    simp only [validatePushResponse, sampleAcknowledgements_length, length_map, hmatch,
      Bool.and_true, Bool.and_eq_true, decide_eq_true_eq]
    exact ⟨hlength, le_trans hlength hmax⟩

/-- Three edits; the second one is the bad one. -/
def sampleEdits : List QueueEvent :=
  [.commit (sampleRequest "one" 1) (sampleEdit "first"),
    .commit (sampleRequest "bad" 2) (sampleEdit "second"),
    .commit (sampleRequest "three" 3) (sampleEdit "third")]

def sampleOutbox : Store Symbolic :=
  ((pushQueue sampleJson platform "device").run ⟨sampleStore, []⟩ sampleEdits).store

/-- The claim of all three. -/
def sampleOutboxBatch : Store Symbolic × List (ClaimedSyncMutation Symbolic) :=
  match claimSyncMutations sampleJson platform sampleOutbox "owner" 10 70 256 with
  | .ok batch => batch
  | .error _ => (sampleOutbox, [])

def sampleCycles : List CycleTimes :=
  [⟨"owner", 10, 11⟩, ⟨"owner", 400, 401⟩, ⟨"owner", 800, 801⟩]

theorem sampleOutbox_sendable :
    Sendable sampleJson platform "device" 0 10 sampleOutbox := by
  have hinorder : InOrder "device"
      ((pushQueue sampleJson platform "device").run ⟨sampleStore, []⟩ sampleEdits) :=
    (pushQueue sampleJson platform "device").run_of_step (fun _ e hq => hq.step e)
      sampleEdits (.empty rfl)
  have hdigest : ∀ row ∈ sampleOutbox.outbox, row.wireMutationDigest = none := by decide
  refine ⟨hinorder.numbered, hinorder.upwards, by decide, by decide, ?_, by decide, by decide⟩
  intro row hrow d hd
  rw [hdigest row hrow] at hd
  cases hd

theorem push_isolation_sample :
    (∃ done later, sampleOutboxBatch.2 = done ++ later ∧ done ≠ [] ∧
      Resolved (fun m => m.mutationId = "bad") 11 sampleOutboxBatch.1
        (runPushOver sampleCloud 11 9 () sampleOutboxBatch.1 [⟨sampleOutboxBatch.2, "owner"⟩]).2
          done later) ∧
    ∀ row ∈ sampleOutbox.outbox,
      ∃ row', (pushCycles sampleJson platform sampleCloud sampleCycles ()
          sampleOutbox).2.outboxRow row.mutationId = some row' ∧
        row'.mutation = row.mutation ∧ (row.isOpen = false → row' = row) ∧
        (row.isOpen = true → Concluded (fun m => m.mutationId = "bad") row') := by
  have hisolation := push_isolation sampleJson platform sampleCloud _
    (sampleCloud_isolates Symbolic)
  have hclaim : claimSyncMutations sampleJson platform sampleOutbox "owner" 10 70 256 =
      .ok sampleOutboxBatch := by decide
  refine ⟨hisolation.1 sampleOutbox sampleOutboxBatch.1 "owner" 10 70 256 sampleOutboxBatch.2 11 ()
    (by unfold Store.UniqueMutationIds; decide) (by decide) hclaim (by decide), ?_⟩
  exact hisolation.2 sampleOutbox "device" 0 10 sampleCycles () sampleOutbox_sendable (by decide)
    (by decide) (by decide)

end GoodDealer.Sync
