/-
# `GoodDealer.Sync.PushQueue` — the batches a desktop claims

Any number of push cycles work on one outbox, each with its stack of claims, while the
user keeps editing.  The cloud answers anything, answers get lost, cycles are cancelled
or die with the process, leases run out and rows are taken over.

A cycle works left first and never gets past a claim that is not settled.  So every row
in front of its stack is terminal (`Cycle.front`), and with that the open rows of the
outbox are those from some sequence on (`InOrder.fromSequence`): what a claim cuts off
the front of them is one contiguous stretch of the device stream.
-/
import Mathlib.Data.List.Chain
import GoodDealer.Sync.OutboxRun

namespace GoodDealer.Sync

open Cloud Desktop List Symbolic

variable {H : Type} {ms : List SubmittedSyncMutationWire} {deviceId owner : String} {s s' : Store H}
  {cs : List (ClaimedSyncMutation H)} {J : SerdeJson H} {P : Platform H}

/-! ## Push cycles that run side by side -/

/-- What `run_push` does with an answer: the database, and the stack it goes on with, or
`none` when the cycle ends. -/
def answerPush [DecidableEq H] (s : Store H) (now : Timestamp) (claim : DesktopSyncPushClaim H)
    (unresolved : List (DesktopSyncPushClaim H)) (response : PushResponse) :
    Store H × Option (List (DesktopSyncPushClaim H)) :=
  match completeNativeSyncPush s claim response with
  | .error _ => (s, none)
  | .ok (store, .completed) => (store, some unresolved)
  | .ok (store, .deterministicRejected) => (store, some unresolved)
  | .ok (store, .isolationRequired) =>
    let halves := splitNativeSyncPush claim
    (store, some (halves.1 :: halves.2 :: unresolved))
  | .ok (store, .retryable) => (deferPushClaims store now (claim :: unresolved), none)
  | .ok (store, .authorizationBlocked) => (store, none)

/-- The outbox and the stacks of the cycles under way; a cycle that ended has none left. -/
structure PushQueue (H : Type) where
  store : Store H
  cycles : List (List (DesktopSyncPushClaim H))
deriving DecidableEq

inductive QueueEvent where
  | commit (request : MutationRequest) (op : LocalOperation)
  /-- A cycle starts. -/
  | claim (deliveryOwner : String) (now leaseExpiresAt : Timestamp) (limit : Nat)
  /-- The request a cycle is at is answered. -/
  | answer (cycle : Nat) (response : PushResponse) (now : Timestamp)
  /-- A cycle is cancelled, gets no answer or has no request left. -/
  | giveUp (cycle : Nat) (now : Timestamp)
  /-- A cycle ends without a trace; its claims keep their leases. -/
  | die (cycle : Nat)
deriving DecidableEq

namespace PushQueue

variable [DecidableEq H] (J : SerdeJson H) (P : Platform H) (deviceId : String) (q : PushQueue H)

/-- Change the stack of one cycle; a stack the cycle does not go on with is dropped. -/
def setCycle (cycle : Nat) (stack : Option (List (DesktopSyncPushClaim H))) (store : Store H) :
    PushQueue H :=
  ⟨store, q.cycles.set cycle (stack.getD [])⟩

def answer (cycle : Nat) (response : PushResponse) (now : Timestamp) : PushQueue H :=
  match q.cycles[cycle]? with
  | some (claim :: unresolved) =>
    let r := answerPush q.store now claim unresolved response
    q.setCycle cycle r.2 r.1
  | _ => q

def giveUp (cycle : Nat) (now : Timestamp) : PushQueue H :=
  match q.cycles[cycle]? with
  | some unresolved => q.setCycle cycle none (deferPushClaims q.store now unresolved)
  | none => q

def claim (deliveryOwner : String) (now leaseExpiresAt : Timestamp) (limit : Nat) : PushQueue H :=
  match claimSyncMutations J P q.store deliveryOwner now leaseExpiresAt limit with
  | .error _ => q
  | .ok (store, []) => { q with store := store }
  | .ok (store, claimed) => ⟨store, q.cycles ++ [[⟨claimed, deliveryOwner⟩]]⟩

end PushQueue

/-- The desktop of one device.  Every local mutation carries its identity. -/
def pushQueue [DecidableEq H] (J : SerdeJson H) (P : Platform H) (deviceId : String) :
    Machine (PushQueue H) QueueEvent Unit where
  step q e :=
    (match e with
      | .commit r op =>
        match localMutation q.store { r with deviceId := deviceId } op with
        | .ok (store, _) => { q with store := store }
        | .error _ => q
      | .claim owner now lease limit => q.claim J P owner now lease limit
      | .answer cycle response now => q.answer cycle response now
      | .giveUp cycle now => q.giveUp cycle now
      | .die cycle => q.setCycle cycle none q.store, ())

theorem answerPush_update [DecidableEq H] (s : Store H) (now : Timestamp)
    (claim : DesktopSyncPushClaim H)
    (unresolved : List (DesktopSyncPushClaim H)) (response : PushResponse) :
    DeliveryUpdate s (answerPush s now claim unresolved response).1 := by
  unfold answerPush
  split
  · exact .refl s
  next hdone => exact completeNativeSyncPush_update hdone
  next hdone => exact completeNativeSyncPush_update hdone
  next hdone => exact completeNativeSyncPush_update hdone
  next store hdone =>
    have hdefer := deferPushClaims_update store now (claim :: unresolved)
    exact (completeNativeSyncPush_update hdone).trans hdefer
  next hdone => exact completeNativeSyncPush_update hdone

/-! ## Stretches of the device stream -/

/-- The next mutation of a device. -/
def Follows (a b : SubmittedSyncMutationWire) : Prop :=
  b.deviceMutationSequence = a.deviceMutationSequence + 1

/-- A contiguous stretch has every sequence from its first to each of its mutations. -/
theorem mem_of_isChain_follows {n : Nat} {m : SubmittedSyncMutationWire} :
    ∀ {ms : List SubmittedSyncMutationWire}, ms.IsChain Follows → m ∈ ms →
      (∀ x ∈ ms.head?, x.deviceMutationSequence ≤ n) → n ≤ m.deviceMutationSequence →
      ∃ m' ∈ ms, m'.deviceMutationSequence = n
  | [], _, hm, _, _ => by cases hm
  | [x], _, hm, hhead, hn => by
    rw [mem_singleton.mp hm] at hn
    exact ⟨x, mem_singleton_self x, le_antisymm (hhead x rfl) hn⟩
  | x :: y :: ms, hchain, hm, hhead, hn => by
    obtain ⟨hxy, hrest⟩ := isChain_cons_cons.mp hchain
    have hx := hhead x rfl
    by_cases heq : x.deviceMutationSequence = n
    · exact ⟨x, mem_cons_self, heq⟩
    · have hm' : m ∈ y :: ms := by
        rcases mem_cons.mp hm with rfl | hm
        · omega
        · exact hm
      have hy : ∀ z ∈ (y :: ms).head?, z.deviceMutationSequence ≤ n := by
        rintro z ⟨⟩
        unfold Follows at hxy
        omega
      obtain ⟨m', hmem, hseq⟩ := mem_of_isChain_follows hrest hm' hy hn
      exact ⟨m', mem_cons_of_mem _ hmem, hseq⟩

theorem pairwise_of_isChain_follows
    (h : ms.IsChain Follows) : (ms.map (·.deviceMutationSequence)).Pairwise (· < ·) := by
  have hlt : (ms.map (·.deviceMutationSequence)).IsChain (· < ·) := by
    rw [isChain_map]
    exact h.imp fun a b hab => by unfold Follows at hab; omega
  exact hlt.pairwise

/-- The outbox is one stream of one device. -/
structure Numbered (deviceId : String) (s : Store H) : Prop where
  unique : s.UniqueMutationIds
  stream : (s.outbox.map OutboxRow.mutation).IsChain Follows
  next : ∀ m ∈ (s.outbox.map OutboxRow.mutation).getLast?,
    m.deviceMutationSequence + 1 = s.nextDeviceMutationSequence
  device : ∀ m ∈ s.outbox.map OutboxRow.mutation, m.sourceDeviceId = deviceId

namespace Numbered

variable (h : Numbered deviceId s)

include h

theorem update (hu : DeliveryUpdate s s') : Numbered deviceId s' where
  unique := hu.uniqueMutationIds h.unique
  stream := by rw [hu.mutations]; exact h.stream
  next := by rw [hu.mutations, hu.next]; exact h.next
  device := by rw [hu.mutations]; exact h.device

/-- Mutations of the outbox with one sequence are the same. -/
theorem eq_of_sequence {m m' : SubmittedSyncMutationWire}
    (hm : m ∈ s.outbox.map OutboxRow.mutation) (hm' : m' ∈ s.outbox.map OutboxRow.mutation)
    (hseq : m.deviceMutationSequence = m'.deviceMutationSequence) : m = m' := by
  have hnodup := (pairwise_of_isChain_follows h.stream).imp fun hlt => ne_of_lt hlt
  exact inj_on_of_nodup_map hnodup hm hm' hseq

theorem lt_next {m : SubmittedSyncMutationWire}
    (hm : m ∈ s.outbox.map OutboxRow.mutation) :
    m.deviceMutationSequence < s.nextDeviceMutationSequence := by
  obtain ⟨ms, last, hsplit⟩ := eq_nil_or_concat (s.outbox.map OutboxRow.mutation)
    |>.resolve_left (ne_nil_of_mem hm)
  rw [concat_eq_append] at hsplit
  have hlast : last.deviceMutationSequence + 1 = s.nextDeviceMutationSequence :=
    h.next last (by rw [hsplit]; exact List.getLast?_concat)
  have hpair := pairwise_of_isChain_follows h.stream
  rw [hsplit] at hm hpair
  rcases mem_append.mp hm with hm | hm
  · rw [map_append, pairwise_append] at hpair
    have := hpair.2.2 _ (mem_map_of_mem hm) last.deviceMutationSequence (by simp)
    omega
  · rw [mem_singleton.mp hm]
    omega

/-- A local mutation takes the next sequence. -/
theorem commit {r : MutationRequest} {op : LocalOperation}
    (hr : r.deviceId = deviceId) (hc : LocalCommit s r op s') : Numbered deviceId s' := by
  refine ⟨hc.uniqueMutationIds h.unique, ?_, ?_, ?_⟩
  · rw [hc.mutations]
    refine h.stream.append (.singleton _) ?_
    rintro m hm _ ⟨⟩
    exact (h.next m hm).symm
  · rw [hc.mutations, List.getLast?_concat]
    rintro _ ⟨⟩
    exact hc.next.symm
  · rw [hc.mutations]
    exact forall_mem_append.mpr ⟨h.device, forall_mem_singleton.mpr hr⟩

end Numbered

/-! ## Nothing open in front -/

/-- `ms` is a stretch of the stream, and no row before it is open. -/
structure Front (s : Store H) (ms : List SubmittedSyncMutationWire) : Prop where
  issued : ∀ m ∈ ms, m ∈ s.outbox.map OutboxRow.mutation
  stream : ms.IsChain Follows
  front : ∀ m ∈ ms.head?, ∀ row ∈ s.outbox,
    row.mutation.deviceMutationSequence < m.deviceMutationSequence → row.isOpen = false

/-- The rows of `ms` are closed, and no other row is opened or closed. -/
structure Closes (s s' : Store H) (ms : List SubmittedSyncMutationWire) : Prop where
  update : DeliveryUpdate s s'
  open_iff : ∀ row ∈ s.outbox, ∀ row' ∈ s'.outbox, row'.mutation = row.mutation →
    (row'.isOpen = true ↔ row.isOpen = true ∧ row.mutation ∉ ms)

namespace Front

variable {ms' : List SubmittedSyncMutationWire}

theorem nil (s : Store H) : Front s [] := ⟨by simp, .nil, by simp⟩

/-- An open row up to some mutation of the stretch belongs to it. -/
theorem covers (h : Front s ms) (hn : Numbered deviceId s) {row : OutboxRow H}
    (hrow : row ∈ s.outbox) (hopen : row.isOpen = true) {m : SubmittedSyncMutationWire}
    (hm : m ∈ ms) (hle : row.mutation.deviceMutationSequence ≤ m.deviceMutationSequence) :
    row.mutation ∈ ms := by
  have hhead : ∀ x ∈ ms.head?, x.deviceMutationSequence ≤ row.mutation.deviceMutationSequence := by
    intro x hx
    by_contra hlt
    have hclosed := h.front x hx row hrow (by omega)
    rw [hopen] at hclosed
    cases hclosed
  obtain ⟨m', hm', hseq⟩ := mem_of_isChain_follows h.stream hm hhead hle
  rwa [hn.eq_of_sequence (mem_map_of_mem hrow) (h.issued m' hm') hseq.symm]

/-- A stretch stays at the front while rows are only closed. -/
theorem mono (h : Front s ms) (hc : Closes s s' ms') : Front s' ms where
  issued := by rw [hc.update.mutations]; exact h.issued
  stream := h.stream
  front := by
    intro m hm row' hrow' hlt
    obtain ⟨row, hrow, heq⟩ := hc.update.row_before hrow'
    rw [← Bool.not_eq_true, hc.open_iff row hrow row' hrow' heq]
    rintro ⟨hopen, _⟩
    rw [heq] at hlt
    rw [h.front m hm row hrow hlt] at hopen
    cases hopen

/-- When the first part of a stretch is closed, the second part is at the front. -/
theorem drop (h : Front s (ms ++ ms')) (hn : Numbered deviceId s) (hc : Closes s s' ms) :
    Front s' ms' where
  issued := by
    rw [hc.update.mutations]
    exact fun m hm => h.issued m (mem_append_right _ hm)
  stream := h.stream.right_of_append
  front := by
    intro m hm row' hrow' hlt
    obtain ⟨row, hrow, heq⟩ := hc.update.row_before hrow'
    rw [← Bool.not_eq_true, hc.open_iff row hrow row' hrow' heq]
    rintro ⟨hopen, hnot⟩
    rw [heq] at hlt
    have hmem := h.covers hn hrow hopen
      (mem_append_right _ (mem_of_mem_head? hm)) (le_of_lt hlt)
    refine hnot ((mem_append.mp hmem).resolve_right ?_)
    -- the second part starts at `m`, behind the row
    intro hmem'
    have hpair := pairwise_of_isChain_follows h.stream.right_of_append
    obtain ⟨rest, rfl⟩ : ∃ rest, ms' = m :: rest := by
      cases ms' with
      | nil => cases hm
      | cons x xs => cases hm; exact ⟨xs, rfl⟩
    rcases mem_cons.mp hmem' with hm' | hm'
    · rw [hm'] at hlt
      omega
    · have hlt' : m.deviceMutationSequence < row.mutation.deviceMutationSequence :=
        (pairwise_cons.mp hpair).1 _ (mem_map_of_mem hm')
      omega

theorem left (h : Front s (ms ++ ms')) : Front s ms where
  issued := fun m hm => h.issued m (mem_append_left _ hm)
  stream := h.stream.left_of_append
  front := by
    intro m hm
    refine h.front m ?_
    cases ms with
    | nil => cases hm
    | cons x xs => exact hm

end Front

/-- With a row, every later one is open. -/
def OpenUpwards (s : Store H) : Prop :=
  ∀ row ∈ s.outbox, ∀ row' ∈ s.outbox, row.isOpen = true →
    row.mutation.deviceMutationSequence ≤ row'.mutation.deviceMutationSequence →
    row'.isOpen = true

theorem OpenUpwards.closes (h : OpenUpwards s) (hn : Numbered deviceId s)
    (hf : Front s ms) (hc : Closes s s' ms) : OpenUpwards s' := by
  intro r hr r' hr' hopen hle
  obtain ⟨row, hrow, heq⟩ := hc.update.row_before hr
  obtain ⟨row', hrow', heq'⟩ := hc.update.row_before hr'
  obtain ⟨hopen, hnot⟩ := (hc.open_iff row hrow r hr heq).mp hopen
  rw [heq, heq'] at hle
  refine (hc.open_iff row' hrow' r' hr' heq').mpr ⟨h row hrow row' hrow' hopen hle, ?_⟩
  exact fun hmem => hnot (hf.covers hn hrow hopen hmem hle)

/-! ## What the transactions close -/

section

theorem lookup_of_update (hu : DeliveryUpdate s s') (hs : s.UniqueMutationIds)
    {row row' : OutboxRow H} (hrow' : row' ∈ s'.outbox) (heq : row'.mutation = row.mutation) :
    s'.outboxRow row.mutationId = some row' := by
  have hlookup := (hu.uniqueMutationIds hs).lookup hrow'
  rwa [show row'.mutationId = row.mutationId from congrArg (·.mutationId) heq] at hlookup

variable (hs : s.UniqueMutationIds) (hu : DeliveryUpdate s s')

include hs hu

/-- Rows that are settled for good are closed, the others are as they were. -/
theorem Closes.completed (hissued : ∀ c ∈ cs, c.mutation ∈ s.outbox.map OutboxRow.mutation)
    (hdone : Completed owner cs s s')
    (hclosed : ∀ c ∈ cs, ∃ row', s'.outboxRow c.mutation.mutationId = some row' ∧
      row'.isOpen = false) : Closes s s' (cs.map (·.mutation)) where
  update := hu
  open_iff := by
    intro row hrow row' hrow' heq
    have hlookup := lookup_of_update hu hs hrow' heq
    by_cases hmem : row.mutation ∈ cs.map (·.mutation)
    · obtain ⟨c, hc, hcm⟩ := mem_map.mp hmem
      obtain ⟨r, hr, hrclosed⟩ := hclosed c hc
      rw [hcm] at hr
      have hsame : r = row' := Option.some.inj (hr.symm.trans hlookup)
      rw [← hsame, hrclosed]
      simp [hmem]
    · rcases hdone.fenced row.mutationId with hsame | ⟨c, hc, hcid, _⟩
      · rw [hsame, hs.lookup hrow] at hlookup
        rw [← Option.some.inj hlookup]
        exact ⟨fun hopen => ⟨hopen, hmem⟩, And.left⟩
      · -- a claim on the key of the row is a claim on its mutation
        obtain ⟨r, hr, hrm⟩ := mem_map.mp (hissued c hc)
        have hrow := hs.row_eq hr hrow ((congrArg (·.mutationId) hrm).trans hcid)
        refine absurd ?_ hmem
        rw [← hrow, hrm]
        exact mem_map_of_mem hc

/-- A deferral opens and closes nothing. -/
theorem Closes.deferred {now : Timestamp}
    (hpending : ∀ c ∈ cs, SettledTo s s' c (deferredState now))
    (hdone : Completed owner cs s s') : Closes s s' [] where
  update := hu
  open_iff := by
    intro row hrow row' hrow' heq
    have hlookup := lookup_of_update hu hs hrow' heq
    rcases hdone.fenced row.mutationId with hsame | ⟨c, hc, hcid, r, lease, hr, hstate⟩
    · rw [hsame, hs.lookup hrow] at hlookup
      rw [Option.some.inj hlookup]
      simp
    · obtain ⟨r', hr', hdeferred⟩ := hpending c hc
      rw [hcid] at hr hr' hdeferred
      have hsame : r = row := Option.some.inj (hr.symm.trans (hs.lookup hrow))
      have hsame' := Option.some.inj (hdeferred.symm.trans hlookup)
      have hopen : row.isOpen = true := hsame ▸ OutboxRow.isOpen_of_sending hstate
      rw [← hsame', hopen]
      simp [OutboxRow.isOpen, deferredState]

/-- A claim closes the rows that fit no request. -/
theorem Closes.claimed {now lease : Timestamp}
    {closed taken : List (OutboxRow H)} (hrows : ∀ row ∈ closed ++ taken, row ∈ s.outbox)
    (h : ClaimedRows P owner now lease closed taken s s') :
    Closes s s' (closed.map OutboxRow.mutation) where
  update := hu
  open_iff := by
    intro row hrow row' hrow' heq
    have hlookup := lookup_of_update hu hs hrow' heq
    -- the rows of the claim are the ones of the database
    have hself : ∀ r ∈ closed ++ taken, r.mutationId = row.mutationId → r = row :=
      fun r hr => hs.row_eq (hrows r hr) hrow
    have hmem : row.mutation ∈ closed.map OutboxRow.mutation ↔ row ∈ closed := by
      constructor
      · intro hm
        obtain ⟨r, hr, hrm⟩ := mem_map.mp hm
        rwa [← hself r (mem_append_left _ hr) (congrArg (·.mutationId) hrm)]
      · exact fun hr => mem_map_of_mem hr
    rw [hmem]
    by_cases hclosed : row ∈ closed
    · rw [h.closedRow row hclosed] at hlookup
      rw [← Option.some.inj hlookup]
      simp [OutboxRow.isOpen, hclosed]
    by_cases htaken : row ∈ taken
    · rw [h.takenRow row htaken] at hlookup
      have hopen := OutboxRow.isOpen_of_due (h.due row (mem_append_right _ htaken))
      rw [← Option.some.inj hlookup, hopen]
      simp [OutboxRow.isOpen, OutboxRow.claim, hclosed]
    · have hnot : row.mutationId ∉ (closed ++ taken).map OutboxRow.mutationId := by
        intro hm
        obtain ⟨r, hr, hrid⟩ := mem_map.mp hm
        rcases mem_append.mp (hself r hr hrid ▸ hr) with hr | hr
        · exact hclosed hr
        · exact htaken hr
      rw [h.untouched _ hnot, hs.lookup hrow] at hlookup
      rw [← Option.some.inj hlookup]
      exact ⟨fun hopen => ⟨hopen, hclosed⟩, And.left⟩

end

/-! ## The invariant of the queue -/

/-- The mutations a cycle has still to settle, in the order it works on them. -/
def pendingMutations (stack : List (DesktopSyncPushClaim H)) : List SubmittedSyncMutationWire :=
  stack.flatMap (·.mutations)

theorem pendingMutations_cons (claim : DesktopSyncPushClaim H)
    (unresolved : List (DesktopSyncPushClaim H)) :
    pendingMutations (claim :: unresolved) = claim.mutations ++ pendingMutations unresolved :=
  flatMap_cons

/-- Splitting a claim keeps the order of its mutations. -/
theorem pendingMutations_split (claim : DesktopSyncPushClaim H)
    (unresolved : List (DesktopSyncPushClaim H)) :
    pendingMutations
      ((splitNativeSyncPush claim).1 :: (splitNativeSyncPush claim).2 :: unresolved) =
      pendingMutations (claim :: unresolved) := by
  simp only [pendingMutations_cons, DesktopSyncPushClaim.mutations, splitNativeSyncPush,
    ← append_assoc, ← map_append, take_append_drop]

structure InOrder (deviceId : String) (q : PushQueue H) : Prop where
  numbered : Numbered deviceId q.store
  upwards : OpenUpwards q.store
  cycles : ∀ stack ∈ q.cycles, Front q.store (pendingMutations stack)

namespace InOrder

variable {q : PushQueue H}

section

variable (h : InOrder deviceId q)

include h

/-- A transaction that closes the front of a cycle, or nothing. -/
theorem closes
    (hf : Front q.store ms) (hc : Closes q.store s' ms)
    {cycles : List (List (DesktopSyncPushClaim H))}
    (hcycles : ∀ stack ∈ cycles, stack ∈ q.cycles ∨ Front s' (pendingMutations stack)) :
    InOrder deviceId ⟨s', cycles⟩ where
  numbered := h.numbered.update hc.update
  upwards := h.upwards.closes h.numbered hf hc
  cycles := by
    intro stack hstack
    rcases hcycles stack hstack with hold | hnew
    · exact (h.cycles stack hold).mono hc
    · exact hnew

/-- The same for the stack of one cycle. -/
theorem setCycle (hf : Front q.store ms) (hc : Closes q.store s' ms) {cycle : Nat}
    {stack : Option (List (DesktopSyncPushClaim H))}
    (hstack : ∀ st, stack = some st → Front s' (pendingMutations st)) :
    InOrder deviceId (q.setCycle cycle stack s') := by
  refine h.closes hf hc ?_
  intro st hst
  rcases mem_or_eq_of_mem_set hst with hold | rfl
  · exact .inl hold
  · cases stack with
    | none => exact .inr (.nil s')
    | some st => exact .inr (hstack st rfl)

theorem commit {r : MutationRequest} {op : LocalOperation}
    (hr : r.deviceId = deviceId) (hc : LocalCommit q.store r op s') :
    InOrder deviceId { q with store := s' } := by
  have hold : ∀ row ∈ q.store.outbox,
      row.mutation.deviceMutationSequence < q.store.nextDeviceMutationSequence :=
    fun row hrow => h.numbered.lt_next (mem_map_of_mem hrow)
  refine ⟨h.numbered.commit hr hc, ?_, ?_⟩
  · intro row hrow row' hrow' hopen hle
    rw [hc.outbox] at hrow hrow'
    rcases mem_append.mp hrow' with hrow' | hrow'
    · rcases mem_append.mp hrow with hrow | hrow
      · exact h.upwards row hrow row' hrow' hopen hle
      · rw [mem_singleton.mp hrow] at hle
        exact absurd (hold row' hrow') (not_lt.mpr hle)
    · rw [mem_singleton.mp hrow']
      rfl
  · intro stack hstack
    have hf := h.cycles stack hstack
    refine ⟨?_, hf.stream, ?_⟩
    · intro m hm
      rw [hc.outbox, map_append]
      exact mem_append_left _ (hf.issued m hm)
    · intro m hm row hrow hlt
      rw [hc.outbox] at hrow
      rcases mem_append.mp hrow with hrow | hrow
      · exact hf.front m hm row hrow hlt
      · have hm' := h.numbered.lt_next (hf.issued m (mem_of_mem_head? hm))
        rw [mem_singleton.mp hrow] at hlt
        exact absurd hm' (not_lt.mpr (le_of_lt hlt))

end

theorem empty (hs : s.outbox = []) : InOrder deviceId ⟨s, []⟩ where
  numbered := by
    refine ⟨?_, ?_, ?_, ?_⟩ <;> simp [Store.UniqueMutationIds, hs]
  upwards := by simp [OpenUpwards, hs]
  cycles := by simp

end InOrder

section

theorem acknowledgementsMatch_length {head : Nat} :
    ∀ {prior : Nat} {as : List MutationAssignment} {cs : List (ClaimedSyncMutation H)},
      acknowledgementsMatch head prior as cs = true → as.length = cs.length
  | _, [], [], _ => rfl
  | _, [], _ :: _, h => by cases h
  | _, _ :: _, [], h => by cases h
  | _, a :: as, c :: cs, h => by
    rw [acknowledgementsMatch, Bool.and_eq_true] at h
    rw [length_cons, length_cons, acknowledgementsMatch_length h.2]

/-- The acknowledgements of a valid answer are those of the claimed mutations. -/
theorem map_claimed_zipWith :
    ∀ {as : List MutationAssignment} {cs : List (ClaimedSyncMutation H)}, as.length = cs.length →
      (List.zipWith (fun a c => (⟨c, a.serverRevision⟩ : SyncMutationAcknowledgement H)) as cs).map
        (·.claimed) = cs
  | [], [], _ => rfl
  | a :: as, c :: cs, h => by
    rw [zipWith_cons_cons, map_cons, map_claimed_zipWith (Nat.succ.inj h)]

variable [DecidableEq H] {claim : DesktopSyncPushClaim H}

variable (hs : s.UniqueMutationIds)

include hs

/-- A claim that is acknowledged is closed. -/
theorem acknowledgeSyncBatch_closes {as : List (SyncMutationAcknowledgement H)}
    (hissued : ∀ a ∈ as, a.claimed.mutation ∈ s.outbox.map OutboxRow.mutation)
    (h : acknowledgeSyncBatch s owner as = .ok s') :
    Closes s s' (as.map (·.claimed.mutation)) := by
  obtain ⟨hsettled, hdone⟩ := acknowledgeSyncBatch_ok h
  have hclosed := Closes.completed hs (acknowledgeSyncBatch_update h)
    (by
      intro c hc
      obtain ⟨a, ha, rfl⟩ := mem_map.mp hc
      exact hissued a ha) hdone
    (by
      intro c hc
      obtain ⟨a, ha, rfl⟩ := mem_map.mp hc
      obtain ⟨row, _, hrow⟩ := hsettled a ha
      exact ⟨_, hrow, rfl⟩)
  rwa [List.map_map] at hclosed

/-- So is a claim that is rejected. -/
theorem rejectSyncBatch_closes
    {conflicted : Bool} (hissued : ∀ c ∈ cs, c.mutation ∈ s.outbox.map OutboxRow.mutation)
    (h : rejectSyncBatch s owner cs conflicted = .ok s') :
    Closes s s' (cs.map (·.mutation)) := by
  obtain ⟨hsettled, hdone⟩ := rejectSyncBatch_ok h
  refine .completed hs (rejectSyncBatch_update h) hissued hdone ?_
  intro c hc
  obtain ⟨row, _, hrow⟩ := hsettled c hc
  refine ⟨_, hrow, ?_⟩
  cases conflicted <;> rfl

theorem deferPushClaims_closes (now : Timestamp)
    (unresolved : List (DesktopSyncPushClaim H)) :
    Closes s (deferPushClaims s now unresolved) [] := by
  have hsame : Closes s s [] :=
    ⟨.refl s, fun row hrow row' hrow' heq => by
      rw [hs.row_eq hrow' hrow (congrArg (·.mutationId) heq)]
      simp⟩
  unfold deferPushClaims
  split
  · exact hsame
  split
  next hdefer =>
    obtain ⟨hpending, hdone⟩ := deferRetryableSyncBatch_ok hdefer
    exact .deferred hs (deferRetryableSyncBatch_update hdefer) hpending hdone
  · exact hsame

/-- An answer settles the whole claim, or leaves the database as it is. -/
theorem completeNativeSyncPush_closes {response : PushResponse} {d : DesktopSyncPushDisposition}
    (hissued : ∀ m ∈ claim.mutations, m ∈ s.outbox.map OutboxRow.mutation)
    (h : completeNativeSyncPush s claim response = .ok (s', d)) :
    (d = .completed ∨ d = .deterministicRejected) ∧ Closes s s' claim.mutations ∨
      (d = .isolationRequired ∨ d = .retryable ∨ d = .authorizationBlocked) ∧ s' = s := by
  have hissued' : ∀ c ∈ claim.claimed, c.mutation ∈ s.outbox.map OutboxRow.mutation :=
    fun c hc => hissued _ (mem_map_of_mem hc)
  rcases completeNativeSyncPush_cases h with ⟨hd, _, _, hmatch, hack⟩ | ⟨hd, _, hreject⟩ | hkept
  · have hclaimed := map_claimed_zipWith (acknowledgementsMatch_length hmatch)
    have hclosed := acknowledgeSyncBatch_closes hs ?_ hack
    · refine .inl ⟨.inl hd, ?_⟩
      rw [DesktopSyncPushClaim.mutations, ← hclaimed, List.map_map]
      exact hclosed
    · intro a ha
      refine hissued' _ ?_
      rw [← hclaimed]
      exact mem_map_of_mem ha
  · exact .inl ⟨.inr hd, rejectSyncBatch_closes hs hissued' hreject⟩
  · exact .inr hkept

end

section

/-- The open rows are one stretch of the stream. -/
theorem isChain_open : ∀ {rows : List (OutboxRow H)},
    (rows.map OutboxRow.mutation).IsChain Follows →
    (∀ row ∈ rows, ∀ row' ∈ rows, row.isOpen = true →
      row.mutation.deviceMutationSequence ≤ row'.mutation.deviceMutationSequence →
      row'.isOpen = true) →
    ((rows.filter OutboxRow.isOpen).map OutboxRow.mutation).IsChain Follows
  | [], _, _ => .nil
  | row :: rows, hchain, hup => by
    by_cases hopen : row.isOpen = true
    · -- the first open row: all the others are open, too
      have hall : (row :: rows).filter OutboxRow.isOpen = row :: rows := by
        refine filter_eq_self.mpr fun r hr => ?_
        refine hup row mem_cons_self r hr hopen ?_
        rcases mem_cons.mp hr with rfl | hr
        · exact le_rfl
        · have hpair := pairwise_of_isChain_follows hchain
          exact le_of_lt ((pairwise_cons.mp hpair).1 _
            (mem_map_of_mem (mem_map_of_mem hr)))
      rw [hall]
      exact hchain
    · rw [filter_cons_of_neg hopen]
      refine isChain_open hchain.tail fun r hr r' hr' => ?_
      exact hup r (mem_cons_of_mem _ hr) r' (mem_cons_of_mem _ hr')

/-- What a claim looks at are the first open rows. -/
theorem Numbered.candidates (h : Numbered deviceId s) (limit : Nat) :
    s.candidates limit = (s.outbox.filter OutboxRow.isOpen).take limit := by
  have hpair : s.outbox.Pairwise (fun a b =>
      a.mutation.deviceMutationSequence < b.mutation.deviceMutationSequence) := by
    have := pairwise_of_isChain_follows h.stream
    rwa [List.map_map, pairwise_map] at this
  rw [Store.candidates, Keyed.sortByKey_eq_self]
  exact hpair.sublist filter_sublist

/-- No open row stands in front of the candidates. -/
theorem Front.candidates (h : Numbered deviceId s) (hup : OpenUpwards s) (limit : Nat) :
    Front s ((s.candidates limit).map OutboxRow.mutation) := by
  have hchain := isChain_open h.stream hup
  rw [h.candidates, map_take]
  refine ⟨?_, hchain.take limit, ?_⟩
  · intro m hm
    obtain ⟨row, hrow, rfl⟩ := mem_map.mp (mem_of_mem_take hm)
    exact mem_map_of_mem (mem_filter.mp hrow).1
  · intro m hm row hrow hlt
    have hhead : m ∈ ((s.outbox.filter OutboxRow.isOpen).map OutboxRow.mutation).head? := by
      cases limit with
      | zero => cases hm
      | succ n => rwa [List.head?_take, if_neg (Nat.succ_ne_zero n)] at hm
    by_contra hopen
    rw [Bool.not_eq_false] at hopen
    -- an open row is among them, so it is not before the first
    have hmem : row.mutation ∈ (s.outbox.filter OutboxRow.isOpen).map OutboxRow.mutation :=
      mem_map_of_mem (mem_filter.mpr ⟨hrow, hopen⟩)
    have hpair := pairwise_of_isChain_follows hchain
    revert hhead hmem hpair
    generalize (s.outbox.filter OutboxRow.isOpen).map OutboxRow.mutation = ms
    intro hhead hmem hpair
    cases ms with
    | nil => cases hmem
    | cons x xs =>
      cases hhead
      rcases mem_cons.mp hmem with heq | hmem
      · rw [heq] at hlt
        omega
      · have hlt' : m.deviceMutationSequence < row.mutation.deviceMutationSequence :=
          (pairwise_cons.mp hpair).1 _ (mem_map_of_mem hmem)
        omega

variable [DecidableEq H] {now lease : Timestamp} {limit : Nat}

/-- A claim closes the front of the stream if it must, and its batch is the front then. -/
theorem claimSyncMutations_front (h : Numbered deviceId s) (hup : OpenUpwards s)
    (hclaim : claimSyncMutations J P s owner now lease limit = .ok (s', cs)) :
    ∃ closed, Front s closed ∧ Closes s s' closed ∧ Front s' (cs.map (·.mutation)) ∧
      (cs.map (·.mutation.mutationId)).Nodup ∧ cs.length ≤ 256 := by
  obtain ⟨closed, taken, rest, hsplit, rfl, _, _, hclaims⟩ := claimSyncMutations_ok hclaim h.unique
  have hfront := Front.candidates h hup limit
  rw [hsplit, map_append] at hfront
  have hfront' := hfront.left
  rw [map_append] at hfront'
  have hcloses := Closes.claimed h.unique (claimSyncMutations_update hclaim)
    (fun _ hrow => (Store.mem_batch hsplit hrow).1) hclaims
  have hmutations : (taken.map (·.claimed P)).map (·.mutation) = taken.map OutboxRow.mutation := by
    rw [List.map_map]
    rfl
  have hnodup := h.unique.candidates limit
  rw [hsplit, map_append, map_append] at hnodup
  refine ⟨closed.map OutboxRow.mutation, hfront'.left, hcloses, ?_, ?_, ?_⟩
  · rw [hmutations]
    exact hfront'.drop h hcloses
  · rw [List.map_map]
    exact hnodup.of_append_left.of_append_right
  · exact claimSyncMutations_length hclaim h.unique

end

section

variable [DecidableEq H] {q : PushQueue H}

/-- What a cycle closes is its front, and what it goes on with is at the front then. -/
theorem answerPush_front {claim : DesktopSyncPushClaim H}
    {unresolved : List (DesktopSyncPushClaim H)} (hn : Numbered deviceId s)
    (hfront : Front s (pendingMutations (claim :: unresolved))) (now : Timestamp)
    (response : PushResponse) :
    ∃ ms, Front s ms ∧ Closes s (answerPush s now claim unresolved response).1 ms ∧
      ∀ stack, (answerPush s now claim unresolved response).2 = some stack →
        Front (answerPush s now claim unresolved response).1 (pendingMutations stack) := by
  have hunchanged := deferPushClaims_closes hn.unique now []
  have hhead : Front s claim.mutations := by
    rw [pendingMutations_cons] at hfront
    exact hfront.left
  cases hdone : completeNativeSyncPush s claim response with
  | error =>
    simp only [answerPush, hdone]
    exact ⟨[], .nil s, hunchanged, by rintro _ ⟨⟩⟩
  | ok res =>
    obtain ⟨s', d⟩ := res
    simp only [answerPush, hdone]
    rcases completeNativeSyncPush_closes hn.unique hhead.issued hdone with ⟨hd, hc⟩ | ⟨hd, rfl⟩
    · -- the claim is settled: the next one is at the front
      rw [pendingMutations_cons] at hfront
      have hrest := hfront.drop hn hc
      rcases hd with rfl | rfl <;> exact ⟨_, hhead, hc, by rintro _ ⟨⟩; exact hrest⟩
    rcases hd with rfl | rfl | rfl
    · refine ⟨[], .nil _, hunchanged, ?_⟩
      rintro _ ⟨⟩
      rw [pendingMutations_split]
      exact hfront
    · have hdeferred := deferPushClaims_closes hn.unique now (claim :: unresolved)
      exact ⟨[], .nil _, hdeferred, by rintro _ ⟨⟩⟩
    · exact ⟨[], .nil _, hunchanged, by rintro _ ⟨⟩⟩

variable (h : InOrder deviceId q)

include h

theorem InOrder.answer (cycle : Nat) (response : PushResponse)
    (now : Timestamp) : InOrder deviceId (q.answer cycle response now) := by
  unfold PushQueue.answer
  split
  next claim unresolved hcycle =>
    obtain ⟨ms, hfront, hcloses, hrest⟩ :=
      answerPush_front h.numbered (h.cycles _ (mem_of_getElem? hcycle)) now response
    exact h.setCycle hfront hcloses hrest
  · exact h

theorem InOrder.claim (owner : String) (now lease : Timestamp)
    (limit : Nat) : InOrder deviceId (q.claim J P owner now lease limit) := by
  unfold PushQueue.claim
  split
  · exact h
  next hclaim =>
    obtain ⟨closed, hfront, hcloses, _⟩ :=
      claimSyncMutations_front h.numbered h.upwards hclaim
    exact h.closes hfront hcloses fun _ hstack => .inl hstack
  next store cs _ hclaim =>
  obtain ⟨closed, hfront, hcloses, hbatch, _⟩ :=
    claimSyncMutations_front h.numbered h.upwards hclaim
  refine h.closes hfront hcloses ?_
  intro stack hstack
  rcases mem_append.mp hstack with hold | hnew
  · exact .inl hold
  · rw [mem_singleton.mp hnew, pendingMutations_cons]
    refine .inr ?_
    rw [show pendingMutations ([] : List (DesktopSyncPushClaim H)) = [] from rfl, append_nil]
    exact hbatch

theorem InOrder.step (e : QueueEvent) :
    InOrder deviceId ((pushQueue J P deviceId).next q e) := by
  have hunchanged := deferPushClaims_closes h.numbered.unique 0 []
  cases e with
  | commit r op =>
    show InOrder deviceId (match localMutation q.store { r with deviceId := deviceId } op with
      | .ok (store, _) => { q with store := store }
      | .error _ => q)
    split
    next store receipt hlocal =>
      rcases localMutation_ok hlocal with rfl | hcommit
      · exact h
      · exact h.commit rfl hcommit
    · exact h
  | claim owner now lease limit => exact h.claim owner now lease limit
  | answer cycle response now => exact h.answer cycle response now
  | giveUp cycle now =>
    show InOrder deviceId (q.giveUp cycle now)
    unfold PushQueue.giveUp
    split
    · exact h.setCycle (.nil _) (deferPushClaims_closes h.numbered.unique now _) (by rintro _ ⟨⟩)
    · exact h
  | die cycle => exact h.setCycle (.nil _) hunchanged (by rintro _ ⟨⟩)

end

/-! ## The batches -/

/-- A batch the cloud's push schema accepts, with nothing left out before it. -/
structure PushBatch (deviceId : String) (s : Store H) (cs : List (ClaimedSyncMutation H)) :
    Prop where
  length : cs.length ≤ maxMutationsPerPage
  device : ∀ c ∈ cs, c.mutation.sourceDeviceId = deviceId
  consecutive : (cs.map (·.mutation)).IsChain Follows
  ids : (cs.map (·.mutation.mutationId)).Nodup
  /-- An open mutation before one of the batch is in the batch. -/
  noneSkipped : ∀ row ∈ s.outbox, row.isOpen = true → ∀ c ∈ cs,
    row.mutation.deviceMutationSequence < c.mutation.deviceMutationSequence →
      row.mutation ∈ cs.map (·.mutation)
  /-- Whether the request is accepted is a question of the single mutations. -/
  parsed : cs ≠ [] → ∀ ms, parseMutations (cs.map (·.mutation)) = some ms →
    parseRequest (cs.map (·.mutation)) = some ms

/-- What the schema requires of a batch as a whole. -/
theorem validPush_of_wire
    {ms : List SubmittedSyncMutation} (hne : cs ≠ []) (hlength : cs.length ≤ maxMutationsPerPage)
    (hdevice : ∀ c ∈ cs, c.mutation.sourceDeviceId = deviceId)
    (hstream : (cs.map (·.mutation)).IsChain Follows)
    (hids : (cs.map (·.mutation.mutationId)).Nodup)
    (hparse : parseMutations (cs.map (·.mutation)) = some ms) : ValidPush ms := by
  have hmap := parseMutations_map hparse
  have hlen := congrArg List.length hmap
  rw [length_map, length_map] at hlen
  have hdevice' : ∀ m ∈ ms, m.sourceDeviceId = deviceId := by
    intro m hm
    have hmem : m.toSubmittedSyncMutationWire ∈ cs.map (·.mutation) := by
      rw [← hmap]
      exact mem_map_of_mem hm
    obtain ⟨c, hc, heq⟩ := mem_map.mp hmem
    rw [← heq]
    exact hdevice c hc
  refine ⟨?_, by rw [hlen]; exact hlength, ?_, ?_⟩
  · rintro rfl
    exact hne (length_eq_zero_iff.mp hlen.symm)
  · have hids' : (cs.map (·.mutation)).map (·.mutationId) = ms.map (·.mutationId) := by
      rw [← hmap, List.map_map]
      rfl
    rw [← hids', List.map_map]
    exact hids
  · rw [← hmap, isChain_map] at hstream
    refine (isChain_iff_forall_rel_of_append_cons_cons.mpr ?_)
    intro a b l₁ l₂ hsplit
    refine ⟨?_, ?_⟩
    · rw [hdevice' a (by simp [hsplit]), hdevice' b (by simp [hsplit])]
    · exact isChain_iff_forall_rel_of_append_cons_cons.mp hstream hsplit

/-- Every batch that is claimed in any state of the queue. -/
theorem pushBatch_run [DecidableEq H] (J : SerdeJson H) (P : Platform H) (deviceId : String)
    {s : Store H} (hs : s.outbox = []) (es : List QueueEvent) (owner : String)
    (now lease : Timestamp) (limit : Nat) (s' : Store H) (cs : List (ClaimedSyncMutation H))
    (hclaim : claimSyncMutations J P ((pushQueue J P deviceId).run ⟨s, []⟩ es).store owner now lease
      limit = .ok (s', cs)) : PushBatch deviceId s' cs := by
  have h : InOrder deviceId ((pushQueue J P deviceId).run ⟨s, []⟩ es) :=
    (pushQueue J P deviceId).run_of_step (fun _ e hq => hq.step e) es (.empty hs)
  obtain ⟨closed, _, hcloses, hfront, hids, hlength⟩ :=
    claimSyncMutations_front h.numbered h.upwards hclaim
  have hn := h.numbered.update hcloses.update
  have hdevice : ∀ c ∈ cs, c.mutation.sourceDeviceId = deviceId :=
    fun c hc => hn.device _ (hfront.issued _ (mem_map_of_mem hc))
  refine ⟨hlength, hdevice, hfront.stream, hids, ?_, ?_⟩
  · intro row hrow hopen c hc hlt
    exact hfront.covers hn hrow hopen (mem_map_of_mem hc) (le_of_lt hlt)
  · intro hne ms hparse
    rw [parseRequest, hparse]
    exact if_pos (validPush_of_wire hne hlength hdevice hfront.stream hids hparse)

/-- Two edits; the first is claimed, put back and claimed again with the second. -/
def sampleQueue : List QueueEvent :=
  [.commit (sampleRequest "first" 1) (sampleEdit "mine"), .claim "owner" 2 100 256,
    .commit (sampleRequest "second" 2) (sampleEdit "again"), .giveUp 0 3]

/-- What is claimed after them. -/
def sampleQueueClaim :
    Except BusinessDatabaseError (Store Symbolic × List (ClaimedSyncMutation Symbolic)) :=
  claimSyncMutations sampleJson platform
    ((pushQueue sampleJson platform "device").run ⟨sampleStore, []⟩ sampleQueue).store
    "owner" 10 100 256

def sampleQueueBatch : Store Symbolic × List (ClaimedSyncMutation Symbolic) :=
  match sampleQueueClaim with
  | .ok batch => batch
  | .error _ => (sampleStore, [])

theorem pushBatch_run_sample :
    sampleQueueBatch.2.map (·.mutation.mutationId) = ["first", "second"] ∧
      PushBatch "device" sampleQueueBatch.1 sampleQueueBatch.2 := by
  have hclaim : sampleQueueClaim = .ok sampleQueueBatch := by decide
  exact ⟨by decide, pushBatch_run sampleJson platform "device" rfl sampleQueue "owner" 10
    100 256 sampleQueueBatch.1 sampleQueueBatch.2 hclaim⟩

end GoodDealer.Sync
