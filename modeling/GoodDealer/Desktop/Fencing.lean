/-
# `GoodDealer.Desktop.Fencing` — what claims and completions do to an outbox row

One statement for the claim (`claimSyncMutations_ok`) and one for the three completions
(`foldlM_settles`): which rows they touch, what they make of them, and that a completion
touches a row only through an item whose owner and fence are the current ones.

All that a transaction can do to one row is in `RowStep`:

    appended   no row               ↦  pending, never attempted
    claimed    open row             ↦  sending, with the next attempt number as its fence
    closed     open row             ↦  rejected, because no request can hold it
    settled    row sent by a claim  ↦  acknowledged, rejected, conflicted or pending

A terminal row is the source of no step, and the attempt number never shrinks.
-/
import GoodDealer.Desktop.Outbox

namespace GoodDealer.Desktop

open List Keyed

variable {H : Type} {s s' : Store H} {P : Platform H} {owner : String} {now lease : Timestamp}
  {cs : List (ClaimedSyncMutation H)} {c : ClaimedSyncMutation H}

/-! ## Claims and rows -/

theorem Store.outboxRow_setDelivery_ne (s : Store H) {mutationId i : String}
    {f : OutboxRow H → OutboxRow H} (hf : ∀ r, (f r).mutation = r.mutation) (hi : i ≠ mutationId) :
    (s.setDelivery mutationId f).outboxRow i = s.outboxRow i := by
  apply lookup_adjust_ne _ hi
  intro r hr
  show (f r).mutation.mutationId = mutationId
  rw [hf]
  exact hr

theorem Store.outboxRow_setState (s : Store H) {mutationId : String} {row : OutboxRow H}
    (h : s.outboxRow mutationId = some row) (state : DeliveryState) :
    (s.setDelivery mutationId (fun r => { r with state := state })).outboxRow mutationId =
      some { row with state := state } := by
  rw [s.outboxRow_setDelivery mutationId (f := fun r => { r with state := state }) fun _ => rfl, h]
  rfl

/-- The primary key of `sync_outbox`. -/
def Store.UniqueMutationIds (s : Store H) : Prop :=
  (s.outbox.map OutboxRow.mutationId).Nodup

theorem Store.UniqueMutationIds.lookup (hs : s.UniqueMutationIds) {row : OutboxRow H}
    (hrow : row ∈ s.outbox) : s.outboxRow row.mutationId = some row :=
  lookup_of_mem hs hrow

theorem Store.UniqueMutationIds.row_eq (hs : s.UniqueMutationIds) {row row' : OutboxRow H}
    (hrow : row ∈ s.outbox) (hrow' : row' ∈ s.outbox) (hid : row.mutationId = row'.mutationId) :
    row = row' :=
  inj_on_of_nodup_map hs hrow hrow' hid

/-- Owner and fence of the claim are the current ones of its row. -/
def Store.Current (s : Store H) (owner : String) (c : ClaimedSyncMutation H) : Prop :=
  ∃ row lease, s.outboxRow c.mutation.mutationId = some row ∧
    row.state = .sending owner lease c.deliveryAttemptFence

namespace OutboxRow

/-- The row once it is claimed. -/
def claim (P : Platform H) (owner : String) (leaseExpiresAt : Timestamp) (r : OutboxRow H) :
    OutboxRow H :=
  { r with
    state := .sending owner leaseExpiresAt (r.attemptCount + 1)
    attemptCount := r.attemptCount + 1
    wireMutationDigest := some (P.sha256 (.mutation r.mutation)) }

/-- What the claim of the row hands out. -/
def claimed (P : Platform H) (r : OutboxRow H) : ClaimedSyncMutation H :=
  ⟨r.mutation, r.attemptCount + 1, P.sha256 (.mutation r.mutation)⟩

variable {r : OutboxRow H}

theorem isOpen_of_due (h : r.due now = true) :
    r.isOpen = true := by
  unfold due at h
  unfold isOpen
  split at h <;> first | rfl | cases h

theorem isOpen_of_sending {fence : Nat}
    (h : r.state = .sending owner lease fence) : r.isOpen = true := by
  rw [isOpen, h]

end OutboxRow

/-- How a claim leaves the database: the rows that fit no request are closed, the next
ones taken, and no other row is touched. -/
structure ClaimedRows (P : Platform H) (owner : String) (now leaseExpiresAt : Timestamp)
    (closed taken : List (OutboxRow H)) (s s' : Store H) : Prop where
  due : ∀ row ∈ closed ++ taken, row.due now = true
  untouched : ∀ i, i ∉ (closed ++ taken).map OutboxRow.mutationId → s'.outboxRow i = s.outboxRow i
  closedRow : ∀ row ∈ closed, s'.outboxRow row.mutationId = some { row with state := .rejected }
  takenRow : ∀ row ∈ taken,
    s'.outboxRow row.mutationId = some (row.claim P owner leaseExpiresAt)

namespace ClaimedRows

variable {row : OutboxRow H} {closed taken : List (OutboxRow H)} {f : OutboxRow H → OutboxRow H}

theorem nil (s : Store H) : ClaimedRows P owner now lease [] [] s s where
  due := fun _ h => by cases h
  untouched := fun _ _ => rfl
  closedRow := fun _ h => by cases h
  takenRow := fun _ h => by cases h

variable (h : ClaimedRows P owner now lease closed taken (s.setDelivery row.mutationId f) s')
  (hf : ∀ r, (f r).mutation = r.mutation)

include h hf

/-- One more row is changed in front of the others. -/
theorem untouched_cons {i : String}
    (hi : i ∉ (row :: (closed ++ taken)).map OutboxRow.mutationId) :
    s'.outboxRow i = s.outboxRow i := by
  rw [map_cons, mem_cons, not_or] at hi
  rw [h.untouched i hi.2, s.outboxRow_setDelivery_ne hf hi.1]

/-- The row in front keeps the state it was given. -/
theorem head_row (hrow : s.outboxRow row.mutationId = some row)
    (hfresh : row.mutationId ∉ (closed ++ taken).map OutboxRow.mutationId) :
    s'.outboxRow row.mutationId = some (f row) := by
  rw [h.untouched _ hfresh, s.outboxRow_setDelivery _ hf, hrow, Option.map_some]

end ClaimedRows

/-- The rows a claim looks at, in device order. -/
def Store.candidates (s : Store H) (limit : Nat) : List (OutboxRow H) :=
  (sortByKey (fun r => r.mutation.deviceMutationSequence)
    (s.outbox.filter OutboxRow.isOpen)).take limit

theorem Store.mem_candidates {limit : Nat} {row : OutboxRow H}
    (h : row ∈ s.candidates limit) : row ∈ s.outbox ∧ row.isOpen = true :=
  mem_filter.mp (mem_sortByKey.mp (mem_of_mem_take h))

theorem Store.mem_batch {limit : Nat} {rows rest : List (OutboxRow H)} {row : OutboxRow H}
    (hsplit : s.candidates limit = rows ++ rest) (h : row ∈ rows) :
    row ∈ s.outbox ∧ row.isOpen = true :=
  mem_candidates (hsplit ▸ mem_append_left _ h)

theorem Store.UniqueMutationIds.candidates (hs : s.UniqueMutationIds) (limit : Nat) :
    ((s.candidates limit).map OutboxRow.mutationId).Nodup := by
  have hopen : ((s.outbox.filter OutboxRow.isOpen).map OutboxRow.mutationId).Nodup :=
    hs.sublist (filter_sublist.map _)
  have hsorted : ((sortByKey (fun r => r.mutation.deviceMutationSequence)
      (s.outbox.filter OutboxRow.isOpen)).map OutboxRow.mutationId).Nodup :=
    (((perm_insertionSort _ _).map _).nodup_iff).mpr hopen
  exact hsorted.sublist ((take_sublist _ _).map _)

section

variable [DecidableEq H] {J : SerdeJson H}

/-- A batch is a stretch of the candidate rows.  What stands before it fits no request
and is closed, which happens only while nothing is claimed; a claim of nothing stops at a
row that is not due. -/
theorem claimRows_ok : ∀ {rows : List (OutboxRow H)} {claimed cs : List (ClaimedSyncMutation H)}
    {s s' : Store H}, claimRows J P owner now lease rows claimed s = .ok (s', cs) →
    (rows.map OutboxRow.mutationId).Nodup →
    (∀ row ∈ rows, s.outboxRow row.mutationId = some row) →
    ∃ closed taken rest, rows = closed ++ taken ++ rest ∧
      cs = claimed ++ taken.map (·.claimed P) ∧ (claimed ≠ [] → closed = []) ∧
      (∀ row ∈ closed, maxSyncPushRequestBytes < J.pushRequest [row.mutation]) ∧
      (cs = [] → ∀ row ∈ rest.head?, row.due now = false) ∧
      ClaimedRows P owner now lease closed taken s s'
  | [], claimed, cs, s, s', h, _, _ => by
    cases h
    exact ⟨[], [], [], rfl, by simp, fun _ => rfl, by simp, by simp, .nil s⟩
  | row :: rows, claimed, cs, s, s', h, hnodup, hrows => by
    obtain ⟨hfresh, hnodup'⟩ := nodup_cons.mp hnodup
    have hrow := hrows row mem_cons_self
    -- the rows behind are not the one that is changed
    have hbehind : ∀ {f : OutboxRow H → OutboxRow H}, (∀ r, (f r).mutation = r.mutation) →
        ∀ r ∈ rows, (s.setDelivery row.mutationId f).outboxRow r.mutationId = some r := by
      intro f hf r hr
      have hne : r.mutationId ≠ row.mutationId :=
        fun heq => hfresh (heq ▸ mem_map_of_mem hr)
      rw [s.outboxRow_setDelivery_ne hf hne]
      exact hrows r (mem_cons_of_mem _ hr)
    have hahead : ∀ {taken rest : List (OutboxRow H)}, rows = taken ++ rest →
        row.mutationId ∉ taken.map OutboxRow.mutationId := by
      rintro taken rest rfl hmem
      rw [map_append] at hfresh
      exact hfresh (mem_append_left _ hmem)
    unfold claimRows at h
    split at h
    next hdue =>
      cases h
      exact ⟨[], [], row :: rows, rfl, by simp, fun _ => rfl, by simp,
        fun _ => by simpa using hdue, .nil s⟩
    next hdue =>
    have hdue' : row.due now = true := by simpa using hdue
    simp only at h
    split at h
    · cases h
    split at h
    · cases h
    split at h
    next hbytes =>
      split at h
      next hempty =>
        -- the row fits no request and is closed; nothing is claimed before it
        obtain ⟨closed, taken, rest, hsplit, hcs, _, hoversized, hstop, hclaims⟩ :=
          claimRows_ok h hnodup' (hbehind fun _ => rfl)
        rw [List.isEmpty_iff.mp hempty] at hbytes
        have hhead := hclaims.head_row (fun _ => rfl) hrow (hahead hsplit)
        refine ⟨row :: closed, taken, rest, by rw [hsplit]; rfl, hcs, ?_, ?_, hstop, ?_⟩
        · intro hne
          exact absurd (List.isEmpty_iff.mp hempty) hne
        · exact forall_mem_cons.mpr ⟨hbytes, hoversized⟩
        · exact ⟨forall_mem_cons.mpr ⟨hdue', hclaims.due⟩,
            fun i hi => hclaims.untouched_cons (fun _ => rfl) hi,
            forall_mem_cons.mpr ⟨hhead, hclaims.closedRow⟩, hclaims.takenRow⟩
      next hsome =>
        cases h
        exact ⟨[], [], row :: rows, rfl, by simp, fun _ => rfl, by simp,
          fun hnil => absurd (List.isEmpty_iff.mpr hnil) hsome, .nil s⟩
    split at h
    · cases h
    · obtain ⟨closed, taken, rest, hsplit, hcs, hnone, _, hstop, hclaims⟩ :=
        claimRows_ok h hnodup' (hbehind fun _ => rfl)
      have hclosed : closed = [] := hnone (by simp)
      subst hclosed
      have hhead := hclaims.head_row (fun _ => rfl) hrow (hahead hsplit)
      refine ⟨[], row :: taken, rest, by rw [hsplit]; rfl, ?_, fun _ => rfl, by simp, hstop, ?_⟩
      · rw [hcs, append_assoc]
        rfl
      · exact ⟨forall_mem_cons.mpr ⟨hdue', hclaims.due⟩,
          fun i hi => hclaims.untouched_cons (fun _ => rfl) hi, forall_mem_nil _,
          forall_mem_cons.mpr ⟨hhead, hclaims.takenRow⟩⟩

variable {limit : Nat} (h : claimSyncMutations J P s owner now lease limit = .ok (s', cs))

include h

/-- What `claim_sync_mutations_v2_guarded` hands out and does. -/
theorem claimSyncMutations_ok (hs : s.UniqueMutationIds) :
    ∃ closed taken rest, s.candidates limit = closed ++ taken ++ rest ∧
      cs = taken.map (·.claimed P) ∧
      (∀ row ∈ closed, maxSyncPushRequestBytes < J.pushRequest [row.mutation]) ∧
      (cs = [] → ∀ row ∈ rest.head?, row.due now = false) ∧
      ClaimedRows P owner now lease closed taken s s' := by
  unfold claimSyncMutations at h
  split at h
  · cases h
  obtain ⟨closed, taken, rest, hsplit, hcs, _, hrest⟩ :=
    claimRows_ok h (hs.candidates limit) fun row hrow => hs.lookup (Store.mem_candidates hrow).1
  exact ⟨closed, taken, rest, hsplit, by simpa using hcs, hrest⟩

/-- What the guard in front of a claim lets through. -/
theorem claimSyncMutations_guard : validIdentifier owner = true ∧ limit ≤ 256 := by
  unfold claimSyncMutations at h
  split at h
  · cases h
  next hguard =>
    simp only [Bool.or_eq_true, Bool.not_eq_true', decide_eq_true_eq, not_or,
      Bool.not_eq_false] at hguard
    exact ⟨hguard.1.1.1, by omega⟩

theorem claimSyncMutations_length (hs : s.UniqueMutationIds) : cs.length ≤ 256 := by
  obtain ⟨closed, taken, rest, hsplit, rfl, _⟩ := claimSyncMutations_ok h hs
  have hlength := congrArg List.length hsplit
  rw [Store.candidates, length_take, length_append, length_append] at hlength
  have hlimit := (claimSyncMutations_guard h).2
  rw [length_map]
  omega

end

/-! ## Completions -/

section

/-- The row of the claim has the state `target`, and is otherwise what it was. -/
def SettledTo (s s' : Store H) (c : ClaimedSyncMutation H) (target : OutboxRow H → DeliveryState) :
    Prop :=
  ∃ row, s.outboxRow c.mutation.mutationId = some row ∧
    s'.outboxRow c.mutation.mutationId = some { row with state := target row }

section

variable {t : Store H} {target : OutboxRow H → DeliveryState}

theorem SettledTo.before (h : SettledTo t s' c target)
    (heq : t.outboxRow c.mutation.mutationId = s.outboxRow c.mutation.mutationId) :
    SettledTo s s' c target := by
  obtain ⟨row, hrow, hrow'⟩ := h
  exact ⟨row, by rw [← heq, hrow], hrow'⟩

theorem SettledTo.after (h : SettledTo s t c target)
    (heq : s'.outboxRow c.mutation.mutationId = t.outboxRow c.mutation.mutationId) :
    SettledTo s s' c target := by
  obtain ⟨row, hrow, hrow'⟩ := h
  exact ⟨row, hrow, by rw [heq, hrow']⟩

end

/-- One item of a completion: the row its claim still holds gets the state `target`, or
has it already; no other row is touched. -/
structure SettlesOne (owner : String) (c : ClaimedSyncMutation H)
    (target : OutboxRow H → DeliveryState) (s s' : Store H) : Prop where
  row : SettledTo s s' c target
  untouched : ∀ i, i ≠ c.mutation.mutationId → s'.outboxRow i = s.outboxRow i
  current : s.Current owner c ∨ s' = s

/-- What a completion puts a row into: not a claim, and nothing that depends on the
state before. -/
structure CompletionState (target : OutboxRow H → DeliveryState) : Prop where
  notSending : ∀ row owner lease fence, target row ≠ .sending owner lease fence
  stateless : ∀ (row : OutboxRow H) state, target { row with state := state } = target row

/-- A completion that went through. -/
structure Completed (owner : String) (cs : List (ClaimedSyncMutation H)) (s s' : Store H) :
    Prop where
  /-- A row is touched only through an item that is current. -/
  fenced : ∀ i, s'.outboxRow i = s.outboxRow i ∨
    ∃ c ∈ cs, c.mutation.mutationId = i ∧ s.Current owner c
  stale : (∀ c ∈ cs, ¬ s.Current owner c) → s' = s
  /-- No row of the batch is being sent afterwards. -/
  released : ∀ c ∈ cs, ∃ row state, s.outboxRow c.mutation.mutationId = some row ∧
    s'.outboxRow c.mutation.mutationId = some { row with state := state } ∧
    ∀ o l f, state ≠ .sending o l f

variable {α : Type} {settle : Store H → α → Except BusinessDatabaseError (Store H)}
  {claim : α → ClaimedSyncMutation H} {target : α → OutboxRow H → DeliveryState}

section

variable (htarget : ∀ a, CompletionState (target a)) (hone : ∀ {t t' : Store H} {a : α},
    settle t a = .ok t' → SettlesOne owner (claim a) (target a) t t')

include htarget hone

/-- A batch that goes through settles every item, and touches a row only through an item
that is current. -/
theorem foldlM_settles :
    ∀ {batch : List α} {s s' : Store H}, batch.foldlM settle s = .ok s' →
      (∀ a ∈ batch, SettledTo s s' (claim a) (target a)) ∧
      (∀ i, s'.outboxRow i = s.outboxRow i ∨
        ∃ a ∈ batch, (claim a).mutation.mutationId = i ∧ s.Current owner (claim a)) ∧
      ((∀ a ∈ batch, ¬ s.Current owner (claim a)) → s' = s)
  | [], s, s', h => by
    cases h
    exact ⟨fun _ ha => (by cases ha), fun _ => .inl rfl, fun _ => rfl⟩
  | a :: as, s, s', h => by
    rw [foldlM_cons] at h
    cases ha : settle s a with
    | error e => rw [ha] at h; cases h
    | ok t =>
      rw [ha] at h
      obtain ⟨hrows, hsame, hstale⟩ := foldlM_settles h
      have hfirst := hone ha
      obtain ⟨row, hrow, hrow'⟩ := hfirst.row
      -- the row of the first item is no longer sent, so no later item holds it
      have hlost : ∀ b, (claim b).mutation.mutationId = (claim a).mutation.mutationId →
          ¬ t.Current owner (claim b) := by
        rintro b hid ⟨r, lease, hr, hstate⟩
        rw [hid, hrow'] at hr
        cases hr
        exact (htarget a).notSending _ _ _ _ hstate
      have hearlier : ∀ b, (claim b).mutation.mutationId ≠ (claim a).mutation.mutationId →
          (t.Current owner (claim b) ↔ s.Current owner (claim b)) := by
        intro b hne
        unfold Store.Current
        rw [hfirst.untouched _ hne]
      refine ⟨?_, ?_, ?_⟩
      · intro b hb
        rcases mem_cons.mp hb with rfl | hb
        · refine ⟨row, hrow, ?_⟩
          rcases hsame (claim b).mutation.mutationId with heq | ⟨d, _, hid, hd⟩
          · rw [heq, hrow']
          · exact absurd hd (hlost d hid)
        · obtain ⟨r, hr, hr'⟩ := hrows b hb
          by_cases hid : (claim b).mutation.mutationId = (claim a).mutation.mutationId
          · rw [hid, hrow'] at hr
            cases hr
            refine ⟨row, by rw [hid, hrow], ?_⟩
            rw [hr', (htarget b).stateless row]
          · rw [hfirst.untouched _ hid] at hr
            exact ⟨r, hr, hr'⟩
      · intro i
        by_cases hid : i = (claim a).mutation.mutationId
        · rcases hfirst.current with hcur | rfl
          · exact .inr ⟨a, mem_cons_self, hid.symm, hcur⟩
          · rcases hsame i with heq | ⟨d, hd, hdi, hcur⟩
            · exact .inl heq
            · exact .inr ⟨d, mem_cons_of_mem _ hd, hdi, hcur⟩
        · rcases hsame i with heq | ⟨d, hd, hdi, hcur⟩
          · exact .inl (heq.trans (hfirst.untouched i hid))
          · refine .inr ⟨d, mem_cons_of_mem _ hd, hdi, ?_⟩
            exact (hearlier d (hdi ▸ hid)).mp hcur
      · intro hnone
        rcases hfirst.current with hcur | rfl
        · exact absurd hcur (hnone a mem_cons_self)
        · exact hstale (forall_mem_cons.mp hnone).2

variable (claim) in
theorem settleAll_completed {batch : List α}
    (h : settleAll settle s batch = .ok s') :
    (∀ a ∈ batch, SettledTo s s' (claim a) (target a)) ∧
      Completed owner (batch.map claim) s s' := by
  unfold settleAll at h
  split at h
  · cases h
  obtain ⟨hrows, hsame, hstale⟩ := foldlM_settles htarget hone h
  refine ⟨hrows, ?_, ?_, ?_⟩
  · intro i
    rcases hsame i with heq | ⟨a, ha, hi, hcur⟩
    · exact .inl heq
    · exact .inr ⟨claim a, mem_map_of_mem ha, hi, hcur⟩
  · exact fun hnone => hstale fun a ha => hnone _ (mem_map_of_mem ha)
  · intro c hc
    obtain ⟨a, ha, rfl⟩ := mem_map.mp hc
    obtain ⟨row, hrow, hrow'⟩ := hrows a ha
    exact ⟨row, _, hrow, hrow', (htarget a).notSending row⟩

end

/-- The state an acknowledgement gives its row. -/
def acknowledgedState (a : SyncMutationAcknowledgement H) (_ : OutboxRow H) : DeliveryState :=
  .acknowledged a.serverRevision

/-- The state a deferral at `now` gives a row. -/
def deferredState (now : Timestamp) (row : OutboxRow H) : DeliveryState :=
  .pending (some (now + deferralDelay row.attemptCount))

/-- The state a rejection gives a row. -/
def rejectedState (conflicted : Bool) (_ : OutboxRow H) : DeliveryState :=
  if conflicted then .conflicted else .rejected

theorem completion_acknowledged (a : SyncMutationAcknowledgement H) :
    CompletionState (acknowledgedState a) :=
  ⟨by rintro _ _ _ _ ⟨⟩, fun _ _ => rfl⟩

theorem completion_deferred (now : Timestamp) : CompletionState (H := H) (deferredState now) :=
  ⟨by rintro _ _ _ _ ⟨⟩, fun _ _ => rfl⟩

theorem completion_rejected (conflicted : Bool) :
    CompletionState (H := H) (rejectedState conflicted) :=
  ⟨by cases conflicted <;> rintro _ _ _ _ ⟨⟩, fun _ _ => rfl⟩

variable [DecidableEq H]

/-- Giving a held row a new state is settling it. -/
theorem SettlesOne.of_held {row : OutboxRow H} {target : OutboxRow H → DeliveryState}
    (h : s.heldRow owner c = some row)
    (hrow : s'.outboxRow c.mutation.mutationId = some { row with state := target row })
    (hother : ∀ i, i ≠ c.mutation.mutationId → s'.outboxRow i = s.outboxRow i) :
    SettlesOne owner c target s s' := by
  obtain ⟨hlookup, lease, hstate⟩ := heldRow_some h
  exact ⟨⟨row, hlookup, hrow⟩, hother, .inl ⟨row, lease, hlookup, hstate⟩⟩

theorem settleHeld_settles {target : OutboxRow H → DeliveryState}
    (h : settleHeld target owner s c = .ok s') : SettlesOne owner c target s s' := by
  unfold settleHeld at h
  split at h
  · cases h
  split at h
  next row hheld =>
    cases h
    refine .of_held hheld ?_ fun i hi => s.outboxRow_setDelivery_ne (fun _ => rfl) hi
    exact s.outboxRow_setState (heldRow_some hheld).1 _
  · cases h

theorem acknowledgeOne_settles {a : SyncMutationAcknowledgement H}
    (h : acknowledgeOne owner s a = .ok s') :
    SettlesOne owner a.claimed (acknowledgedState a) s s' := by
  unfold acknowledgeOne at h
  split at h
  · cases h
  split at h
  next row hheld =>
    split at h
    · cases h
    cases h
    refine .of_held hheld ?_ fun i hi => s.outboxRow_setDelivery_ne (fun _ => rfl) hi
    exact s.outboxRow_setState (heldRow_some hheld).1 _
  next =>
  split at h
  next hany =>
    cases h
    -- an exact replay: the row says already what the item says
    obtain ⟨row, hrow, hack⟩ := Option.any_eq_true _ _ |>.mp hany
    unfold OutboxRow.acknowledgedAs at hack
    simp only [Bool.and_eq_true, decide_eq_true_eq] at hack
    refine ⟨⟨row, hrow, ?_⟩, fun _ _ => rfl, .inr rfl⟩
    rw [hrow, acknowledgedState, ← hack.1.1.1.1]
  · cases h

theorem acknowledgeSyncBatch_ok {as : List (SyncMutationAcknowledgement H)}
    (h : acknowledgeSyncBatch s owner as = .ok s') :
    (∀ a ∈ as, SettledTo s s' a.claimed (acknowledgedState a)) ∧
      Completed owner (as.map (·.claimed)) s s' := by
  unfold acknowledgeSyncBatch at h
  split at h
  · cases h
  · exact settleAll_completed (·.claimed) completion_acknowledged acknowledgeOne_settles h

theorem deferRetryableSyncBatch_ok (h : deferRetryableSyncBatch s owner cs now = .ok s') :
    (∀ c ∈ cs, SettledTo s s' c (deferredState now)) ∧ Completed owner cs s s' := by
  unfold deferRetryableSyncBatch at h
  split at h
  · cases h
  · have hdone := settleAll_completed id (fun _ => completion_deferred now)
      settleHeld_settles h
    rwa [map_id] at hdone

theorem rejectSyncBatch_ok {conflicted : Bool}
    (h : rejectSyncBatch s owner cs conflicted = .ok s') :
    (∀ c ∈ cs, SettledTo s s' c (rejectedState conflicted)) ∧ Completed owner cs s s' := by
  unfold rejectSyncBatch at h
  split at h
  · cases h
  · have hdone := settleAll_completed id (fun _ => completion_rejected conflicted)
      settleHeld_settles h
    rwa [map_id] at hdone

end

/-! ## One row -/

/-- What a transaction does to the row of one mutation. -/
inductive RowStep (P : Platform H) : Option (OutboxRow H) → Option (OutboxRow H) → Prop
  | same (row) : RowStep P row row
  | appended {row : OutboxRow H} (attempts : row.attemptCount = 0)
      (state : row.state = .pending none) : RowStep P none (some row)
  | claimed {row : OutboxRow H} {owner : String} {lease : Timestamp} (isOpen : row.isOpen = true) :
      RowStep P (some row) (some (row.claim P owner lease))
  | closed {row : OutboxRow H} (isOpen : row.isOpen = true) :
      RowStep P (some row) (some { row with state := .rejected })
  | settled {row : OutboxRow H} {owner : String} {lease : Timestamp} {fence : Nat}
      {state : DeliveryState} (sent : row.state = .sending owner lease fence)
      (released : ∀ o l f, state ≠ .sending o l f) :
      RowStep P (some row) (some { row with state := state })

namespace RowStep

variable {row : OutboxRow H} {o : Option (OutboxRow H)}

variable (h : RowStep P (some row) o)

include h

/-- A terminal row stays as it is. -/
theorem terminal (hclosed : row.isOpen = false) : o = some row := by
  cases h with
  | same => rfl
  | claimed hopen | closed hopen => rw [hopen] at hclosed; cases hclosed
  | settled hsent _ => rw [OutboxRow.isOpen_of_sending hsent] at hclosed; cases hclosed

/-- A row is never deleted, its mutation is never rewritten, and its attempts only grow. -/
theorem kept :
    ∃ row', o = some row' ∧ row'.mutation = row.mutation ∧
      row.attemptCount ≤ row'.attemptCount := by
  cases h with
  | same => exact ⟨row, rfl, rfl, le_rfl⟩
  | claimed => exact ⟨_, rfl, rfl, Nat.le_succ _⟩
  | closed | settled => exact ⟨_, rfl, rfl, le_rfl⟩

/-- A fence that was given out and is not the current one does not become current again. -/
theorem superseded {fence : Nat}
    (hissued : fence ≤ row.attemptCount) (hlost : ∀ lease, row.state ≠ .sending owner lease fence) :
    ∃ row', o = some row' ∧ fence ≤ row'.attemptCount ∧
      ∀ lease, row'.state ≠ .sending owner lease fence := by
  cases h with
  | same => exact ⟨row, rfl, hissued, hlost⟩
  | claimed =>
    refine ⟨_, rfl, Nat.le_succ_of_le hissued, ?_⟩
    intro lease hstate
    -- the fence of the new claim is one more than any given out before
    have hfence : row.attemptCount + 1 = fence := by
      simpa [OutboxRow.claim] using (DeliveryState.sending.inj hstate).2.2
    omega
  | closed => exact ⟨_, rfl, hissued, by rintro _ ⟨⟩⟩
  | settled _ hreleased => exact ⟨_, rfl, hissued, fun lease => hreleased owner lease fence⟩

end RowStep

section

variable {r : MutationRequest} {op : LocalOperation}

theorem Completed.untouched
    (h : Completed owner cs s s') {i : String} (hi : i ∉ cs.map (·.mutation.mutationId)) :
    s'.outboxRow i = s.outboxRow i := by
  rcases h.fenced i with heq | ⟨c, hc, hid, _⟩
  · exact heq
  · exact absurd (mem_map.mpr ⟨c, hc, hid⟩) hi

theorem Completed.rowStep
    (h : Completed owner cs s s') (i : String) : RowStep P (s.outboxRow i) (s'.outboxRow i) := by
  rcases h.fenced i with heq | ⟨c, hc, rfl, row, lease, hrow, hstate⟩
  · rw [heq]
    exact .same _
  · obtain ⟨row', state, hlookup, hlookup', hreleased⟩ := h.released c hc
    rw [hrow] at hlookup
    cases hlookup
    rw [hrow, hlookup']
    exact .settled hstate hreleased

theorem ClaimedRows.rowStep
    {closed taken : List (OutboxRow H)} (h : ClaimedRows P owner now lease closed taken s s')
    (hrows : ∀ row ∈ closed ++ taken, s.outboxRow row.mutationId = some row) (i : String) :
    RowStep P (s.outboxRow i) (s'.outboxRow i) := by
  by_cases hi : i ∈ (closed ++ taken).map OutboxRow.mutationId
  · obtain ⟨row, hrow, rfl⟩ := mem_map.mp hi
    have hopen := OutboxRow.isOpen_of_due (h.due row hrow)
    rw [hrows row hrow]
    rcases mem_append.mp hrow with hrow | hrow
    · rw [h.closedRow row hrow]
      exact .closed hopen
    · rw [h.takenRow row hrow]
      exact .claimed hopen
  · rw [h.untouched i hi]
    exact .same _

theorem LocalCommit.rowStep (h : LocalCommit s r op s')
    (i : String) : RowStep P (s.outboxRow i) (s'.outboxRow i) := by
  have hlookup : s'.outboxRow i =
      (s.outboxRow i).or (Keyed.lookup OutboxRow.mutationId i [op.addedRow r s]) := by
    rw [Store.outboxRow, h.outbox, Keyed.lookup_append]
    rfl
  rw [hlookup]
  cases hrow : s.outboxRow i with
  | some row => exact .same _
  | none =>
    rw [Keyed.lookup_cons, Option.none_or]
    split
    · exact .appended rfl rfl
    · exact .same _

theorem Store.UniqueMutationIds.append {row : OutboxRow H} (hs : s.UniqueMutationIds)
    (hfresh : s.outboxRow row.mutationId = none) :
    ((s.outbox ++ [row]).map OutboxRow.mutationId).Nodup :=
  nodup_append_new hs hfresh

theorem LocalCommit.uniqueMutationIds
    (h : LocalCommit s r op s') (hs : s.UniqueMutationIds) : s'.UniqueMutationIds := by
  unfold Store.UniqueMutationIds
  rw [h.outbox]
  exact hs.append h.fresh

theorem LocalCommit.mutations (h : LocalCommit s r op s') :
    s'.outbox.map OutboxRow.mutation = s.outbox.map OutboxRow.mutation ++
      [op.mutation r s.appliedThroughServerRevision s.nextDeviceMutationSequence] := by
  rw [h.outbox, map_append, map_singleton]
  rfl

theorem DeliveryUpdate.uniqueMutationIds (h : DeliveryUpdate s s') (hs : s.UniqueMutationIds) :
    s'.UniqueMutationIds := by
  have hids : s'.outbox.map OutboxRow.mutationId = s.outbox.map OutboxRow.mutationId := by
    have hmap := congrArg (List.map (·.mutationId)) h.mutations
    rwa [List.map_map, List.map_map] at hmap
  unfold Store.UniqueMutationIds
  rw [hids]
  exact hs

theorem DeliveryUpdate.row_before (h : DeliveryUpdate s s') {row' : OutboxRow H}
    (hrow' : row' ∈ s'.outbox) : ∃ row ∈ s.outbox, row'.mutation = row.mutation := by
  have hmem : row'.mutation ∈ s.outbox.map OutboxRow.mutation := by
    rw [← h.mutations]
    exact mem_map_of_mem hrow'
  obtain ⟨row, hrow, heq⟩ := mem_map.mp hmem
  exact ⟨row, hrow, heq.symm⟩

end

end GoodDealer.Desktop
