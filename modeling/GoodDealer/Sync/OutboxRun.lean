/-
# `GoodDealer.Sync.OutboxRun` — every run of the outbox

Claims, acknowledgements, deferrals and rejections come from any owner, late, twice,
or after the lease of the claim ran out and another owner took the row over.  A lease
that runs out is no transaction: it is the time a later claim is made at.

`DeliverySafe` is what holds of every state such a run reaches; each field is one
invariant of `RowStep`, carried along the run.
-/
import GoodDealer.Desktop.Fencing
import GoodDealer.Sync.Push

namespace GoodDealer.Sync

open Desktop Symbolic

variable {H : Type}

/-! ## Transactions on the outbox -/

/-- A transaction that writes `sync_outbox`. -/
inductive OutboxEvent (H : Type) where
  | commit (request : MutationRequest) (op : LocalOperation)
  | claim (deliveryOwner : String) (now leaseExpiresAt : Timestamp) (limit : Nat)
  | acknowledge (deliveryOwner : String) (acknowledgements : List (SyncMutationAcknowledgement H))
  | defer (deliveryOwner : String) (mutations : List (ClaimedSyncMutation H)) (now : Timestamp)
  | reject (deliveryOwner : String) (mutations : List (ClaimedSyncMutation H)) (conflicted : Bool)

inductive OutboxReply (H : Type) where
  | failed (error : BusinessDatabaseError)
  | done
  | claimed (mutations : List (ClaimedSyncMutation H))
deriving DecidableEq

/-- The owner and the claims a completion names. -/
def OutboxEvent.completes : OutboxEvent H → Option (String × List (ClaimedSyncMutation H))
  | .commit .. | .claim .. => none
  | .acknowledge owner as => some (owner, as.map (·.claimed))
  | .defer owner cs _ | .reject owner cs _ => some (owner, cs)

/-- A transaction that fails is rolled back. -/
def OutboxReply.of (s : Store H) : Except BusinessDatabaseError (Store H) → Store H × OutboxReply H
  | .error e => (s, .failed e)
  | .ok s' => (s', .done)

/-- The outbox as a machine: SQLite runs one transaction at a time. -/
def outbox [DecidableEq H] (J : SerdeJson H) (P : Platform H) :
    Machine (Store H) (OutboxEvent H) (OutboxReply H) where
  step s
    | .commit r op => OutboxReply.of s ((localMutation s r op).map (·.1))
    | .claim owner now lease limit =>
      match claimSyncMutations J P s owner now lease limit with
      | .error e => (s, .failed e)
      | .ok (s', cs) => (s', .claimed cs)
    | .acknowledge owner as => OutboxReply.of s (acknowledgeSyncBatch s owner as)
    | .defer owner cs now => OutboxReply.of s (deferRetryableSyncBatch s owner cs now)
    | .reject owner cs conflicted => OutboxReply.of s (rejectSyncBatch s owner cs conflicted)

/-- Every row of a completed batch has the state the completion gives. -/
def OutboxEvent.Settled (s s' : Store H) : OutboxEvent H → Prop
  | .commit .. | .claim .. => True
  | .acknowledge _ as => ∀ a ∈ as, SettledTo s s' a.claimed (acknowledgedState a)
  | .defer _ cs now => ∀ c ∈ cs, SettledTo s s' c (deferredState now)
  | .reject _ cs conflicted => ∀ c ∈ cs, SettledTo s s' c (rejectedState conflicted)

section

variable [DecidableEq H] {J : SerdeJson H} {P : Platform H} {s : Store H}

/-- A completion is rolled back, or settles its whole batch. -/
theorem outbox_completion {e : OutboxEvent H} {owner : String} {cs : List (ClaimedSyncMutation H)}
    (he : e.completes = some (owner, cs)) : (outbox J P).next s e = s ∨
      DeliveryUpdate s ((outbox J P).next s e) ∧ e.Settled s ((outbox J P).next s e) ∧
      Completed owner cs s ((outbox J P).next s e) := by
  have hof : ∀ res : Except BusinessDatabaseError (Store H),
      (∀ s', res = .ok s' → DeliveryUpdate s s' ∧ e.Settled s s' ∧ Completed owner cs s s') →
      (OutboxReply.of s res).1 = s ∨ DeliveryUpdate s (OutboxReply.of s res).1 ∧
        e.Settled s (OutboxReply.of s res).1 ∧ Completed owner cs s (OutboxReply.of s res).1 := by
    intro res hres
    cases res with
    | error err => exact .inl rfl
    | ok s' => exact .inr (hres s' rfl)
  cases e with
  | commit | claim => cases he
  | acknowledge =>
    cases he
    exact hof _ fun _ h => ⟨acknowledgeSyncBatch_update h, acknowledgeSyncBatch_ok h⟩
  | defer =>
    cases he
    exact hof _ fun _ h => ⟨deferRetryableSyncBatch_update h, deferRetryableSyncBatch_ok h⟩
  | reject =>
    cases he
    exact hof _ fun _ h => ⟨rejectSyncBatch_update h, rejectSyncBatch_ok h⟩

variable (hs : s.UniqueMutationIds)

include hs

theorem outbox_claim (owner : String) (now lease : Timestamp)
    (limit : Nat) :
    (∃ error, (outbox J P).step s (.claim owner now lease limit) = (s, .failed error)) ∨
      ∃ s' closed taken rest,
        (outbox J P).step s (.claim owner now lease limit) =
          (s', .claimed (taken.map (·.claimed P))) ∧
        s.candidates limit = closed ++ taken ++ rest ∧ DeliveryUpdate s s' ∧
        ClaimedRows P owner now lease closed taken s s' := by
  simp only [outbox]
  split
  next error _ => exact .inl ⟨error, rfl⟩
  next s' cs h =>
    obtain ⟨closed, taken, rest, hsplit, hcs, _, _, hclaims⟩ := claimSyncMutations_ok h hs
    exact .inr ⟨s', closed, taken, rest, by rw [hcs], hsplit, claimSyncMutations_update h, hclaims⟩

/-- A transaction adds a row, or changes how the rows are delivered. -/
theorem outbox_step (e : OutboxEvent H) :
    (outbox J P).next s e = s ∨ (∃ r op, LocalCommit s r op ((outbox J P).next s e)) ∨
      DeliveryUpdate s ((outbox J P).next s e) ∧
      ∀ i, RowStep P (s.outboxRow i) (((outbox J P).next s e).outboxRow i) := by
  cases e with
  | commit r op =>
    show (OutboxReply.of s _).1 = s ∨ (∃ _ _, LocalCommit s _ _ (OutboxReply.of s _).1) ∨ _
    cases h : localMutation s r op with
    | error => exact .inl rfl
    | ok res => exact (localMutation_ok h).imp_right fun hcommit => .inl ⟨r, op, hcommit⟩
  | claim owner now lease limit =>
    unfold Machine.next
    rcases outbox_claim (J := J) (P := P) hs owner now lease limit with
      ⟨_, h⟩ | ⟨s', closed, taken, rest, h, hsplit, hupdate, hclaims⟩
    · rw [h]
      exact .inl rfl
    · rw [h]
      refine .inr (.inr ⟨hupdate, hclaims.rowStep fun row hrow => ?_⟩)
      exact hs.lookup (Store.mem_batch hsplit hrow).1
  | acknowledge | defer | reject =>
    exact (outbox_completion rfl).imp_right fun ⟨hupdate, _, hdone⟩ =>
      .inr ⟨hupdate, fun i => hdone.rowStep i⟩

/-- One transaction, one row. -/
theorem outbox_rowStep (e : OutboxEvent H) (i : String) :
    RowStep P (s.outboxRow i) (((outbox J P).next s e).outboxRow i) := by
  rcases outbox_step (J := J) (P := P) hs e with h | ⟨_, _, hcommit⟩ | ⟨_, hrows⟩
  · rw [h]
    exact .same _
  · exact hcommit.rowStep i
  · exact hrows i

theorem outbox_uniqueMutationIds (e : OutboxEvent H) :
    ((outbox J P).next s e).UniqueMutationIds := by
  rcases outbox_step (J := J) (P := P) hs e with h | ⟨_, _, hcommit⟩ | ⟨hupdate, _⟩
  · rw [h]
    exact hs
  · exact hcommit.uniqueMutationIds hs
  · exact hupdate.uniqueMutationIds hs

end

/-! ## Whole runs -/

section

variable [DecidableEq H] {J : SerdeJson H} {P : Platform H} {s : Store H}

theorem outbox_run_unique (hs : s.UniqueMutationIds) (es : List (OutboxEvent H)) :
    ((outbox J P).run s es).UniqueMutationIds :=
  (outbox J P).run_of_step (I := Store.UniqueMutationIds)
    (fun _ e ht => outbox_uniqueMutationIds ht e) es hs

/-- What every transaction keeps of one row, a run keeps. -/
theorem outbox_run_row {i : String} {I : OutboxRow H → Prop}
    (hstep : ∀ row o, RowStep P (some row) o → I row → ∃ row', o = some row' ∧ I row')
    (hs : s.UniqueMutationIds) (es : List (OutboxEvent H)) {row : OutboxRow H}
    (hrow : s.outboxRow i = some row) (hI : I row) :
    ∃ row', ((outbox J P).run s es).outboxRow i = some row' ∧ I row' := by
  let Kept (t : Store H) : Prop := t.UniqueMutationIds ∧ ∃ row, t.outboxRow i = some row ∧ I row
  suffices h : Kept ((outbox J P).run s es) from h.2
  refine (outbox J P).run_of_step ?_ es ⟨hs, row, hrow, hI⟩
  rintro t e ⟨ht, r, hr, hIr⟩
  refine ⟨outbox_uniqueMutationIds ht e, hstep r _ ?_ hIr⟩
  rw [← hr]
  exact outbox_rowStep ht e i

/-- What a claim hands out is the row it found, with the next fence. -/
theorem outbox_claimed {owner : String} {now lease : Timestamp} {limit : Nat}
    {cs : List (ClaimedSyncMutation H)} {c : ClaimedSyncMutation H} (hs : s.UniqueMutationIds)
    (h : (outbox J P).out s (.claim owner now lease limit) = .claimed cs) (hc : c ∈ cs) :
    ∃ row, c = row.claimed P ∧ s.outboxRow c.mutation.mutationId = some row ∧
      ((outbox J P).next s (.claim owner now lease limit)).outboxRow c.mutation.mutationId =
        some (row.claim P owner lease) := by
  unfold Machine.out at h
  unfold Machine.next
  rcases outbox_claim (J := J) (P := P) hs owner now lease limit with
    ⟨_, hstep⟩ | ⟨s', closed, taken, rest, hstep, hsplit, _, hclaims⟩
  · rw [hstep] at h
    cases h
  · rw [hstep] at h ⊢
    cases h
    obtain ⟨row, hrow, rfl⟩ := List.mem_map.mp hc
    have hmem := (Store.mem_batch hsplit (List.mem_append_right _ hrow)).1
    exact ⟨row, rfl, hs.lookup hmem, hclaims.takenRow row hrow⟩

/-- What the delivery cycle guarantees from a state on. -/
structure DeliverySafe (J : SerdeJson H) (P : Platform H) (s : Store H) : Prop where
  /-- A mutation that is acknowledged, rejected or conflicted stays so. -/
  terminal : ∀ es i row, s.outboxRow i = some row → row.isOpen = false →
    ((outbox J P).run s es).outboxRow i = some row
  /-- A completion touches a row only if it names its current owner and fence. -/
  fenced : ∀ e owner cs, e.completes = some (owner, cs) → ∀ i,
    ((outbox J P).next s e).outboxRow i ≠ s.outboxRow i →
      ∃ c ∈ cs, c.mutation.mutationId = i ∧ s.Current owner c
  /-- A completion that names no current owner and fence changes nothing at all. -/
  stale : ∀ e owner cs, e.completes = some (owner, cs) → (∀ c ∈ cs, ¬ s.Current owner c) →
    (outbox J P).next s e = s
  /-- A claim that lost a row does not get it back. -/
  takenOver : ∀ owner now lease limit cs,
    (outbox J P).out s (.claim owner now lease limit) = .claimed cs → ∀ c ∈ cs, ∀ es fs,
      ¬ ((outbox J P).run s (.claim owner now lease limit :: es)).Current owner c →
      ¬ ((outbox J P).run s (.claim owner now lease limit :: es ++ fs)).Current owner c
  /-- A batch is settled as a whole or not at all. -/
  atomic : ∀ e owner cs, e.completes = some (owner, cs) →
    (outbox J P).next s e = s ∨ e.Settled s ((outbox J P).next s e)
  /-- Every attempt at a mutation sends the same content. -/
  content : ∀ owner now lease limit cs,
    (outbox J P).out s (.claim owner now lease limit) = .claimed cs →
    ∀ es owner' now' lease' limit' cs',
      (outbox J P).out ((outbox J P).run s (.claim owner now lease limit :: es))
        (.claim owner' now' lease' limit') = .claimed cs' →
      ∀ c ∈ cs, ∀ c' ∈ cs', c'.mutation.mutationId = c.mutation.mutationId →
        c'.mutation = c.mutation ∧ c'.wireMutationDigest = c.wireMutationDigest

theorem deliverySafe_of_unique (hs : s.UniqueMutationIds) : DeliverySafe J P s where
  terminal := by
    intro es i row hrow hclosed
    obtain ⟨row', hrow', rfl⟩ := outbox_run_row (J := J) (I := (· = row))
      (by rintro r o hstep rfl; exact ⟨r, hstep.terminal hclosed, rfl⟩) hs es hrow rfl
    exact hrow'
  fenced := by
    intro e owner cs he i hne
    rcases outbox_completion (J := J) (P := P) (s := s) he with h | ⟨_, _, hdone⟩
    · rw [h] at hne
      exact absurd rfl hne
    · exact (hdone.fenced i).resolve_left hne
  stale := by
    intro e owner cs he hnone
    rcases outbox_completion (J := J) (P := P) (s := s) he with h | ⟨_, _, hdone⟩
    · exact h
    · exact hdone.stale hnone
  takenOver := by
    intro owner now lease limit cs hout c hc es fs hlost
    obtain ⟨row, hcr, hrow, hrow'⟩ := outbox_claimed hs hout hc
    have hs₁ := outbox_uniqueMutationIds (J := J) (P := P) hs (.claim owner now lease limit)
    -- the fence of `c` was given out, and the attempts of its row never shrink
    obtain ⟨r, hr, hissued⟩ := outbox_run_row (J := J)
      (I := fun r => c.deliveryAttemptFence ≤ r.attemptCount)
      (by
        intro r o hstep hle
        obtain ⟨r', ho, _, hmono⟩ := hstep.kept
        exact ⟨r', ho, le_trans hle hmono⟩)
      hs₁ es hrow' (by rw [hcr]; exact le_rfl)
    have hs₂ := outbox_run_unique (J := J) (P := P) hs (.claim owner now lease limit :: es)
    obtain ⟨r', hr', _, hlost'⟩ := outbox_run_row (J := J)
      (I := fun r => c.deliveryAttemptFence ≤ r.attemptCount ∧
        ∀ lease, r.state ≠ .sending owner lease c.deliveryAttemptFence)
      (fun r o hstep hI => hstep.superseded hI.1 hI.2) hs₂ fs hr
      ⟨hissued, fun lease hstate => hlost ⟨r, lease, hr, hstate⟩⟩
    rintro ⟨r'', lease', hr'', hstate⟩
    rw [(outbox J P).run_append, hr'] at hr''
    cases hr''
    exact hlost' lease' hstate
  atomic := by
    intro e owner cs he
    exact (outbox_completion he).imp_right fun ⟨_, hsettled, _⟩ => hsettled
  content := by
    intro owner now lease limit cs hout es owner' now' lease' limit' cs' hout' c hc c' hc' hid
    obtain ⟨row, hcr, hrow, hrow'⟩ := outbox_claimed hs hout hc
    have hs₁ := outbox_uniqueMutationIds (J := J) (P := P) hs (.claim owner now lease limit)
    obtain ⟨r, hr, hmutation⟩ := outbox_run_row (J := J) (I := fun r => r.mutation = row.mutation)
      (by
        intro r o hstep heq
        obtain ⟨r', ho, hm, _⟩ := hstep.kept
        exact ⟨r', ho, hm.trans heq⟩)
      hs₁ es hrow' rfl
    have hs₂ := outbox_run_unique (J := J) (P := P) hs (.claim owner now lease limit :: es)
    obtain ⟨row', hcr', hfound, _⟩ := outbox_claimed hs₂ hout' hc'
    rw [hid, Machine.run_cons, hr] at hfound
    cases hfound
    rw [hcr, hcr']
    exact ⟨hmutation, congrArg (fun m => P.sha256 (.mutation m)) hmutation⟩

end

/-- From an empty outbox on, in every state any run of transactions reaches. -/
theorem deliverySafe_run [DecidableEq H] (J : SerdeJson H) (P : Platform H) {s : Store H}
    (hs : s.outbox = []) (es : List (OutboxEvent H)) :
    DeliverySafe J P ((outbox J P).run s es) := by
  have hempty : s.UniqueMutationIds := by
    unfold Store.UniqueMutationIds
    rw [hs]
    exact List.nodup_nil
  exact deliverySafe_of_unique (outbox_run_unique hempty es)

/-- Two owners claim the same edit, the second one after the lease of the first. -/
def sampleTakeover : List (OutboxEvent Symbolic) :=
  [.commit (sampleRequest "edit" 1) (sampleEdit "mine"), .claim "first" 2 100 256,
    .claim "second" 100 200 256]

/-- Both claims go through, and the edit is sent under the fence of the second. -/
theorem deliverySafe_run_sample :
    ((outbox sampleJson platform).run sampleStore sampleTakeover).outbox.map
        (fun r => (r.attemptCount, r.isOpen)) = [(2, true)] ∧
      DeliverySafe sampleJson platform
        ((outbox sampleJson platform).run sampleStore sampleTakeover) :=
  ⟨by decide, deliverySafe_run sampleJson platform rfl sampleTakeover⟩

end GoodDealer.Sync
