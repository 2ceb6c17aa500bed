/-
# `GoodDealer.Client.DrainStream` — the client's drain ledger, and its agreement with the cloud's

`DrainStreamLedger` folds the envelopes a device has committed to a stream: only
the next sequence is taken, and the ledger keeps the rolling digest but not the
envelopes.  An append waits for SHA-256; while it waits, `appendInFlight` refuses
another one, and a digest that fails leaves the ledger as it was.

The cloud recomputes the same chain from a set of landed envelopes
(`Cloud.projectWatermark`).

* `DrainStreamLedger.Commits.run` — a ledger's digest is the digest of the
  envelopes its run has committed, in order.
* `drainLedgers_agree` — the two ledgers agree on every set of envelopes, however
  they landed, and equal digests mean equal envelopes.
-/
import GoodDealer.Cloud.DrainWatermarks

namespace GoodDealer.Client

open List

open GoodDealer.Cloud (LandedEnvelope DrainDomain DrainEvent drainDomain)

/-- `DRAIN_STREAMS`. -/
inductive DrainStream where
  | mutation
  | executionFact
  | deviceAudit
deriving DecidableEq

/-- An append that waits for its digest. -/
structure PendingAppend where
  sequence : Nat
  envelope : Bytes
  input : Bytes
deriving DecidableEq

structure DrainStreamLedger where
  stream : DrainStream
  lastAssignedSequence : Nat
  contiguousReceivedThrough : Nat
  rollingDigestBytes : Digest
  rollingDigest : String
  appendInFlight : Option PendingAppend
deriving DecidableEq

inductive DrainStreamError where
  | sequenceNotSafe
  | appendInProgress
  | sequenceRewritten
  | sequenceGap
  | envelopeTooLong
  | acknowledgementNotSafe
  | acknowledgementNotMonotone
  | acknowledgementAhead
deriving DecidableEq

def DrainStreamError.message : DrainStreamError → String
  | .sequenceNotSafe => "drain sequence must be a safe positive integer"
  | .appendInProgress => "a drain append is already in progress"
  | .sequenceRewritten => "a committed drain sequence cannot be rewritten"
  | .sequenceGap =>
    "a committed drain sequence must be the next contiguous sequence; gaps are refused"
  | .envelopeTooLong => "byte length must fit an unsigned 32-bit integer"
  | .acknowledgementNotSafe => "acknowledged drain sequence must be a safe unsigned integer"
  | .acknowledgementNotMonotone => "drain acknowledgements must be monotone"
  | .acknowledgementAhead =>
    "a drain acknowledgement cannot exceed the last committed sequence"

namespace DrainStreamLedger

def initial (stream : DrainStream) : DrainStreamLedger where
  stream := stream
  lastAssignedSequence := 0
  contiguousReceivedThrough := 0
  rollingDigestBytes := drainStreamGenesisDigest
  rollingDigest := "58It6o62GZGmXgy6-ER1rezwYX-LCZVJzlZuZOGcWUs"
  appendInFlight := none

/-- `appendCommitted`, up to the call of SHA-256. -/
def appendCommitted (s : DrainStreamLedger) (sequence : Nat) (envelope : Bytes) :
    Except DrainStreamError DrainStreamLedger :=
  if ¬ Cloud.validSequence sequence then .error .sequenceNotSafe
  else if s.appendInFlight.isSome then .error .appendInProgress
  else if sequence ≤ s.lastAssignedSequence then .error .sequenceRewritten
  else if sequence ≠ s.lastAssignedSequence + 1 then .error .sequenceGap
  else
    match encodeDrainChainStepInput s.rollingDigestBytes envelope with
    | none => .error .envelopeTooLong
    | some input => .ok { s with appendInFlight := some ⟨sequence, envelope, input⟩ }

/-- The rest of `appendCommitted`, once the digest of its input is there. -/
def digestResolved (sha256 : Bytes → Digest) (s : DrainStreamLedger) : DrainStreamLedger :=
  match s.appendInFlight with
  | none => s
  | some p =>
    { s with
      lastAssignedSequence := p.sequence
      rollingDigestBytes := sha256 p.input
      rollingDigest := (sha256 p.input).encode
      appendInFlight := none }

/-- The `finally` of an append whose digest was not 32 bytes or did not come. -/
def digestFailed (s : DrainStreamLedger) : DrainStreamLedger := { s with appendInFlight := none }

def acknowledgeThrough (s : DrainStreamLedger) (sequence : Nat) :
    Except DrainStreamError DrainStreamLedger :=
  if maxSafeInteger < sequence then .error .acknowledgementNotSafe
  else if sequence < s.contiguousReceivedThrough then .error .acknowledgementNotMonotone
  else if s.lastAssignedSequence < sequence then .error .acknowledgementAhead
  else .ok { s with contiguousReceivedThrough := sequence }

end DrainStreamLedger

inductive DrainStreamCall where
  | appendCommitted (sequence : Nat) (envelope : Bytes)
  | digestResolved
  | digestFailed
  | acknowledgeThrough (sequence : Nat)
deriving DecidableEq

/-- The state a call that may throw leaves. -/
def DrainStreamError.caught (s : DrainStreamLedger) :
    Except DrainStreamError DrainStreamLedger → DrainStreamLedger × Option DrainStreamError
  | .ok s' => (s', none)
  | .error e => (s, some e)

/-- The ledger under any sequence of calls and settled digests. -/
def drainStream (sha256 : Bytes → Digest) :
    Machine DrainStreamLedger DrainStreamCall (Option DrainStreamError) where
  step s
    | .appendCommitted n e => DrainStreamError.caught s (s.appendCommitted n e)
    | .digestResolved => (s.digestResolved sha256, none)
    | .digestFailed => (s.digestFailed, none)
    | .acknowledgeThrough n => DrainStreamError.caught s (s.acknowledgeThrough n)

/-- The envelope a call commits. -/
def committedBy (s : DrainStreamLedger) : DrainStreamCall → List Bytes
  | .appendCommitted _ _ => []
  | .digestResolved => (s.appendInFlight.map PendingAppend.envelope).toList
  | .digestFailed => []
  | .acknowledgeThrough _ => []

/-- The envelopes a run commits, in order. -/
def committed (sha256 : Bytes → Digest) : DrainStreamLedger → List DrainStreamCall → List Bytes
  | _, [] => []
  | s, c :: cs => committedBy s c ++ committed sha256 ((drainStream sha256).next s c) cs

/-! ## What the ledger knows of its envelopes -/

/-- The ledger has committed `es`. -/
structure DrainStreamLedger.Commits (sha256 : Bytes → Digest) (es : List Bytes)
    (s : DrainStreamLedger) : Prop where
  last : s.lastAssignedSequence = es.length
  safe : es.length ≤ maxSafeInteger
  digest : chainDigest sha256 drainStreamGenesisDigest es = some s.rollingDigestBytes
  text : s.rollingDigest = s.rollingDigestBytes.encode
  pending : ∀ p ∈ s.appendInFlight, p.sequence = s.lastAssignedSequence + 1 ∧
    p.sequence ≤ maxSafeInteger ∧
    encodeDrainChainStepInput s.rollingDigestBytes p.envelope = some p.input

namespace DrainStreamLedger.Commits

variable {sha256 : Bytes → Digest} {es : List Bytes} {s s' : DrainStreamLedger}

theorem initial (stream : DrainStream) :
    Commits sha256 [] (DrainStreamLedger.initial stream) where
  last := rfl
  safe := Nat.zero_le _
  digest := rfl
  text := encode_drainStreamGenesisDigest.symm
  pending := by rintro _ ⟨⟩

section

variable (h : Commits sha256 es s)

include h

theorem appendCommitted {n : Nat} {e : Bytes}
    (hs : s.appendCommitted n e = .ok s') : Commits sha256 es s' := by
  unfold DrainStreamLedger.appendCommitted at hs
  split at hs
  · cases hs
  next hvalid =>
  split at hs
  · cases hs
  split at hs
  · cases hs
  split at hs
  · cases hs
  next hnext =>
  split at hs
  · cases hs
  next input hinput =>
  cases hs
  refine ⟨h.last, h.safe, h.digest, h.text, ?_⟩
  rintro _ ⟨⟩
  simp only [Cloud.validSequence, Bool.and_eq_true, decide_eq_true_eq, not_not] at hvalid hnext
  exact ⟨hnext, hvalid.2, hinput⟩

theorem acknowledgeThrough {n : Nat}
    (hs : s.acknowledgeThrough n = .ok s') : Commits sha256 es s' := by
  unfold DrainStreamLedger.acknowledgeThrough at hs
  split at hs
  · cases hs
  split at hs
  · cases hs
  split at hs
  · cases hs
  · cases hs
    exact ⟨h.last, h.safe, h.digest, h.text, h.pending⟩

theorem digestResolved :
    Commits sha256 (es ++ committedBy s .digestResolved) (s.digestResolved sha256) := by
  cases hp : s.appendInFlight with
  | none =>
    have hsame : s.digestResolved sha256 = s := by simp [DrainStreamLedger.digestResolved, hp]
    rw [hsame, committedBy, hp]
    simpa using h
  | some p =>
    obtain ⟨hseq, hsafe, hinput⟩ := h.pending p hp
    have hnext : s.digestResolved sha256 =
        { s with
          lastAssignedSequence := p.sequence
          rollingDigestBytes := sha256 p.input
          rollingDigest := (sha256 p.input).encode
          appendInFlight := none } := by simp [DrainStreamLedger.digestResolved, hp]
    have hes : es ++ committedBy s .digestResolved = es ++ [p.envelope] := by
      simp [committedBy, hp]
    have hlen : (es ++ [p.envelope]).length = p.sequence := by
      rw [hseq, h.last, length_append]
      rfl
    rw [hnext, hes]
    refine ⟨hlen.symm, hlen ▸ hsafe, ?_, rfl, ?_⟩
    · rw [chainDigest_concat, h.digest, Option.bind_some]
      exact chainStep_eq_some.mpr ⟨p.input, hinput, rfl⟩
    · rintro _ ⟨⟩

theorem step (c : DrainStreamCall) :
    Commits sha256 (es ++ committedBy s c) ((drainStream sha256).next s c) := by
  -- a call that throws leaves the ledger as it was
  have caught : ∀ res, (∀ s', res = .ok s' → Commits sha256 es s') →
      Commits sha256 es (DrainStreamError.caught s res).1 := by
    intro res hres
    cases res with
    | ok s' => exact hres s' rfl
    | error e => exact h
  cases c with
  | appendCommitted n e =>
    rw [committedBy, append_nil]
    exact caught _ fun s' hs => h.appendCommitted hs
  | digestResolved => exact h.digestResolved
  | digestFailed =>
    rw [committedBy, append_nil]
    refine ⟨h.last, h.safe, h.digest, h.text, ?_⟩
    rintro _ ⟨⟩
  | acknowledgeThrough n =>
    rw [committedBy, append_nil]
    exact caught _ fun s' hs => h.acknowledgeThrough hs

end

theorem run (calls : List DrainStreamCall) : ∀ {es : List Bytes} {s : DrainStreamLedger},
    Commits sha256 es s →
      Commits sha256 (es ++ committed sha256 s calls) ((drainStream sha256).run s calls) := by
  induction calls with
  | nil =>
    intro es s h
    rw [committed, append_nil]
    exact h
  | cons c calls ih =>
    intro es s h
    rw [committed, ← append_assoc, Machine.run_cons]
    exact ih (h.step c)

end DrainStreamLedger.Commits

/-- A new ledger's digest is that of the envelopes it has committed. -/
theorem commits_run (sha256 : Bytes → Digest) (stream : DrainStream)
    (calls : List DrainStreamCall) :
    ((drainStream sha256).run (.initial stream) calls).Commits sha256
      (committed sha256 (.initial stream) calls) := by
  have h : DrainStreamLedger.Commits sha256 [] (.initial stream) := .initial stream
  have hrun := h.run calls
  rwa [nil_append] at hrun

/-! ## Agreement -/

/-- The envelopes of a list, numbered from 1. -/
def Numbers (es : List Bytes) (r : LandedEnvelope) : Prop :=
  1 ≤ r.sequence ∧ es[r.sequence - 1]? = some r.envelope

variable {es : List Bytes} {d : DrainDomain}

theorem stream_numbers (h : es.length ≤ maxSafeInteger) : Cloud.Stream (Numbers es) where
  valid r hr := by
    have hlt := (List.getElem?_eq_some_iff.mp hr.2).1
    simp only [Cloud.validSequence, Bool.and_eq_true, decide_eq_true_eq]
    exact ⟨hr.1, by omega⟩
  single r r' hr hr' hseq := by
    have henv := hr.2.symm.trans (hseq ▸ hr'.2)
    cases r
    cases r'
    cases hseq
    cases henv
    rfl

/-- A domain that holds the envelopes of a list holds nothing after them. -/
theorem front_of_numbers (h : ∀ r, r ∈ d.records ↔ Numbers es r) :
    Watermark.Front LandedEnvelope.sequence d.records
      (es.zipIdx.map fun x => ⟨x.2 + 1, x.1⟩) := by
  intro i _
  rw [Nat.zero_add, List.getElem?_map, List.getElem?_zipIdx]
  cases hi : es[i]? with
  | none =>
    rw [Keyed.lookup_eq_none.mpr]
    · rfl
    · intro r hr hseq
      have hsome := ((h r).mp hr).2
      rw [hseq, Nat.add_sub_cancel, hi] at hsome
      cases hsome
  | some e =>
    have hmem : (⟨i + 1, e⟩ : LandedEnvelope) ∈ d.records :=
      (h _).mpr ⟨Nat.succ_pos i, by simpa using hi⟩
    have hlookup := Keyed.lookup_of_mem d.unique hmem
    simpa using hlookup

/-- The highest sequence of a domain that holds the envelopes of a list. -/
theorem highest_of_numbers (h : ∀ r, r ∈ d.records ↔ Numbers es r) :
    Watermark.highest LandedEnvelope.sequence d.records = es.length := by
  have hfront := (front_of_numbers h).length_le
  rw [length_map, length_zipIdx] at hfront
  refine le_antisymm ?_ hfront
  by_cases hnil : d.records = []
  · rw [hnil]
    exact Nat.zero_le _
  · obtain ⟨r, hr, hhigh⟩ : ∃ r ∈ d.records,
        r.sequence = Watermark.highest LandedEnvelope.sequence d.records :=
      Watermark.highest_mem hnil
    have hlt := (List.getElem?_eq_some_iff.mp ((h r).mp hr).2).1
    omega

/-- The watermark of a domain that holds what the client has committed. -/
theorem readWatermark_eq {sha256 : Bytes → Digest} {s : DrainStreamLedger}
    (hs : s.Commits sha256 es) (hd : ∀ r, r ∈ d.records ↔ Numbers es r) :
    d.readWatermark sha256 =
      some ⟨s.lastAssignedSequence, s.lastAssignedSequence, [], s.rollingDigest⟩ := by
  have hfront := front_of_numbers hd
  have henv : (es.zipIdx.map fun x => (⟨x.2 + 1, x.1⟩ : LandedEnvelope)).map
      LandedEnvelope.envelope = es := by
    rw [List.map_map]
    exact zipIdx_map_fst 0 es
  have hmissing : Cloud.missingSequenceRanges
      (fun n => (Keyed.lookup LandedEnvelope.sequence n d.records).isSome) es.length = [] := by
    apply Cloud.missingSequenceRanges_eq_nil
    intro n hlo hhi
    have hn := hfront (n - 1) (by simp; omega)
    rw [Nat.zero_add, Nat.sub_add_cancel hlo] at hn
    rw [hn, List.getElem?_eq_getElem (by simp; omega), Option.isSome_some]
  rw [DrainDomain.readWatermark, Cloud.projectWatermark_eq hfront, henv, hs.digest,
    highest_of_numbers hd, hmissing, length_map, length_zipIdx, hs.last, hs.text,
    Option.map_some]

/-- The client and the cloud agree on a stream.  Let a client ledger have committed `es`.  A
cloud domain that holds exactly those envelopes, after any run of its own, reads the same
head, highest sequence and digest, with nothing missing; and they are all taken in whatever
order and however often they land.  Where SHA-256 does not collide on the inputs of the
chains, a client or a cloud that reports the same digest at the same sequence has the same
envelopes. -/
theorem drainLedgers_agree (sha256 : Bytes → Digest) (stream : DrainStream)
    (calls : List DrainStreamCall) :
    let s := (drainStream sha256).run (.initial stream) calls
    let es := committed sha256 (.initial stream) calls
    (∀ events : List DrainEvent, (∀ r, r ∈ (drainDomain.run .empty events).records ↔ Numbers es r) →
      (drainDomain.run .empty events).readWatermark sha256 =
        some ⟨s.lastAssignedSequence, s.lastAssignedSequence, [], s.rollingDigest⟩) ∧
    (∀ events : List DrainEvent, (∀ e ∈ events, e.Landing) →
      (∀ r, r ∈ events.flatMap DrainEvent.entries ↔ Numbers es r) →
      drainDomain.Along (fun d e => (drainDomain.out d e).Taken) .empty events ∧
        ∀ r, r ∈ (drainDomain.run .empty events).records ↔ Numbers es r) ∧
    (∀ (stream' : DrainStream) (calls' : List DrainStreamCall),
      let s' := (drainStream sha256).run (.initial stream') calls'
      let es' := committed sha256 (.initial stream') calls'
      Set.InjOn sha256 {x | x ∈ chainInputs sha256 drainStreamGenesisDigest es ∨
        x ∈ chainInputs sha256 drainStreamGenesisDigest es'} →
      s.lastAssignedSequence = s'.lastAssignedSequence → s.rollingDigest = s'.rollingDigest →
        es = es') ∧
    (∀ (events : List DrainEvent) (w : Cloud.DrainWatermark),
      let d := drainDomain.run .empty events
      Set.InjOn sha256 {x | x ∈ chainInputs sha256 drainStreamGenesisDigest es ∨
        x ∈ chainInputs sha256 drainStreamGenesisDigest (d.through s.lastAssignedSequence)} →
      d.readWatermark sha256 = some w →
      s.lastAssignedSequence = w.contiguousReceivedThrough → s.rollingDigest = w.rollingDigest →
        es = d.through s.lastAssignedSequence) := by
  intro s es
  have hs : s.Commits sha256 es := commits_run sha256 stream calls
  refine ⟨?_, ?_, ?_, ?_⟩
  · intro events hset
    exact readWatermark_eq hs hset
  · intro events hland hset
    have hempty : Cloud.HoldsOnly (Numbers es) DrainDomain.empty := ⟨rfl, by rintro _ ⟨⟩⟩
    obtain ⟨halong, hmem⟩ := Cloud.HoldsOnly.run (stream_numbers hs.safe) hempty hland
      fun x hx => (hset x).mp hx
    refine ⟨halong, fun r => ?_⟩
    rw [hmem r, ← hset r]
    exact or_iff_right (by rintro ⟨⟩)
  · intro stream' calls' s' es' hinj hlast hdigest
    have hs' : s'.Commits sha256 es' := commits_run sha256 stream' calls'
    rw [hs.text, hs'.text] at hdigest
    rw [hs.last, hs'.last] at hlast
    exact (chainDigest_inj hinj hlast hs.digest (Digest.encode_inj hdigest ▸ hs'.digest)).2
  · intro events w d hinj hw hlast hdigest
    obtain ⟨hlen, digest, hchain, htext⟩ := DrainDomain.readWatermark_through hw
    rw [← hlast] at hlen hchain
    rw [hs.text, htext] at hdigest
    rw [← Digest.encode_inj hdigest] at hchain
    exact (chainDigest_inj hinj (hs.last.symm.trans hlen.symm) hs.digest hchain).2

/-- The second append comes too early once, and one digest fails. -/
def sampleCalls : List DrainStreamCall :=
  [.appendCommitted 1 [7], .appendCommitted 2 [9], .digestResolved, .appendCommitted 2 [9],
    .digestFailed, .appendCommitted 2 [9], .digestResolved]

/-- The same envelopes, out of order and more than once. -/
def sampleLandings : List DrainEvent :=
  [.landed ⟨2, [9]⟩, .landed ⟨1, [7]⟩, .acceptedBatch [⟨2, [9]⟩, ⟨1, [7]⟩]]

theorem sampleLandings_numbers (r : LandedEnvelope) :
    r ∈ sampleLandings.flatMap DrainEvent.entries ↔
      Numbers (committed checksum (.initial .mutation) sampleCalls) r := by
  have hes : committed checksum (.initial .mutation) sampleCalls = [[7], [9]] := by decide +kernel
  rw [hes]
  obtain ⟨n, e⟩ := r
  simp only [sampleLandings, DrainEvent.entries, flatMap_cons, flatMap_nil,
    append_nil, cons_append, nil_append, mem_cons, not_mem_nil,
    or_false, LandedEnvelope.mk.injEq, Numbers]
  constructor
  · rintro (⟨rfl, rfl⟩ | ⟨rfl, rfl⟩ | ⟨rfl, rfl⟩ | ⟨rfl, rfl⟩) <;> decide
  · rintro ⟨hpos, he⟩
    rcases n with _ | _ | _ | n
    · cases hpos
    · simp at he; simp [← he]
    · simp at he; simp [← he]
    · simp at he

/-- The sample's digests do not collide. -/
theorem checksum_injOn : Set.InjOn checksum
    {x | x ∈ chainInputs checksum drainStreamGenesisDigest [[7], [9]]} := by
  have h : ∀ x ∈ chainInputs checksum drainStreamGenesisDigest [[7], [9]],
      ∀ y ∈ chainInputs checksum drainStreamGenesisDigest [[7], [9]],
        checksum x = checksum y → x = y := by decide +kernel
  intro x hx y hy
  exact h x hx y hy

theorem drainLedgers_agree_sample :
    (drainDomain.run .empty sampleLandings).readWatermark checksum =
        some ⟨2, 2, [],
          ((drainStream checksum).run (.initial .mutation) sampleCalls).rollingDigest⟩ ∧
      committed checksum (.initial .mutation) sampleCalls =
        committed checksum (.initial .deviceAudit) sampleCalls ∧
      committed checksum (.initial .mutation) sampleCalls =
        (drainDomain.run .empty sampleLandings).through 2 := by
  obtain ⟨hread, hland, hclient, hcloud⟩ := drainLedgers_agree checksum .mutation sampleCalls
  have hlast : ((drainStream checksum).run (.initial .mutation) sampleCalls).lastAssignedSequence
      = 2 := by decide +kernel
  have hes : ∀ stream, committed checksum (.initial stream) sampleCalls = [[7], [9]] := by
    intro stream
    cases stream <;> decide +kernel
  have hthrough :
      (drainDomain.run .empty sampleLandings).through 2 = [[7], [9]] := by decide +kernel
  have hset := (hland sampleLandings (by simp [sampleLandings, DrainEvent.Landing])
    sampleLandings_numbers).2
  have hwatermark := hread sampleLandings hset
  rw [hlast] at hwatermark hcloud
  refine ⟨hwatermark, hclient .deviceAudit sampleCalls ?_ rfl rfl,
    hcloud sampleLandings _ ?_ hwatermark rfl rfl⟩
  · rw [hes, hes]
    simpa using checksum_injOn
  · rw [hes, hthrough]
    simpa using checksum_injOn

end GoodDealer.Client
