/-
# `GoodDealer.Cloud.DrainWatermarks` — the in-memory drain ledger of one domain

`InMemoryMutationDrainWatermarks` keeps three maps under a key of tenant, device
and epoch: the landed envelopes by sequence, the accepted seal, and the
diagnostics of what was refused.  An operation reads and writes the entries of
one key; `DrainDomain` is what the three maps hold under it.  A throw is `none`
and leaves the maps as they were, and so does a rollback.

* `mem_missingSequenceRanges` — the missing ranges are exactly the numbers below
  the highest that have not landed.
* `projectWatermark_eq` — the watermark in terms of the records before the first
  gap, whatever the order in which they landed.
-/
import GoodDealer.Protocol.DrainChain
import GoodDealer.Protocol.Fields
import GoodDealer.Lib.Watermark
import GoodDealer.Lib.Machine

namespace GoodDealer.Cloud

open List

structure LandedEnvelope where
  sequence : Nat
  envelope : Bytes
deriving DecidableEq

inductive DrainQuarantineReason where
  | sequenceReplay
  | drainSealViolation
deriving DecidableEq

structure DrainDiagnostic where
  sequence : Nat
  reason : DrainQuarantineReason
deriving DecidableEq

/-- What the three maps hold under one domain key. -/
structure DrainDomain where
  records : List LandedEnvelope
  unique : (records.map LandedEnvelope.sequence).Nodup
  acceptedSeal : Option Nat
  quarantined : List DrainDiagnostic
deriving DecidableEq

/-- What `recordLandedEnvelope` answers. -/
inductive LandingOutcome where
  | accepted (duplicate : Bool)
  | quarantined (reason : DrainQuarantineReason)
deriving DecidableEq

structure SequenceRange where
  fromSequence : Nat
  toSequence : Nat
deriving DecidableEq

structure DrainWatermark where
  contiguousReceivedThrough : Nat
  highestReceivedSequence : Nat
  missingRanges : List SequenceRange
  rollingDigest : String
deriving DecidableEq

/-- `assertSequence`. -/
def validSequence (sequence : Nat) : Bool := 1 ≤ sequence && sequence ≤ maxSafeInteger

namespace DrainDomain

def empty : DrainDomain := ⟨[], nodup_nil, none, []⟩

/-- `readEnvelope`, before the copy. -/
def record (d : DrainDomain) (sequence : Nat) : Option LandedEnvelope :=
  Keyed.lookup LandedEnvelope.sequence sequence d.records

/-- The envelopes from 1 to `sequence`. -/
def through (d : DrainDomain) (sequence : Nat) : List Bytes :=
  ((List.range' 1 sequence).filterMap d.record).map LandedEnvelope.envelope

/-- `Map.set` for a sequence that has not landed. -/
def insert (d : DrainDomain) (e : LandedEnvelope) : DrainDomain :=
  if h : d.record e.sequence = none then
    { d with
      records := d.records ++ [e]
      unique := Keyed.nodup_append_new d.unique h }
  else d

/-- `#recordDiagnostic`. -/
def recordDiagnostic (d : DrainDomain) (sequence : Nat) (reason : DrainQuarantineReason) :
    DrainDomain :=
  { d with quarantined := d.quarantined ++ [⟨sequence, reason⟩] }

def recordLandedEnvelope (d : DrainDomain) (e : LandedEnvelope) :
    Option (DrainDomain × LandingOutcome) :=
  if validSequence e.sequence then
    match d.record e.sequence with
    | some previous =>
      if previous.envelope = e.envelope then some (d, .accepted true)
      else some (d.recordDiagnostic e.sequence .sequenceReplay, .quarantined .sequenceReplay)
    | none =>
      if d.acceptedSeal.isSome then
        some (d.recordDiagnostic e.sequence .drainSealViolation, .quarantined .drainSealViolation)
      else some (d.insert e, .accepted false)
  else none

/-- An entry that `appendAcceptedBatch` lets through. -/
def admits (d : DrainDomain) (e : LandedEnvelope) : Bool :=
  validSequence e.sequence && (d.record e.sequence).all (fun r => r.envelope = e.envelope)

/-- `appendAcceptedBatch`: every entry is compared with the records before the first is
inserted. -/
def appendAcceptedBatch (d : DrainDomain) (entries : List LandedEnvelope) : Option DrainDomain :=
  if d.acceptedSeal.isSome then none
  else if entries.all d.admits then some (entries.foldl insert d)
  else none

def installAcceptedDrainSeal (d : DrainDomain) (lastAssignedSequence : Nat) : Option DrainDomain :=
  if lastAssignedSequence ≤ maxSafeInteger then
    match d.acceptedSeal with
    | some existing => if existing = lastAssignedSequence then some d else none
    | none => some { d with acceptedSeal := some lastAssignedSequence }
  else none

def recordRejectedAfterSeal (d : DrainDomain) (sequence : Nat) : DrainDomain :=
  if d.acceptedSeal.isSome then d.recordDiagnostic sequence .drainSealViolation else d

end DrainDomain

/-! ## The watermark -/

/-- One number of the loop of `missingSequenceRanges`: the closed ranges, and the start of
an open one. -/
def missingStep (has : Nat → Bool) (acc : List SequenceRange × Option Nat) (sequence : Nat) :
    List SequenceRange × Option Nat :=
  let start := if !has sequence && acc.2.isNone then some sequence else acc.2
  match start with
  | some s => if has sequence then (acc.1 ++ [⟨s, sequence - 1⟩], none) else (acc.1, some s)
  | none => (acc.1, none)

def missingSequenceRanges (has : Nat → Bool) (highest : Nat) : List SequenceRange :=
  let acc := (List.range' 1 highest).foldl (missingStep has) ([], none)
  match acc.2 with
  | some s => acc.1 ++ [⟨s, highest⟩]
  | none => acc.1

def projectWatermark (sha256 : Bytes → Digest) (records : List LandedEnvelope) :
    Option DrainWatermark :=
  let find := fun n => Keyed.lookup LandedEnvelope.sequence n records
  let highest := Watermark.highest LandedEnvelope.sequence records
  let contiguous := Watermark.reach (fun n => (find n).isSome) records.length 0
  let digest := (List.range' 1 contiguous).foldlM
    (fun d n => (find n).bind fun r => chainStep sha256 d r.envelope) drainStreamGenesisDigest
  digest.map fun d =>
    { contiguousReceivedThrough := contiguous
      highestReceivedSequence := highest
      missingRanges := missingSequenceRanges (fun n => (find n).isSome) highest
      rollingDigest := d.encode }

def DrainDomain.readWatermark (sha256 : Bytes → Digest) (d : DrainDomain) : Option DrainWatermark :=
  projectWatermark sha256 d.records

/-! ### Missing ranges -/

namespace SequenceRange

def Covers (r : SequenceRange) (n : Nat) : Prop := r.fromSequence ≤ n ∧ n ≤ r.toSequence

end SequenceRange

/-- What the loop knows after `k` numbers: its ranges are not empty, and the closed ranges
and the open one hold the missing numbers up to `k`. -/
structure Ranged (has : Nat → Bool) (k : Nat) (acc : List SequenceRange × Option Nat) : Prop where
  nonempty : ∀ r ∈ acc.1, r.fromSequence ≤ r.toSequence
  start : ∀ s ∈ acc.2, s ≤ k
  missing : ∀ n, ((∃ r ∈ acc.1, r.Covers n) ∨ ∃ s ∈ acc.2, s ≤ n ∧ n ≤ k) ↔
    1 ≤ n ∧ n ≤ k ∧ has n = false

variable {has : Nat → Bool} {sha256 : Bytes → Digest}

/-- The numbers up to `k + 1` that are missing. -/
theorem missing_succ {k n : Nat} : (1 ≤ n ∧ n ≤ k + 1 ∧ has n = false) ↔
      (1 ≤ n ∧ n ≤ k ∧ has n = false) ∨ (n = k + 1 ∧ has (k + 1) = false) := by
  constructor
  · rintro ⟨hlo, hhi, hn⟩
    by_cases hk : n = k + 1
    · exact .inr ⟨hk, hk ▸ hn⟩
    · exact .inl ⟨hlo, by omega, hn⟩
  · rintro (⟨hlo, hhi, hn⟩ | ⟨rfl, hn⟩)
    · exact ⟨hlo, by omega, hn⟩
    · exact ⟨by omega, le_rfl, hn⟩

/-- A landed number closes the open range, and a missing one opens a range if none is open. -/
theorem missingStep_succ (ranges : List SequenceRange) (start : Option Nat) (k : Nat) :
    missingStep has (ranges, start) (k + 1) =
      if has (k + 1) then (ranges ++ (start.map fun s => ⟨s, k⟩).toList, none)
      else (ranges, some (start.getD (k + 1))) := by
  cases hk : has (k + 1) <;> cases start <;> simp [missingStep, hk]

theorem Ranged.step {k : Nat} {acc : List SequenceRange × Option Nat}
    (h : Ranged has k acc) : Ranged has (k + 1) (missingStep has acc (k + 1)) := by
  obtain ⟨ranges, start⟩ := acc
  rw [missingStep_succ]
  cases hk : has (k + 1) with
  | true =>
    rw [if_pos rfl]
    cases start with
    | none =>
      rw [Option.map_none, Option.toList_none, append_nil]
      refine ⟨h.nonempty, by simp, fun n => ?_⟩
      rw [missing_succ, ← h.missing n]
      simp [hk]
    | some s =>
      have hs := h.start s rfl
      refine ⟨?_, by simp, fun n => ?_⟩
      · exact forall_mem_append.mpr ⟨h.nonempty, forall_mem_singleton.mpr hs⟩
      · rw [missing_succ, ← h.missing n]
        simp [hk, or_and_right, exists_or, SequenceRange.Covers]
  | false =>
    rw [if_neg Bool.false_ne_true]
    cases start with
    | none =>
      refine ⟨h.nonempty, by simp, fun n => ?_⟩
      rw [missing_succ, ← h.missing n]
      have hn : (k + 1 ≤ n ∧ n ≤ k + 1) ↔ n = k + 1 := by omega
      simp only [Option.mem_def, Option.some.injEq, exists_eq_left', reduceCtorEq, false_and,
        exists_false, or_false, hk, and_true, Option.getD_none, hn]
    | some s =>
      have hs := h.start s rfl
      refine ⟨h.nonempty, ?_, fun n => ?_⟩
      · rintro _ ⟨⟩
        exact le_trans hs (Nat.le_succ k)
      · have hn : (s ≤ n ∧ n ≤ k + 1) ↔ (s ≤ n ∧ n ≤ k) ∨ n = k + 1 := by omega
        rw [missing_succ, ← h.missing n]
        simp [hk, hn, or_assoc]

/-- What every number of the loop keeps. -/
theorem missing_loop {P : Nat → List SequenceRange × Option Nat → Prop} (hstart : P 0 ([], none))
    (hstep : ∀ k acc, P k acc → P (k + 1) (missingStep has acc (k + 1))) {k : Nat} :
    P k ((List.range' 1 k).foldl (missingStep has) ([], none)) := by
  induction k with
  | zero => exact hstart
  | succ k ih =>
    rw [List.range'_1_concat, foldl_append, add_comm 1 k]
    exact hstep k _ ih

theorem ranged_loop (has : Nat → Bool) (k : Nat) :
    Ranged has k ((List.range' 1 k).foldl (missingStep has) ([], none)) := by
  refine missing_loop ⟨by simp, by simp, fun n => ⟨by simp, ?_⟩⟩ fun _ _ => Ranged.step
  rintro ⟨hlo, hhi, -⟩
  omega

/-- A number falls into a missing range when it is below the highest and is not there. -/
theorem mem_missingSequenceRanges {highest n : Nat} :
    (∃ r ∈ missingSequenceRanges has highest, r.Covers n) ↔
      1 ≤ n ∧ n ≤ highest ∧ has n = false := by
  have h := ranged_loop has highest
  rw [← h.missing n]
  unfold missingSequenceRanges
  dsimp only
  split
  next s hs => simp [hs, or_and_right, exists_or, SequenceRange.Covers]
  next hs => simp [hs]

theorem missingSequenceRanges_nonempty {highest : Nat} :
    ∀ r ∈ missingSequenceRanges has highest, r.fromSequence ≤ r.toSequence := by
  have h := ranged_loop has highest
  unfold missingSequenceRanges
  dsimp only
  split
  next s hs =>
    exact forall_mem_append.mpr ⟨h.nonempty, forall_mem_singleton.mpr (h.start s hs)⟩
  next => exact h.nonempty

/-- Nothing is missing exactly when there is no range. -/
theorem missingSequenceRanges_eq_nil {highest : Nat}
    (h : ∀ n, 1 ≤ n → n ≤ highest → has n = true) : missingSequenceRanges has highest = [] := by
  have hnone : ∀ n, ¬ ∃ r ∈ missingSequenceRanges has highest, r.Covers n := by
    intro n hn
    obtain ⟨hlo, hhi, hmiss⟩ := mem_missingSequenceRanges.mp hn
    rw [h n hlo hhi] at hmiss
    cases hmiss
  rw [eq_nil_iff_forall_not_mem]
  intro r hr
  exact hnone r.fromSequence ⟨r, hr, le_rfl, missingSequenceRanges_nonempty r hr⟩

/-- What the loop knows of the order of its ranges after `k` numbers: a landed number lies
between any two of them. -/
structure Spaced (k : Nat) (acc : List SequenceRange × Option Nat) : Prop where
  apart : acc.1.Pairwise fun r r' => r.toSequence + 1 < r'.fromSequence
  closed : ∀ r ∈ acc.1, r.toSequence < k
  start : ∀ s ∈ acc.2, ∀ r ∈ acc.1, r.toSequence + 1 < s

theorem Spaced.step {k : Nat} {acc : List SequenceRange × Option Nat} (h : Spaced k acc) :
    Spaced (k + 1) (missingStep has acc (k + 1)) := by
  obtain ⟨ranges, start⟩ := acc
  have hclosed : ∀ r ∈ ranges, r.toSequence < k + 1 :=
    fun r hr => Nat.lt_succ_of_lt (h.closed r hr)
  rw [missingStep_succ]
  cases has (k + 1) with
  | true =>
    rw [if_pos rfl]
    cases start with
    | none => exact ⟨by simpa using h.apart, by simpa using hclosed, by simp⟩
    | some s =>
      refine ⟨pairwise_append.mpr ⟨h.apart, pairwise_singleton _ _, ?_⟩, ?_, by simp⟩
      · exact fun r hr => forall_mem_singleton.mpr (h.start s rfl r hr)
      · exact forall_mem_append.mpr ⟨hclosed, forall_mem_singleton.mpr (Nat.lt_succ_self k)⟩
  | false =>
    rw [if_neg Bool.false_ne_true]
    refine ⟨h.apart, hclosed, ?_⟩
    rintro _ ⟨⟩ r hr
    cases start with
    | none => exact Nat.succ_lt_succ (h.closed r hr)
    | some s => exact h.start s rfl r hr

theorem missingSequenceRanges_apart {highest : Nat} :
    (missingSequenceRanges has highest).Pairwise
      fun r r' => r.toSequence + 1 < r'.fromSequence := by
  have h : Spaced highest ((List.range' 1 highest).foldl (missingStep has) ([], none)) :=
    missing_loop ⟨.nil, by simp, by simp⟩ fun _ _ => Spaced.step
  unfold missingSequenceRanges
  dsimp only
  split
  next s hs =>
    refine pairwise_append.mpr ⟨h.apart, pairwise_singleton _ _, ?_⟩
    exact fun r hr => forall_mem_singleton.mpr (h.start s hs r hr)
  next => exact h.apart

/-! ### The watermark of a set of records -/

/-- The watermark reads the records before the first gap, and nothing else but the highest
sequence and what is missing below it. -/
theorem projectWatermark_eq {records xs : List LandedEnvelope}
    (h : Watermark.Front LandedEnvelope.sequence records xs) :
    projectWatermark sha256 records =
      (chainDigest sha256 drainStreamGenesisDigest (xs.map LandedEnvelope.envelope)).map fun d =>
        { contiguousReceivedThrough := xs.length
          highestReceivedSequence := Watermark.highest LandedEnvelope.sequence records
          missingRanges := missingSequenceRanges
            (fun n => (Keyed.lookup LandedEnvelope.sequence n records).isSome)
            (Watermark.highest LandedEnvelope.sequence records)
          rollingDigest := d.encode } := by
  obtain ⟨ys, hys, hlen⟩ := Watermark.front_reach LandedEnvelope.sequence records
  obtain rfl := hys.unique h
  have hfold := Watermark.FrontFrom.foldlM
    (fun d (r : LandedEnvelope) => chainStep sha256 d r.envelope) drainStreamGenesisDigest h
  unfold projectWatermark
  dsimp only
  rw [← hlen, hfold, chainDigest, foldlM_map]

/-- A watermark is that of the envelopes up to its contiguous sequence. -/
theorem DrainDomain.readWatermark_through {d : DrainDomain}
    {w : DrainWatermark} (h : d.readWatermark sha256 = some w) :
    (d.through w.contiguousReceivedThrough).length = w.contiguousReceivedThrough ∧
      ∃ digest, chainDigest sha256 drainStreamGenesisDigest
          (d.through w.contiguousReceivedThrough) = some digest ∧
        w.rollingDigest = digest.encode := by
  obtain ⟨xs, hfront, -⟩ := Watermark.front_reach LandedEnvelope.sequence d.records
  rw [readWatermark, projectWatermark_eq hfront] at h
  obtain ⟨digest, hdigest, rfl⟩ := Option.map_eq_some_iff.mp h
  have hthrough : d.through xs.length = xs.map LandedEnvelope.envelope :=
    congrArg (List.map LandedEnvelope.envelope) hfront.filterMap
  rw [hthrough]
  exact ⟨length_map _, digest, hdigest, rfl⟩

/-! ## The ledger of a domain as a machine -/

inductive DrainEvent where
  | landed (e : LandedEnvelope)
  | acceptedBatch (entries : List LandedEnvelope)
  | acceptedSeal (lastAssignedSequence : Nat)
  | rejectedAfterSeal (sequence : Nat)
deriving DecidableEq

inductive DrainReply where
  | landing (outcome : LandingOutcome)
  | done
  | threw
deriving DecidableEq

/-- The state an operation that may throw leaves. -/
def DrainReply.of (d : DrainDomain) : Option DrainDomain → DrainDomain × DrainReply
  | some d' => (d', .done)
  | none => (d, .threw)

def drainDomain : Machine DrainDomain DrainEvent DrainReply where
  step d
    | .landed e =>
      match d.recordLandedEnvelope e with
      | some (d', outcome) => (d', .landing outcome)
      | none => (d, .threw)
    | .acceptedBatch entries => DrainReply.of d (d.appendAcceptedBatch entries)
    | .acceptedSeal n => DrainReply.of d (d.installAcceptedDrainSeal n)
    | .rejectedAfterSeal n => (d.recordRejectedAfterSeal n, .done)

/-- The envelopes an event brings. -/
def DrainEvent.entries : DrainEvent → List LandedEnvelope
  | .landed e => [e]
  | .acceptedBatch entries => entries
  | .acceptedSeal _ => []
  | .rejectedAfterSeal _ => []

/-- The event brings envelopes; it is not about the seal. -/
def DrainEvent.Landing : DrainEvent → Prop
  | .landed _ => True
  | .acceptedBatch _ => True
  | .acceptedSeal _ => False
  | .rejectedAfterSeal _ => False

/-- What the event brought was taken. -/
def DrainReply.Taken : DrainReply → Prop
  | .landing (.accepted _) => True
  | .landing (.quarantined _) => False
  | .done => True
  | .threw => False

/-- One envelope for each sequence, from 1 on. -/
structure Stream (E : LandedEnvelope → Prop) : Prop where
  valid : ∀ e, E e → validSequence e.sequence = true
  single : ∀ e e', E e → E e' → e.sequence = e'.sequence → e = e'

/-- An unsealed domain that holds envelopes of one stream. -/
structure HoldsOnly (E : LandedEnvelope → Prop) (d : DrainDomain) : Prop where
  unsealed : d.acceptedSeal = none
  records : ∀ r ∈ d.records, E r

section

variable {E : LandedEnvelope → Prop} {d : DrainDomain} {e : LandedEnvelope}

/-- Under a sequence of the stream there is the stream's envelope or nothing. -/
theorem HoldsOnly.record (h : HoldsOnly E d) (hE : Stream E) (he : E e) :
    (d.record e.sequence = some e ∧ e ∈ d.records) ∨ d.record e.sequence = none := by
  cases hr : d.record e.sequence with
  | none => exact .inr rfl
  | some r =>
    obtain ⟨hmem, hseq⟩ := Keyed.lookup_eq_some hr
    obtain rfl := hE.single r e (h.records r hmem) he hseq
    exact .inl ⟨rfl, hmem⟩

theorem HoldsOnly.insert (h : HoldsOnly E d) (hE : Stream E) (he : E e) :
    HoldsOnly E (d.insert e) ∧ ∀ r, r ∈ (d.insert e).records ↔ r ∈ d.records ∨ r = e := by
  rcases h.record hE he with ⟨hsome, hmem⟩ | hnone
  · have hsame : d.insert e = d := dif_neg (by rw [hsome]; simp)
    rw [hsame]
    refine ⟨h, fun r => ⟨.inl, ?_⟩⟩
    rintro (hr | rfl)
    · exact hr
    · exact hmem
  · have hnew : (d.insert e).records = d.records ++ [e] := by
      rw [DrainDomain.insert, dif_pos hnone]
    have hseal : (d.insert e).acceptedSeal = d.acceptedSeal := by
      rw [DrainDomain.insert, dif_pos hnone]
    have hiff : ∀ r, r ∈ (d.insert e).records ↔ r ∈ d.records ∨ r = e := by
      intro r
      rw [hnew, mem_append, mem_singleton]
    refine ⟨⟨hseal.trans h.unsealed, ?_⟩, hiff⟩
    intro r hr
    rcases (hiff r).mp hr with hr | rfl
    · exact h.records r hr
    · exact he

theorem HoldsOnly.insertAll (hE : Stream E) : ∀ {entries : List LandedEnvelope} {d : DrainDomain},
    HoldsOnly E d → (∀ e ∈ entries, E e) →
      HoldsOnly E (entries.foldl DrainDomain.insert d) ∧
        ∀ r, r ∈ (entries.foldl DrainDomain.insert d).records ↔ r ∈ d.records ∨ r ∈ entries := by
  intro entries
  induction entries with
  | nil =>
    intro d h _
    exact ⟨h, by simp⟩
  | cons e entries ih =>
    intro d h hentries
    obtain ⟨hd, hmem⟩ := h.insert hE (hentries e mem_cons_self)
    obtain ⟨hrest, hmem'⟩ := ih hd (forall_mem_cons.mp hentries).2
    refine ⟨hrest, fun r => ?_⟩
    rw [foldl_cons, hmem', hmem, mem_cons, or_assoc]

/-- Envelopes of the stream are taken, in whatever state their predecessors left the domain. -/
theorem HoldsOnly.step (h : HoldsOnly E d) (hE : Stream E) {e : DrainEvent} (hland : e.Landing)
    (hentries : ∀ x ∈ e.entries, E x) :
    (drainDomain.out d e).Taken ∧ HoldsOnly E (drainDomain.next d e) ∧
      ∀ r, r ∈ (drainDomain.next d e).records ↔ r ∈ d.records ∨ r ∈ e.entries := by
  cases e with
  | landed e =>
    have he := hentries e (mem_singleton.mpr rfl)
    have hvalid := hE.valid e he
    rcases h.record hE he with ⟨hsome, hmem⟩ | hnone
    · have hland : d.recordLandedEnvelope e = some (d, .accepted true) := by
        simp [DrainDomain.recordLandedEnvelope, hvalid, hsome]
      have hstep : drainDomain.step d (.landed e) = (d, .landing (.accepted true)) := by
        simp [drainDomain, hland]
      rw [Machine.out, Machine.next, hstep]
      refine ⟨trivial, h, fun r => ⟨.inl, ?_⟩⟩
      rintro (hr | hr)
      · exact hr
      · rw [mem_singleton.mp hr]
        exact hmem
    · have hland : d.recordLandedEnvelope e = some (d.insert e, .accepted false) := by
        simp [DrainDomain.recordLandedEnvelope, hvalid, hnone, h.unsealed]
      have hstep : drainDomain.step d (.landed e) = (d.insert e, .landing (.accepted false)) := by
        simp [drainDomain, hland]
      obtain ⟨hins, hmem⟩ := h.insert hE he
      rw [Machine.out, Machine.next, hstep]
      refine ⟨trivial, hins, fun r => ?_⟩
      rw [hmem r, DrainEvent.entries, mem_singleton]
  | acceptedBatch entries =>
    have hall : entries.all d.admits = true := by
      rw [all_eq_true]
      intro e he
      rcases h.record hE (hentries e he) with ⟨hsome, -⟩ | hnone
      · simp [DrainDomain.admits, hE.valid e (hentries e he), hsome]
      · simp [DrainDomain.admits, hE.valid e (hentries e he), hnone]
    have happend : d.appendAcceptedBatch entries = some (entries.foldl DrainDomain.insert d) := by
      simp [DrainDomain.appendAcceptedBatch, h.unsealed, hall]
    have hstep : drainDomain.step d (.acceptedBatch entries) =
        (entries.foldl DrainDomain.insert d, .done) := by
      simp [drainDomain, happend, DrainReply.of]
    rw [Machine.out, Machine.next, hstep]
    exact ⟨trivial, HoldsOnly.insertAll hE h hentries⟩
  | acceptedSeal n | rejectedAfterSeal n => exact hland.elim

/-- However the envelopes of a stream arrive, all of them are taken, and the domain then
holds them and what it held before. -/
theorem HoldsOnly.run (hE : Stream E) : ∀ {events : List DrainEvent} {d : DrainDomain},
    HoldsOnly E d → (∀ e ∈ events, e.Landing) → (∀ x ∈ events.flatMap DrainEvent.entries, E x) →
      drainDomain.Along (fun s e => (drainDomain.out s e).Taken) d events ∧
        ∀ r, r ∈ (drainDomain.run d events).records ↔
          r ∈ d.records ∨ r ∈ events.flatMap DrainEvent.entries := by
  intro events
  induction events with
  | nil =>
    intro d h _ _
    exact ⟨trivial, by simp⟩
  | cons e events ih =>
    intro d h hland hentries
    simp only [flatMap_cons, mem_append] at hentries
    obtain ⟨htaken, hd, hmem⟩ := h.step hE (hland e mem_cons_self)
      fun x hx => hentries x (.inl hx)
    obtain ⟨halong, hmem'⟩ := ih hd (forall_mem_cons.mp hland).2
      fun x hx => hentries x (.inr hx)
    refine ⟨⟨htaken, halong⟩, fun r => ?_⟩
    rw [Machine.run_cons, hmem' r, hmem r, flatMap_cons, mem_append, or_assoc]

end

end GoodDealer.Cloud
