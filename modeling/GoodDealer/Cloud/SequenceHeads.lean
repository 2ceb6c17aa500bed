/-
# `GoodDealer.Cloud.SequenceHeads` — the head of a device's numbers and the gaps above it

The numbers of a device land in any order.  Three computations look for gaps: the scan of
`missingSequenceRanges`, the recursive query with which `appendAccepted` moves the stored head,
and the window of the migration that fills the heads of an older ledger.  All three agree with
the set of landed numbers, and an append lands its numbers and no others
(`sequenceHeads_exact`).
-/
import GoodDealer.Cloud.DrainWatermarks
import GoodDealer.Lib.Transaction
import Mathlib.Data.List.Pairwise

namespace GoodDealer.Cloud

open List Keyed Watermark

/-- The numbers in `workspace_device_mutation_sequence_ledger` under one account, workspace
and device. -/
structure SequenceLedger where
  sequences : List Nat
  unique : sequences.Nodup
  valid : ∀ n ∈ sequences, validSequence n = true

/-- What the ledger and `workspace_device_mutation_heads` hold under the key. -/
structure DeviceSequences where
  ledger : SequenceLedger
  contiguousReceivedThrough : Option Nat

inductive SequenceError where
  | batchSize | notIncreasing | rowRefused | headUnavailable

namespace SequenceLedger

variable (L : SequenceLedger)

/-- `numbered_sequences`: the numbers in order, with `row_number()`. -/
def numberedSequences : List (Nat × Nat) := (sortByKey id L.sequences).zipIdx 1

/-- The head that the migration inserts, if there is a row to group. -/
def backfill : DeviceSequences where
  ledger := L
  contiguousReceivedThrough := if L.sequences = [] then none else
    some (((L.numberedSequences.filter fun r => r.1 ≠ r.2).map (·.2 - 1)).min?.getD
      (highest id L.sequences))

/-- The last and largest number of the recursive query, which begins at the stored head. -/
def contiguous (head : Nat) : Nat := reach (· ∈ L.sequences) L.sequences.length head

def insert (n : Nat) : Option SequenceLedger :=
  if h : n ∉ L.sequences ∧ validSequence n = true then
    some ⟨n :: L.sequences, nodup_cons.mpr ⟨h.1, L.unique⟩, forall_mem_cons.mpr ⟨h.2, L.valid⟩⟩
  else none

end SequenceLedger

namespace DeviceSequences

def lockDrainDomain (s : DeviceSequences) : DeviceSequences :=
  { s with contiguousReceivedThrough := some (s.contiguousReceivedThrough.getD 0) }

/-- The ledger row of one mutation, and the head after it. -/
def appendSequence (s : DeviceSequences) (sequence : Nat) :
    Except SequenceError DeviceSequences := do
  let ledger ← found .rowRefused (s.ledger.insert sequence)
  let head ← found .headUnavailable s.contiguousReceivedThrough
  return ⟨ledger, some (ledger.contiguous head)⟩

def appendAccepted (s : DeviceSequences) (sequences : List Nat) :
    Except SequenceError DeviceSequences := do
  demand (1 ≤ sequences.length ∧ sequences.length ≤ 256) .batchSize
  demand (sequences.Pairwise (· < ·)) .notIncreasing
  sequences.foldlM appendSequence s

/-- The ledger has the numbers that have landed, the head is the largest one up to which all have,
and without a head none has. -/
structure Exact (landed : List Nat) (s : DeviceSequences) : Prop where
  ledger : ∀ n, n ∈ s.ledger.sequences ↔ n ∈ landed
  head : ∀ n ∈ s.contiguousReceivedThrough, Head (· ∈ landed) n
  headless : s.contiguousReceivedThrough = none → landed = []

end DeviceSequences

inductive SequenceEvent where
  | lockDrainDomain
  | appendAccepted (sequences : List Nat)

/-- The tables under the key; what throws is rolled back. -/
def deviceSequences : Machine DeviceSequences SequenceEvent (Except SequenceError Unit) where
  step s
    | .lockDrainDomain => (s.lockDrainDomain, .ok ())
    | .appendAccepted sequences =>
      match s.appendAccepted sequences with
      | .ok s' => (s', .ok ())
      | .error e => (s, .error e)

/-- The numbers that land with an event. -/
def SequenceEvent.lands (s : DeviceSequences) : SequenceEvent → List Nat
  | .lockDrainDomain => []
  | .appendAccepted sequences =>
    match s.appendAccepted sequences with
    | .ok _ => sequences
    | .error _ => []

/-- The numbers that have landed after a run, if `landed` have before. -/
def landedAfter : DeviceSequences → List Nat → List SequenceEvent → List Nat
  | _, landed, [] => landed
  | s, landed, e :: es => landedAfter (deviceSequences.next s e) (landed ++ e.lands s) es

/-- The ranges are what has not landed between two numbers, each number once. -/
structure Complement (landed : Nat → Prop) (head highest : Nat) (ranges : List SequenceRange) :
    Prop where
  nonempty : ∀ r ∈ ranges, r.fromSequence ≤ r.toSequence
  apart : ranges.Pairwise fun r r' => r.toSequence + 1 < r'.fromSequence
  once : ∀ n, head < n → n ≤ highest → ¬ landed n → ∃! r, r ∈ ranges ∧ r.Covers n
  only : ∀ n, ∀ r ∈ ranges, r.Covers n → head < n ∧ n ≤ highest ∧ ¬ landed n

/-! ## The window and the query -/

/-- The window over numbers in order above `c`, numbered from `c + 1`, stops before a gap. -/
theorem window_stops {l : List Nat} {c m : Nat} (hasc : Ascending id l) (hlow : ∀ n ∈ l, c < n)
    (hm : (((l.zipIdx (c + 1)).filter fun r => r.1 ≠ r.2).map (·.2 - 1)).min?.getD
      (max c (highest id l)) = m) :
    c ≤ m ∧ (∀ n, c < n → n ≤ m → n ∈ l) ∧ m + 1 ∉ l := by
  induction l generalizing c with
  | nil =>
    obtain rfl : c = m := by simpa using hm
    exact ⟨le_rfl, fun n hlo hhi => by omega, not_mem_nil⟩
  | cons a l ih =>
    obtain ⟨ha, hl⟩ := pairwise_cons.mp hasc
    simp only [id_eq] at ha
    have hca := hlow a mem_cons_self
    rw [zipIdx_cons] at hm
    by_cases hnext : a = c + 1
    · subst hnext
      rw [filter_cons_of_neg (by simp), highest_cons, id_eq, ← max_assoc,
        max_eq_right hca.le] at hm
      obtain ⟨hle, hall, hstop⟩ := ih hl ha hm
      refine ⟨hca.le.trans hle, fun n hlo hhi => ?_, ?_⟩
      · rcases Nat.lt_or_eq_of_le hlo with hlt | rfl
        · exact mem_cons_of_mem _ (hall n hlt hhi)
        · exact mem_cons_self
      · rw [mem_cons, not_or]
        exact ⟨by omega, hstop⟩
    · -- the first number leaves a gap, and every place after it is larger
      have hplaces : ∀ r ∈ (l.zipIdx (c + 1 + 1)).filter fun r => r.1 ≠ r.2, c ≤ r.2 - 1 := by
        intro r hr
        have := le_snd_of_mem_zipIdx (mem_of_mem_filter hr)
        omega
      rw [filter_cons_of_pos (by simpa using hnext), map_cons, Nat.add_sub_cancel,
        min?_eq_some_iff.mpr ⟨mem_cons_self,
          forall_mem_cons.mpr ⟨le_rfl, forall_mem_map.mpr hplaces⟩⟩] at hm
      obtain rfl : c = m := hm
      refine ⟨le_rfl, fun n hlo hhi => by omega, fun hmem => ?_⟩
      rcases mem_cons.mp hmem with heq | hmem
      · exact hnext heq.symm
      · have := ha _ hmem
        omega

namespace SequenceLedger

variable {L L' : SequenceLedger} {n : Nat}

theorem backfill_exact (L : SequenceLedger) : L.backfill.Exact L.sequences := by
  unfold backfill
  split
  next hnil => exact ⟨fun _ => Iff.rfl, fun _ h => (by cases h), fun _ => hnil⟩
  next =>
    refine ⟨fun _ => Iff.rfl, ?_, fun h => by cases h⟩
    rintro _ ⟨⟩
    have hasc : Ascending id (sortByKey id L.sequences) :=
      ascending_sortByKey (by simpa using L.unique)
    have hlow : ∀ n ∈ sortByKey id L.sequences, 0 < n := by
      intro n hn
      have hvalid := L.valid n (mem_sortByKey.mp hn)
      simp only [validSequence, Bool.and_eq_true, decide_eq_true_eq] at hvalid
      exact hvalid.1
    obtain ⟨-, hall, hstop⟩ := window_stops hasc hlow rfl
    simp only [mem_sortByKey] at hall hstop
    rw [Nat.zero_max, highest_congr fun n => mem_sortByKey] at hall hstop
    exact head_of_stop hall hstop

theorem insert_eq_some (h : L.insert n = some L') : L'.sequences = n :: L.sequences := by
  unfold insert at h
  split at h
  · cases h
    rfl
  · cases h

/-- The query that begins at or below the head ends there. -/
theorem head_contiguous (h : ∀ i, 1 ≤ i → i ≤ n → i ∈ L.sequences) :
    Head (· ∈ L.sequences) (L.contiguous n) := by
  have hhead := head_reach (fun _ => of_decide_eq_true) fun i hlo hhi =>
    decide_eq_true (h i hlo hhi)
  simpa only [decide_eq_true_eq, contiguous] using hhead

end SequenceLedger

namespace DeviceSequences.Exact

variable {s s' : DeviceSequences} {n : Nat} {landed ns : List Nat} (h : s.Exact landed)

include h

theorem lockDrainDomain : s.lockDrainDomain.Exact landed := by
  refine ⟨h.ledger, ?_, fun h => by cases h⟩
  rintro _ ⟨⟩
  cases hhead : s.contiguousReceivedThrough with
  | some head => exact h.head head hhead
  | none =>
    refine head_of_stop (fun i hlo hhi => absurd hhi (Nat.not_le.mpr hlo)) ?_
    exact h.headless hhead ▸ not_mem_nil

theorem appendSequence (happend : s.appendSequence n = .ok s') : s'.Exact (landed ++ [n]) := by
  obtain ⟨L, hL, happend⟩ := bind_eq_ok.mp happend
  obtain ⟨head, hhead, ⟨⟩⟩ := bind_eq_ok.mp happend
  have hledger : ∀ m, m ∈ L.sequences ↔ m ∈ landed ++ [n] := by
    intro m
    rw [SequenceLedger.insert_eq_some (found_eq_ok.mp hL), mem_cons, h.ledger, mem_append,
      mem_singleton, or_comm]
  refine ⟨hledger, ?_, fun h => by cases h⟩
  rintro _ ⟨⟩
  simp only [← hledger]
  refine SequenceLedger.head_contiguous fun i hlo hhi => (hledger i).mpr ?_
  exact mem_append_left _ ((h.head head (found_eq_ok.mp hhead)).1 i hlo hhi)

theorem appendSequences (happend : ns.foldlM DeviceSequences.appendSequence s = .ok s') :
    s'.Exact (landed ++ ns) := by
  induction ns generalizing s landed with
  | nil =>
    cases happend
    rwa [append_nil]
  | cons n ns ih =>
    rw [foldlM_cons, bind_eq_ok] at happend
    obtain ⟨t, ht, happend⟩ := happend
    rw [← singleton_append, ← append_assoc]
    exact ih (h.appendSequence ht) happend

/-- One event. -/
theorem next (e : SequenceEvent) : (deviceSequences.next s e).Exact (landed ++ e.lands s) := by
  cases e with
  | lockDrainDomain =>
    rw [SequenceEvent.lands, append_nil]
    exact h.lockDrainDomain
  | appendAccepted sequences =>
    unfold Machine.next deviceSequences SequenceEvent.lands
    dsimp only
    split
    next s' happend =>
      obtain ⟨_, -, happend⟩ := bind_eq_ok.mp happend
      obtain ⟨_, -, happend⟩ := bind_eq_ok.mp happend
      exact h.appendSequences happend
    next =>
      rwa [append_nil]

theorem run (events : List SequenceEvent) :
    (deviceSequences.run s events).Exact (landedAfter s landed events) := by
  induction events generalizing s landed with
  | nil => exact h
  | cons e es ih => exact ih (h.next e)

end DeviceSequences.Exact

/-! ## The missing ranges -/

theorem covers_unique {ranges : List SequenceRange} {r r' : SequenceRange} {n : Nat}
    (h : ranges.Pairwise fun r r' => r.toSequence + 1 < r'.fromSequence)
    (hr : r ∈ ranges ∧ r.Covers n) (hr' : r' ∈ ranges ∧ r'.Covers n) : r = r' := by
  have hsymm : Std.Symm fun r r' : SequenceRange => r.Covers n → r'.Covers n → r = r' :=
    ⟨fun _ _ hsame hcovers hcovers' => (hsame hcovers' hcovers).symm⟩
  have hsame : ranges.Pairwise fun r r' => r.Covers n → r'.Covers n → r = r' := by
    refine h.imp fun hlt hcovers hcovers' => ?_
    have hle := hcovers.2
    have hge := hcovers'.1
    omega
  exact hsame.forall_of_forall (fun _ _ _ _ => rfl) hr.1 hr'.1 hr.2 hr'.2

theorem missing_complement {has : Nat → Bool} {head : Nat} (highest : Nat)
    (h : Head (has · = true) head) :
    Complement (has · = true) head highest (missingSequenceRanges has highest) where
  nonempty := missingSequenceRanges_nonempty
  apart := missingSequenceRanges_apart
  once n hlo hhi hmissing := by
    obtain ⟨r, hr⟩ := mem_missingSequenceRanges.mpr
      ⟨Nat.zero_lt_of_lt hlo, hhi, Bool.eq_false_iff.mpr hmissing⟩
    exact ⟨r, hr, fun r' hr' => covers_unique missingSequenceRanges_apart hr' hr⟩
  only n r hr hcovers := by
    obtain ⟨hlo, hhi, hmissing⟩ := mem_missingSequenceRanges.mp ⟨r, hr, hcovers⟩
    rw [Bool.eq_false_iff] at hmissing
    exact ⟨Nat.lt_of_not_le fun hle => hmissing (h.1 n hlo hle), hhi, hmissing⟩

/-- The missing ranges are what has not landed between the head and the highest number.  The head
of the migration is that of its ledger, and after any appends the stored head is that of the
ledger's numbers and the appended ones. -/
theorem sequenceHeads_exact (records : List LandedEnvelope) (L : SequenceLedger)
    (events : List SequenceEvent) :
    (∃ head, Head (· ∈ records.map LandedEnvelope.sequence) head ∧
      Complement (· ∈ records.map LandedEnvelope.sequence) head
        (highest LandedEnvelope.sequence records)
        (missingSequenceRanges (fun n => (lookup LandedEnvelope.sequence n records).isSome)
          (highest LandedEnvelope.sequence records))) ∧
      L.backfill.Exact L.sequences ∧
      (deviceSequences.run L.backfill events).Exact
        (landedAfter L.backfill L.sequences events) := by
  refine ⟨?_, L.backfill_exact, L.backfill_exact.run events⟩
  have hhead := head_reach_lookup LandedEnvelope.sequence records
  have hmissing := missing_complement (highest LandedEnvelope.sequence records) hhead
  simp only [lookup_isSome] at hhead hmissing
  exact ⟨_, hhead, hmissing⟩

end GoodDealer.Cloud
