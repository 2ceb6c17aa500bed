/-
# `GoodDealer.Lib.Watermark` — how far a set of numbered records reaches

Records carry numbers from 1 on and arrive in any order, so a set of them may
have gaps.  Two numbers describe it: the highest in use, and the last one before
the first gap.  `Front l xs` says that `xs` are the records before the first
gap, in order; it fixes `xs` (`Front.unique`), whatever way it was found:

    scan    one pass over the records in ascending order, folding the front
    reach   counting up from 1 for as long as the next number is there

`scan_eq` and `front_reach` say that both find the front.  The set is complete
when the two numbers agree (`Front.complete_iff`).
-/
import GoodDealer.Lib.Keyed
import Mathlib.Order.Bounds.Defs

namespace GoodDealer.Watermark

open List Keyed

variable {α δ : Type} (number : α → Nat)

/-- `xs` are the records numbered `c + 1`, `c + 2`, … up to the first number not in `l`. -/
def FrontFrom (c : Nat) (l xs : List α) : Prop :=
  ∀ i ≤ xs.length, Keyed.lookup number (c + i + 1) l = xs[i]?

/-- The records before the first gap. -/
def Front (l xs : List α) : Prop := FrontFrom number 0 l xs

/-- The largest number up to which there is no gap. -/
def Head (has : Nat → Prop) (n : Nat) : Prop :=
  IsGreatest {m | ∀ i, 1 ≤ i → i ≤ m → has i} n

/-- The highest number in use, or 0. -/
def highest (l : List α) : Nat := l.foldl (fun h r => max h (number r)) 0

/-- A pass over the records: how far it is without a gap, the highest number so far, and
the fold of the front. -/
structure Pass (δ : Type) where
  contiguous : Nat
  highest : Nat
  digest : δ
deriving DecidableEq

/-- One record of the pass. -/
def Pass.advance (step : δ → α → δ) (s : Pass δ) (r : α) : Pass δ where
  contiguous := if number r = s.contiguous + 1 then number r else s.contiguous
  highest := max s.highest (number r)
  digest := if number r = s.contiguous + 1 then step s.digest r else s.digest

/-- The pass over a list of records. -/
def scan (step : δ → α → δ) (genesis : δ) (l : List α) : Pass δ :=
  l.foldl (Pass.advance number step) ⟨0, 0, genesis⟩

/-- Count up from `c` for as long as the next number is there, at most `fuel` times. -/
def reach (has : Nat → Bool) : (fuel c : Nat) → Nat
  | 0, c => c
  | fuel + 1, c => if has (c + 1) then reach has fuel (c + 1) else c

variable {number}

/-! ## The front is determined -/

/-- Every record of the front has its place's number. -/
theorem FrontFrom.lookup {c : Nat} {l xs : List α} (h : FrontFrom number c l xs) {i : Nat}
    (hi : i < xs.length) : Keyed.lookup number (c + i + 1) l = some xs[i] := by
  rw [h i hi.le, List.getElem?_eq_getElem hi]

variable {l xs : List α} {c : Nat} {step : δ → α → δ} {s : Pass δ}

theorem FrontFrom.stop (h : FrontFrom number c l xs) :
    Keyed.lookup number (c + xs.length + 1) l = none := by
  rw [h xs.length le_rfl, List.getElem?_eq_none le_rfl]

theorem FrontFrom.cons {r : α} (hr : number r = c + 1) (h : FrontFrom number (c + 1) l xs) :
    FrontFrom number c (r :: l) (r :: xs) := by
  intro i hi
  cases i with
  | zero => simp [Keyed.lookup_cons, hr]
  | succ i =>
    have hne : number r ≠ c + (i + 1) + 1 := by omega
    rw [Keyed.lookup_cons, if_neg hne, List.getElem?_cons_succ,
      show c + (i + 1) + 1 = c + 1 + i + 1 by omega]
    exact h i (by simpa using hi)

/-- The front of a set is one list. -/
theorem Front.unique {ys : List α} (hx : Front number l xs) (hy : Front number l ys) : xs = ys := by
  have hle : ∀ {as bs : List α}, Front number l as → Front number l bs →
      as.length ≤ bs.length := by
    intro as bs ha hb
    by_contra hlt
    have hsome := ha.lookup (i := bs.length) (by omega)
    rw [hb.stop] at hsome
    cases hsome
  have hlen : xs.length = ys.length := le_antisymm (hle hx hy) (hle hy hx)
  apply ext_getElem?
  intro i
  by_cases hi : i ≤ xs.length
  · rw [← hx i hi, ← hy i (hlen ▸ hi)]
  · rw [List.getElem?_eq_none (by omega), List.getElem?_eq_none (by omega)]

/-! ## The highest number -/

theorem foldl_max (l : List α) (h : Nat) :
    l.foldl (fun h r => max h (number r)) h = max h (highest number l) := by
  induction l generalizing h with
  | nil => simp [highest]
  | cons r l ih =>
    have hr := ih (max 0 (number r))
    simp only [highest, foldl_cons] at hr ⊢
    rw [ih, hr]
    simp only [highest]
    omega

@[simp] theorem highest_nil : highest number ([] : List α) = 0 := rfl

@[simp] theorem highest_cons (r : α) (l : List α) :
    highest number (r :: l) = max (number r) (highest number l) := by
  rw [highest, foldl_cons, foldl_max]
  omega

theorem le_highest {r : α} (hr : r ∈ l) : number r ≤ highest number l := by
  induction l with
  | nil => cases hr
  | cons a l ih =>
    rw [highest_cons]
    rcases mem_cons.mp hr with rfl | hr
    · exact le_max_left _ _
    · exact le_trans (ih hr) (le_max_right _ _)

/-- The highest number is a record's, if there is one. -/
theorem highest_mem (h : l ≠ []) : ∃ r ∈ l, number r = highest number l := by
  induction l with
  | nil => exact absurd rfl h
  | cons a l ih =>
    rw [highest_cons]
    by_cases hl : l = []
    · subst hl
      exact ⟨a, mem_cons_self, by simp⟩
    · obtain ⟨r, hr, hrh⟩ := ih hl
      rcases le_total (number a) (highest number l) with hle | hle
      · exact ⟨r, mem_cons_of_mem _ hr, by omega⟩
      · exact ⟨a, mem_cons_self, by omega⟩

theorem highest_congr {l' : List α} (hmem : ∀ a, a ∈ l ↔ a ∈ l') :
    highest number l = highest number l' := by
  have hle : ∀ {as bs : List α}, (∀ a ∈ as, a ∈ bs) → highest number as ≤ highest number bs := by
    intro as bs hsub
    induction as with
    | nil => simp
    | cons a as ih =>
      rw [highest_cons]
      have ha : number a ≤ highest number bs := le_highest (hsub a mem_cons_self)
      have has := ih (forall_mem_cons.mp hsub).2
      omega
  exact le_antisymm (hle fun a ha => (hmem a).mp ha) (hle fun a ha => (hmem a).mpr ha)

/-- The front stays within the numbers in use. -/
theorem Front.length_le (h : Front number l xs) : xs.length ≤ highest number l := by
  cases hlen : xs.length with
  | zero => exact Nat.zero_le _
  | succ n =>
    have hlast := h.lookup (i := n) (by omega)
    obtain ⟨hmem, hnum⟩ := lookup_eq_some hlast
    have hle : number xs[n] ≤ highest number l := le_highest hmem
    omega

/-- The front reaches the highest number exactly when no number below it is missing. -/
theorem Front.complete_iff (h : Front number l xs) :
    xs.length = highest number l ↔
      ∀ n, 1 ≤ n → n ≤ highest number l → (Keyed.lookup number n l).isSome := by
  constructor
  · intro hlen n hn hle
    have hsome := h.lookup (i := n - 1) (by omega)
    rw [show 0 + (n - 1) + 1 = n by omega] at hsome
    rw [hsome, Option.isSome_some]
  · intro hall
    by_contra hne
    have hlt : xs.length + 1 ≤ highest number l := by
      have := h.length_le
      omega
    have hsome := hall (xs.length + 1) (by omega) hlt
    have hstop := h.stop
    rw [Nat.zero_add] at hstop
    rw [hstop] at hsome
    cases hsome

/-! ## One pass in ascending order -/

/-- Past a gap the pass only looks for the highest number. -/
theorem foldl_advance_gap (h : ∀ r ∈ l, s.contiguous + 1 < number r) :
    l.foldl (Pass.advance number step) s =
      { s with highest := max s.highest (highest number l) } := by
  induction l generalizing s with
  | nil => simp
  | cons r l ih =>
    have hr : number r ≠ s.contiguous + 1 := by
      have := h r mem_cons_self
      omega
    have hs : Pass.advance number step s r = { s with highest := max s.highest (number r) } := by
      simp [Pass.advance, hr]
    have hl : ∀ x ∈ l, (Pass.advance number step s r).contiguous + 1 < number x := by
      intro x hx
      rw [hs]
      exact h x (mem_cons_of_mem _ hx)
    rw [foldl_cons, ih hl, hs, highest_cons]
    simp [Nat.max_assoc]

/-- The pass from a point below every record finds the front that begins there. -/
theorem foldl_advance (hasc : Ascending number l) (hlow : ∀ r ∈ l, s.contiguous < number r) :
    ∃ xs, FrontFrom number s.contiguous l xs ∧
      l.foldl (Pass.advance number step) s =
        ⟨s.contiguous + xs.length, max s.highest (highest number l), xs.foldl step s.digest⟩ := by
  induction l generalizing s with
  | nil =>
    refine ⟨[], ?_, by simp⟩
    intro i _
    simp
  | cons r l ih =>
    obtain ⟨hr, hl⟩ := pairwise_cons.mp hasc
    by_cases hnext : number r = s.contiguous + 1
    · obtain ⟨xs, hfront, hfold⟩ := ih (s := Pass.advance number step s r) hl (by
        intro x hx
        have := hr x hx
        simp only [Pass.advance, hnext, if_true]
        omega)
      have hcont : (Pass.advance number step s r).contiguous = s.contiguous + 1 := by
        simp [Pass.advance, hnext]
      rw [hcont] at hfront hfold
      refine ⟨r :: xs, hfront.cons hnext, ?_⟩
      rw [foldl_cons, hfold, highest_cons]
      simp only [Pass.advance, hnext, if_true, length_cons, foldl_cons,
        Pass.mk.injEq, and_true]
      omega
    · -- the first record leaves a gap, and the others are above it
      have hgap : ∀ x ∈ r :: l, s.contiguous + 1 < number x := by
        intro x hx
        have hrlow := hlow r mem_cons_self
        rcases mem_cons.mp hx with rfl | hx
        · omega
        · have := hr x hx
          omega
      refine ⟨[], ?_, by simp [foldl_advance_gap hgap]⟩
      intro i hi
      obtain rfl : i = 0 := by simpa using hi
      rw [lookup_eq_none.mpr]
      · simp
      · intro x hx
        have := hgap x hx
        omega

/-- The pass over records in ascending order finds the front and the highest number. -/
theorem scan_eq (step : δ → α → δ) (genesis : δ) (hasc : Ascending number l)
    (hpos : ∀ r ∈ l, 1 ≤ number r) :
    ∃ xs, Front number l xs ∧
      scan number step genesis l = ⟨xs.length, highest number l, xs.foldl step genesis⟩ := by
  obtain ⟨xs, hfront, hfold⟩ := foldl_advance (s := ⟨0, 0, genesis⟩) hasc hpos
  refine ⟨xs, hfront, ?_⟩
  rw [scan, hfold, Nat.zero_add, Nat.zero_max]

/-! ## Counting up -/

section

variable {has : Nat → Prop} {n : Nat}

theorem head_of_stop (hall : ∀ i, 1 ≤ i → i ≤ n → has i) (hstop : ¬ has (n + 1)) : Head has n := by
  refine ⟨hall, fun m hm => Nat.le_of_not_lt fun hlt => ?_⟩
  exact hstop (hm (n + 1) (Nat.le_add_left 1 n) hlt)

theorem Head.stop (h : Head has n) : ¬ has (n + 1) := by
  intro hnext
  refine Nat.not_succ_le_self n (h.2 fun i hi hle => ?_)
  rcases Nat.le_succ_iff.mp hle with hle | rfl
  · exact h.1 i hi hle
  · exact hnext

end

/-- The count stops at a number that is missing, or when its fuel is used up. -/
theorem reach_spec (has : Nat → Bool) (fuel c : Nat) :
    c ≤ reach has fuel c ∧ (∀ n, c < n → n ≤ reach has fuel c → has n = true) ∧
      (has (reach has fuel c + 1) = true → reach has fuel c = c + fuel) := by
  induction fuel generalizing c with
  | zero =>
    refine ⟨le_rfl, ?_, fun _ => rfl⟩
    intro n hlo hhi
    simp only [reach] at hhi
    omega
  | succ fuel ih =>
    rw [reach]
    cases hc : has (c + 1) with
    | false =>
      simp only [Bool.false_eq_true, if_false]
      refine ⟨le_rfl, fun n hlo hhi => by omega, fun h => ?_⟩
      rw [hc] at h
      cases h
    | true =>
      simp only [if_true]
      obtain ⟨hle, hall, hstop⟩ := ih (c + 1)
      refine ⟨by omega, ?_, fun h => by rw [hstop h]; omega⟩
      intro n hlo hhi
      by_cases hn : n = c + 1
      · rw [hn, hc]
      · exact hall n (by omega) hhi

/-- With as much fuel as there are numbers, counting up ends at the first gap. -/
theorem head_reach {has : Nat → Bool} {ns : List Nat} (hns : ∀ n, has n = true → n ∈ ns)
    (hc : ∀ n, 1 ≤ n → n ≤ c → has n = true) : Head (has · = true) (reach has ns.length c) := by
  obtain ⟨-, hall, hstop⟩ := reach_spec has ns.length c
  have hreached : ∀ n, 1 ≤ n → n ≤ reach has ns.length c → has n = true := by
    intro n hn hle
    rcases Nat.lt_or_ge c n with hlt | hge
    · exact hall n hlt hle
    · exact hc n hn hge
  refine head_of_stop hreached fun hnext => ?_
  -- otherwise the numbers 1 to `ns.length + 1` would all be in use
  have hend := hstop hnext
  have hsub : List.range' 1 (ns.length + 1) ⊆ ns := by
    intro n hmem
    rw [mem_range'_1] at hmem
    apply hns
    by_cases hlast : n = reach has ns.length c + 1
    · rw [hlast, hnext]
    · exact hreached n hmem.1 (by omega)
  have hlen := (subperm_of_subset (nodup_range' ..) hsub).length_le
  rw [length_range'] at hlen
  omega

variable (number) in
theorem head_reach_lookup (l : List α) :
    Head (fun n => (Keyed.lookup number n l).isSome = true)
      (reach (fun n => (Keyed.lookup number n l).isSome) l.length 0) := by
  rw [← length_map number]
  exact head_reach (fun n => lookup_isSome.mp) fun n hn hle => by omega

variable (number) in
/-- Counting up finds the front. -/
theorem front_reach (l : List α) :
    ∃ xs, Front number l xs ∧
      xs.length = reach (fun n => (Keyed.lookup number n l).isSome) l.length 0 := by
  have hhead := head_reach_lookup number l
  generalize reach (fun n => (Keyed.lookup number n l).isSome) l.length 0 = c at hhead
  have hstop := Option.not_isSome_iff_eq_none.mp hhead.stop
  have hlist : ∀ k ≤ c, ∃ xs : List α, xs.length = k ∧
      ∀ i < k, Keyed.lookup number (i + 1) l = xs[i]? := by
    intro k hk
    induction k with
    | zero => exact ⟨[], rfl, fun i hi => absurd hi (Nat.not_lt_zero i)⟩
    | succ k ih =>
      obtain ⟨xs, hlen, hxs⟩ := ih (by omega)
      obtain ⟨r, hr⟩ := Option.isSome_iff_exists.mp (hhead.1 (k + 1) (by omega) hk)
      refine ⟨xs ++ [r], by simp [hlen], ?_⟩
      intro i hi
      by_cases hik : i < k
      · rw [hxs i hik, List.getElem?_append_left (by omega)]
      · obtain rfl : i = k := by omega
        rw [hr, ← hlen, List.getElem?_concat_length]
  obtain ⟨xs, hlen, hxs⟩ := hlist c le_rfl
  refine ⟨xs, ?_, hlen⟩
  intro i hi
  rw [Nat.zero_add]
  by_cases hic : i < c
  · exact hxs i hic
  · obtain rfl : i = c := by omega
    rw [hstop, List.getElem?_eq_none (by omega)]

theorem FrontFrom.tail {x : α} (h : FrontFrom number c l (x :: xs)) :
    FrontFrom number (c + 1) l xs := by
  intro i hi
  have hsucc := h (i + 1) (by simpa using hi)
  rw [List.getElem?_cons_succ] at hsucc
  rw [← hsucc, show c + (i + 1) + 1 = c + 1 + i + 1 by omega]

/-- Reading the records of the front one after another. -/
theorem FrontFrom.foldlM (step : δ → α → Option δ) : ∀ {xs l : List α} {c : Nat} (d : δ),
    FrontFrom number c l xs →
      (List.range' (c + 1) xs.length).foldlM
        (fun d n => (Keyed.lookup number n l).bind (step d)) d = xs.foldlM step d := by
  intro xs
  induction xs with
  | nil => intro l c d _; rfl
  | cons x xs ih =>
    intro l c d h
    have hx : Keyed.lookup number (c + 1) l = some x := h.lookup (i := 0) (by simp)
    rw [length_cons, List.range'_succ, foldlM_cons, foldlM_cons, hx]
    exact congrArg (step d x).bind (funext fun d' => ih d' h.tail)

/-- Collecting them. -/
theorem FrontFrom.filterMap : ∀ {xs l : List α} {c : Nat}, FrontFrom number c l xs →
    (List.range' (c + 1) xs.length).filterMap (Keyed.lookup number · l) = xs := by
  intro xs
  induction xs with
  | nil => intro l c _; rfl
  | cons x xs ih =>
    intro l c h
    have hx : Keyed.lookup number (c + 1) l = some x := h.lookup (i := 0) (by simp)
    rw [length_cons, List.range'_succ]
    simp only [filterMap_cons, hx, ih h.tail]

end GoodDealer.Watermark
