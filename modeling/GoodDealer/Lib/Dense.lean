/-
# `GoodDealer.Lib.Dense` — lists numbered without a gap

A revision log is a list whose entries carry consecutive numbers.  `DenseFrom
rev n l` says that the entries of `l` are numbered `n+1, n+2, …` in order.  On
such a list a window `(a, b]` of numbers is a contiguous slice, so reading a
window, cutting a prefix and appending at the end are all list surgery:

    window a b l          the entries numbered in (a, b]
    window_eq_slice       it is `take (b - a)` of `drop (a - n)`
    window_split          (a, c] is (a, b] followed by (b, c]
    denseFrom_append      density of a concatenation
    dropThrough           the entries numbered above w, dense from w
-/
import Mathlib.Data.List.Basic
import Mathlib.Tactic.Common

namespace GoodDealer

open List

section

variable {α : Type} (rev : α → Nat)

/-- The entries of `l` are numbered `n+1, n+2, …` in order. -/
def DenseFrom : Nat → List α → Prop
  | _, [] => True
  | n, x :: xs => rev x = n + 1 ∧ DenseFrom (n + 1) xs

instance decDenseFrom : ∀ (n : Nat) (l : List α), Decidable (DenseFrom rev n l)
  | _, [] => isTrue trivial
  | n, x :: xs =>
    haveI := decDenseFrom (n + 1) xs
    inferInstanceAs (Decidable (rev x = n + 1 ∧ DenseFrom rev (n + 1) xs))

/-- The entries numbered in `(a, b]`. -/
def window (a b : Nat) (l : List α) : List α :=
  l.filter (fun x => decide (a < rev x) && decide (rev x ≤ b))

/-- The entries numbered above `w`. -/
def dropThrough (w : Nat) (l : List α) : List α :=
  l.filter (fun x => decide (w < rev x))

end

variable {α : Type} {rev : α → Nat}

@[simp] theorem denseFrom_nil (n : Nat) : DenseFrom rev n ([] : List α) := trivial

@[simp] theorem denseFrom_cons (n : Nat) (x : α) (xs : List α) :
    DenseFrom rev n (x :: xs) ↔ rev x = n + 1 ∧ DenseFrom rev (n + 1) xs := Iff.rfl

variable {l l' : List α} {n a b w : Nat} {x : α}

theorem denseFrom_append :
    DenseFrom rev n (l ++ l') ↔ DenseFrom rev n l ∧ DenseFrom rev (n + l.length) l' := by
  induction l generalizing n with
  | nil => simp
  | cons x xs ih =>
    simp only [cons_append, denseFrom_cons, ih, length_cons, and_assoc]
    rw [show n + 1 + xs.length = n + (xs.length + 1) by omega]

theorem window_append (a b : Nat) (l l' : List α) :
    window rev a b (l ++ l') = window rev a b l ++ window rev a b l' :=
  filter_append ..

/-- A window no entry of the list falls into is empty. -/
theorem window_eq_nil (h : ∀ x ∈ l, rev x ≤ a ∨ b < rev x) : window rev a b l = [] := by
  rw [window, filter_eq_nil_iff]
  intro x hx
  have := h x hx
  simp only [Bool.and_eq_true, decide_eq_true_eq, not_and]
  omega

/-- A window every entry of the list falls into is the list. -/
theorem window_eq_self (h : ∀ x ∈ l, a < rev x ∧ rev x ≤ b) : window rev a b l = l := by
  rw [window, filter_eq_self]
  intro x hx
  have := h x hx
  simp only [Bool.and_eq_true, decide_eq_true_eq]
  exact this

theorem mem_dropThrough : x ∈ dropThrough rev w l ↔ x ∈ l ∧ w < rev x := by
  simp [dropThrough, mem_filter]

section

variable (h : DenseFrom rev n l)

include h

/-- Every entry of a dense list is numbered within its bounds. -/
theorem denseFrom_bounds : ∀ x ∈ l, n < rev x ∧ rev x ≤ n + l.length := by
  induction l generalizing n with
  | nil => intro x hx; cases hx
  | cons y ys ih =>
    intro x hx
    rcases mem_cons.mp hx with rfl | hx
    · simp only [length_cons]
      have := h.1
      omega
    · have := ih h.2 x hx
      simp only [length_cons]
      omega

/-- Each number within the bounds of a dense list occurs in it. -/
theorem denseFrom_exists {r : Nat} (hlo : n < r) (hhi : r ≤ n + l.length) : ∃ x ∈ l, rev x = r := by
  induction l generalizing n with
  | nil => simp at hhi; omega
  | cons y ys ih =>
    simp only [length_cons] at hhi
    by_cases hr : r = n + 1
    · exact ⟨y, mem_cons_self, by rw [h.1, hr]⟩
    · obtain ⟨x, hx, hxr⟩ := ih h.2 (by omega) (by omega)
      exact ⟨x, mem_cons_of_mem _ hx, hxr⟩

/-- Two entries of a dense list with one number are the same entry. -/
theorem denseFrom_inj {y : α} (hx : x ∈ l) (hy : y ∈ l) (hxy : rev x = rev y) : x = y := by
  induction l generalizing n with
  | nil => cases hx
  | cons z zs ih =>
    have hz := h.1
    have hb := denseFrom_bounds h.2
    rcases mem_cons.mp hx with rfl | hx' <;> rcases mem_cons.mp hy with rfl | hy'
    · rfl
    · have := hb y hy'; omega
    · have := hb x hx'; omega
    · exact ih h.2 hx' hy'

theorem denseFrom_drop {k : Nat} (hk : k ≤ l.length) : DenseFrom rev (n + k) (l.drop k) := by
  have h' := h
  rw [← take_append_drop k l, denseFrom_append, length_take,
    Nat.min_eq_left hk] at h'
  exact h'.2

theorem denseFrom_take {k : Nat} : DenseFrom rev n (l.take k) := by
  rw [← take_append_drop k l, denseFrom_append] at h
  exact h.1

/-! ## Windows -/

section

variable (hna : n ≤ a) (hab : a ≤ b)

include hna hab

section

variable (hb : b ≤ n + l.length)

include hb

theorem window_eq_slice : window rev a b l = (l.drop (a - n)).take (b - a) := by
  -- cut the list at the two bounds; the outer pieces contribute nothing
  have hsplit : l = l.take (a - n) ++ ((l.drop (a - n)).take (b - a) ++
      (l.drop (a - n)).drop (b - a)) := by
    rw [take_append_drop, take_append_drop]
  have hmid : DenseFrom rev a (l.drop (a - n)) := by
    have := denseFrom_drop h (k := a - n) (by omega)
    rwa [show n + (a - n) = a by omega] at this
  have hlen : (l.drop (a - n)).length = l.length - (a - n) := length_drop
  conv_lhs => rw [hsplit]
  rw [window_append, window_append, window_eq_nil, window_eq_self, window_eq_nil]
  · simp
  · intro x hx
    have hd := denseFrom_drop hmid (k := b - a) (by omega)
    have := denseFrom_bounds hd x hx
    omega
  · intro x hx
    have := denseFrom_bounds (denseFrom_take hmid) x hx
    rw [length_take] at this
    omega
  · intro x hx
    have := denseFrom_bounds (denseFrom_take h) x hx
    rw [length_take] at this
    omega

theorem window_length : (window rev a b l).length = b - a := by
  rw [window_eq_slice h hna hab hb, length_take, length_drop]
  omega

theorem window_dense : DenseFrom rev a (window rev a b l) := by
  rw [window_eq_slice h hna hab hb]
  have := denseFrom_drop h (k := a - n) (by omega)
  rw [show n + (a - n) = a by omega] at this
  exact denseFrom_take this

end

/-- `(a, c]` is `(a, b]` followed by `(b, c]`. -/
theorem window_split {c : Nat} (hbc : b ≤ c)
    (hc : c ≤ n + l.length) : window rev a c l = window rev a b l ++ window rev b c l := by
  rw [window_eq_slice h hna (Nat.le_trans hab hbc) hc,
    window_eq_slice h hna hab (Nat.le_trans hbc hc),
    window_eq_slice h (Nat.le_trans hna hab) hbc hc]
  rw [show c - a = (b - a) + (c - b) by omega, take_add, drop_drop,
    show a - n + (b - a) = b - n by omega]

end

/-! ## Cutting a prefix -/

variable (hnw : n ≤ w) (hw : w ≤ n + l.length)

include hnw hw

theorem dropThrough_eq_drop : dropThrough rev w l = l.drop (w - n) := by
  have hwin : dropThrough rev w l = window rev w (n + l.length) l := by
    apply filter_congr
    intro x hx
    have := denseFrom_bounds h x hx
    simp [this.2]
  rw [hwin, window_eq_slice h hnw hw (Nat.le_refl _), take_of_length_le]
  rw [length_drop]
  omega

theorem dropThrough_dense : DenseFrom rev w (dropThrough rev w l) := by
  rw [dropThrough_eq_drop h hnw hw]
  have := denseFrom_drop h (k := w - n) (by omega)
  rwa [show n + (w - n) = w by omega] at this

theorem dropThrough_length : w + (dropThrough rev w l).length = n + l.length := by
  rw [dropThrough_eq_drop h hnw hw, length_drop]
  omega

end

/-- Entries appended past the window do not change it. -/
theorem window_append_right (h : DenseFrom rev n (l ++ l')) (hb : b ≤ n + l.length) :
    window rev a b (l ++ l') = window rev a b l := by
  rw [window_append, window_eq_nil (l := l'), append_nil]
  intro x hx
  have := denseFrom_bounds (denseFrom_append.mp h).2 x hx
  omega

/-- A window above the cut does not see the cut. -/
theorem window_dropThrough (hwa : w ≤ a) :
    window rev a b (dropThrough rev w l) = window rev a b l := by
  rw [window, dropThrough, filter_filter]
  apply filter_congr
  intro x _
  by_cases hx : a < rev x
  · simp [hx, show w < rev x by omega]
  · simp [hx]

end GoodDealer
