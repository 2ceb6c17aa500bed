/-
# `GoodDealer.Lib.Keyed` — rows with a key

A table with a primary key, or a map read back in insertion order, is a list of
rows with a key function.  The operations a program makes on one are

    lookup k l      the row with key `k`
    adjust k f l    change the row with key `k` in place
    put a f l       insert `a`, or change the row that has its key
    remove k l      delete the row with key `k`
    sortByKey l     the rows in key order

and the facts below say how a lookup sees each of them, that each keeps the
keys unique or ascending, and that sorting an ascending list changes nothing.
-/
import Mathlib.Data.List.Sort
import Mathlib.Data.List.Nodup

namespace GoodDealer

open List

namespace Keyed

variable {κ α : Type}

section

variable [DecidableEq κ] (key : α → κ)

/-- The row with key `k`. -/
def lookup (k : κ) (l : List α) : Option α := l.find? (fun a => decide (key a = k))

/-- Change the row with key `k` in place. -/
def adjust (k : κ) (f : α → α) (l : List α) : List α :=
  l.map (fun a => if key a = k then f a else a)

/-- Insert a row, or change the row that has its key: `ON CONFLICT DO UPDATE`. -/
def put (a : α) (f : α → α) (l : List α) : List α :=
  match lookup key (key a) l with
  | none => l ++ [a]
  | some _ => adjust key (key a) f l

/-- Delete the row with key `k`. -/
def remove (k : κ) (l : List α) : List α := l.filter (fun a => decide (key a ≠ k))

end

/-- The keys are unique and in order. -/
def Ascending [LT κ] (key : α → κ) (l : List α) : Prop :=
  l.Pairwise (fun a b => key a < key b)

instance decAscending [LT κ] [DecidableLT κ] (key : α → κ) (l : List α) :
    Decidable (Ascending key l) :=
  inferInstanceAs (Decidable (l.Pairwise _))

/-- The rows in key order. -/
def sortByKey [LE κ] [DecidableLE κ] (key : α → κ) (l : List α) : List α :=
  l.insertionSort (fun a b => key a ≤ key b)

/-! ## What a lookup sees -/

section

variable [DecidableEq κ] {key : α → κ}

variable {k : κ} {l : List α} {a b : α}

theorem lookup_eq_some (h : lookup key k l = some a) : a ∈ l ∧ key a = k :=
  ⟨mem_of_find?_eq_some h, by simpa using List.find?_some h⟩

theorem lookup_eq_none : lookup key k l = none ↔ ∀ a ∈ l, key a ≠ k := by
  simp [lookup, List.find?_eq_none]

theorem lookup_isSome : (lookup key k l).isSome ↔ k ∈ l.map key := by
  simp [lookup, List.find?_isSome]

@[simp] theorem lookup_nil (k : κ) : lookup key k ([] : List α) = none := rfl

theorem lookup_cons (k : κ) (a : α) (l : List α) :
    lookup key k (a :: l) = if key a = k then some a else lookup key k l := by
  by_cases h : key a = k <;> simp [lookup, h]

theorem lookup_append (k : κ) (l l' : List α) :
    lookup key k (l ++ l') = (lookup key k l).or (lookup key k l') :=
  List.find?_append

/-- A map that keeps keys commutes with the lookup. -/
theorem lookup_map {f : α → α} (hf : ∀ a, key (f a) = key a) (k : κ) (l : List α) :
    lookup key k (l.map f) = (lookup key k l).map f := by
  induction l with
  | nil => rfl
  | cons a l ih =>
    rw [map_cons, lookup_cons, lookup_cons, hf, ih]
    split <;> rfl

/-- A row whose key is not in use. -/
theorem nodup_append_new (hn : (l.map key).Nodup) (h : lookup key (key a) l = none) :
    ((l ++ [a]).map key).Nodup := by
  rw [map_append, map_singleton, ← concat_eq_append]
  refine hn.concat fun hmem => ?_
  obtain ⟨b, hb, hk⟩ := mem_map.mp hmem
  exact lookup_eq_none.mp h b hb hk

/-- With unique keys, each row is found under its own key. -/
theorem lookup_of_mem (hn : (l.map key).Nodup) (ha : a ∈ l) : lookup key (key a) l = some a := by
  induction l with
  | nil => cases ha
  | cons b l ih =>
    simp only [map_cons, nodup_cons] at hn
    rw [lookup_cons]
    rcases mem_cons.mp ha with rfl | ha'
    · simp
    · have hne : key b ≠ key a := fun h => hn.1 (h ▸ mem_map_of_mem ha')
      rw [if_neg hne, ih hn.2 ha']

/-! ## Changing one row -/

variable {f : α → α}

/-- Distinct keys: at most one row has a given key. -/
theorem length_filter_le_one (hn : (l.map key).Nodup) (k : κ) :
    (l.filter (key · = k)).length ≤ 1 := by
  induction l with
  | nil => exact Nat.zero_le _
  | cons a l ih =>
    obtain ⟨ha, hl⟩ := nodup_cons.mp hn
    by_cases hk : key a = k
    · have hnone : l.filter (key · = k) = [] := by
        refine filter_eq_nil_iff.mpr fun b hb hbk => ha (mem_map.mpr ⟨b, hb, ?_⟩)
        rw [of_decide_eq_true hbk, hk]
      rw [filter_cons, if_pos (decide_eq_true hk), hnone]
      exact le_rfl
    · rw [filter_cons, if_neg (by simpa using hk)]
      exact ih hl

theorem mem_adjust : b ∈ adjust key k f l ↔ ∃ a ∈ l, b = if key a = k then f a else a := by
  simp [adjust, eq_comm]

section

variable (hf : ∀ a, key a = k → key (f a) = k)

include hf

theorem keys_adjust (l : List α) :
    (adjust key k f l).map key = l.map key := by
  rw [adjust, List.map_map]
  refine map_congr_left fun a _ => ?_
  by_cases h : key a = k
  · simp [h, hf a h]
  · simp [h]

theorem lookup_adjust_self (l : List α) :
    lookup key k (adjust key k f l) = (lookup key k l).map f := by
  induction l with
  | nil => rfl
  | cons a l ih =>
    by_cases h : key a = k
    · simp [adjust, lookup, h, hf]
    · simpa [adjust, lookup, h] using ih

theorem lookup_adjust_ne {k' : κ} (hk : k' ≠ k) (l : List α) :
    lookup key k' (adjust key k f l) = lookup key k' l := by
  induction l with
  | nil => rfl
  | cons a l ih =>
    by_cases h : key a = k
    · have hk' : key (f a) ≠ k' := by rw [hf a h]; exact hk.symm
      simpa [adjust, lookup, h, hk', hk.symm] using ih
    · by_cases h' : key a = k'
      · simp [adjust, lookup, h', hk]
      · simpa [adjust, lookup, h, h'] using ih

end

theorem put_of_lookup_none (h : lookup key (key a) l = none) : put key a f l = l ++ [a] := by
  rw [put, h]

theorem put_of_lookup_some (h : lookup key (key a) l = some b) :
    put key a f l = adjust key (key a) f l := by
  rw [put, h]

theorem mem_put (h : b ∈ put key a f l) : b ∈ l ∨ b = a ∨ ∃ c ∈ l, key c = key a ∧ b = f c := by
  cases hl : lookup key (key a) l with
  | none =>
    rw [put_of_lookup_none hl] at h
    rcases mem_append.mp h with h | h
    · exact .inl h
    · exact .inr (.inl (mem_singleton.mp h))
  | some c =>
    rw [put_of_lookup_some hl] at h
    obtain ⟨c, hc, rfl⟩ := mem_adjust.mp h
    by_cases hk : key c = key a
    · exact .inr (.inr ⟨c, hc, hk, by rw [if_pos hk]⟩)
    · rw [if_neg hk]
      exact .inl hc

/-- A `put` leaves the rows of the other keys alone. -/
theorem mem_put_of_ne (hb : b ∈ l) (hk : key b ≠ key a) : b ∈ put key a f l := by
  cases hl : lookup key (key a) l with
  | none =>
    rw [put_of_lookup_none hl]
    exact mem_append_left _ hb
  | some c =>
    rw [put_of_lookup_some hl]
    exact mem_adjust.mpr ⟨b, hb, (if_neg hk).symm⟩

/-- The keys after a `put` are the old ones and the key of the row. -/
theorem key_mem_put (hf : ∀ b, key b = key a → key (f b) = key a) :
    k ∈ (put key a f l).map key ↔ k ∈ l.map key ∨ k = key a := by
  cases hl : lookup key (key a) l with
  | none => simp [put_of_lookup_none hl, map_append]
  | some c =>
    rw [put_of_lookup_some hl, keys_adjust hf]
    obtain ⟨hc, hk⟩ := lookup_eq_some hl
    refine ⟨.inl, ?_⟩
    rintro (h | rfl)
    · exact h
    · exact mem_map.mpr ⟨c, hc, hk⟩

theorem lookup_put_self (hk : key a = k) (hf : ∀ b, key b = k → key (f b) = k) (l : List α) :
    lookup key k (put key a f l) = some (((lookup key k l).map f).getD a) := by
  subst hk
  cases h : lookup key (key a) l with
  | none => simp [put_of_lookup_none h, lookup_append, h, lookup_cons]
  | some b => simp [put_of_lookup_some h, lookup_adjust_self hf, h]

theorem lookup_put_ne (hf : ∀ b, key b = key a → key (f b) = key a) (hk : k ≠ key a) (l : List α) :
    lookup key k (put key a f l) = lookup key k l := by
  cases h : lookup key (key a) l with
  | none => simp [put_of_lookup_none h, lookup_append, lookup_cons, hk.symm]
  | some b => rw [put_of_lookup_some h, lookup_adjust_ne hf hk]

/-- A change of rows commutes with a projection that keeps the key. -/
theorem map_adjust {β : Type} {keyβ : β → κ} {g : α → β} {f' : β → β}
    (hg : ∀ a, keyβ (g a) = key a) (hf : ∀ a, g (f a) = f' (g a)) (k : κ) (l : List α) :
    (adjust key k f l).map g = adjust keyβ k f' (l.map g) := by
  simp only [adjust, List.map_map]
  apply map_congr_left
  intro a _
  by_cases h : key a = k <;> simp [h, hg, hf]

theorem adjust_adjust {h : α → α} (hf : ∀ a, key (f a) = key a) (k : κ) (l : List α) :
    adjust key k h (adjust key k f l) = adjust key k (h ∘ f) l := by
  simp only [adjust, List.map_map]
  apply map_congr_left
  intro a _
  by_cases hk : key a = k <;> simp [hk, hf]

/-! ## Deleting one row -/

theorem mem_remove : a ∈ remove key k l ↔ a ∈ l ∧ key a ≠ k := by
  simp [remove, mem_filter]

theorem lookup_remove_self (k : κ) (l : List α) : lookup key k (remove key k l) = none :=
  lookup_eq_none.mpr fun _ ha => (mem_remove.mp ha).2

theorem lookup_remove_ne {k' : κ} (hk : k' ≠ k) (l : List α) :
    lookup key k' (remove key k l) = lookup key k' l := by
  induction l with
  | nil => rfl
  | cons a l ih =>
    by_cases h : key a = k
    · have h' : key a ≠ k' := fun e => hk (e.symm.trans h)
      rw [lookup_cons, if_neg h', ← ih]
      simp [remove, h]
    · rw [show remove key k (a :: l) = a :: remove key k l by simp [remove, h],
        lookup_cons, lookup_cons, ih]

end

/-! ## Order -/

section

variable {key : α → κ}

variable {l : List α}

theorem ascending_iff_keys [LT κ] : Ascending key l ↔ (l.map key).Pairwise (· < ·) := by
  rw [Ascending, pairwise_map]

theorem ascending_adjust [DecidableEq κ] [LT κ] {f : α → α} (hf : ∀ a, key (f a) = key a) (k : κ)
    (h : Ascending key l) : Ascending key (adjust key k f l) := by
  rw [ascending_iff_keys, keys_adjust fun a ha => (hf a).trans ha, ← ascending_iff_keys]
  exact h

theorem mem_sortByKey [LE κ] [DecidableLE κ] {a : α} : a ∈ sortByKey key l ↔ a ∈ l :=
  mem_insertionSort _

/-- Rows with unique keys in key order. -/
theorem ascending_sortByKey [LinearOrder κ] (h : (l.map key).Nodup) :
    Ascending key (sortByKey key l) := by
  have hperm : (sortByKey key l).Perm l := perm_insertionSort _ l
  have hnodup : ((sortByKey key l).map key).Nodup := (hperm.map key).nodup_iff.mpr h
  have hsorted : (sortByKey key l).Pairwise (fun a b => key a ≤ key b) :=
    pairwise_insertionSort (fun a b => key a ≤ key b) l
  rw [List.Nodup, pairwise_map] at hnodup
  exact hsorted.imp₂ (fun _ _ hle hne => lt_of_le_of_ne hle hne) hnodup

theorem sortByKey_eq_self [Preorder κ] [DecidableLE κ] (h : Ascending key l) :
    sortByKey key l = l :=
  List.Pairwise.insertionSort_eq (h.imp fun hab => le_of_lt hab)

/-- A map of the rows that reflects the order of their keys commutes with sorting. -/
theorem sortByKey_map {β κ' : Type} [LE κ] [DecidableLE κ] [LE κ'] [DecidableLE κ']
    {keyβ : β → κ'} (f : α → β) (h : ∀ a ∈ l, ∀ b ∈ l, key a ≤ key b ↔ keyβ (f a) ≤ keyβ (f b)) :
    sortByKey keyβ (l.map f) = (sortByKey key l).map f := by
  symm
  apply map_insertionSort
  exact h

/-- Two keys that order the rows alike sort them alike. -/
theorem sortByKey_congr {κ' : Type} [LE κ] [DecidableLE κ] [LE κ'] [DecidableLE κ']
    {key' : α → κ'} (h : ∀ a ∈ l, ∀ b ∈ l, key a ≤ key b ↔ key' a ≤ key' b) :
    sortByKey key l = sortByKey key' l := by
  have hmap := sortByKey_map id h
  rw [map_id, map_id] at hmap
  exact hmap.symm

/-- Rows with unique keys are sorted alike whatever their order. -/
theorem sortByKey_of_mem_iff [LE κ] [DecidableLE κ] [Std.IsLinearOrder κ] {l' : List α}
    (hl : (l.map key).Nodup) (hl' : (l'.map key).Nodup) (h : ∀ a, a ∈ l ↔ a ∈ l') :
    sortByKey key l = sortByKey key l' := by
  have hperm : l.Perm l' := (perm_ext_iff_of_nodup hl.of_map hl'.of_map).mpr h
  have hsorted : (sortByKey key l).Perm (sortByKey key l') :=
    ((perm_insertionSort _ l).trans hperm).trans (perm_insertionSort _ l').symm
  have htotal : Std.Total (fun a b : α => key a ≤ key b) := ⟨fun _ _ => Std.le_total⟩
  have htrans : IsTrans α (fun a b => key a ≤ key b) := ⟨fun _ _ _ => Std.le_trans⟩
  refine hsorted.eq_of_pairwise (fun a b ha hb hab hba => ?_)
    (pairwise_insertionSort (fun a b => key a ≤ key b) l)
    (pairwise_insertionSort (fun a b => key a ≤ key b) l')
  exact inj_on_of_nodup_map hl (mem_sortByKey.mp ha) ((h b).mpr (mem_sortByKey.mp hb))
    (Std.le_antisymm hab hba)

end

end Keyed

end GoodDealer
