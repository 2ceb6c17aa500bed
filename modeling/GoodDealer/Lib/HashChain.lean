/-
# `GoodDealer.Lib.HashChain` — chains of items linked by the key of their predecessor

Items are kept most recent first.  Each names the key of the item before it; the
oldest names none.  If an item's key determines what it names, as it does when
the key is a collision-free digest of a value that contains the name, then no key
occurs twice (`Linked.nodup`).  Injectivity alone does not exclude that an item
names itself; that the oldest item names nothing does.

A key therefore marks one place of the chain: what is older is determined by it
(`suffix_eq_of_head`).
-/
import Mathlib.Data.List.Nodup

namespace GoodDealer

open List

variable {α κ : Type} (key : α → κ) (pred : α → Option κ)

/-- Each item names the key of the item before it. -/
def Linked : List α → Prop
  | [] => True
  | a :: l => pred a = l.head?.map key ∧ Linked l

variable {key pred}

namespace Linked

variable {l : List α}

/-- What an item of a linked list names is the key of an item older than the newest. -/
theorem pred_mem_tail {a b : α} {k : κ} (h : Linked key pred (b :: l))
    (ha : a ∈ b :: l) (hk : pred a = some k) : k ∈ l.map key := by
  induction l generalizing b with
  | nil =>
    obtain rfl := mem_singleton.mp ha
    cases h.1.symm.trans hk
  | cons c l ih =>
    cases mem_cons.mp ha with
    | inl hab =>
      rw [hab, h.1] at hk
      cases hk
      exact mem_cons_self ..
    | inr hal => exact mem_cons_of_mem _ (ih h.2 hal)

/-- The keys of a linked list are pairwise distinct. -/
theorem nodup (h : Linked key pred l)
    (hdet : ∀ a ∈ l, ∀ b ∈ l, key a = key b → pred a = pred b) : (l.map key).Nodup := by
  induction l with
  | nil => exact nodup_nil
  | cons a l ih =>
    have htail : (l.map key).Nodup :=
      ih h.2 fun x hx y hy => hdet x (mem_cons_of_mem _ hx) y (mem_cons_of_mem _ hy)
    refine nodup_cons.mpr ⟨fun hmem => ?_, htail⟩
    obtain ⟨b, hb, hkey⟩ := mem_map.mp hmem
    have hpred : pred a = pred b :=
      hdet a (mem_cons_self ..) b (mem_cons_of_mem _ hb) hkey.symm
    cases l with
    | nil => cases hb
    | cons c l =>
      -- `a` names `c`, so its twin `b` does, and then `c` has a twin of its own below itself
      have hb' : pred b = some (key c) := hpred.symm.trans h.1
      exact (nodup_cons.mp htail).1 (pred_mem_tail h.2 hb hb')

end Linked

/-- The end of a list without repeated keys that begins like the list is the list. -/
theorem eq_of_suffix_of_head {a b : List α} (hn : (b.map key).Nodup) (hab : a <:+ b)
    (h : a.head?.map key = b.head?.map key) : a = b := by
  obtain ⟨front, rfl⟩ := hab
  cases front with
  | nil => rfl
  | cons x front =>
    rw [cons_append, List.head?_cons, Option.map_some] at h
    obtain ⟨y, hy, hkey⟩ := Option.map_eq_some_iff.mp h
    rw [cons_append, map_cons, nodup_cons] at hn
    refine absurd (mem_map.mpr ⟨y, ?_, hkey⟩) hn.1
    exact mem_append_right _ (mem_of_mem_head? hy)

/-- Two ends of such a list that begin with the same key are one. -/
theorem suffix_eq_of_head {l a b : List α} (hn : (l.map key).Nodup) (ha : a <:+ l) (hb : b <:+ l)
    (h : a.head?.map key = b.head?.map key) : a = b := by
  rcases suffix_or_suffix_of_suffix ha hb with hab | hba
  · exact eq_of_suffix_of_head ((hb.sublist.map key).nodup hn) hab h
  · exact (eq_of_suffix_of_head ((ha.sublist.map key).nodup hn) hba h.symm).symm

end GoodDealer
