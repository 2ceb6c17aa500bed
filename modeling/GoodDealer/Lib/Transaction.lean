/-
# `GoodDealer.Lib.Transaction` — transactions made of fallible steps

A transaction runs one fallible step for each item of a list and is rolled back with the
first failure.  If it goes through, each of its steps did, in order; what every step keeps,
the transaction keeps, and what every step may do is a chain of such writes.
-/
import Mathlib.Logic.Relation

namespace GoodDealer

variable {ε σ α : Type} {f : σ → α → Except ε σ} {I : σ → Prop} {W : σ → σ → Prop}

/-- A sequence goes through if both parts do. -/
theorem bind_eq_ok {β : Type} {x : Except ε α} {g : α → Except ε β} {b : β} :
    x >>= g = .ok b ↔ ∃ a, x = .ok a ∧ g a = .ok b := by
  cases x with
  | error e => exact ⟨fun h => (by cases h), fun ⟨_, h, _⟩ => (by cases h)⟩
  | ok a => exact ⟨fun h => ⟨a, rfl, h⟩, fun ⟨_, ha, h⟩ => (by cases ha; exact h)⟩

/-- A row that has to be there. -/
def found (e : ε) : Option α → Except ε α
  | none => .error e
  | some a => .ok a

/-- A check that has to pass. -/
def demand (check : Bool) (e : ε) : Except ε Unit := if check then .ok () else .error e

theorem found_eq_ok {e : ε} {o : Option α} {a : α} : found e o = .ok a ↔ o = some a := by
  cases o <;> simp [found]

theorem demand_eq_ok {check : Bool} {e : ε} {u : Unit} : demand check e = .ok u ↔ check = true := by
  cases check <;> simp [demand]

/-- What each step of a transaction keeps holds after it. -/
theorem foldlM_inv :
    ∀ {items : List α} {s s' : σ}, (∀ t a t', a ∈ items → I t → f t a = .ok t' → I t') →
      I s → items.foldlM f s = .ok s' → I s' := by
  intro items
  induction items with
  | nil =>
    intro s s' _ hs h
    cases h
    exact hs
  | cons a as ih =>
    intro s s' hstep hs h
    rw [List.foldlM_cons] at h
    cases ha : f s a with
    | error e =>
      rw [ha] at h
      cases h
    | ok t =>
      rw [ha] at h
      refine ih (fun t a t' hmem => hstep t a t' (List.mem_cons_of_mem _ hmem)) ?_ h
      exact hstep s a t List.mem_cons_self hs ha

/-- A transaction is a chain of the writes its steps make. -/
theorem foldlM_chain {items : List α} {s s' : σ}
    (hstep : ∀ t a t', a ∈ items → I t → f t a = .ok t' → Relation.ReflTransGen W t t' ∧ I t')
    (hs : I s) (h : items.foldlM f s = .ok s') : Relation.ReflTransGen W s s' :=
  (foldlM_inv (I := fun t => Relation.ReflTransGen W s t ∧ I t)
    (fun t a t' ha ⟨hchain, ht⟩ hf =>
      have ⟨hnext, ht'⟩ := hstep t a t' ha ht hf
      ⟨hchain.trans hnext, ht'⟩) ⟨.refl, hs⟩ h).1

/-- What every write keeps, a chain of writes keeps. -/
theorem chain_inv (hstep : ∀ t t', I t → W t t' → I t')
    {s s' : σ} (hs : I s) (h : Relation.ReflTransGen W s s') : I s' := by
  induction h with
  | refl => exact hs
  | tail _ hwrite ih => exact hstep _ _ ih hwrite

end GoodDealer
