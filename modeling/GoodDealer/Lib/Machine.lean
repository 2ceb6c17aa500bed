/-
# `GoodDealer.Lib.Machine` — machines with inputs and outputs, and their runs

A service that executes one transaction at a time is a function from its state
and a request to the next state and a reply.  Everything said later about
"every run" or "every reachable state" goes through the two lemmas of this
file:

    run_inv        an invariant kept by every step that meets a condition holds
                   at the end of every run all of whose steps meet it
    along_of_inv   under the same invariant, what every step guarantees holds
                   along the whole run

`Along G s is` is the condition on a run: each input of `is` meets `G` in the
state in which it is taken.  The condition speaks of the state BEFORE the step,
so it never mentions a value the step computes.
-/
import Mathlib.Data.List.Basic

namespace GoodDealer

/-- A machine over states `σ`, inputs `ι` and outputs `ο`. -/
structure Machine (σ ι ο : Type) where
  step : σ → ι → σ × ο

namespace Machine

variable {σ ι ο : Type} (M : Machine σ ι ο)

/-- The state after one input. -/
def next (s : σ) (i : ι) : σ := (M.step s i).1

/-- The reply to one input. -/
def out (s : σ) (i : ι) : ο := (M.step s i).2

/-- The state after a list of inputs. -/
def run : σ → List ι → σ
  | s, [] => s
  | s, i :: is => run (M.next s i) is

/-- Every input of the run meets `G` in the state in which it is taken. -/
def Along (G : σ → ι → Prop) : σ → List ι → Prop
  | _, [] => True
  | s, i :: is => G s i ∧ Along G (M.next s i) is

@[simp] theorem run_nil (s : σ) : M.run s [] = s := rfl

@[simp] theorem run_cons (s : σ) (i : ι) (is : List ι) :
    M.run s (i :: is) = M.run (M.next s i) is := rfl

@[simp] theorem along_nil (G : σ → ι → Prop) (s : σ) : M.Along G s [] := trivial

@[simp] theorem along_cons (G : σ → ι → Prop) (s : σ) (i : ι) (is : List ι) :
    M.Along G s (i :: is) ↔ G s i ∧ M.Along G (M.next s i) is := Iff.rfl

theorem run_append (s : σ) (is js : List ι) :
    M.run s (is ++ js) = M.run (M.run s is) js := by
  induction is generalizing s with
  | nil => rfl
  | cons i is ih => exact ih (M.next s i)

variable {G : σ → ι → Prop} {I : σ → Prop} {s : σ} {is : List ι}

theorem along_append (s : σ) (is js : List ι) :
    M.Along G s (is ++ js) ↔ M.Along G s is ∧ M.Along G (M.run s is) js := by
  induction is generalizing s with
  | nil => simp
  | cons i is ih => simp [ih, and_assoc]

instance decAlong (G : σ → ι → Prop) [∀ s i, Decidable (G s i)] :
    ∀ (s : σ) (is : List ι), Decidable (M.Along G s is)
  | _, [] => isTrue trivial
  | s, i :: is =>
    haveI := decAlong G (M.next s i) is
    inferInstanceAs (Decidable (G s i ∧ M.Along G (M.next s i) is))

/-- The one induction every fact about reachable states goes through. -/
theorem run_inv (hstep : ∀ s i, I s → G s i → I (M.next s i)) (hs : I s)
    (hr : M.Along G s is) : I (M.run s is) := by
  induction is generalizing s with
  | nil => exact hs
  | cons i is ih => exact ih (hstep s i hs hr.1) hr.2

/-- A condition on the inputs alone. -/
theorem along_of_mem {G : ι → Prop} :
    ∀ {is : List ι} {s : σ}, (∀ i ∈ is, G i) → M.Along (fun _ => G) s is
  | [], _, _ => trivial
  | _ :: _, _, h =>
    ⟨h _ List.mem_cons_self, along_of_mem fun i hi => h i (List.mem_cons_of_mem _ hi)⟩

/-- An invariant that every step keeps. -/
theorem run_of_step (hstep : ∀ s i, I s → I (M.next s i)) (is : List ι) (hs : I s) :
    I (M.run s is) := by
  induction is generalizing s with
  | nil => exact hs
  | cons i is ih => exact ih (hstep s i hs)

/-- What each step guarantees under an invariant holds along the whole run. -/
theorem along_of_inv {P : σ → ι → Prop} (hstep : ∀ s i, I s → G s i → I (M.next s i))
    (hP : ∀ s i, I s → G s i → P s i) (hs : I s) (hr : M.Along G s is) :
    M.Along P s is := by
  induction is generalizing s with
  | nil => trivial
  | cons i is ih => exact ⟨hP s i hs hr.1, ih (hstep s i hs hr.1) hr.2⟩

end Machine

end GoodDealer
