/-
# `GoodDealer.Lib.Table` — statements on the rows of a table

    updateWhere p f l     UPDATE … SET f WHERE p
    insertRow checks …    INSERT, refused by a CHECK, by a key that is taken or by a
                          reference that has no row

An update changes rows in place; an insert adds one row at the end.  The lemmas say which
rows there are afterwards, and that an update that leaves a key alone leaves the keys alone.
-/
import Mathlib.Data.List.Nodup

namespace GoodDealer

open List

namespace Table

variable {α κ : Type}

/-- `UPDATE … SET f WHERE p`. -/
def updateWhere (p : α → Bool) (f : α → α) (l : List α) : List α :=
  l.map fun a => if p a then f a else a

/-- The reasons for which the database refuses a row. -/
inductive Violation where
  | check
  | unique
  | foreignKey
deriving DecidableEq

/-- `INSERT`: the checks of the row come first, then the unique keys, then the references. -/
def insertRow (checks taken referenced : Bool) (a : α) (l : List α) : Except Violation (List α) :=
  if checks = false then .error .check
  else if taken then .error .unique
  else if referenced = false then .error .foreignKey
  else .ok (l ++ [a])

theorem insertRow_eq_ok {checks taken referenced : Bool} {a : α} {l l' : List α} :
    insertRow checks taken referenced a l = .ok l' ↔
      checks = true ∧ taken = false ∧ referenced = true ∧ l ++ [a] = l' := by
  cases checks <;> cases taken <;> cases referenced <;> simp [insertRow]

section

variable {p : α → Bool} {f : α → α} {l : List α} {r : α → Prop}

theorem mem_updateWhere {b : α} :
    b ∈ updateWhere p f l ↔ (∃ a ∈ l, p a = true ∧ b = f a) ∨ (b ∈ l ∧ p b = false) := by
  rw [updateWhere, mem_map]
  constructor
  · rintro ⟨a, ha, rfl⟩
    cases hp : p a with
    | true => exact .inl ⟨a, ha, hp, rfl⟩
    | false => exact .inr ⟨ha, hp⟩
  · rintro (⟨a, ha, hp, rfl⟩ | ⟨hb, hp⟩)
    · exact ⟨a, ha, by rw [hp]; rfl⟩
    · exact ⟨b, hb, by rw [hp]; rfl⟩

/-- Every row is still there, changed or not. -/
theorem exists_updateWhere {a : α} (ha : a ∈ l)
    (hset : p a = true → r (f a)) (hkept : p a = false → r a) : ∃ b ∈ updateWhere p f l, r b := by
  cases hp : p a with
  | true => exact ⟨f a, mem_updateWhere.mpr (.inl ⟨a, ha, hp, rfl⟩), hset hp⟩
  | false => exact ⟨a, mem_updateWhere.mpr (.inr ⟨ha, hp⟩), hkept hp⟩

/-- What an update keeps in the rows it changes holds of all rows. -/
theorem forall_updateWhere (hset : ∀ a ∈ l, p a = true → r (f a))
    (hkept : ∀ a ∈ l, p a = false → r a) : ∀ b ∈ updateWhere p f l, r b := by
  intro b hb
  rcases mem_updateWhere.mp hb with ⟨a, ha, hp, rfl⟩ | ⟨hb, hp⟩
  · exact hset a ha hp
  · exact hkept b hb hp

/-- The update sets no column that the property reads, unless `hf` says otherwise. -/
theorem exists_updateWhere_of (h : ∃ a ∈ l, r a)
    (hf : ∀ a, r a → r (f a) := by exact fun _ => id) :
    ∃ b ∈ updateWhere p f l, r b := by
  obtain ⟨a, ha, hr⟩ := h
  exact exists_updateWhere ha (fun _ => hf a hr) (fun _ => hr)

theorem forall_updateWhere_of (h : ∀ a ∈ l, r a)
    (hf : ∀ a, r a → r (f a) := by exact fun _ => id) :
    ∀ b ∈ updateWhere p f l, r b :=
  forall_updateWhere (fun a ha _ => hf a (h a ha)) (fun a ha _ => h a ha)

/-- A column that the update does not set. -/
theorem map_updateWhere {key : α → κ} (hf : ∀ a, key (f a) = key a) (l : List α) :
    (updateWhere p f l).map key = l.map key := by
  rw [updateWhere, List.map_map]
  apply map_congr_left
  intro a _
  by_cases ha : p a = true
  · simp [ha, hf]
  · simp [ha]

/-- An update that does not set a key keeps it unique. -/
theorem nodup_updateWhere {key : α → κ} (hl : (l.map key).Nodup)
    (hf : ∀ a, key (f a) = key a) : ((updateWhere p f l).map key).Nodup := by
  rw [map_updateWhere hf]
  exact hl

end

/-- One more row under a key that no row has. -/
theorem nodup_append_row {key : α → κ} {l : List α} {a : α} (hl : (l.map key).Nodup)
    (ha : ∀ b ∈ l, key b ≠ key a) : ((l ++ [a]).map key).Nodup := by
  rw [map_append, map_singleton, ← concat_eq_append]
  refine List.Nodup.concat ?_ hl
  intro hmem
  obtain ⟨b, hb, hkey⟩ := mem_map.mp hmem
  exact ha b hb hkey

end Table

end GoodDealer
