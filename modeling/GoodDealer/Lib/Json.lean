/-
# `GoodDealer.Lib.Json` — JSON values and closed schemas

`Json σ` is a value with texts of type `σ`; an object is a list of entries.  Two
values are equal up to the order of keys when `sortKeys` makes them equal.

A schema is a test.  The combinators are those of a closed schema language: a closed
object (`strictObject`) has each required property, no property of another name, and
no name twice; `refine` adds a test of the whole value.

A map `f` of the texts keeps a schema when no accepted value stops being accepted
(`Keeps`); a schema is kept when its parts are.
-/
import GoodDealer.Lib.Keyed

namespace GoodDealer

open List Keyed
open Bool (and_eq_true)

inductive Json (σ : Type) where
  | null
  | bool (b : Bool)
  | number (n : Int)
  | string (s : σ)
  | array (values : List (Json σ))
  | object (entries : List (String × Json σ))

namespace Json

variable {σ τ υ κ α : Type} {es : List (String × α)} {k : String}

/-! ## Texts and keys -/

mutual

/-- The value with its texts changed. -/
def map (f : σ → τ) : Json σ → Json τ
  | null => null
  | bool b => bool b
  | number n => number n
  | string s => string (f s)
  | array vs => array (mapItems f vs)
  | object es => object (mapEntries f es)

def mapItems (f : σ → τ) : List (Json σ) → List (Json τ)
  | [] => []
  | v :: vs => map f v :: mapItems f vs

def mapEntries (f : σ → τ) : List (String × Json σ) → List (String × Json τ)
  | [] => []
  | (k, v) :: es => (k, map f v) :: mapEntries f es

end

mutual

/-- The value with the keys of every object in order. -/
def sortKeys [LE κ] [DecidableLE κ] (key : String → κ) : Json σ → Json σ
  | null => null
  | bool b => bool b
  | number n => number n
  | string s => string s
  | array vs => array (sortItems key vs)
  | object es => object (sortByKey (fun e => key e.1) (sortEntries key es))

def sortItems [LE κ] [DecidableLE κ] (key : String → κ) : List (Json σ) → List (Json σ)
  | [] => []
  | v :: vs => sortKeys key v :: sortItems key vs

def sortEntries [LE κ] [DecidableLE κ] (key : String → κ) :
    List (String × Json σ) → List (String × Json σ)
  | [] => []
  | (k, v) :: es => (k, sortKeys key v) :: sortEntries key es

end

mutual

/-- The texts of a value; the keys of its objects are not among them. -/
def texts : Json σ → List σ
  | null => []
  | bool _ => []
  | number _ => []
  | string s => [s]
  | array vs => textsOfItems vs
  | object es => textsOfEntries es

def textsOfItems : List (Json σ) → List σ
  | [] => []
  | v :: vs => texts v ++ textsOfItems vs

def textsOfEntries : List (String × Json σ) → List σ
  | [] => []
  | (_, v) :: es => texts v ++ textsOfEntries es

end

mutual

/-- Every key and every number of the value passes its test. -/
def allOf (key : String → Bool) (number : Int → Bool) : Json σ → Bool
  | null => true
  | bool _ => true
  | .number n => number n
  | string _ => true
  | array vs => allOfItems key number vs
  | object es => allOfEntries key number es

def allOfItems (key : String → Bool) (number : Int → Bool) : List (Json σ) → Bool
  | [] => true
  | v :: vs => allOf key number v && allOfItems key number vs

def allOfEntries (key : String → Bool) (number : Int → Bool) : List (String × Json σ) → Bool
  | [] => true
  | (k, v) :: es => key k && allOf key number v && allOfEntries key number es

end

section

variable (f : σ → τ) (key : String → Bool) (number : Int → Bool) (vs : List (Json σ))
  (es : List (String × Json σ))

theorem mapItems_eq : mapItems f vs = vs.map (map f) := by
  induction vs with
  | nil => rfl
  | cons v vs ih => rw [mapItems, ih, map_cons]

theorem mapEntries_eq : mapEntries f es = es.map (fun e => (e.1, e.2.map f)) := by
  induction es with
  | nil => rfl
  | cons e es ih => rw [mapEntries, ih, map_cons]

theorem allOfItems_eq : allOfItems key number vs = vs.all (allOf key number) := by
  induction vs with
  | nil => rfl
  | cons v vs ih => rw [allOfItems, ih, all_cons]

theorem allOfEntries_eq :
    allOfEntries key number es = es.all (fun e => key e.1 && allOf key number e.2) := by
  induction es with
  | nil => rfl
  | cons e es ih => rw [allOfEntries, ih, all_cons]

theorem sortItems_eq [LE κ] [DecidableLE κ] (key : String → κ) :
    sortItems key vs = vs.map (sortKeys key) := by
  induction vs with
  | nil => rfl
  | cons v vs ih => rw [sortItems, ih, map_cons]

theorem sortEntries_eq [LE κ] [DecidableLE κ] (key : String → κ) :
    sortEntries key es = es.map (fun e => (e.1, e.2.sortKeys key)) := by
  induction es with
  | nil => rfl
  | cons e es ih => rw [sortEntries, ih, map_cons]

end

theorem mem_textsOfItems {vs : List (Json σ)} {s : σ} :
    s ∈ textsOfItems vs ↔ ∃ v ∈ vs, s ∈ v.texts := by
  induction vs with
  | nil => exact iff_of_false not_mem_nil (by simp)
  | cons v vs ih => rw [textsOfItems, mem_append, ih, exists_mem_cons_iff]

theorem mem_textsOfEntries {es : List (String × Json σ)} {s : σ} :
    s ∈ textsOfEntries es ↔ ∃ e ∈ es, s ∈ e.2.texts := by
  induction es with
  | nil => exact iff_of_false not_mem_nil (by simp)
  | cons e es ih => rw [textsOfEntries, mem_append, ih, exists_mem_cons_iff]

/-- Induction over a value: what holds of the items holds of the array, and what holds of the
properties' values of the object. -/
@[elab_as_elim] theorem induct {P : Json σ → Prop} (null : P .null) (bool : ∀ b, P (.bool b))
    (number : ∀ n, P (.number n)) (string : ∀ s, P (.string s))
    (array : ∀ vs : List (Json σ), (∀ v ∈ vs, P v) → P (.array vs))
    (object : ∀ es : List (String × Json σ), (∀ e ∈ es, P e.2) → P (.object es)) (v : Json σ) :
    P v := by
  match v with
  | .null => exact null
  | .bool b => exact bool b
  | .number n => exact number n
  | .string s => exact string s
  | .array vs => exact array vs fun v _ => induct null bool number string array object v
  | .object es => exact object es fun e _ => induct null bool number string array object e.2
termination_by sizeOf v
decreasing_by
  · have := sizeOf_lt_of_mem ‹v ∈ vs›
    simp only [Json.array.sizeOf_spec]
    omega
  · have := sizeOf_lt_of_mem ‹e ∈ es›
    obtain ⟨k, v⟩ := e
    simp only [Json.object.sizeOf_spec, Prod.mk.sizeOf_spec] at this ⊢
    omega

theorem all_congr_of_mem {l : List α} {p q : α → Bool} (h : ∀ a ∈ l, p a = q a) :
    l.all p = l.all q := by
  rw [Bool.eq_iff_iff, all_eq_true, all_eq_true]
  exact forall₂_congr fun a ha => by rw [h a ha]

/-- Weaker tests. -/
theorem allOf_mono {key key' : String → Bool} {number number' : Int → Bool}
    (h : ∀ k, key k = true → key' k = true) (hn : ∀ n, number n = true → number' n = true) :
    ∀ v : Json σ, v.allOf key number = true → v.allOf key' number' = true := by
  intro v
  induction v using induct with
  | null | bool b => exact fun _ => rfl
  | number n => exact hn n
  | string s => exact fun _ => rfl
  | array vs ih =>
    rw [allOf, allOf, allOfItems_eq, allOfItems_eq, all_eq_true, all_eq_true]
    exact fun hvs v hv => ih v hv (hvs v hv)
  | object es ih =>
    rw [allOf, allOf, allOfEntries_eq, allOfEntries_eq, all_eq_true, all_eq_true]
    intro hes e he
    obtain ⟨hk, hv⟩ := Bool.and_eq_true_iff.mp (hes e he)
    exact Bool.and_eq_true_iff.mpr ⟨h _ hk, ih e he hv⟩

/-! ## Maps of the texts -/

theorem map_map (f : σ → τ) (g : τ → υ) : ∀ v : Json σ, (v.map f).map g = v.map (g ∘ f) := by
  intro v
  induction v using induct with
  | null | bool b | number n | string s => rfl
  | array vs ih =>
    rw [map, map, map, mapItems_eq, mapItems_eq, mapItems_eq, List.map_map]
    exact congrArg array (map_congr_left ih)
  | object es ih =>
    rw [map, map, map, mapEntries_eq, mapEntries_eq, mapEntries_eq, List.map_map]
    exact congrArg object (map_congr_left fun e he => Prod.ext rfl (ih e he))

/-- Keys and numbers are not touched. -/
theorem allOf_map (key : String → Bool) (number : Int → Bool) (f : σ → τ) :
    ∀ v : Json σ, (v.map f).allOf key number = v.allOf key number := by
  intro v
  induction v using induct with
  | null | bool b | number n | string s => rfl
  | array vs ih =>
    rw [map, allOf, allOf, allOfItems_eq, allOfItems_eq, mapItems_eq, all_map]
    exact all_congr_of_mem ih
  | object es ih =>
    rw [map, allOf, allOf, allOfEntries_eq, allOfEntries_eq, mapEntries_eq, all_map]
    exact all_congr_of_mem fun e he => congrArg (key e.1 && ·) (ih e he)

theorem eq_of_map_eq {β : Type} {f : α → β} : ∀ {l' l : List α},
    (∀ a ∈ l, ∀ b, f b = f a → b = a) → l'.map f = l.map f → l' = l
  | [], [], _, _ => rfl
  | [], _ :: _, _, h => by cases h
  | _ :: _, [], _, h => by cases h
  | b :: l', a :: l, hinj, h => by
    obtain ⟨ha, hl⟩ := List.cons.inj h
    rw [hinj a mem_cons_self b ha,
      eq_of_map_eq (forall_mem_cons.mp hinj).2 hl]

/-- A map that can be undone on the texts of `v` can be undone on `v`. -/
theorem map_inj (f : σ → τ) : ∀ w v : Json σ, (∀ s ∈ v.texts, ∀ s', f s' = f s → s' = s) →
    w.map f = v.map f → w = v := by
  intro w v hv h
  induction v using induct generalizing w with
  | null | bool b | number n => cases w <;> simp_all [map]
  | string s =>
    cases w with
    | string s' =>
      simp only [map, string.injEq] at h
      rw [hv s (by simp [texts]) s' h]
    | _ => simp [map] at h
  | array vs ih =>
    cases w with
    | array ws =>
      simp only [map, array.injEq, mapItems_eq] at h
      refine congrArg array (eq_of_map_eq (fun v hmem w hw => ih v hmem w (fun s hs => ?_) hw) h)
      exact hv s (mem_textsOfItems.mpr ⟨v, hmem, hs⟩)
    | _ => simp [map] at h
  | object es ih =>
    cases w with
    | object es' =>
      simp only [map, object.injEq, mapEntries_eq] at h
      refine congrArg object (eq_of_map_eq (fun e hmem e' he' => ?_) h)
      obtain ⟨hk, he'⟩ := Prod.mk.inj he'
      refine Prod.ext hk (ih e hmem e'.2 (fun s hs => ?_) he')
      exact hv s (mem_textsOfEntries.mpr ⟨e, hmem, hs⟩)
    | _ => simp [map] at h

/-- A value that a map leaves alone has only texts that it leaves alone. -/
theorem texts_of_map_eq (f : σ → σ) : ∀ v : Json σ, v.map f = v → ∀ s ∈ v.texts, f s = s := by
  intro v h s hs
  induction v using induct with
  | null | bool b | number n => cases hs
  | string t =>
    simp only [texts, mem_singleton] at hs
    simp only [map, string.injEq] at h
    rw [hs, h]
  | array vs ih =>
    simp only [map, array.injEq, mapItems_eq] at h
    obtain ⟨v, hv, hs⟩ := mem_textsOfItems.mp hs
    exact ih v hv (map_inj_left.mp (h.trans (map_id vs).symm) v hv) hs
  | object es ih =>
    simp only [map, object.injEq, mapEntries_eq] at h
    obtain ⟨e, he, hs⟩ := mem_textsOfEntries.mp hs
    have hkept := map_inj_left.mp (h.trans (map_id es).symm) e he
    exact ih e he (congrArg Prod.snd hkept) hs

/-! ## Keys in order -/

section

variable [LE κ] [DecidableLE κ]

/-- Sorting by key does not look at the values. -/
theorem sortByKey_values {α β : Type} (key : String → κ) (f : α → β) (es : List (String × α)) :
    sortByKey (fun e => key e.1) (es.map fun e => (e.1, f e.2)) =
      (sortByKey (fun e => key e.1) es).map fun e => (e.1, f e.2) :=
  sortByKey_map _ fun _ _ _ _ => Iff.rfl

theorem map_sortKeys (key : String → κ) (f : σ → τ) :
    ∀ v : Json σ, (v.map f).sortKeys key = (v.sortKeys key).map f := by
  intro v
  induction v using induct with
  | null | bool b | number n | string s => rfl
  | array vs ih =>
    rw [map, sortKeys, sortKeys, map, mapItems_eq, mapItems_eq, sortItems_eq, sortItems_eq,
      List.map_map, List.map_map]
    exact congrArg array (map_congr_left ih)
  | object es ih =>
    rw [map, sortKeys, sortKeys, map, mapEntries_eq, mapEntries_eq, sortEntries_eq, sortEntries_eq,
      ← sortByKey_values key (map f), List.map_map, List.map_map]
    exact congrArg (fun es => object (sortByKey (fun e => key e.1) es))
      (map_congr_left fun e he => Prod.ext rfl (ih e he))

theorem mem_texts_sortKeys (key : String → κ) (s : σ) :
    ∀ v : Json σ, s ∈ (v.sortKeys key).texts ↔ s ∈ v.texts := by
  intro v
  induction v using induct with
  | null | bool b | number n | string t => exact Iff.rfl
  | array vs ih =>
    rw [sortKeys, texts, texts, mem_textsOfItems, mem_textsOfItems, sortItems_eq]
    simp only [mem_map, exists_exists_and_eq_and]
    exact exists_congr fun v => and_congr_right (ih v)
  | object es ih =>
    rw [sortKeys, texts, texts, mem_textsOfEntries, mem_textsOfEntries, sortEntries_eq]
    simp only [mem_sortByKey, mem_map, exists_exists_and_eq_and]
    exact exists_congr fun e => and_congr_right (ih e)

/-- Tests of keys and numbers do not depend on the order. -/
theorem allOf_sortKeys (order : String → κ) (key : String → Bool) (number : Int → Bool) :
    ∀ v : Json σ, (v.sortKeys order).allOf key number = v.allOf key number := by
  intro v
  induction v using induct with
  | null | bool b | number n | string s => rfl
  | array vs ih =>
    rw [sortKeys, allOf, allOf, allOfItems_eq, allOfItems_eq, sortItems_eq, all_map]
    exact all_congr_of_mem ih
  | object es ih =>
    rw [sortKeys, allOf, allOf, allOfEntries_eq, allOfEntries_eq, sortEntries_eq, Bool.eq_iff_iff,
      all_eq_true, all_eq_true]
    simp only [mem_sortByKey, forall_mem_map]
    exact forall₂_congr fun e he => by rw [ih e he]

section

variable {κ' : Type} [LE κ'] [DecidableLE κ'] {key : String → κ} {key' : String → κ'}
  {p : String → Bool} {number : Int → Bool}

/-- Orders that agree on the keys of a value sort it alike. -/
theorem sortKeys_congr
    (h : ∀ k k', p k = true → p k' = true → (key k ≤ key k' ↔ key' k ≤ key' k')) :
    ∀ v : Json σ, v.allOf p number = true → v.sortKeys key = v.sortKeys key' := by
  intro v hv
  induction v using induct with
  | null | bool b | number n | string s => rfl
  | array vs ih =>
    rw [allOf, allOfItems_eq, all_eq_true] at hv
    rw [sortKeys, sortKeys, sortItems_eq, sortItems_eq]
    exact congrArg array (map_congr_left fun v hmem => ih v hmem (hv v hmem))
  | object es ih =>
    rw [allOf, allOfEntries_eq, all_eq_true] at hv
    have hes : ∀ e ∈ es, p e.1 = true ∧ e.2.allOf p number = true :=
      fun e he => Bool.and_eq_true_iff.mp (hv e he)
    have hvalues : es.map (fun e => (e.1, e.2.sortKeys key)) =
        es.map (fun e => (e.1, e.2.sortKeys key')) :=
      map_congr_left fun e he => Prod.ext rfl (ih e he (hes e he).2)
    have hkeys : ∀ e ∈ es.map (fun e => (e.1, e.2.sortKeys key')), p e.1 = true :=
      forall_mem_map.mpr fun e he => (hes e he).1
    rw [sortKeys, sortKeys, sortEntries_eq, sortEntries_eq, hvalues]
    congr 1
    exact sortByKey_congr fun a ha b hb => h _ _ (hkeys a ha) (hkeys b hb)

end

end

/-! ## Reading a value -/

/-- `v[k]`, for an object. -/
def field (k : String) : Json σ → Option (Json σ)
  | object es => es.lookup k
  | null | bool _ | number _ | string _ | array _ => none

def items : Json σ → List (Json σ)
  | array vs => vs
  | null | bool _ | number _ | string _ | object _ => []

def text? : Json σ → Option σ
  | string s => some s
  | null | bool _ | number _ | array _ | object _ => none

def number? : Json σ → Option Int
  | number n => some n
  | null | bool _ | string _ | array _ | object _ => none

/-- The text of a property. -/
def textOf (k : String) (v : Json σ) : Option σ := (v.field k).bind text?

/-- The number of a property. -/
def numberOf (k : String) (v : Json σ) : Option Int := (v.field k).bind number?

/-- The items of a property. -/
def itemsOf (k : String) (v : Json σ) : List (Json σ) := ((v.field k).map items).getD []

/-- The object without one property. -/
def without (k : String) : Json σ → Json σ
  | object es => object (es.filter fun e => e.1 != k)
  | v => v

theorem lookup_map_entries (f : Json σ → Json τ) (k : String) (es : List (String × Json σ)) :
    (es.map (fun e => (e.1, f e.2))).lookup k = (es.lookup k).map f := by
  induction es with
  | nil => rfl
  | cons e es ih =>
    rw [map_cons, List.lookup_cons, List.lookup_cons, ih]
    split <;> rfl

theorem lookup_of_mem (hnodup : (es.map Prod.fst).Nodup)
    {e : String × α} (he : e ∈ es) : es.lookup e.1 = some e.2 := by
  induction es with
  | nil => cases he
  | cons a es ih =>
    rw [map_cons, nodup_cons] at hnodup
    rw [List.lookup_cons]
    rcases mem_cons.mp he with rfl | he
    · rw [beq_self_eq_true]
    · have hne : (e.1 == a.1) = false := by
        rw [beq_eq_false_iff_ne]
        rintro heq
        exact hnodup.1 (heq ▸ mem_map_of_mem he)
      rw [hne]
      exact ih hnodup.2 he

theorem mem_of_lookup {a : α} (h : es.lookup k = some a) : (k, a) ∈ es := by
  induction es with
  | nil => cases h
  | cons e es ih =>
    rw [List.lookup_cons] at h
    split at h
    next hk =>
      cases h
      rw [beq_iff_eq.mp hk]
      exact mem_cons_self
    · exact mem_cons_of_mem _ (ih h)

/-- Objects with unique keys and the same properties are equal up to the order of keys. -/
theorem sortKeys_object_eq [LE κ] [DecidableLE κ] [Std.IsLinearOrder κ] {key : String → κ}
    (hkey : Function.Injective key)
    {es es' : List (String × Json σ)} (hn : (es.map Prod.fst).Nodup)
    (hn' : (es'.map Prod.fst).Nodup)
    (h : ∀ k, (es.lookup k).map (sortKeys key) = (es'.lookup k).map (sortKeys key)) :
    (object es).sortKeys key = (object es').sortKeys key := by
  rw [sortKeys, sortKeys, sortEntries_eq, sortEntries_eq]
  have hfst : ∀ es : List (String × Json σ),
      (es.map fun e => (e.1, e.2.sortKeys key)).map Prod.fst = es.map Prod.fst := by
    intro es
    rw [List.map_map]
    rfl
  have hnodup : ∀ {es : List (String × Json σ)}, (es.map Prod.fst).Nodup →
      ((es.map fun e => (e.1, e.2.sortKeys key)).map fun e => key e.1).Nodup := by
    intro es hes
    rw [← hfst es] at hes
    have hmap := hes.map hkey
    rwa [List.map_map] at hmap
  have hmem : ∀ {es : List (String × Json σ)}, (es.map Prod.fst).Nodup → ∀ e,
      e ∈ es.map (fun e => (e.1, e.2.sortKeys key)) ↔
        (es.lookup e.1).map (sortKeys key) = some e.2 := by
    intro es hes e
    rw [← lookup_map_entries]
    exact ⟨lookup_of_mem ((hfst es).symm ▸ hes), mem_of_lookup⟩
  congr 1
  refine sortByKey_of_mem_iff (hnodup hn) (hnodup hn') fun e => ?_
  rw [hmem hn, hmem hn', h]

theorem without_map (k : String) (f : σ → τ) (v : Json σ) :
    (v.map f).without k = (v.without k).map f := by
  cases v with
  | object es =>
    rw [map, without, without, map, mapEntries_eq, mapEntries_eq, filter_map]
    rfl
  | _ => rfl

theorem allOf_without {key : String → Bool} {number : Int → Bool} {v : Json σ}
    (h : v.allOf key number = true) : (v.without k).allOf key number = true := by
  cases v with
  | object es =>
    rw [allOf, allOfEntries_eq, all_eq_true] at h
    rw [without, allOf, allOfEntries_eq, all_eq_true]
    exact fun e he => h e (mem_of_mem_filter he)
  | _ => exact h

theorem without_comm (j k : String) (v : Json σ) :
    (v.without j).without k = (v.without k).without j := by
  cases v with
  | object es => simp only [without, filter_filter, Bool.and_comm]
  | _ => rfl

theorem lookup_without (k : String) (es : List (String × α)) (k' : String) :
    (es.filter fun e => e.1 != k).lookup k' = if k' = k then none else es.lookup k' := by
  induction es with
  | nil => simp
  | cons e es ih =>
    rw [filter_cons]
    by_cases hk : e.1 = k
    · rw [if_neg (by simp [hk]), ih, List.lookup_cons]
      split
      · rfl
      next hne => rw [beq_false_of_ne (by rw [hk]; exact hne)]
    · rw [if_pos (by simp [hk]), List.lookup_cons, List.lookup_cons, ih]
      split
      next heq =>
        rw [if_neg]
        rintro rfl
        exact hk (beq_iff_eq.mp heq).symm
      · rfl

theorem field_without (k k' : String) (v : Json σ) :
    (v.without k).field k' = if k' = k then none else v.field k' := by
  cases v with
  | object es => exact lookup_without k es k'
  | _ => simp [without, field]

variable (f : σ → τ) (k : String) (v : Json σ)

theorem field_map : (v.map f).field k = (v.field k).map (map f) := by
  cases v with
  | object es => rw [map, field, field, mapEntries_eq, lookup_map_entries]
  | null | bool | number | string | array => rfl

theorem textOf_map : (v.map f).textOf k = (v.textOf k).map f := by
  rw [textOf, textOf, field_map]
  cases v.field k with
  | none => rfl
  | some w => cases w <;> rfl

theorem numberOf_map : (v.map f).numberOf k = v.numberOf k := by
  rw [numberOf, numberOf, field_map]
  cases v.field k with
  | none => rfl
  | some w => cases w <;> rfl

theorem items_map : (v.map f).items = v.items.map (map f) := by
  cases v with
  | array vs => rw [map, items, items, mapItems_eq]
  | object | null | bool | number | string => rfl

theorem itemsOf_map : (v.map f).itemsOf k = (v.itemsOf k).map (map f) := by
  rw [itemsOf, itemsOf, field_map]
  cases v.field k with
  | none => rfl
  | some w => exact items_map f w

/-! ## Schemas -/

end Json

abbrev Schema (σ : Type) := Json σ → Bool

/-- A property of a closed object. -/
structure Property (σ : Type) where
  name : String
  schema : Schema σ
  optional : Bool

namespace Schema

variable {σ : Type}

def stringOf (p : σ → Bool) : Schema σ
  | .string s => p s
  | .null | .bool _ | .number _ | .array _ | .object _ => false

def integerOf (p : Int → Bool) : Schema σ
  | .number n => p n
  | .null | .bool _ | .string _ | .array _ | .object _ => false

def nullable (S : Schema σ) : Schema σ
  | .null => true
  | v => S v

def arrayOf (S : Schema σ) : Schema σ
  | .array vs => vs.all S
  | .null | .bool _ | .number _ | .string _ | .object _ => false

/-- A value one of the options accepts. -/
def union (options : List (Schema σ)) : Schema σ := fun v => options.any (fun S => S v)

def refine (S : Schema σ) (p : Json σ → Bool) : Schema σ := fun v => S v && p v

def required (name : String) (schema : Schema σ) : Property σ := ⟨name, schema, false⟩

def optional (name : String) (schema : Schema σ) : Property σ := ⟨name, schema, true⟩

/-- The property is there and accepted, or it may be missing. -/
def admits (es : List (String × Json σ)) (p : Property σ) : Bool :=
  match es.lookup p.name with
  | some v => p.schema v
  | none => p.optional

/-- A closed object with these properties. -/
def strictObject (ps : List (Property σ)) : Schema σ
  | .object es =>
    decide (es.map Prod.fst).Nodup && es.all (fun e => ps.any (fun p => p.name == e.1)) &&
      ps.all (admits es)
  | .null | .bool _ | .number _ | .string _ | .array _ => false

/-! ## Maps that keep a schema -/

/-- Changing the texts of an accepted value leaves it accepted. -/
def Keeps (f : σ → σ) (S : Schema σ) : Prop := ∀ v, S v = true → S (v.map f) = true

variable {f : σ → σ} {S : Schema σ}

variable {p : σ → Bool}

theorem Keeps.stringOf (h : ∀ s, p s = true → p (f s) = true) :
    Keeps f (stringOf p) := by
  intro v hv
  cases v with
  | string s => exact h s hv
  | null | bool | number | array | object => cases hv

theorem Keeps.integerOf (p : Int → Bool) : Keeps f (integerOf p) := by
  intro v hv
  cases v with
  | number => exact hv
  | null | bool | string | array | object => cases hv

theorem Keeps.nullable (h : Keeps f S) : Keeps f (nullable S) := by
  intro v hv
  cases v with
  | null => rfl
  | bool | number | string | array | object => exact h _ hv

theorem Keeps.arrayOf (h : Keeps f S) : Keeps f (arrayOf S) := by
  intro v hv
  cases v with
  | array vs =>
    rw [Json.map, Json.mapItems_eq]
    simp only [Schema.arrayOf, all_eq_true, mem_map, forall_exists_index, and_imp,
      forall_apply_eq_imp_iff₂] at hv ⊢
    exact fun w hw => h w (hv w hw)
  | null | bool | number | string | object => cases hv

theorem Keeps.union {options : List (Schema σ)} (h : ∀ S ∈ options, Keeps f S) :
    Keeps f (union options) := by
  intro v hv
  simp only [Schema.union, any_eq_true] at hv ⊢
  obtain ⟨S, hS, hv⟩ := hv
  exact ⟨S, hS, h S hS v hv⟩

theorem Keeps.refine {p : Json σ → Bool} (h : Keeps f S)
    (hp : ∀ v, S v = true → p v = true → p (v.map f) = true) : Keeps f (refine S p) := by
  intro v hv
  simp only [Schema.refine, and_eq_true] at hv ⊢
  exact ⟨h v hv.1, hp v hv.1 hv.2⟩

theorem Keeps.strictObject {ps : List (Property σ)} (h : ∀ p ∈ ps, Keeps f p.schema) :
    Keeps f (strictObject ps) := by
  intro v hv
  cases v with
  | object es =>
    have hkeys : (es.map (fun e => (e.1, e.2.map f))).map Prod.fst = es.map Prod.fst := by
      rw [List.map_map]
      rfl
    rw [Json.map, Json.mapEntries_eq]
    simp only [Schema.strictObject, and_eq_true, decide_eq_true_eq, all_eq_true,
      hkeys, mem_map, forall_exists_index, and_imp, forall_apply_eq_imp_iff₂] at hv ⊢
    refine ⟨hv.1, fun p hp => ?_⟩
    have hadmits := hv.2 p hp
    rw [admits] at hadmits ⊢
    rw [Json.lookup_map_entries]
    cases hlookup : es.lookup p.name with
    | none => rw [hlookup] at hadmits; exact hadmits
    | some w => rw [hlookup] at hadmits; exact h p hp w hadmits
  | null | bool | number | string | array => cases hv

/-! ## Closed objects -/

variable {ps : List (Property σ)}

/-- Every entry of a closed object is one of its properties, and accepted as such. -/
theorem mem_strictObject {es : List (String × Json σ)} (h : strictObject ps (.object es) = true)
    {e : String × Json σ} (he : e ∈ es) : ∃ p ∈ ps, p.name = e.1 ∧ p.schema e.2 = true := by
  simp only [strictObject, and_eq_true, decide_eq_true_eq, all_eq_true,
    any_eq_true, beq_iff_eq] at h
  obtain ⟨⟨hnodup, hnames⟩, hadmits⟩ := h
  obtain ⟨p, hp, hname⟩ := hnames e he
  have hadmit := hadmits p hp
  rw [admits, hname, Json.lookup_of_mem hnodup he] at hadmit
  exact ⟨p, hp, hname, hadmit⟩

variable {v : Json σ}

section

variable (h : strictObject ps v = true)

include h

/-- A property that is there is accepted. -/
theorem schema_of_field {w : Json σ} {p : Property σ} (hp : p ∈ ps)
    (hw : v.field p.name = some w) : p.schema w = true := by
  cases v with
  | object es =>
    simp only [strictObject, and_eq_true, all_eq_true] at h
    have hadmit := h.2 p hp
    rw [Json.field] at hw
    rwa [admits, hw] at hadmit
  | null | bool | number | string | array => cases h

/-- A required property is there. -/
theorem field_of_required {k : String}
    (hp : required k S ∈ ps) : ∃ w, v.field k = some w ∧ S w = true := by
  cases v with
  | object es =>
    simp only [strictObject, and_eq_true, all_eq_true] at h
    have hadmit := h.2 _ hp
    rw [admits] at hadmit
    rw [Json.field]
    cases hlookup : es.lookup k with
    | none =>
      have hmiss : es.lookup (required k S).name = none := hlookup
      rw [hmiss] at hadmit
      cases hadmit
    | some w =>
      have hfound : es.lookup (required k S).name = some w := hlookup
      rw [hfound] at hadmit
      exact ⟨w, rfl, hadmit⟩
  | null | bool | number | string | array => cases h

/-- A closed object without one of its properties. -/
theorem strictObject_without (k : String) :
    strictObject (ps.filter fun p => p.name != k) (v.without k) = true := by
  cases v with
  | object es =>
    simp only [strictObject, and_eq_true, decide_eq_true_eq, all_eq_true,
      any_eq_true, beq_iff_eq] at h
    obtain ⟨⟨hnodup, hnames⟩, hadmits⟩ := h
    simp only [Json.without, strictObject, and_eq_true, decide_eq_true_eq, all_eq_true,
      any_eq_true, beq_iff_eq, mem_filter, bne_iff_ne]
    refine ⟨⟨hnodup.sublist (filter_sublist.map Prod.fst), ?_⟩, ?_⟩
    · rintro e ⟨he, hne⟩
      obtain ⟨p, hp, hname⟩ := hnames e he
      exact ⟨p, ⟨hp, hname ▸ hne⟩, hname⟩
    · rintro p ⟨hp, hne⟩
      have hlookup := Json.lookup_without k es p.name
      rw [if_neg hne] at hlookup
      rw [admits, hlookup]
      exact hadmits p hp
  | null | bool | number | string | array => cases h

end

/-! ## Schemas whose keys and numbers pass a test -/

/-- Every key and number of an accepted value passes its test. -/
def Plain (key : String → Bool) (number : Int → Bool) (S : Schema σ) : Prop :=
  ∀ v, S v = true → v.allOf key number = true

section

variable {key : String → Bool} {number : Int → Bool}

theorem Plain.stringOf (p : σ → Bool) : Plain key number (stringOf p) := by
  intro v hv
  cases v with
  | string s => rfl
  | null | bool | number | array | object => cases hv

theorem Plain.integerOf {p : Int → Bool} (h : ∀ n, p n = true → number n = true) :
    Plain key number (integerOf p : Schema σ) := by
  intro v hv
  cases v with
  | number n => exact h n hv
  | null | bool | string | array | object => cases hv

theorem Plain.nullable (h : Plain key number S) : Plain key number (nullable S) := by
  intro v hv
  cases v with
  | null => rfl
  | bool | number | string | array | object => exact h _ hv

theorem Plain.arrayOf (h : Plain key number S) : Plain key number (arrayOf S) := by
  intro v hv
  cases v with
  | array vs =>
    rw [Schema.arrayOf, all_eq_true] at hv
    rw [Json.allOf, Json.allOfItems_eq, all_eq_true]
    exact fun w hw => h w (hv w hw)
  | null | bool | number | string | object => cases hv

theorem Plain.union {options : List (Schema σ)} (h : ∀ S ∈ options, Plain key number S) :
    Plain key number (union options) := by
  intro v hv
  rw [Schema.union, any_eq_true] at hv
  obtain ⟨S, hS, hv⟩ := hv
  exact h S hS v hv

theorem Plain.refine (h : Plain key number S) (p : Json σ → Bool) :
    Plain key number (refine S p) := by
  intro v hv
  rw [Schema.refine, and_eq_true] at hv
  exact h v hv.1

theorem Plain.strictObject (h : ∀ p ∈ ps, key p.name = true ∧ Plain key number p.schema) :
    Plain key number (strictObject ps) := by
  intro v hv
  cases v with
  | object es =>
    rw [Json.allOf, Json.allOfEntries_eq, all_eq_true]
    intro e he
    obtain ⟨p, hp, hname, hschema⟩ := mem_strictObject hv he
    rw [and_eq_true, ← hname]
    exact ⟨(h p hp).1, (h p hp).2 _ hschema⟩
  | null | bool | number | string | array => cases hv

end

/-! ## Maps that do not touch an accepted value -/

/-- No text of an accepted value is changed. -/
def Fixes (f : σ → σ) (S : Schema σ) : Prop := ∀ v, S v = true → v.map f = v

theorem Fixes.keeps (h : Fixes f S) : Keeps f S := by
  intro v hv
  rw [h v hv]
  exact hv

theorem Fixes.stringOf (h : ∀ s, p s = true → f s = s) : Fixes f (stringOf p) := by
  intro v hv
  cases v with
  | string s => rw [Json.map, h s hv]
  | null | bool | number | array | object => cases hv

/-! ## Values whose image under a map is accepted -/

section

variable {ρ : Type} {g : ρ → σ} {v : Json ρ} {k : String}

theorem string_of_image (h : stringOf p (v.map g) = true) :
    ∃ s, v = .string s ∧ p (g s) = true := by
  cases v with
  | string s => exact ⟨s, rfl, h⟩
  | null | bool | number | array | object => cases h

theorem number_of_image {p : Int → Bool} (h : integerOf p (v.map g) = true) :
    ∃ n, v = .number n ∧ p n = true := by
  cases v with
  | number n => exact ⟨n, rfl, h⟩
  | null | bool | string | array | object => cases h

theorem array_of_image (h : arrayOf S (v.map g) = true) :
    ∃ vs, v = .array vs ∧ ∀ w ∈ vs, S (w.map g) = true := by
  cases v with
  | array vs =>
    rw [Json.map, Json.mapItems_eq, arrayOf, all_map, all_eq_true] at h
    exact ⟨vs, rfl, h⟩
  | null | bool | number | string | object => cases h

theorem null_of_image (h : nullable S (v.map g) = true) : v = .null ∨ S (v.map g) = true := by
  cases v with
  | null => exact .inl rfl
  | bool | number | string | array | object => exact .inr h

variable (h : strictObject ps (v.map g) = true)

include h

theorem object_of_image :
    ∃ es, v = .object es ∧ (es.map Prod.fst).Nodup ∧
      ∀ e ∈ es, ∃ p ∈ ps, p.name = e.1 ∧ p.schema (e.2.map g) = true := by
  cases v with
  | object es =>
    refine ⟨es, rfl, ?_, ?_⟩
    · simp only [Json.map, Json.mapEntries_eq, strictObject, and_eq_true, decide_eq_true_eq,
        List.map_map] at h
      exact h.1.1
    · intro e he
      rw [Json.map, Json.mapEntries_eq] at h
      exact mem_strictObject h (mem_map_of_mem he)
  | null | bool | number | string | array => cases h

theorem required_of_image
    (hp : required k S ∈ ps) : ∃ w, v.field k = some w ∧ S (w.map g) = true := by
  obtain ⟨w', hw', hS⟩ := field_of_required h hp
  rw [Json.field_map, Option.map_eq_some_iff] at hw'
  obtain ⟨w, hw, rfl⟩ := hw'
  exact ⟨w, hw, hS⟩

theorem optional_of_image (hp : optional k S ∈ ps) :
    v.field k = none ∨ ∃ w, v.field k = some w ∧ S (w.map g) = true := by
  cases hw : v.field k with
  | none => exact .inl rfl
  | some w =>
    refine .inr ⟨w, rfl, ?_⟩
    exact schema_of_field h hp (by rw [Json.field_map]; exact congrArg _ hw)

end

end Schema

end GoodDealer
