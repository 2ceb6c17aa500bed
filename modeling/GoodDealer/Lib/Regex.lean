/-
# `GoodDealer.Lib.Regex` — regular expressions over character classes

The anchored regular expressions of a validation schema: classes, sequence,
alternation, and the repetitions `?`, `*`, `+` and `{0,n}`, over an arbitrary
alphabet.  `language` is what an expression means, in Mathlib's languages;
`accepts` decides it by derivatives, and `accepts_iff` says that it does.  The rules
after it read a membership off the shape of the expression: repetitions of a class
are a length and a condition on every letter (`mem_upTo_cls`, `mem_star_cls`).
-/
import Mathlib.Computability.Language

namespace GoodDealer

open List

inductive Regex (α : Type) where
  | empty
  | eps
  /-- One letter of a class. -/
  | cls (p : α → Bool)
  | seq (r s : Regex α)
  | alt (r s : Regex α)
  | star (r : Regex α)

namespace Regex

variable {α : Type}

/-! ## Meaning -/

/-- The words of an expression. -/
def language : Regex α → Language α
  | empty => 0
  | eps => 1
  | cls p => {w | ∃ x, w = [x] ∧ p x = true}
  | seq r s => r.language * s.language
  | alt r s => r.language + s.language
  | star r => KStar.kstar r.language

@[simp] theorem not_mem_empty (w : List α) : w ∉ (empty : Regex α).language :=
  Language.notMem_zero w

variable {w : List α} {p : α → Bool} {β : Type}

@[simp] theorem mem_eps : w ∈ (eps : Regex α).language ↔ w = [] :=
  Language.mem_one w

@[simp] theorem mem_cls : w ∈ (cls p).language ↔ ∃ x, w = [x] ∧ p x = true :=
  Iff.rfl

variable {r s : Regex α} {q : α → Prop}

theorem mem_seq :
    w ∈ (seq r s).language ↔ ∃ u ∈ r.language, ∃ v ∈ s.language, u ++ v = w :=
  Language.mem_mul

@[simp] theorem mem_alt : w ∈ (alt r s).language ↔ w ∈ r.language ∨ w ∈ s.language :=
  Language.mem_add _ _ w

/-- A word of a star is a first word that is not empty, and a word of the star. -/
theorem cons_mem_star {x : α} :
    x :: w ∈ (star r).language ↔
      ∃ u v, x :: u ∈ r.language ∧ v ∈ (star r).language ∧ u ++ v = w := by
  constructor
  · intro h
    obtain ⟨parts, hparts, hmem⟩ := Language.mem_kstar_iff_exists_nonempty.mp h
    cases parts with
    | nil => cases hparts
    | cons first rest =>
      obtain ⟨hfirst, hne⟩ := hmem first mem_cons_self
      cases first with
      | nil => exact absurd rfl hne
      | cons y u =>
        simp only [flatten_cons, cons_append, List.cons.injEq] at hparts
        obtain ⟨rfl, rfl⟩ := hparts
        refine ⟨u, rest.flatten, hfirst, Language.mem_kstar.mpr ⟨rest, rfl, ?_⟩, rfl⟩
        exact fun y hy => (hmem y (mem_cons_of_mem _ hy)).1
  · rintro ⟨u, v, hu, hv, rfl⟩
    obtain ⟨parts, rfl, hmem⟩ := Language.mem_kstar.mp hv
    exact Language.mem_kstar.mpr ⟨(x :: u) :: parts, rfl, forall_mem_cons.mpr ⟨hu, hmem⟩⟩

theorem nil_mem_star : [] ∈ (star r).language :=
  Language.nil_mem_kstar r.language

/-! ## Deciding by derivatives -/

/-- The empty word belongs to the expression. -/
def nullable : Regex α → Bool
  | empty => false
  | eps => true
  | cls _ => false
  | seq r s => r.nullable && s.nullable
  | alt r s => r.nullable || s.nullable
  | star _ => true

/-- What may follow a first letter. -/
def deriv (x : α) : Regex α → Regex α
  | empty => empty
  | eps => empty
  | cls p => if p x then eps else empty
  | seq r s => if r.nullable then alt (seq (r.deriv x) s) (s.deriv x) else seq (r.deriv x) s
  | alt r s => alt (r.deriv x) (s.deriv x)
  | star r => seq (r.deriv x) (star r)

/-- `/^r$/.test(w)`. -/
def accepts (r : Regex α) (w : List α) : Bool :=
  match w with
  | [] => r.nullable
  | x :: w => (r.deriv x).accepts w

theorem nullable_iff : r.nullable = true ↔ [] ∈ r.language := by
  induction r with
  | empty | eps | cls p => simp [nullable]
  | seq r s ihr ihs =>
    rw [nullable, Bool.and_eq_true, ihr, ihs, mem_seq]
    constructor
    · rintro ⟨hr, hs⟩
      exact ⟨[], hr, [], hs, rfl⟩
    · rintro ⟨u, hu, v, hv, h⟩
      obtain ⟨rfl, rfl⟩ := append_eq_nil_iff.mp h
      exact ⟨hu, hv⟩
  | alt r s ihr ihs => rw [nullable, Bool.or_eq_true, ihr, ihs, mem_alt]
  | star r _ => exact iff_of_true rfl nil_mem_star

theorem mem_deriv {x : α} : ∀ {w : List α},
    w ∈ (r.deriv x).language ↔ x :: w ∈ r.language := by
  induction r with
  | empty | eps => intro w; simp [deriv]
  | cls p =>
    intro w
    simp only [deriv, mem_cls]
    split
    next h =>
      rw [mem_eps]
      constructor
      · rintro rfl
        exact ⟨x, rfl, h⟩
      · rintro ⟨y, hy, -⟩
        exact (List.cons.inj hy).2
    next h =>
    refine iff_of_false (not_mem_empty w) ?_
    rintro ⟨y, hy, hp⟩
    rw [← (List.cons.inj hy).1] at hp
    exact h hp
  | seq r s ihr ihs =>
    intro w
    -- the first letter is the first of `r`'s word, or of `s`'s where `r`'s is empty
    have hseq : w ∈ (seq (r.deriv x) s).language ↔
        ∃ u, x :: u ∈ r.language ∧ ∃ v ∈ s.language, u ++ v = w := by
      simp only [mem_seq, ihr]
    have hmem : x :: w ∈ (seq r s).language ↔
        (∃ u, x :: u ∈ r.language ∧ ∃ v ∈ s.language, u ++ v = w) ∨
          [] ∈ r.language ∧ x :: w ∈ s.language := by
      rw [mem_seq]
      constructor
      · rintro ⟨u, hu, v, hv, h⟩
        cases u with
        | nil => exact .inr ⟨hu, h ▸ hv⟩
        | cons y u =>
          obtain ⟨rfl, rfl⟩ := List.cons.inj h
          exact .inl ⟨u, hu, v, hv, rfl⟩
      · rintro (⟨u, hu, v, hv, rfl⟩ | ⟨hr, hs⟩)
        · exact ⟨x :: u, hu, v, hv, rfl⟩
        · exact ⟨[], hr, x :: w, hs, rfl⟩
    rw [deriv, hmem]
    split
    next h => rw [mem_alt, hseq, ihs, and_iff_right (nullable_iff.mp h)]
    next h => rw [hseq, or_iff_left fun hr => h (nullable_iff.mpr hr.1)]
  | alt r s ihr ihs => intro w; rw [deriv, mem_alt, mem_alt, ihr, ihs]
  | star r ih =>
    intro w
    rw [deriv, cons_mem_star, mem_seq]
    constructor
    · rintro ⟨u, hu, v, hv, h⟩
      exact ⟨u, v, ih.mp hu, hv, h⟩
    · rintro ⟨u, v, hu, hv, h⟩
      exact ⟨u, ih.mpr hu, v, hv, h⟩

theorem accepts_iff : r.accepts w = true ↔ w ∈ r.language := by
  induction w generalizing r with
  | nil => exact nullable_iff
  | cons x w ih => rw [accepts, ih, mem_deriv]

/-! ## Letters -/

/-- The expression over the letters that `f` reads. -/
def comap {β : Type} (f : β → α) : Regex α → Regex β
  | empty => empty
  | eps => eps
  | cls p => cls (fun x => p (f x))
  | seq r s => seq (r.comap f) (s.comap f)
  | alt r s => alt (r.comap f) (s.comap f)
  | star r => star (r.comap f)

variable (f : β → α)

theorem nullable_comap (r : Regex α) : (r.comap f).nullable = r.nullable := by
  induction r with
  | empty | eps | cls p => rfl
  | seq r s ihr ihs | alt r s ihr ihs => rw [comap, nullable, nullable, ihr, ihs]
  | star r _ => rfl

theorem deriv_comap (r : Regex α) (x : β) : (r.comap f).deriv x = (r.deriv (f x)).comap f := by
  induction r with
  | empty | eps => rfl
  | cls p =>
    rw [comap, deriv, deriv]
    split <;> rfl
  | seq r s ihr ihs =>
    rw [comap, deriv, deriv, nullable_comap, ihr, ihs]
    split <;> rfl
  | alt r s ihr ihs => rw [comap, deriv, deriv, ihr, ihs, comap]
  | star r ih => rw [comap, deriv, deriv, ih, comap, comap]

theorem accepts_map (r : Regex α) (w : List β) : r.accepts (w.map f) = (r.comap f).accepts w := by
  induction w generalizing r with
  | nil => exact (nullable_comap f r).symm
  | cons x w ih => rw [map_cons, accepts, accepts, ih, deriv_comap]

/-- Every class of the expression is contained in `q`. -/
def Within (q : α → Prop) : Regex α → Prop
  | empty => True
  | eps => True
  | cls p => ∀ x, p x = true → q x
  | seq r s => r.Within q ∧ s.Within q
  | alt r s => r.Within q ∧ s.Within q
  | star r => r.Within q

/-- The letters of a word belong to the classes of the expression. -/
theorem Within.mem (h : r.Within q) (hw : w ∈ r.language) : ∀ x ∈ w, q x := by
  induction r generalizing w with
  | empty => exact absurd hw (not_mem_empty w)
  | eps =>
    rw [mem_eps.mp hw]
    exact fun x hx => absurd hx not_mem_nil
  | cls p =>
    obtain ⟨y, rfl, hy⟩ := hw
    exact forall_mem_singleton.mpr (h y hy)
  | seq r s ihr ihs =>
    obtain ⟨u, hu, v, hv, rfl⟩ := mem_seq.mp hw
    exact forall_mem_append.mpr ⟨ihr h.1 hu, ihs h.2 hv⟩
  | alt r s ihr ihs =>
    rcases mem_alt.mp hw with hw | hw
    · exact ihr h.1 hw
    · exact ihs h.2 hw
  | star r ih =>
    obtain ⟨parts, rfl, hparts⟩ := Language.mem_kstar.mp hw
    intro x hx
    obtain ⟨part, hpart, hx⟩ := mem_flatten.mp hx
    exact ih h (hparts part hpart) x hx

/-! ## Repetitions -/

/-- `r?`. -/
def opt (r : Regex α) : Regex α := alt r eps

/-- `r+`. -/
def plus (r : Regex α) : Regex α := seq r (star r)

/-- `r{0,n}`. -/
def upTo (r : Regex α) : Nat → Regex α
  | 0 => eps
  | n + 1 => alt eps (seq r (r.upTo n))

/-- `r{n}`. -/
def exactly (r : Regex α) : Nat → Regex α
  | 0 => eps
  | n + 1 => seq r (r.exactly n)

theorem Within.upTo (h : r.Within q) (n : Nat) : (r.upTo n).Within q := by
  induction n with
  | zero => trivial
  | succ n ih => exact ⟨trivial, h, ih⟩

theorem Within.exactly (h : r.Within q) (n : Nat) : (r.exactly n).Within q := by
  induction n with
  | zero => trivial
  | succ n ih => exact ⟨h, ih⟩

theorem comap_upTo (r : Regex α) (n : Nat) : (r.upTo n).comap f = (r.comap f).upTo n := by
  induction n with
  | zero => rfl
  | succ n ih => simp only [upTo, comap, ih]

theorem comap_exactly (r : Regex α) (n : Nat) : (r.exactly n).comap f = (r.comap f).exactly n := by
  induction n with
  | zero => rfl
  | succ n ih => simp only [exactly, comap, ih]

@[simp] theorem mem_opt : w ∈ (opt r).language ↔ w ∈ r.language ∨ w = [] := by
  rw [opt, mem_alt, mem_eps]

/-- A class takes the first letter of a word. -/
theorem mem_cls_seq :
    w ∈ (seq (cls p) r).language ↔ ∃ x v, w = x :: v ∧ p x = true ∧ v ∈ r.language := by
  rw [mem_seq]
  constructor
  · rintro ⟨u, ⟨x, rfl, hx⟩, v, hv, rfl⟩
    exact ⟨x, v, rfl, hx, hv⟩
  · rintro ⟨x, v, rfl, hx, hv⟩
    exact ⟨[x], ⟨x, rfl, hx⟩, v, hv, rfl⟩

/-- A class takes the last letter of a word. -/
theorem mem_seq_cls :
    w ∈ (seq r (cls p)).language ↔ ∃ u x, w = u ++ [x] ∧ u ∈ r.language ∧ p x = true := by
  rw [mem_seq]
  constructor
  · rintro ⟨u, hu, v, ⟨x, rfl, hx⟩, rfl⟩
    exact ⟨u, x, rfl, hu, hx⟩
  · rintro ⟨u, x, rfl, hu, hx⟩
    exact ⟨u, hu, [x], ⟨x, rfl, hx⟩, rfl⟩

theorem mem_upTo_cls : ∀ {n : Nat} {w : List α},
    w ∈ ((cls p).upTo n).language ↔ w.length ≤ n ∧ ∀ x ∈ w, p x = true := by
  intro n
  induction n with
  | zero =>
    intro w
    rw [upTo, mem_eps, Nat.le_zero, length_eq_zero_iff]
    exact ⟨fun h => ⟨h, by simp [h]⟩, And.left⟩
  | succ n ih =>
    intro w
    rw [upTo, mem_alt, mem_eps, mem_cls_seq]
    cases w with
    | nil => simp
    | cons x w => simp [ih, and_left_comm]

theorem mem_exactly_cls : ∀ {n : Nat} {w : List α},
    w ∈ ((cls p).exactly n).language ↔ w.length = n ∧ ∀ x ∈ w, p x = true := by
  intro n
  induction n with
  | zero =>
    intro w
    rw [exactly, mem_eps, length_eq_zero_iff]
    exact ⟨fun h => ⟨h, by simp [h]⟩, And.left⟩
  | succ n ih =>
    intro w
    rw [exactly, mem_cls_seq]
    cases w with
    | nil => simp
    | cons x w => simp [ih, and_left_comm]

theorem mem_star_cls : w ∈ (star (cls p)).language ↔ ∀ x ∈ w, p x = true := by
  induction w with
  | nil => exact iff_of_true nil_mem_star (by simp)
  | cons x w ih =>
    rw [cons_mem_star, forall_mem_cons, ← ih]
    constructor
    · rintro ⟨u, v, ⟨y, hy, hp⟩, hv, rfl⟩
      obtain ⟨rfl, rfl⟩ := List.cons.inj hy
      exact ⟨hp, hv⟩
    · rintro ⟨hp, hw⟩
      exact ⟨[], w, ⟨x, rfl, hp⟩, hw, rfl⟩

theorem mem_plus_cls : w ∈ (plus (cls p)).language ↔ w ≠ [] ∧ ∀ x ∈ w, p x = true := by
  rw [plus, mem_cls_seq]
  constructor
  · rintro ⟨x, v, rfl, hx, hv⟩
    exact ⟨cons_ne_nil _ _, forall_mem_cons.mpr ⟨hx, mem_star_cls.mp hv⟩⟩
  · rintro ⟨hne, hall⟩
    cases w with
    | nil => exact absurd rfl hne
    | cons x v =>
      obtain ⟨hx, hv⟩ := forall_mem_cons.mp hall
      exact ⟨x, v, rfl, hx, mem_star_cls.mpr hv⟩

/-! ## Words joined by a separator -/

theorem mem_star_sep {d : α} (hp : ∀ x, p x = true ↔ x = d) :
    w ∈ (seq (star (seq r (cls p))) r).language ↔
      ∃ parts : List (List α), parts ≠ [] ∧ (∀ q ∈ parts, q ∈ r.language) ∧
        w = [d].intercalate parts := by
  rw [mem_seq]
  constructor
  · rintro ⟨u, hu, v, hv, rfl⟩
    obtain ⟨firsts, rfl, hfirsts⟩ := Language.mem_kstar.mp hu
    clear hu
    -- the separated words come first, the last word closes the list
    induction firsts with
    | nil => exact ⟨[v], cons_ne_nil _ _, by simpa using hv, by simp [List.intercalate]⟩
    | cons first firsts ih =>
      obtain ⟨hfirst, hrest⟩ := forall_mem_cons.mp hfirsts
      obtain ⟨parts, hne, hparts, hw⟩ := ih hrest
      obtain ⟨q, x, rfl, hq, hx⟩ := mem_seq_cls.mp hfirst
      obtain ⟨part, parts, rfl⟩ := exists_cons_of_ne_nil hne
      refine ⟨q :: part :: parts, cons_ne_nil _ _, ?_, ?_⟩
      · exact forall_mem_cons.mpr ⟨hq, hparts⟩
      · rw [flatten_cons, append_assoc, hw, (hp x).mp hx, intercalate_cons_cons,
          append_assoc]
  · rintro ⟨parts, hne, hparts, rfl⟩
    induction parts with
    | nil => exact absurd rfl hne
    | cons part parts ih =>
      cases parts with
      | nil =>
        refine ⟨[], nil_mem_star, part, hparts part mem_cons_self, ?_⟩
        simp [List.intercalate]
      | cons next parts =>
        obtain ⟨hpart, hrest⟩ := forall_mem_cons.mp hparts
        obtain ⟨u, hu, v, hv, h⟩ := ih (cons_ne_nil _ _) hrest
        refine ⟨part ++ [d] ++ u, ?_, v, hv, ?_⟩
        · obtain ⟨firsts, rfl, hfirsts⟩ := Language.mem_kstar.mp hu
          refine Language.mem_kstar.mpr ⟨(part ++ [d]) :: firsts, rfl, ?_⟩
          refine forall_mem_cons.mpr ⟨?_, hfirsts⟩
          exact mem_seq_cls.mpr ⟨part, d, rfl, hpart, (hp d).mpr rfl⟩
        · rw [append_assoc, h, intercalate_cons_cons, append_assoc]

/-- `(?:r d)+ r`: two words or more, joined by `d`. -/
theorem mem_plus_sep {d : α} (hp : ∀ x, p x = true ↔ x = d) :
    w ∈ (seq (plus (seq r (cls p))) r).language ↔
      ∃ parts : List (List α), 2 ≤ parts.length ∧ (∀ q ∈ parts, q ∈ r.language) ∧
        w = [d].intercalate parts := by
  have hassoc : (seq (plus (seq r (cls p))) r).language =
      (seq (seq r (cls p)) (seq (star (seq r (cls p))) r)).language :=
    mul_assoc _ _ _
  rw [hassoc, mem_seq]
  constructor
  · rintro ⟨u, hu, v, hv, rfl⟩
    obtain ⟨part, x, rfl, hpart, hx⟩ := mem_seq_cls.mp hu
    obtain ⟨parts, hne, hparts, rfl⟩ := (mem_star_sep hp).mp hv
    obtain ⟨next, parts, rfl⟩ := exists_cons_of_ne_nil hne
    refine ⟨part :: next :: parts, by simp, forall_mem_cons.mpr ⟨hpart, hparts⟩, ?_⟩
    rw [(hp x).mp hx, intercalate_cons_cons]
  · rintro ⟨parts, htwo, hparts, rfl⟩
    match parts, htwo, hparts with
    | part :: next :: rest, _, hparts =>
      obtain ⟨hpart, hrest⟩ := forall_mem_cons.mp hparts
      refine ⟨part ++ [d], mem_seq_cls.mpr ⟨part, d, rfl, hpart, (hp d).mpr rfl⟩,
        [d].intercalate (next :: rest),
        (mem_star_sep hp).mpr ⟨next :: rest, cons_ne_nil _ _, hrest, rfl⟩, ?_⟩
      rw [intercalate_cons_cons]

end Regex

end GoodDealer
