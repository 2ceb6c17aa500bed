/-
# `GoodDealer.Lib.JsonText` — the compact text of a JSON value

`bytes v` is the text without white space that JSON writers agree on: quotation marks,
backslashes and control characters are escaped, everything else is written in UTF-8.
Its length does not depend on the order of keys (`length_bytes_sortKeys`).
-/
import GoodDealer.Lib.Framing

namespace GoodDealer.JsonText

open List

open Unicode (utf8)
open Framing (byte integerText)

/-- A lower-case hexadecimal digit. -/
def hexDigit (n : Nat) : Char := if n < 10 then Char.ofNat (48 + n) else Char.ofNat (87 + n)

/-- A character inside a quoted text. -/
def escape (c : Char) : List Char :=
  if c = '"' then ['\\', '"']
  else if c = '\\' then ['\\', '\\']
  else if 0x20 ≤ c.toNat then [c]
  else if c.toNat = 8 then ['\\', 'b']
  else if c.toNat = 9 then ['\\', 't']
  else if c.toNat = 10 then ['\\', 'n']
  else if c.toNat = 12 then ['\\', 'f']
  else if c.toNat = 13 then ['\\', 'r']
  else ['\\', 'u', '0', '0', hexDigit (c.toNat / 16), hexDigit (c.toNat % 16)]

def quoted (s : String) : Bytes := utf8 ('"' :: s.toList.flatMap escape ++ ['"'])

/-- The parts with commas between them. -/
def joined (parts : List Bytes) : Bytes := [byte ','].intercalate parts

/-- One property of an object. -/
def property (k : String) (value : Bytes) : Bytes := quoted k ++ byte ':' :: value

mutual

/-- The compact text. -/
def bytes : Json String → Bytes
  | .null => utf8 ['n', 'u', 'l', 'l']
  | .bool b => utf8 (if b then ['t', 'r', 'u', 'e'] else ['f', 'a', 'l', 's', 'e'])
  | .number n => utf8 (integerText n)
  | .string s => quoted s
  | .array vs => byte '[' :: joined (items vs) ++ [byte ']']
  | .object es => byte '{' :: joined (properties es) ++ [byte '}']

def items : List (Json String) → List Bytes
  | [] => []
  | v :: vs => bytes v :: items vs

def properties : List (String × Json String) → List Bytes
  | [] => []
  | (k, v) :: es => property k (bytes v) :: properties es

end

/-! ## Lengths -/

/-- The length of parts of these lengths with commas between them. -/
def joinedLength : List Nat → Nat
  | [] => 0
  | [n] => n
  | n :: m :: rest => n + 1 + joinedLength (m :: rest)

theorem length_joined (parts : List Bytes) :
    (joined parts).length = joinedLength (parts.map List.length) := by
  induction parts with
  | nil => rfl
  | cons part parts ih =>
    cases parts with
    | nil => rw [joined, intercalate_singleton]; rfl
    | cons next parts =>
      rw [joined, intercalate_cons_cons, length_append, length_append, ← joined,
        ih]
      rfl

theorem length_bracketed (left right : UInt8) (parts : List Bytes) :
    (left :: joined parts ++ [right]).length = joinedLength (parts.map List.length) + 2 := by
  rw [length_append, length_cons, length_joined]
  rfl

theorem joinedLength_cons {n : Nat} {rest : List Nat} :
    joinedLength (n :: rest) = n + (if rest = [] then 0 else 1) + joinedLength rest := by
  cases rest with
  | nil => rfl
  | cons m rest => rw [joinedLength, if_neg (cons_ne_nil _ _)]

theorem joinedLength_perm {l l' : List Nat} (h : l.Perm l') : joinedLength l = joinedLength l' := by
  induction h with
  | nil => rfl
  | cons n hperm ih =>
    rename_i l₁ l₂
    have hempty : l₁ = [] ↔ l₂ = [] := by
      rw [← length_eq_zero_iff, ← length_eq_zero_iff, hperm.length_eq]
    rw [joinedLength_cons, joinedLength_cons, ih]
    simp only [hempty]
  | swap n m l =>
    cases l with
    | nil | cons k l => simp only [joinedLength]; omega
  | trans _ _ ih₁ ih₂ => rw [ih₁, ih₂]

theorem length_property (k : String) (value : Bytes) :
    (property k value).length = (quoted k).length + 1 + value.length := by
  rw [property, length_append, length_cons]
  omega

theorem lengths_properties (es : List (String × Json String)) :
    (properties es).map List.length = es.map fun e =>
    (quoted e.1).length + 1 + (bytes e.2).length := by
  induction es with
  | nil => rfl
  | cons e es ih => rw [properties, map_cons, map_cons, ih, length_property]

variable {κ : Type} [LE κ] [DecidableLE κ]

mutual

theorem length_bytes_sortKeys (key : String → κ) :
    ∀ v : Json String, (bytes (v.sortKeys key)).length = (bytes v).length := by
  intro v
  cases v with
  | null | bool b | number n | string s => rfl
  | array vs =>
    rw [Json.sortKeys, bytes, bytes, length_bracketed, length_bracketed, lengths_sortItems key vs]
  | object es =>
    have hperm : (Keyed.sortByKey (fun e => key e.1) (Json.sortEntries key es)).Perm
        (Json.sortEntries key es) := perm_insertionSort _ _
    rw [Json.sortKeys, bytes, bytes, length_bracketed, length_bracketed, lengths_properties,
      joinedLength_perm (hperm.map _), ← lengths_properties, lengths_sortEntries key es]

theorem lengths_sortItems (key : String → κ) : ∀ vs : List (Json String),
    (items (Json.sortItems key vs)).map List.length = (items vs).map List.length := by
  intro vs
  match vs with
  | [] => rfl
  | v :: vs =>
    rw [Json.sortItems, items, items, map_cons, map_cons, length_bytes_sortKeys key v,
      lengths_sortItems key vs]

theorem lengths_sortEntries (key : String → κ) : ∀ es : List (String × Json String),
    (properties (Json.sortEntries key es)).map List.length = (properties es).map List.length := by
  intro es
  match es with
  | [] => rfl
  | (k, v) :: es =>
    rw [Json.sortEntries, properties, properties, map_cons, map_cons, length_property,
      length_property, length_bytes_sortKeys key v, lengths_sortEntries key es]

end

end GoodDealer.JsonText
