/-
# `GoodDealer.Lib.Bytes` — byte strings: four-byte lengths and base64url text

`uint32` writes a number below `2 ^ 32` in four bytes, most significant first;
`base64Url` is the text of a byte string in the alphabet of RFC 4648, section 5,
without padding.  Both are injective, and the length prefix makes what follows it
readable: `lengthPrefixed_append_inj`.

The bit operations of the sources are written as division and remainder by a
power of two.
-/
import Mathlib.Algebra.Group.Nat.Defs
import Mathlib.Data.List.Nodup
import Mathlib.Data.List.GetD

namespace GoodDealer

open List

abbrev Bytes := List UInt8

namespace Bytes

/-! ## Lengths in four bytes -/

/-- The byte of `n` with weight `256 ^ k`. -/
def byteAt (n k : Nat) : UInt8 := UInt8.ofNat (n / 256 ^ k % 256)

/-- Four bytes, most significant first. -/
def uint32 (n : Nat) : Bytes := [byteAt n 3, byteAt n 2, byteAt n 1, byteAt n 0]

theorem byteAt_toNat (n k : Nat) : (byteAt n k).toNat = n / 256 ^ k % 256 := by
  rw [byteAt, UInt8.toNat_ofNat']
  exact Nat.mod_eq_of_lt (Nat.mod_lt _ (by decide))

theorem uint32_inj {n m : Nat} (hn : n < 2 ^ 32) (hm : m < 2 ^ 32) (h : uint32 n = uint32 m) :
    n = m := by
  simp only [uint32, List.cons.injEq, and_true] at h
  obtain ⟨h3, h2, h1, h0⟩ := h
  have digit : ∀ k, byteAt n k = byteAt m k → n / 256 ^ k % 256 = m / 256 ^ k % 256 := by
    intro k hk
    rw [← byteAt_toNat, ← byteAt_toNat, hk]
  have d3 : n / 16777216 % 256 = m / 16777216 % 256 := digit 3 h3
  have d2 : n / 65536 % 256 = m / 65536 % 256 := digit 2 h2
  have d1 : n / 256 % 256 = m / 256 % 256 := digit 1 h1
  have d0 : n / 1 % 256 = m / 1 % 256 := digit 0 h0
  omega

/-- A byte string after its length. -/
def lengthPrefixed (bytes : Bytes) : Bytes := uint32 bytes.length ++ bytes

/-- The length says where the string ends. -/
theorem lengthPrefixed_append_inj {a b s t : Bytes} (ha : a.length < 2 ^ 32)
    (hb : b.length < 2 ^ 32) (h : lengthPrefixed a ++ s = lengthPrefixed b ++ t) :
    a = b ∧ s = t := by
  simp only [lengthPrefixed, append_assoc] at h
  obtain ⟨hlen, hrest⟩ := append_inj h rfl
  exact append_inj hrest (uint32_inj ha hb hlen)

/-! ## Base64url -/

def alphabet : List Char :=
  ['A', 'B', 'C', 'D', 'E', 'F', 'G', 'H', 'I', 'J', 'K', 'L', 'M', 'N', 'O', 'P',
   'Q', 'R', 'S', 'T', 'U', 'V', 'W', 'X', 'Y', 'Z', 'a', 'b', 'c', 'd', 'e', 'f',
   'g', 'h', 'i', 'j', 'k', 'l', 'm', 'n', 'o', 'p', 'q', 'r', 's', 't', 'u', 'v',
   'w', 'x', 'y', 'z', '0', '1', '2', '3', '4', '5', '6', '7', '8', '9', '-', '_']

/-- The character of a six-bit group. -/
def symbol (i : Nat) : Char := alphabet.getD i 'A'

theorem symbol_inj {i j : Nat} (hi : i < 64) (hj : j < 64) (h : symbol i = symbol j) : i = j := by
  have hlen : alphabet.length = 64 := rfl
  have hnodup : alphabet.Nodup := by decide +kernel
  rw [symbol, symbol, getD_eq_getElem _ _ (by omega), getD_eq_getElem _ _ (by omega)] at h
  exact (hnodup.getElem_inj_iff).mp h

/-- Three bytes are four characters; one or two bytes at the end are two or three. -/
def base64Chars : Bytes → List Char
  | [] => []
  | [a] => [symbol (a.toNat / 4), symbol (a.toNat % 4 * 16)]
  | [a, b] =>
    [symbol (a.toNat / 4), symbol (a.toNat % 4 * 16 + b.toNat / 16), symbol (b.toNat % 16 * 4)]
  | a :: b :: c :: rest =>
    symbol (a.toNat / 4) :: symbol (a.toNat % 4 * 16 + b.toNat / 16) ::
      symbol (b.toNat % 16 * 4 + c.toNat / 64) :: symbol (c.toNat % 64) :: base64Chars rest

def base64Url (bytes : Bytes) : String := String.ofList (base64Chars bytes)

/-- The two groups of one byte determine it. -/
theorem byte_of_groups {a a' : UInt8} (h1 : symbol (a.toNat / 4) = symbol (a'.toNat / 4))
    (h2 : a.toNat % 4 = a'.toNat % 4) : a = a' := by
  have ha := a.toNat_lt
  have ha' := a'.toNat_lt
  have := symbol_inj (by omega) (by omega) h1
  exact UInt8.toNat.inj (by omega)

theorem base64Chars_inj : ∀ {xs ys : Bytes}, xs.length = ys.length →
    base64Chars xs = base64Chars ys → xs = ys := by
  intro xs
  induction xs using base64Chars.induct with
  | case1 =>
    intro ys hlen _
    exact (length_eq_zero_iff.mp hlen.symm).symm
  | case2 a =>
    intro ys hlen h
    obtain ⟨a', rfl⟩ := length_eq_one_iff.mp hlen.symm
    simp only [base64Chars, List.cons.injEq, and_true] at h
    have ha := a.toNat_lt
    have ha' := a'.toNat_lt
    have h2 := symbol_inj (by omega) (by omega) h.2
    rw [byte_of_groups h.1 (by omega)]
  | case3 a b =>
    intro ys hlen h
    obtain ⟨a', b', rfl⟩ := length_eq_two.mp hlen.symm
    simp only [base64Chars, List.cons.injEq, and_true] at h
    obtain ⟨h1, h2, h3⟩ := h
    have hb := b.toNat_lt
    have hb' := b'.toNat_lt
    have g2 := symbol_inj (by omega) (by omega) h2
    have g3 := symbol_inj (by omega) (by omega) h3
    rw [byte_of_groups h1 (by omega), UInt8.toNat.inj (show b.toNat = b'.toNat by omega)]
  | case4 a b c rest ih =>
    intro ys hlen h
    obtain ⟨a', b', c', rest', rfl⟩ : ∃ a' b' c' rest', ys = a' :: b' :: c' :: rest' := by
      match ys, hlen with
      | a' :: b' :: c' :: rest', _ => exact ⟨a', b', c', rest', rfl⟩
    simp only [base64Chars, List.cons.injEq] at h
    obtain ⟨h1, h2, h3, h4, hrest⟩ := h
    have hb := b.toNat_lt
    have hb' := b'.toNat_lt
    have hc := c.toNat_lt
    have hc' := c'.toNat_lt
    have g2 := symbol_inj (by omega) (by omega) h2
    have g3 := symbol_inj (by omega) (by omega) h3
    have g4 := symbol_inj (by omega) (by omega) h4
    rw [byte_of_groups h1 (by omega), UInt8.toNat.inj (show b.toNat = b'.toNat by omega),
      UInt8.toNat.inj (show c.toNat = c'.toNat by omega), ih (by simpa using hlen) hrest]

end Bytes

end GoodDealer
