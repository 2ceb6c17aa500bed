/-
# `GoodDealer.Lib.Unicode` — text as code units, code points and bytes

A JavaScript string is a list of UTF-16 code units, and nothing keeps the
surrogates among them in pairs.  Its code points (`codePoints`) join a high
surrogate to a low one that follows it, and leave any other unit alone; the units
can be read back from them (`flatMap_codePoints`).  A Rust string is a list of
scalar values; `utf16` is what it becomes on the other side of the wire.

`textEncode` is `TextEncoder.encode`: each lone surrogate is written as U+FFFD, so
two strings can share their bytes.  A string is `Exact` when no other one has its
bytes (`textEncode_inj`); `exchange` is the partner of one that is not.
-/
import Mathlib.Data.List.Chain
import Mathlib.Data.List.Flatten
import Mathlib.Data.Char
import Mathlib.Data.List.Lex
import Mathlib.Order.Basic
import GoodDealer.Lib.Bytes

namespace GoodDealer.Unicode

open List
open Bool (and_eq_true eq_false_iff)

/-! ## Code units and code points -/

abbrev JsString := List UInt16

/-- A high surrogate, as a code point. -/
def isHigh (n : Nat) : Bool := 0xd800 ≤ n && n ≤ 0xdbff

/-- A low surrogate, as a code point. -/
def isLow (n : Nat) : Bool := 0xdc00 ≤ n && n ≤ 0xdfff

/-- The code units of a code point. -/
def units (n : Nat) : JsString :=
  if n < 0x10000 then [UInt16.ofNat n]
  else [UInt16.ofNat (0xd800 + (n - 0x10000) / 0x400),
    UInt16.ofNat (0xdc00 + (n - 0x10000) % 0x400)]

/-- The code points of a string, as a regular expression with the `u` flag reads them. -/
def codePoints : JsString → List Nat
  | [] => []
  | [u] => [u.toNat]
  | u :: v :: rest =>
    if isHigh u.toNat && isLow v.toNat then
      (0x10000 + (u.toNat - 0xd800) * 0x400 + (v.toNat - 0xdc00)) :: codePoints rest
    else u.toNat :: codePoints (v :: rest)

variable {s t : List Char} {n m : Nat} {u : UInt16} {ns : List Nat} {c : Char}

theorem toNat_ofNat (h : n < 0x10000) : (UInt16.ofNat n).toNat = n := by
  rw [UInt16.toNat_ofNat']
  exact Nat.mod_eq_of_lt h

theorem ofNat_eq (h : n = u.toNat) : UInt16.ofNat n = u := by
  rw [h, UInt16.ofNat_toNat]

/-- The units of a string are those of its code points. -/
theorem flatMap_codePoints (us : JsString) : (codePoints us).flatMap units = us := by
  induction us using codePoints.induct with
  | case1 => rfl
  | case2 u =>
    have hu : u.toNat < 0x10000 := u.toNat_lt
    simp only [codePoints, flatMap_cons, flatMap_nil, units, if_pos hu,
      append_nil, ofNat_eq rfl]
  | case3 u v rest hpair ih =>
    simp only [isHigh, isLow, and_eq_true, decide_eq_true_eq] at hpair
    have hbig : ¬ 0x10000 + (u.toNat - 0xd800) * 0x400 + (v.toNat - 0xdc00) < 0x10000 := by omega
    have hu : UInt16.ofNat (0xd800 +
        (0x10000 + (u.toNat - 0xd800) * 0x400 + (v.toNat - 0xdc00) - 0x10000) / 0x400) = u :=
      ofNat_eq (by omega)
    have hv : UInt16.ofNat (0xdc00 +
        (0x10000 + (u.toNat - 0xd800) * 0x400 + (v.toNat - 0xdc00) - 0x10000) % 0x400) = v :=
      ofNat_eq (by omega)
    simp only [codePoints, isHigh, isLow, hpair, decide_true, Bool.and_true, if_true,
      flatMap_cons, units, if_neg hbig, hu, hv, ih, cons_append, nil_append]
  | case4 u v rest hpair ih =>
    have hu : u.toNat < 0x10000 := u.toNat_lt
    simp only [codePoints, if_neg hpair, flatMap_cons, units, if_pos hu, ofNat_eq rfl,
      cons_append, nil_append]
    rw [ih]

variable {us vs : JsString} {p : UInt16 → Bool}

theorem codePoints_inj (h : codePoints us = codePoints vs) : us = vs := by
  rw [← flatMap_codePoints us, ← flatMap_codePoints vs, h]

theorem codePoints_lt : ∀ n ∈ codePoints us, n < 0x110000 := by
  induction us using codePoints.induct with
  | case1 => simp [codePoints]
  | case2 u =>
    intro n hn
    have hu : u.toNat < 0x10000 := u.toNat_lt
    simp only [codePoints, mem_singleton] at hn
    omega
  | case3 u v rest hpair ih =>
    intro n hn
    simp only [codePoints, if_pos hpair, mem_cons] at hn
    simp only [isHigh, isLow, and_eq_true, decide_eq_true_eq] at hpair
    rcases hn with hn | hn
    · omega
    · exact ih n hn
  | case4 u v rest hpair ih =>
    intro n hn
    have hu : u.toNat < 0x10000 := u.toNat_lt
    simp only [codePoints, if_neg hpair, mem_cons] at hn
    rcases hn with hn | hn
    · omega
    · exact ih n hn

/-- A unit that does not begin a pair is a code point of its own. -/
theorem codePoints_cons {rest : JsString}
    (h : ∀ v ∈ rest.head?, ¬ (isHigh u.toNat = true ∧ isLow v.toNat = true)) :
    codePoints (u :: rest) = u.toNat :: codePoints rest := by
  cases rest with
  | nil => rfl
  | cons v rest =>
    have hv : ¬ (isHigh u.toNat && isLow v.toNat) = true := by
      simpa only [and_eq_true] using h v rfl
    rw [codePoints, if_neg hv]

/-- No high surrogate stands right before a low one. -/
def Apart (ns : List Nat) : Prop :=
  ns.IsChain (fun a b => ¬ (isHigh a = true ∧ isLow b = true))

/-- The first unit of a code point is low only if the code point is a low surrogate. -/
theorem isLow_head_units (hn : n < 0x110000) (hu : u ∈ (units n).head?)
    (hlow : isLow u.toNat = true) : isLow n = true := by
  unfold units at hu
  split at hu
  next h =>
    cases hu
    rwa [toNat_ofNat h] at hlow
  next h =>
  cases hu
  rw [toNat_ofNat (by omega)] at hlow
  simp only [isLow, and_eq_true, decide_eq_true_eq] at hlow
  omega

theorem units_ne_nil (n : Nat) : units n ≠ [] := by
  unfold units
  split <;> exact cons_ne_nil _ _

theorem head?_flatMap_units (h : u ∈ (ns.flatMap units).head?) :
    ∃ n ∈ ns.head?, u ∈ (units n).head? := by
  cases ns with
  | nil => cases h
  | cons n ns =>
    refine ⟨n, rfl, ?_⟩
    rwa [flatMap_cons, List.head?_append_of_ne_nil _ (units_ne_nil n)] at h

/-- Code points that are apart are read back from their units. -/
theorem codePoints_flatMap (hlt : ∀ n ∈ ns, n < 0x110000) (h : Apart ns) :
    codePoints (ns.flatMap units) = ns := by
  induction ns with
  | nil => rfl
  | cons n ns ih =>
    have ih := ih (forall_mem_cons.mp hlt).2 (List.IsChain.tail h)
    have hn : n < 0x110000 := hlt n mem_cons_self
    rw [flatMap_cons]
    by_cases hsmall : n < 0x10000
    · rw [units, if_pos hsmall, singleton_append, codePoints_cons, toNat_ofNat hsmall, ih]
      rintro v hv ⟨hhigh, hlow⟩
      rw [toNat_ofNat hsmall] at hhigh
      obtain ⟨m, hm, hfirst⟩ := head?_flatMap_units hv
      cases ns with
      | nil => cases hm
      | cons m' ns =>
        cases hm
        have hlow := isLow_head_units (hlt m (by simp)) hfirst hlow
        exact (isChain_cons_cons.mp h).1 ⟨hhigh, hlow⟩
    · have hhi : (UInt16.ofNat (0xd800 + (n - 0x10000) / 0x400)).toNat =
          0xd800 + (n - 0x10000) / 0x400 := toNat_ofNat (by omega)
      have hlo : (UInt16.ofNat (0xdc00 + (n - 0x10000) % 0x400)).toNat =
          0xdc00 + (n - 0x10000) % 0x400 := toNat_ofNat (by omega)
      have hpair : (isHigh (0xd800 + (n - 0x10000) / 0x400) &&
          isLow (0xdc00 + (n - 0x10000) % 0x400)) = true := by
        simp only [isHigh, isLow, and_eq_true, decide_eq_true_eq]
        omega
      have hn : 0x10000 + (0xd800 + (n - 0x10000) / 0x400 - 0xd800) * 0x400 +
          (0xdc00 + (n - 0x10000) % 0x400 - 0xdc00) = n := by omega
      rw [units, if_neg hsmall, cons_append, cons_append, nil_append, codePoints,
        hhi, hlo, if_pos hpair, ih, hn]

/-! ## Scalar values -/

/-- The string a list of scalar values becomes. -/
def utf16 (s : List Char) : JsString := (s.map Char.toNat).flatMap units

/-- A Rust string as a JavaScript one. -/
def js (s : String) : JsString := utf16 s.toList

theorem toNat_isValidChar (c : Char) : c.toNat.isValidChar := c.valid

theorem apart_of_valid (h : ∀ n ∈ ns, n.isValidChar) : Apart ns := by
  induction ns with
  | nil => exact isChain_nil
  | cons n ns ih =>
    have ih := ih (forall_mem_cons.mp h).2
    refine List.IsChain.cons ih ?_
    rintro m - ⟨hhigh, -⟩
    have hn := h n mem_cons_self
    simp only [isHigh, and_eq_true, decide_eq_true_eq, Nat.isValidChar] at hhigh hn
    omega

theorem codePoints_utf16 (s : List Char) : codePoints (utf16 s) = s.map Char.toNat := by
  have hvalid : ∀ n ∈ s.map Char.toNat, n.isValidChar := by
    intro n hn
    obtain ⟨c, -, rfl⟩ := mem_map.mp hn
    exact toNat_isValidChar c
  refine codePoints_flatMap (fun n hn => ?_) (apart_of_valid hvalid)
  have hn := hvalid n hn
  simp only [Nat.isValidChar] at hn
  omega

theorem codePoints_js (s : String) : codePoints (js s) = s.toList.map Char.toNat :=
  codePoints_utf16 s.toList

theorem js_inj {s t : String} (h : js s = js t) : s = t := by
  have hpoints := congrArg codePoints h
  rw [codePoints_js, codePoints_js] at hpoints
  exact String.toList_inj.mp ((List.map_inj_right fun _ _ => Char.toNat_inj.mp).mp hpoints)

/-! ## UTF-8 -/

/-- The bytes of a list of scalar values. -/
def utf8 (s : List Char) : Bytes := s.flatMap String.utf8EncodeChar

theorem utf8_inj (h : utf8 s = utf8 t) : s = t := by
  apply String.ofList_injective
  rw [← String.toByteArray_inj, String.toByteArray_ofList, String.toByteArray_ofList]
  exact congrArg List.toByteArray h

theorem utf8EncodeChar_ascii (h : c.toNat < 0x80) :
    String.utf8EncodeChar c = [UInt8.ofNat c.toNat] := by
  have hc : c.val.toNat ≤ 0x7f := Nat.le_of_lt_succ h
  simp only [String.utf8EncodeChar, if_pos hc]
  rfl

/-- A text has at least as many bytes as code units. -/
theorem length_utf16_le (s : List Char) : (utf16 s).length ≤ (utf8 s).length := by
  induction s with
  | nil => exact Nat.le_refl 0
  | cons c s ih =>
    have hunits : utf16 (c :: s) = units c.toNat ++ utf16 s := rfl
    have hbytes : utf8 (c :: s) = String.utf8EncodeChar c ++ utf8 s := rfl
    have hc : (units c.toNat).length ≤ (String.utf8EncodeChar c).length := by
      by_cases h : c.toNat < 0x10000
      · rw [units, if_pos h]
        exact length_pos_iff.mpr String.utf8EncodeChar_ne_nil
      · have hlarge : ¬ c.toNat ≤ 0x7f ∧ ¬ c.toNat ≤ 0x7ff ∧ ¬ c.toNat ≤ 0xffff := by omega
        simp [units, h, String.utf8EncodeChar, hlarge]
    rw [hunits, hbytes, length_append, length_append]
    omega

theorem utf8EncodeChar_notAscii (h : 0x80 ≤ c.toNat) :
    ∀ b ∈ String.utf8EncodeChar c, 0x80 ≤ b.toNat := by
  have hc : ¬ c.val.toNat ≤ 0x7f := Nat.not_le_of_lt h
  intro b hb
  simp only [String.utf8EncodeChar, if_neg hc] at hb
  split at hb
  · simp only [mem_cons, not_mem_nil, or_false] at hb
    rcases hb with rfl | rfl <;> rw [UInt8.toNat_ofNat'] <;> omega
  split at hb
  · simp only [mem_cons, not_mem_nil, or_false] at hb
    rcases hb with rfl | rfl | rfl <;> rw [UInt8.toNat_ofNat'] <;> omega
  · simp only [mem_cons, not_mem_nil, or_false] at hb
    rcases hb with rfl | rfl | rfl | rfl <;> rw [UInt8.toNat_ofNat'] <;> omega

/-- A test for ASCII bytes is a test for ASCII characters. -/
theorem all_utf8 {p : UInt8 → Bool} (hp : ∀ b, p b = true → b.toNat < 0x80) (s : List Char) :
    (utf8 s).all p = s.all (fun c => decide (c.toNat < 0x80) && p (UInt8.ofNat c.toNat)) := by
  induction s with
  | nil => rfl
  | cons c s ih =>
    have hcons : utf8 (c :: s) = String.utf8EncodeChar c ++ utf8 s := rfl
    rw [hcons, all_append, all_cons, ih]
    congr 1
    by_cases hc : c.toNat < 0x80
    · simp only [utf8EncodeChar_ascii hc, all_cons, all_nil, Bool.and_true, hc,
        decide_true, Bool.true_and]
    · simp only [hc, decide_false, Bool.false_and, eq_false_iff, ne_eq, all_eq_true]
      intro hall
      obtain ⟨b, hb⟩ := exists_mem_of_ne_nil _ (@String.utf8EncodeChar_ne_nil c)
      have h₁ := hp b (hall b hb)
      have h₂ := utf8EncodeChar_notAscii (Nat.le_of_not_lt hc) b hb
      omega

theorem utf8_ascii (h : ∀ c ∈ s, c.toNat < 0x80) :
    utf8 s = s.map (fun c => UInt8.ofNat c.toNat) := by
  induction s with
  | nil => rfl
  | cons c s ih =>
    have hcons : utf8 (c :: s) = String.utf8EncodeChar c ++ utf8 s := rfl
    rw [hcons, utf8EncodeChar_ascii (h c mem_cons_self),
      ih (forall_mem_cons.mp h).2]
    rfl

theorem length_utf8_ascii (h : ∀ c ∈ s, c.toNat < 0x80) : (utf8 s).length = s.length := by
  rw [utf8_ascii h, length_map]

/-- Only ASCII characters have ASCII bytes. -/
theorem ascii_of_utf8 (h : ∀ b ∈ utf8 s, b.toNat < 0x80) : ∀ c ∈ s, c.toNat < 0x80 := by
  have hall : (utf8 s).all (fun b => decide (b.toNat < 0x80)) = true :=
    all_eq_true.mpr fun b hb => decide_eq_true (h b hb)
  rw [all_utf8 fun b hb => of_decide_eq_true hb] at hall
  intro c hc
  have hmem := all_eq_true.mp hall c hc
  rw [and_eq_true, decide_eq_true_eq] at hmem
  exact hmem.1

/-- ASCII bytes are the numbers of the characters. -/
theorem toNat_utf8_ascii (h : ∀ c ∈ s, c.toNat < 0x80) :
    (utf8 s).map UInt8.toNat = s.map Char.toNat := by
  rw [utf8_ascii h, List.map_map]
  refine map_congr_left fun c hc => ?_
  have hlt := h c hc
  rw [Function.comp_apply, UInt8.toNat_ofNat']
  exact Nat.mod_eq_of_lt (by omega)

/-- The six-bit groups of a smaller number are smaller, most significant first. -/
theorem groups_lt (h : m < n) :
    m / 262144 < n / 262144 ∨ m / 262144 = n / 262144 ∧
      (m / 4096 % 64 < n / 4096 % 64 ∨ m / 4096 % 64 = n / 4096 % 64 ∧
        (m / 64 % 64 < n / 64 % 64 ∨ m / 64 % 64 = n / 64 % 64 ∧ m % 64 < n % 64)) := by
  have groups : ∀ k : Nat,
      k = k / 262144 * 262144 + k / 4096 % 64 * 4096 + k / 64 % 64 * 64 + k % 64 := by omega
  have hm := groups m
  have hn := groups n
  have b₁ : m / 4096 % 64 < 64 := Nat.mod_lt _ (by decide)
  have b₂ : m / 64 % 64 < 64 := Nat.mod_lt _ (by decide)
  have b₃ : m % 64 < 64 := Nat.mod_lt _ (by decide)
  generalize m / 262144 = a at *
  generalize m / 4096 % 64 = b at *
  generalize m / 64 % 64 = c at *
  generalize m % 64 = d at *
  omega

/-- The bytes of a smaller character are smaller, whatever follows. -/
theorem utf8EncodeChar_lt {d : Char} (h : c.toNat < d.toNat) (s t : Bytes) :
    String.utf8EncodeChar c ++ s < String.utf8EncodeChar d ++ t := by
  have hc : c.val.toNat.isValidChar := c.valid
  have hd : d.val.toNat.isValidChar := d.valid
  have hlt : c.val.toNat < d.val.toNat := h
  generalize hcv : c.val.toNat = m at hc hlt
  generalize hdv : d.val.toNat = n at hd hlt
  simp only [Nat.isValidChar] at hc hd
  simp only [String.utf8EncodeChar, hcv, hdv]
  -- the first byte tells the lengths apart; characters of one length differ in some byte
  have hbyte : ∀ k, k < 256 → (UInt8.ofNat k).toNat = k := by
    intro k hk
    rw [UInt8.toNat_ofNat', Nat.mod_eq_of_lt hk]
  have hgroups := groups_lt hlt
  have hm : m / 262144 % 8 = m / 262144 := Nat.mod_eq_of_lt (by omega)
  have hn : n / 262144 % 8 = n / 262144 := Nat.mod_eq_of_lt (by omega)
  split_ifs <;> try omega
  all_goals
    simp (disch := omega) only [cons_append, nil_append, cons_lt_cons_iff,
      UInt8.lt_iff_toNat_lt, ← UInt8.toNat_inj, hbyte, hm, hn, Nat.add_lt_add_iff_right,
      Nat.add_right_cancel_iff]
    clear hbyte
    omega

theorem utf8_lt (h : s < t) : utf8 s < utf8 t := by
  induction s generalizing t with
  | nil =>
    cases t with
    | nil => exact absurd h (not_lt_nil _)
    | cons d t =>
      obtain ⟨b, bs, hb⟩ := exists_cons_of_ne_nil (@String.utf8EncodeChar_ne_nil d)
      have hcons : utf8 (d :: t) = b :: (bs ++ utf8 t) := by
        rw [← cons_append, ← hb]
        rfl
      rw [hcons]
      exact nil_lt_cons _ _
  | cons c s ih =>
    cases t with
    | nil => exact absurd h (not_lt_nil _)
    | cons d t =>
      show String.utf8EncodeChar c ++ utf8 s < String.utf8EncodeChar d ++ utf8 t
      rcases cons_lt_cons_iff.mp h with hcd | ⟨rfl, hst⟩
      · exact utf8EncodeChar_lt hcd _ _
      · exact append_left_lt (ih hst)

/-- Byte order on UTF-8 is the order of the scalar values. -/
theorem utf8_lt_iff : utf8 s < utf8 t ↔ s < t := by
  refine ⟨fun h => ?_, utf8_lt⟩
  rcases lt_trichotomy s t with hst | rfl | hts
  · exact hst
  · exact absurd h (List.lt_irrefl _)
  · exact absurd h (List.lt_asymm (utf8_lt hts))

/-! ## ASCII text is ordered alike in both encodings -/

theorem utf16_ascii (h : ∀ c ∈ s, c.toNat < 0x80) :
    utf16 s = s.map (fun c => UInt16.ofNat c.toNat) := by
  induction s with
  | nil => rfl
  | cons c s ih =>
    have hc := h c mem_cons_self
    have hcons : utf16 (c :: s) = units c.toNat ++ utf16 s := rfl
    rw [hcons, ih (forall_mem_cons.mp h).2, units, if_pos (by omega)]
    rfl

section

variable (hs : ∀ c ∈ s, c.toNat < 0x80) (ht : ∀ c ∈ t, c.toNat < 0x80)

include hs ht

theorem utf16_lt (h : s < t) :
    utf16 s < utf16 t := by
  rw [utf16_ascii hs, utf16_ascii ht]
  induction s generalizing t with
  | nil =>
    cases t with
    | nil => exact absurd h (not_lt_nil _)
    | cons d t => exact nil_lt_cons _ _
  | cons c s ih =>
    cases t with
    | nil => exact absurd h (not_lt_nil _)
    | cons d t =>
      have hc := hs c mem_cons_self
      have hd := ht d mem_cons_self
      rw [map_cons, map_cons, cons_lt_cons_iff]
      rcases cons_lt_cons_iff.mp h with hcd | ⟨rfl, hst⟩
      · refine .inl (UInt16.lt_iff_toNat_lt.mpr ?_)
        rw [toNat_ofNat (by omega), toNat_ofNat (by omega)]
        exact hcd
      · exact .inr ⟨rfl, ih (forall_mem_cons.mp hs).2
          (forall_mem_cons.mp ht).2 hst⟩

theorem utf16_lt_iff :
    utf16 s < utf16 t ↔ s < t := by
  refine ⟨fun h => ?_, utf16_lt hs ht⟩
  rcases lt_trichotomy s t with hst | rfl | hts
  · exact hst
  · exact absurd h (List.lt_irrefl _)
  · exact absurd h (List.lt_asymm (utf16_lt ht hs hts))

/-- Code units and bytes put ASCII texts in the same order. -/
theorem utf16_le_iff :
    utf16 s ≤ utf16 t ↔ utf8 s ≤ utf8 t := by
  rw [← List.not_lt, ← List.not_lt, utf16_lt_iff ht hs, utf8_lt_iff]

end

/-! ## `TextEncoder` -/

/-- U+FFFD. -/
def replacement : Nat := 0xfffd

/-- The scalar value of a code point; a surrogate has none. -/
def scalar (n : Nat) : Char :=
  if h : n.isValidChar then Char.ofNatAux n h else Char.ofNat replacement

/-- `TextEncoder.encode`. -/
def textEncode (us : JsString) : Bytes := utf8 ((codePoints us).map scalar)

theorem toNat_scalar (h : n.isValidChar) : (scalar n).toNat = n := by
  rw [scalar, dif_pos h]
  rfl

theorem scalar_surrogate (h : ¬ n.isValidChar) : scalar n = scalar replacement := by
  rw [scalar, dif_neg h, scalar, dif_pos (by decide)]
  rfl

theorem textEncode_utf16 (s : List Char) : textEncode (utf16 s) = utf8 s := by
  have hmap : s.map (scalar ∘ Char.toNat) = s.map id := map_congr_left fun c _ =>
    Char.toNat_inj.mp (toNat_scalar (toNat_isValidChar c))
  rw [textEncode, codePoints_utf16, List.map_map, hmap, map_id]

/-- Neither a lone surrogate nor U+FFFD occurs. -/
def Exact (us : JsString) : Prop :=
  ∀ n ∈ codePoints us, n.isValidChar ∧ n ≠ replacement

instance (us : JsString) : Decidable (Exact us) := inferInstanceAs (Decidable (∀ n ∈ _, _))

theorem scalar_inj (hn : n.isValidChar) (hr : n ≠ replacement) (h : scalar m = scalar n) :
    m = n := by
  by_cases hm : m.isValidChar
  · rw [← toNat_scalar hm, ← toNat_scalar hn, h]
  · rw [scalar_surrogate hm] at h
    exact absurd (by rw [← toNat_scalar hn, ← h]; exact toNat_scalar (by decide)) hr

/-- An exact string is the only one with its bytes. -/
theorem textEncode_inj (hv : Exact vs) (h : textEncode us = textEncode vs) :
    us = vs := by
  apply codePoints_inj
  have hmap := utf8_inj h
  have hlen : (codePoints us).length = (codePoints vs).length := by
    simpa only [length_map] using congrArg List.length hmap
  refine ext_getElem hlen fun i hi hi' => ?_
  obtain ⟨hvalid, hr⟩ := hv _ (getElem_mem hi')
  refine scalar_inj hvalid hr ?_
  rw [← getElem_map scalar, ← getElem_map scalar]
  · simp only [hmap]
  · simpa only [length_map] using hi'
  · simpa only [length_map] using hi

/-! ## The partner of a string that is not exact -/

/-- Lone surrogates become U+FFFD; where there is none, U+FFFD becomes a surrogate. -/
def exchangePoints (ns : List Nat) : List Nat :=
  if ∀ n ∈ ns, n.isValidChar then ns.map (fun n => if n = replacement then 0xd800 else n)
  else ns.map (fun n => if n.isValidChar then n else replacement)

/-- Another string with the same bytes. -/
def exchange (us : JsString) : JsString := (exchangePoints (codePoints us)).flatMap units

/-- What `exchangePoints` does at one place. -/
inductive Exchanged : Nat → Nat → Prop where
  | same (n : Nat) : Exchanged n n
  | surrogate {n : Nat} (h : ¬ n.isValidChar) : Exchanged n replacement
  | replacement : Exchanged replacement 0xd800

theorem exchangePoints_forall₂ (ns : List Nat) : List.Forall₂ Exchanged ns (exchangePoints ns) := by
  unfold exchangePoints
  split
  · rw [forall₂_map_right_iff, forall₂_same]
    intro n _
    split
    next h => exact h ▸ .replacement
    · exact .same n
  · rw [forall₂_map_right_iff, forall₂_same]
    intro n _
    split
    · exact .same n
    next h => exact .surrogate h

theorem apart_exchangePoints (ns : List Nat) : Apart (exchangePoints ns) := by
  unfold exchangePoints
  split
  next h =>
    -- no low surrogate is left to join
    have hlow : ∀ m ∈ ns.map (fun n => if n = replacement then 0xd800 else n), isLow m = false := by
      intro m hm
      obtain ⟨n, hn, rfl⟩ := mem_map.mp hm
      have hvalid := h n hn
      split
      · decide
      · simp only [isLow, Bool.and_eq_false_iff, decide_eq_false_iff_not, Nat.isValidChar] at *
        omega
    generalize ns.map (fun n => if n = replacement then 0xd800 else n) = ms at hlow
    induction ms with
    | nil => exact isChain_nil
    | cons m ms ih =>
      refine List.IsChain.cons (ih (forall_mem_cons.mp hlow).2) ?_
      rintro k hk ⟨-, hk'⟩
      rw [hlow k (mem_cons_of_mem _ (mem_of_mem_head? hk))] at hk'
      cases hk'
  · refine apart_of_valid fun m hm => ?_
    obtain ⟨n, -, rfl⟩ := mem_map.mp hm
    split
    · assumption
    · decide

namespace Exchanged

variable (h : Exchanged m n)

include h

theorem lt (hm : m < 0x110000) : n < 0x110000 := by
  cases h with
  | same => exact hm
  | surrogate _ | replacement => decide

theorem scalar_eq : scalar m = scalar n := by
  cases h with
  | same => rfl
  | surrogate h => exact scalar_surrogate h
  | replacement => exact (scalar_surrogate (by decide)).symm

/-- A class without surrogates and U+FFFD does not tell the two apart. -/
theorem class_eq {p : Nat → Bool}
    (hp : ∀ k, p k = true → k.isValidChar ∧ k ≠ Unicode.replacement) : p m = p n := by
  have hfffd : p Unicode.replacement = false :=
    eq_false_iff.mpr fun hk => (hp _ hk).2 rfl
  cases h with
  | same => rfl
  | surrogate h => rw [hfffd, eq_false_iff.mpr fun hk => h (hp _ hk).1]
  | replacement =>
    rw [hfffd, eq_false_iff.mpr fun hk => absurd (hp _ hk).1 (by decide)]

end Exchanged

theorem codePoints_exchange (us : JsString) :
    codePoints (exchange us) = exchangePoints (codePoints us) := by
  refine codePoints_flatMap ?_ (apart_exchangePoints _)
  have hlt := @codePoints_lt us
  have hall := exchangePoints_forall₂ (codePoints us)
  generalize exchangePoints (codePoints us) = ms at hall
  generalize codePoints us = ns at hlt hall
  induction hall with
  | nil => exact fun _ hm => absurd hm not_mem_nil
  | cons hmn _ ih =>
    obtain ⟨hn, hns⟩ := forall_mem_cons.mp hlt
    exact forall_mem_cons.mpr ⟨hmn.lt hn, ih hns⟩

theorem map_eq_of_forall₂ {α β : Type} {R : α → α → Prop} {f : α → β} {l l' : List α}
    (h : List.Forall₂ R l l') (hf : ∀ a b, R a b → f a = f b) : l.map f = l'.map f := by
  induction h with
  | nil => rfl
  | cons hab _ ih => rw [map_cons, map_cons, hf _ _ hab, ih]

/-- The partner has the same bytes. -/
theorem textEncode_exchange (us : JsString) : textEncode (exchange us) = textEncode us := by
  rw [textEncode, textEncode, codePoints_exchange]
  exact congrArg utf8 (map_eq_of_forall₂ (exchangePoints_forall₂ _) fun _ _ h => h.scalar_eq).symm

/-- The partner has a character of a class where the string has one. -/
theorem any_exchange {p : Nat → Bool} (hp : ∀ k, p k = true → k.isValidChar ∧ k ≠ replacement)
    (us : JsString) : (codePoints (exchange us)).any p = (codePoints us).any p := by
  have hmap := map_eq_of_forall₂ (exchangePoints_forall₂ (codePoints us))
    fun _ _ h => h.class_eq hp
  have hany : ∀ ns : List Nat, ns.any p = (ns.map p).any id := by
    intro ns
    rw [any_map]
    rfl
  rw [codePoints_exchange, hany, ← hmap, ← hany]

/-- A class of units without surrogates and U+FFFD does not tell the two apart. -/
theorem Exchanged.map_units (h : Exchanged m n) (hm : m < 0x110000)
    (hp : ∀ u, p u = true → u.toNat.isValidChar ∧ u.toNat ≠ Unicode.replacement) :
    (units m).map p = (units n).map p := by
  have hfalse : ∀ k, k < 0x10000 → ¬ (k.isValidChar ∧ k ≠ Unicode.replacement) →
      (units k).map p = [false] := by
    intro k hk hnot
    rw [units, if_pos hk, map_singleton]
    congr 1
    refine eq_false_iff.mpr fun hu => hnot ?_
    rw [← toNat_ofNat hk]
    exact hp _ hu
  cases h with
  | same => rfl
  | surrogate h =>
    have hsmall : m < 0x10000 := by
      simp only [Nat.isValidChar] at h
      omega
    rw [hfalse m hsmall fun hv => h hv.1, hfalse _ (by decide) fun hv => hv.2 rfl]
  | replacement =>
    rw [hfalse _ (by decide) fun hv => hv.2 rfl, hfalse 0xd800 (by decide) (by decide)]

theorem map_exchange
    (hp : ∀ u, p u = true → u.toNat.isValidChar ∧ u.toNat ≠ replacement) (us : JsString) :
    (exchange us).map p = us.map p := by
  have hlt := @codePoints_lt us
  have hall := exchangePoints_forall₂ (codePoints us)
  conv_rhs => rw [← flatMap_codePoints us]
  rw [exchange]
  generalize exchangePoints (codePoints us) = ms at hall
  generalize codePoints us = ns at hlt hall
  induction hall with
  | nil => rfl
  | cons hmn _ ih =>
    rw [flatMap_cons, flatMap_cons, map_append, map_append,
      ih (forall_mem_cons.mp hlt).2,
      hmn.map_units (hlt _ mem_cons_self) hp]

/-- The partner has the same length: the empty class does not tell the two apart. -/
theorem length_exchange (us : JsString) : (exchange us).length = us.length := by
  have hmap := map_exchange (p := fun _ => false) (fun _ h => by cases h) us
  simpa using congrArg length hmap

theorem exact_of_lt (h : ∀ n ∈ codePoints us, n < 0xd800) : Exact us := by
  intro n hn
  have hlt := h n hn
  exact ⟨.inl hlt, by rintro rfl; revert hlt; decide⟩

theorem exchange_eq_self : exchange us = us ↔ Exact us := by
  have hpoints : exchange us = us ↔ exchangePoints (codePoints us) = codePoints us := by
    rw [← codePoints_exchange]
    exact ⟨fun h => by rw [h], codePoints_inj⟩
  rw [hpoints, Exact, exchangePoints]
  split
  next h =>
    have hid : (codePoints us).map (fun n => if n = replacement then 0xd800 else n) =
        codePoints us ↔ ∀ n ∈ codePoints us, (if n = replacement then 0xd800 else n) = n := by
      conv_lhs => rw [← map_id (codePoints us), List.map_map, map_inj_left]
      rfl
    rw [hid]
    constructor
    · intro hfix n hn
      refine ⟨h n hn, fun hr => ?_⟩
      have := hfix n hn
      rw [if_pos hr, hr] at this
      cases this
    · intro hexact n hn
      rw [if_neg (hexact n hn).2]
  next h =>
  constructor
  · intro hfix
    exfalso
    apply h
    rw [← hfix]
    intro n hn
    obtain ⟨m, -, rfl⟩ := mem_map.mp hn
    split
    · assumption
    · decide
  · intro hexact
    exact absurd (fun n hn => (hexact n hn).1) h

/-! ## White space at the ends -/

section

variable {α : Type} {p : α → Bool} {l : List α}

/-- The list without the elements of `p` at its ends. -/
def trimEnds (p : α → Bool) (l : List α) : List α := ((l.dropWhile p).reverse.dropWhile p).reverse

/-- Nothing is dropped from a list exactly when its first element is kept. -/
theorem dropWhile_eq_self :
    l.dropWhile p = l ↔ l.head?.any p = false := by
  cases l with
  | nil => exact iff_of_true rfl rfl
  | cons a l =>
    rw [dropWhile_cons, List.head?_cons, Option.any_some]
    split
    next h =>
      refine iff_of_false (fun heq => ?_) (by rw [h]; decide)
      have hlen := (dropWhile_sublist (l := l) p).length_le
      rw [heq, length_cons] at hlen
      omega
    next h => exact iff_of_true rfl (eq_false_iff.mpr h)

theorem trimEnds_eq_self :
    trimEnds p l = l ↔ l.head?.any p = false ∧ l.getLast?.any p = false := by
  rw [← dropWhile_eq_self, ← List.head?_reverse, ← dropWhile_eq_self, trimEnds]
  constructor
  · intro h
    have hlen := congrArg List.length h
    rw [length_reverse] at hlen
    have h₁ := (dropWhile_sublist (l := (l.dropWhile p).reverse) p).length_le
    rw [length_reverse] at h₁
    -- both passes keep the length, so neither drops anything
    have hfirst : l.dropWhile p = l := (dropWhile_suffix _).eq_of_length_le (by omega)
    rw [hfirst] at h
    exact ⟨hfirst, reverse_injective (by rw [h, reverse_reverse])⟩
  · rintro ⟨hfirst, hlast⟩
    rw [hfirst, hlast, reverse_reverse]

/-- Only the places of the elements of `p` matter. -/
theorem trimEnds_congr {l' : List α} (h : l.map p = l'.map p) :
    trimEnds p l = l ↔ trimEnds p l' = l' := by
  have hhead : ∀ l : List α, l.head?.any p = (l.map p).head?.any id := by
    intro l
    rw [List.head?_map, Option.any_map]
    rfl
  have hlast : ∀ l : List α, l.getLast?.any p = (l.map p).getLast?.any id := by
    intro l
    rw [List.getLast?_map, Option.any_map]
    rfl
  rw [trimEnds_eq_self, trimEnds_eq_self, hhead l, hlast l, h, ← hhead, ← hlast]

end

end GoodDealer.Unicode
