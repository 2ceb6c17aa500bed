/-
# `GoodDealer.Protocol.Patterns` — the regular expressions of the wire schemas

The protocol package checks identifiers, domain names, prices, digests and cursors
with regular expressions on JavaScript strings.  They are written here as they stand
there, one definition for each schema, and shown to be the predicates of
`Protocol.Fields` on well-formed text (`js s`): the schema of an identifier accepts
`js s` exactly when `validIdentifier s`, and so on.

With the `u` flag an expression reads code points, without it code units.  For an
expression whose classes stay below the surrogates that makes no difference
(`test_js`).
-/
import GoodDealer.Lib.Regex
import GoodDealer.Lib.Unicode
import GoodDealer.Protocol.Fields

namespace GoodDealer.Schemas

open Unicode Regex List
open Bool (and_eq_true or_eq_true)

/-! ## Testing a string -/

/-- `/^r$/.test(us)`. -/
def test (r : Regex Nat) (us : JsString) : Bool := r.accepts (us.map UInt16.toNat)

/-- `/^r$/u.test(us)`. -/
def testUnicode (r : Regex Nat) (us : JsString) : Bool := r.accepts (codePoints us)

/-- `[a-b]`. -/
def range (a b : Char) : Regex Nat := cls (fun n => decide (a.toNat ≤ n) && decide (n ≤ b.toNat))

/-- One fixed character. -/
def char (c : Char) : Regex Nat := cls (fun n => n == c.toNat)

/-- `\d`. -/
def digit : Regex Nat := range '0' '9'

variable {l w : List Char} {us : JsString} {r : Regex Nat}

theorem codePoints_of_lt (h : ∀ u ∈ us, u.toNat < 0xd800) :
    codePoints us = us.map UInt16.toNat := by
  induction us with
  | nil => rfl
  | cons u us ih =>
    have hu := h u mem_cons_self
    rw [codePoints_cons, ih (forall_mem_cons.mp h).2, map_cons]
    rintro v - ⟨hhigh, -⟩
    simp only [isHigh, and_eq_true, decide_eq_true_eq] at hhigh
    omega

theorem map_toNat_of_lt (h : ∀ n ∈ codePoints us, n < 0xd800) :
    us.map UInt16.toNat = codePoints us := by
  refine (codePoints_of_lt fun u hu => ?_).symm
  rw [← flatMap_codePoints us] at hu
  obtain ⟨n, hn, hu⟩ := mem_flatMap.mp hu
  have hlt := h n hn
  rw [units, if_pos (by omega), mem_singleton] at hu
  rw [hu, toNat_ofNat (by omega)]
  exact hlt

/-- Below the surrogates the two readings agree. -/
theorem test_eq_testUnicode (h : r.Within (· < 0xd800)) (us : JsString) :
    test r us = testUnicode r us := by
  rw [Bool.eq_iff_iff, test, testUnicode, accepts_iff, accepts_iff]
  constructor
  · intro hw
    rwa [codePoints_of_lt]
    exact fun u hu => h.mem hw _ (mem_map_of_mem hu)
  · intro hw
    rwa [map_toNat_of_lt]
    exact fun n hn => h.mem hw n hn

theorem testUnicode_js (r : Regex Nat) (s : String) :
    testUnicode r (js s) = (r.comap Char.toNat).accepts s.toList := by
  rw [testUnicode, codePoints_js, accepts_map]

theorem test_js (h : r.Within (· < 0xd800)) (s : String) :
    test r (js s) = (r.comap Char.toNat).accepts s.toList := by
  rw [test_eq_testUnicode h, testUnicode_js]

/-- What an expression below the surrogates accepts has bytes of its own. -/
theorem exact_of_test (h : r.Within (· < 0xd800)) (hus : test r us = true) : Exact us := by
  rw [test_eq_testUnicode h, testUnicode, accepts_iff] at hus
  exact exact_of_lt fun n hn => h.mem hus n hn

/-- Text without surrogate pairs has one unit for each character. -/
theorem length_js_of_lt {s : String} (h : ∀ c ∈ s.toList, c.toNat < 0xd800) :
    (js s).length = s.toList.length := by
  have hmap : (js s).map UInt16.toNat = s.toList.map Char.toNat := by
    rw [map_toNat_of_lt, codePoints_js]
    rw [codePoints_js]
    intro n hn
    obtain ⟨c, hc, rfl⟩ := mem_map.mp hn
    exact h c hc
  simpa only [length_map] using congrArg List.length hmap

/-! ## Identifiers, digests and cursors -/

/-- `identifier`. -/
def identifier (us : JsString) : Bool :=
  decide (1 ≤ us.length) && decide (us.length ≤ 160) && test (plus (range '!' '~')) us

/-- `[A-Za-z0-9_-]`. -/
def base64UrlClass : Regex Nat :=
  cls (fun n => ('A'.toNat ≤ n && n ≤ 'Z'.toNat) || ('a'.toNat ≤ n && n ≤ 'z'.toNat) ||
    ('0'.toNat ≤ n && n ≤ '9'.toNat) || n == '_'.toNat || n == '-'.toNat)

/-- `sha256DigestSchema`. -/
def sha256DigestSchema (us : JsString) : Bool :=
  decide (us.length = 43) && test (base64UrlClass.exactly 43) us

/-- `mutationCursorSchema`. -/
def mutationCursorSchema (us : JsString) : Bool :=
  decide (1 ≤ us.length) && decide (us.length ≤ 512) && test (plus base64UrlClass) us

section

variable {p : Nat → Bool} (hp : ∀ n, p n = true → n < 0xd800) {s : String}

include hp

theorem cls_within : (cls p).Within (· < 0xd800) := hp

theorem test_plus_js : test (plus (cls p)) (js s) = true ↔
    s.toList ≠ [] ∧ ∀ c ∈ s.toList, p c.toNat = true := by
  have hwithin : (plus (cls p)).Within (· < 0xd800) := ⟨cls_within hp, cls_within hp⟩
  rw [test_js hwithin, accepts_iff]
  exact mem_plus_cls

theorem test_exactly_js {n : Nat} : test ((cls p).exactly n) (js s) = true ↔
    s.toList.length = n ∧ ∀ c ∈ s.toList, p c.toNat = true := by
  rw [test_js ((cls_within hp).exactly n), accepts_iff, comap_exactly]
  exact mem_exactly_cls

theorem length_js_of_class (h : ∀ c ∈ s.toList, p c.toNat = true) :
    (js s).length = s.toList.length :=
  length_js_of_lt fun c hc => hp _ (h c hc)

/-- A bounded, non-empty string of one class. -/
theorem class_js (s : String) (low high : Nat) (hlow : 1 ≤ low) :
    (low ≤ (js s).length ∧ (js s).length ≤ high) ∧ test (plus (cls p)) (js s) = true ↔
      (low ≤ s.toList.length ∧ s.toList.length ≤ high) ∧ ∀ c ∈ s.toList, p c.toNat = true := by
  rw [test_plus_js hp]
  constructor
  · rintro ⟨hlen, -, hall⟩
    rw [length_js_of_class hp hall] at hlen
    exact ⟨hlen, hall⟩
  · rintro ⟨hlen, hall⟩
    refine ⟨length_js_of_class hp hall ▸ hlen, fun hnil => ?_, hall⟩
    rw [hnil, length_nil] at hlen
    omega

/-- A string of one class with a fixed length. -/
theorem class_exactly_js (s : String) (n : Nat) :
    (js s).length = n ∧ test ((cls p).exactly n) (js s) = true ↔
      s.toList.length = n ∧ ∀ c ∈ s.toList, p c.toNat = true := by
  rw [test_exactly_js hp]
  constructor
  · exact And.right
  · intro h
    exact ⟨(length_js_of_class hp h.2).trans h.1, h⟩

end

theorem range_lt {a b : Char} (h : b.toNat < 0xd800) (n : Nat)
    (hn : (decide (a.toNat ≤ n) && decide (n ≤ b.toNat)) = true) : n < 0xd800 := by
  simp only [and_eq_true, decide_eq_true_eq] at hn
  exact lt_of_le_of_lt hn.2 h

variable (s : String)

theorem identifier_js : identifier (js s) = validIdentifier s := by
  have hclass := class_js (range_lt (a := '!') (b := '~') (by decide)) s 1 160 (Nat.le_refl 1)
  rw [Bool.eq_iff_iff]
  simp only [identifier, range, validIdentifier, and_eq_true, decide_eq_true_eq,
    all_eq_true] at hclass ⊢
  exact hclass

/-! ## Domain names -/

/-- `[a-z0-9]`. -/
def alnum (n : Nat) : Bool :=
  ('a'.toNat ≤ n && n ≤ 'z'.toNat) || ('0'.toNat ≤ n && n ≤ '9'.toNat)

/-- `[a-z0-9](?:[a-z0-9-]{0,61}[a-z0-9])?`. -/
def domainLabel : Regex Nat :=
  seq (cls alnum) (opt (seq ((cls fun n => alnum n || n == '-'.toNat).upTo 61) (cls alnum)))

/-- `domainAssetIdSchema`. -/
def domainAssetIdSchema (us : JsString) : Bool :=
  decide (3 ≤ us.length) && decide (us.length ≤ 253) &&
    testUnicode (seq (plus (seq domainLabel (char '.'))) domainLabel) us

theorem alnum_toNat (c : Char) : alnum c.toNat = isLowerAlnum c := rfl

theorem beq_toNat (c d : Char) : (c.toNat == d.toNat) = (c == d) := by
  rw [Bool.eq_iff_iff, beq_iff_eq, beq_iff_eq, Char.toNat_inj]

theorem hyphen_not_alnum : isLowerAlnum '-' = false := by decide

/-- The words of a label. -/
theorem mem_domainLabel :
    l ∈ (domainLabel.comap Char.toNat).language ↔ validDomainLabel l = true := by
  have hcomap : domainLabel.comap Char.toNat = seq (cls isLowerAlnum)
      (opt (seq ((cls fun c => isLowerAlnum c || c == '-').upTo 61) (cls isLowerAlnum))) := by
    simp only [domainLabel, opt, comap, comap_upTo, alnum_toNat, beq_toNat]
  rw [hcomap, mem_cls_seq]
  simp only [mem_opt, mem_seq_cls, mem_upTo_cls, validDomainLabel, and_eq_true,
    decide_eq_true_eq, all_eq_true, or_eq_true, beq_iff_eq, bne_iff_ne, ne_eq]
  constructor
  · rintro ⟨c, v, rfl, hc, hv⟩
    have hne : c ≠ '-' := fun h => by rw [h, hyphen_not_alnum] at hc; cases hc
    rcases hv with ⟨u, d, rfl, ⟨hlen, hu⟩, hd⟩ | rfl
    · have hne' : d ≠ '-' := fun h => by rw [h, hyphen_not_alnum] at hd; cases hd
      refine ⟨⟨⟨⟨by simp, by simp; omega⟩, ?_⟩, by simpa using hne⟩, by
        rw [← cons_append, List.getLast?_append]; simpa using hne'⟩
      intro x hx
      simp only [mem_cons, mem_append, not_mem_nil, or_false] at hx
      rcases hx with rfl | hx | rfl
      · exact .inl hc
      · exact hu x hx
      · exact .inl hd
    · exact ⟨⟨⟨⟨by simp, by simp⟩, by simpa using .inl hc⟩, by simpa using hne⟩, by simpa using hne⟩
  · rintro ⟨⟨⟨⟨hpos, hlen⟩, hall⟩, hhead⟩, hlast⟩
    cases l with
    | nil => simp at hpos
    | cons c v =>
      have hc : isLowerAlnum c = true := by
        rcases hall c mem_cons_self with hc | rfl
        · exact hc
        · exact absurd rfl hhead
      refine ⟨c, v, rfl, hc, ?_⟩
      rcases eq_nil_or_concat v with rfl | ⟨u, d, rfl⟩
      · exact .inr rfl
      · refine .inl ⟨u, d, concat_eq_append, ⟨?_, ?_⟩, ?_⟩
        · simp at hlen
          omega
        · intro x hx
          exact hall x (by simp [hx])
        · rcases hall d (by simp) with hd | rfl
          · exact hd
          · rw [concat_eq_append, ← cons_append, List.getLast?_append] at hlast
            exact absurd rfl hlast

theorem dot_notMem_label (h : validDomainLabel l = true) : '.' ∉ l := by
  intro hdot
  simp only [validDomainLabel, and_eq_true, all_eq_true] at h
  exact absurd (h.1.1.2 _ hdot) (by decide)

theorem label_lt (h : validDomainLabel l = true) : ∀ c ∈ l, c.toNat < 0xd800 := by
  simp only [validDomainLabel, and_eq_true, all_eq_true, or_eq_true, beq_iff_eq] at h
  intro c hc
  rcases h.1.1.2 c hc with hc | rfl
  · simp only [isLowerAlnum, or_eq_true, and_eq_true, decide_eq_true_eq] at hc
    rcases hc with hc | hc
    · exact lt_of_le_of_lt (show c.toNat ≤ 'z'.toNat from hc.2) (by decide)
    · exact lt_of_le_of_lt (show c.toNat ≤ '9'.toNat from hc.2) (by decide)
  · decide

/-- A domain name is two labels or more, joined by dots. -/
theorem mem_domainName :
    l ∈ ((seq (plus (seq domainLabel (char '.'))) domainLabel).comap Char.toNat).language ↔
      2 ≤ (l.splitOn '.').length ∧ ∀ part ∈ l.splitOn '.', validDomainLabel part = true := by
  have hdot : ∀ c : Char, (c.toNat == '.'.toNat) = true ↔ c = '.' := by
    intro c
    rw [beq_toNat, beq_iff_eq]
  have hmem := mem_plus_sep (w := l) (r := domainLabel.comap Char.toNat) hdot
  simp only [mem_domainLabel] at hmem
  rw [show (seq (plus (seq domainLabel (char '.'))) domainLabel).comap Char.toNat =
    seq (plus (seq (domainLabel.comap Char.toNat) (cls fun c => c.toNat == '.'.toNat)))
      (domainLabel.comap Char.toNat) from rfl, hmem]
  constructor
  · rintro ⟨parts, htwo, hparts, rfl⟩
    rw [splitOn_intercalate '.' (fun l hl => dot_notMem_label (hparts l hl))
      (ne_nil_of_length_pos (by omega))]
    exact ⟨htwo, hparts⟩
  · rintro ⟨htwo, hparts⟩
    exact ⟨l.splitOn '.', htwo, hparts, (intercalate_splitOn '.').symm⟩

/-- What holds of the dot and of every character of a label holds of every character. -/
theorem forall_of_labels {P : Char → Prop} (hdot : P '.')
    (h : ∀ part ∈ l.splitOn '.', ∀ c ∈ part, P c) : ∀ c ∈ l, P c := by
  have hsep : ∀ parts : List (List Char), (∀ part ∈ parts, ∀ c ∈ part, P c) →
      ∀ c ∈ ['.'].intercalate parts, P c := by
    intro parts hparts c hc
    induction parts with
    | nil => cases hc
    | cons part parts ih =>
      obtain ⟨hpart, hrest⟩ := forall_mem_cons.mp hparts
      cases parts with
      | nil => exact hpart c (by simpa using hc)
      | cons next parts =>
        rw [intercalate_cons_cons, mem_append, mem_append,
          mem_singleton] at hc
        rcases hc with (hc | rfl) | hc
        · exact hpart c hc
        · exact hdot
        · exact ih hrest hc
  have hall := hsep _ h
  rwa [intercalate_splitOn] at hall

theorem lt_of_domainName (h : ∀ part ∈ l.splitOn '.', validDomainLabel part = true) :
    ∀ c ∈ l, c.toNat < 0xd800 :=
  forall_of_labels (by decide) fun part hpart => label_lt (h part hpart)

theorem domainAssetIdSchema_js : domainAssetIdSchema (js s) = validDomainAssetId s := by
  rw [Bool.eq_iff_iff]
  simp only [domainAssetIdSchema, validDomainAssetId, and_eq_true, decide_eq_true_eq,
    testUnicode_js, accepts_iff, mem_domainName, all_eq_true]
  constructor
  · rintro ⟨⟨h₁, h₂⟩, htwo, hparts⟩
    rw [length_js_of_lt (lt_of_domainName hparts)] at h₁ h₂
    exact ⟨⟨⟨h₁, h₂⟩, htwo⟩, hparts⟩
  · rintro ⟨⟨⟨h₁, h₂⟩, htwo⟩, hparts⟩
    rw [length_js_of_lt (lt_of_domainName hparts)]
    exact ⟨⟨h₁, h₂⟩, htwo, hparts⟩

/-! ## Prices -/

/-- `currency` of `canonicalMoneySchema`: `/^[A-Z]{3}$/`. -/
def currencySchema (us : JsString) : Bool := test ((range 'A' 'Z').exactly 3) us

/-- `(0|[1-9]\d{0,15})`. -/
def wholePattern : Regex Nat := alt (char '0') (seq (range '1' '9') (digit.upTo 15))

/-- `\.\d{0,7}[1-9]`. -/
def fractionPattern : Regex Nat := seq (char '.') (seq (digit.upTo 7) (range '1' '9'))

/-- `amount` of `canonicalMoneySchema`. -/
def amountSchema (us : JsString) : Bool := test (seq wholePattern (opt fractionPattern)) us

theorem isDigit_iff {c : Char} : isDigit c = true ↔ 48 ≤ c.toNat ∧ c.toNat ≤ 57 := by
  rw [isDigit, and_eq_true, decide_eq_true_eq, decide_eq_true_eq]
  exact Iff.rfl

theorem zero_iff {c : Char} : c = '0' ↔ c.toNat = 48 := by
  rw [← Char.toNat_inj]
  exact Iff.rfl

/-- The digits before the point. -/
def isWhole (w : List Char) : Bool :=
  1 ≤ w.length && w.length ≤ 16 && w.all isDigit && (w.length == 1 || w.head? != some '0')

/-- The digits after the point. -/
def isFraction (f : List Char) : Bool :=
  1 ≤ f.length && f.length ≤ 8 && f.all isDigit && f.getLast? != some '0'

theorem mem_wholePattern :
    w ∈ (wholePattern.comap Char.toNat).language ↔ isWhole w = true := by
  have hcomap : wholePattern.comap Char.toNat = alt (cls fun c => c.toNat == 48)
      (seq (cls fun c => decide (49 ≤ c.toNat) && decide (c.toNat ≤ 57))
        ((cls fun c => decide (48 ≤ c.toNat) && decide (c.toNat ≤ 57)).upTo 15)) := by
    rw [wholePattern, comap, comap, comap_upTo]
    rfl
  rw [hcomap, mem_alt, mem_cls, mem_cls_seq]
  simp only [mem_upTo_cls, isWhole, and_eq_true, or_eq_true, decide_eq_true_eq,
    all_eq_true, beq_iff_eq, bne_iff_ne, ne_eq, isDigit_iff]
  constructor
  · rintro (⟨c, rfl, hc⟩ | ⟨c, v, rfl, hc, hlen, hv⟩)
    · refine ⟨⟨⟨by simp, by simp⟩, fun x hx => ?_⟩, .inl rfl⟩
      rw [mem_singleton.mp hx]
      omega
    · have hc0 : c ≠ '0' := fun h => by
        have := zero_iff.mp h
        omega
      simp only [length_cons, mem_cons, forall_eq_or_imp, List.head?_cons,
        Option.some.injEq]
      exact ⟨⟨⟨by omega, by omega⟩, ⟨by omega, hc.2⟩, hv⟩, .inr hc0⟩
  · rintro ⟨⟨⟨hpos, hlen⟩, hall⟩, hhead⟩
    cases w with
    | nil => simp at hpos
    | cons c v =>
      obtain ⟨hc, hv⟩ := forall_mem_cons.mp hall
      simp only [length_cons, List.head?_cons, Option.some.injEq, zero_iff] at hlen hhead
      by_cases h48 : c.toNat = 48
      · have hnil : v = [] := length_eq_zero_iff.mp (by omega)
        exact .inl ⟨c, by rw [hnil], h48⟩
      · exact .inr ⟨c, v, rfl, ⟨by omega, hc.2⟩, by omega, hv⟩

theorem mem_fractionPattern :
    l ∈ (fractionPattern.comap Char.toNat).language ↔ ∃ f, l = '.' :: f ∧ isFraction f = true := by
  have hcomap : fractionPattern.comap Char.toNat = seq (cls fun c => c.toNat == '.'.toNat)
      (seq ((cls fun c => decide (48 ≤ c.toNat) && decide (c.toNat ≤ 57)).upTo 7)
        (cls fun c => decide (49 ≤ c.toNat) && decide (c.toNat ≤ 57))) := by
    rw [fractionPattern, comap, comap, comap_upTo]
    rfl
  have hfraction : ∀ f : List Char, f ∈ (seq ((cls fun c => decide (48 ≤ c.toNat) &&
      decide (c.toNat ≤ 57)).upTo 7) (cls fun c => decide (49 ≤ c.toNat) &&
        decide (c.toNat ≤ 57))).language ↔ isFraction f = true := by
    intro f
    rw [mem_seq_cls]
    simp only [mem_upTo_cls, isFraction, and_eq_true, decide_eq_true_eq, all_eq_true,
      bne_iff_ne, ne_eq, isDigit_iff]
    constructor
    · rintro ⟨u, c, rfl, ⟨hlen, hu⟩, hc⟩
      have hc0 : c ≠ '0' := fun h => by
        have := zero_iff.mp h
        omega
      refine ⟨⟨⟨by simp, by simp; omega⟩, ?_⟩, ?_⟩
      · exact forall_mem_append.mpr ⟨hu, forall_mem_singleton.mpr ⟨by omega, hc.2⟩⟩
      · rw [List.getLast?_append]
        simpa using hc0
    · rintro ⟨⟨⟨hpos, hlen⟩, hall⟩, hlast⟩
      rcases eq_nil_or_concat f with rfl | ⟨u, c, rfl⟩
      · simp at hpos
      · rw [concat_eq_append] at hpos hlen hall hlast ⊢
        rw [List.getLast?_append] at hlast
        have hc0 : c.toNat ≠ 48 := fun h => hlast (by simp [zero_iff.mpr h])
        have hc := hall c (by simp)
        simp only [length_append, length_cons, length_nil] at hlen
        exact ⟨u, c, rfl, ⟨by omega, fun x hx => hall x (by simp [hx])⟩, by omega, hc.2⟩
  rw [hcomap, mem_cls_seq]
  simp only [hfraction, beq_toNat, beq_iff_eq]
  constructor
  · rintro ⟨c, f, rfl, rfl, hf⟩
    exact ⟨f, rfl, hf⟩
  · rintro ⟨f, rfl, hf⟩
    exact ⟨'.', f, rfl, rfl, hf⟩

theorem dot_notMem_digits (h : ∀ c ∈ w, isDigit c = true) : '.' ∉ w := by
  intro hdot
  exact absurd (h _ hdot) (by decide)

theorem validAmount_eq : validAmount s = match s.toList.splitOn '.' with
    | [w] => isWhole w
    | [w, f] => isWhole w && isFraction f
    | _ => false := by
  unfold validAmount
  generalize s.toList.splitOn '.' = parts
  rcases parts with _ | ⟨w, _ | ⟨f, _ | ⟨g, rest⟩⟩⟩ <;>
    simp only [isWhole, isFraction, Bool.and_assoc]

theorem amountSchema_js : amountSchema (js s) = validAmount s := by
  have hrange : ∀ {a b : Char}, b.toNat < 0xd800 → (range a b).Within (· < 0xd800) := range_lt
  have hchar : ∀ {c : Char}, c.toNat < 0xd800 → (char c).Within (· < 0xd800) := by
    intro c hc n hn
    rw [beq_iff_eq.mp hn]
    exact hc
  have hdigit : digit.Within (· < 0xd800) := hrange (by decide)
  have hwithin : (seq wholePattern (opt fractionPattern)).Within (· < 0xd800) :=
    ⟨⟨hchar (by decide), hrange (by decide), hdigit.upTo 15⟩,
      ⟨hchar (by decide), hdigit.upTo 7, hrange (by decide)⟩, trivial⟩
  rw [Bool.eq_iff_iff, amountSchema, test_js hwithin, accepts_iff]
  show s.toList ∈ (seq (wholePattern.comap Char.toNat)
    (opt (fractionPattern.comap Char.toNat))).language ↔ _
  rw [mem_seq, validAmount_eq]
  simp only [mem_opt, mem_wholePattern, mem_fractionPattern]
  have hwhole : ∀ {w : List Char}, isWhole w = true → '.' ∉ w := by
    intro w hw
    simp only [isWhole, and_eq_true, all_eq_true] at hw
    exact dot_notMem_digits hw.1.2
  have hfraction : ∀ {f : List Char}, isFraction f = true → '.' ∉ f := by
    intro f hf
    simp only [isFraction, and_eq_true, all_eq_true] at hf
    exact dot_notMem_digits hf.1.2
  constructor
  · rintro ⟨w, hw, v, ⟨f, rfl, hf⟩ | rfl, hs⟩
    · rw [← hs, splitOn_append_cons_self_of_not_mem (hwhole hw),
        splitOn_eq_singleton (hfraction hf)]
      simp [hw, hf]
    · rw [← hs, append_nil, splitOn_eq_singleton (hwhole hw)]
      exact hw
  · intro h
    have hjoin := @List.intercalate_splitOn _ s.toList _ _ '.'
    split at h
    next w hsplit =>
      rw [hsplit, intercalate_singleton] at hjoin
      exact ⟨w, h, [], .inr rfl, by rw [append_nil, hjoin]⟩
    next w f hsplit =>
      rw [hsplit, intercalate_cons_cons, intercalate_singleton, append_assoc] at hjoin
      obtain ⟨hw, hf⟩ := Bool.and_eq_true_iff.mp h
      exact ⟨w, hw, '.' :: f, .inl ⟨f, rfl, hf⟩, hjoin⟩
    · cases h

theorem currencySchema_js : currencySchema (js s) =
    (s.toList.length == 3 && s.toList.all (fun c => 'A' ≤ c && c ≤ 'Z')) := by
  rw [Bool.eq_iff_iff, currencySchema, range,
    test_exactly_js (range_lt (a := 'A') (b := 'Z') (by decide))]
  simp only [and_eq_true, beq_iff_eq, all_eq_true, decide_eq_true_eq]
  exact Iff.rfl

end GoodDealer.Schemas
