/-
# `GoodDealer.Desktop.Validators` — the validators of a local edit

What `portfolio_projection.rs` checks before a local edit is committed, on the bytes
of Rust strings.  Each validator has one error, so each is a test here; the operation
that calls it turns a failed test into `InvalidInput`.

| validator | on a text |
| :-- | :-- |
| `validate_identifier` | `validIdentifier` |
| `validate_domain_asset_id` | `validDomainAssetId` |
| `validate_timestamp` | the text of a second (`timestampText`) |
| `valid_currency`, `valid_amount` | `Money.valid` |
| `validate_projection` of one row | `validateDomainAsset` |

The second column is what `Desktop.Store` builds on.  A note and a tag are counted in
characters here and in UTF-16 units by the cloud, and fewer format characters are
forbidden here than there.
-/
import GoodDealer.Desktop.Store
import GoodDealer.Protocol.Records

namespace GoodDealer.Desktop

open Unicode Schemas List
open Bool (and_eq_true or_eq_true not_eq_true')

/-! ## Bytes of a text -/

/-- `str::as_bytes`. -/
def asBytes (value : String) : Bytes := utf8 value.toList

/-- `u8::is_ascii_digit`. -/
def isAsciiDigit (b : UInt8) : Bool := 48 ≤ b.toNat && b.toNat ≤ 57

/-- `u8::is_ascii_lowercase`. -/
def isAsciiLowercase (b : UInt8) : Bool := 97 ≤ b.toNat && b.toNat ≤ 122

/-- `u8::is_ascii_uppercase`. -/
def isAsciiUppercase (b : UInt8) : Bool := 65 ≤ b.toNat && b.toNat ≤ 90

/-! ## Validators -/

/-- `validate_identifier`. -/
def validateIdentifier (value : String) : Bool :=
  let bytes := asBytes value
  !(bytes.isEmpty || decide (160 < bytes.length) ||
    !bytes.all (fun b => 0x21 ≤ b.toNat && b.toNat ≤ 0x7e))

/-- The loop of `validate_domain_asset_id`, one label. -/
def validateLabel (label : List Char) : Bool :=
  let bytes := utf8 label
  !(label.isEmpty || decide (63 < bytes.length) || label.head? == some '-' ||
    label.getLast? == some '-' ||
    !bytes.all (fun b => isAsciiLowercase b || isAsciiDigit b || b.toNat == '-'.toNat))

/-- `validate_domain_asset_id`. -/
def validateDomainAssetId (value : String) : Bool :=
  let bytes := asBytes value
  let labels := value.toList.splitOn '.'
  if 253 < bytes.length ∨ bytes.length < 3 ∨ value.toList ≠ value.toList.map Char.toLower then false
  else if labels.isEmpty || !value.toList.contains '.' then false
  else labels.all validateLabel

/-- The bytes of a text as numbers. -/
def byteNumbers (value : String) : List Nat := (asBytes value).map UInt8.toNat

/-- `value[start..end].parse::<u32>()` of digits. -/
def number (bytes : List Nat) (start stop : Nat) : Nat :=
  ((bytes.drop start).take (stop - start)).foldl (fun n b => 10 * n + (b - 48)) 0

/-- `max_day`. -/
def maxDay (year month : Nat) : Nat :=
  match month with
  | 1 | 3 | 5 | 7 | 8 | 10 | 12 => 31
  | 4 | 6 | 9 | 11 => 30
  | 2 => if year % 4 == 0 && (year % 100 != 0 || year % 400 == 0) then 29 else 28
  | _ => 0

/-- What `validate_timestamp` checks of the numbers. -/
def realTime (bytes : List Nat) : Bool :=
  let day := number bytes 8 10
  !(day == 0 || decide (maxDay (number bytes 0 4) (number bytes 5 7) < day) ||
    decide (23 < number bytes 11 13) || decide (59 < number bytes 14 16) ||
    decide (59 < number bytes 17 19))

/-- `matches!(index, 4 | 7 | 10 | 13 | 16 | 19)`. -/
def isSeparator (index : Nat) : Bool := [4, 7, 10, 13, 16, 19].contains index

/-- What `validate_timestamp` checks of the bytes. -/
def timestampShape (bytes : List Nat) : Bool :=
  bytes.length == 20 && bytes[4]? == some '-'.toNat && bytes[7]? == some '-'.toNat &&
    bytes[10]? == some 'T'.toNat && bytes[13]? == some ':'.toNat && bytes[16]? == some ':'.toNat &&
    bytes[19]? == some 'Z'.toNat &&
    bytes.zipIdx.all (fun (b, index) => isSeparator index || (48 ≤ b && b ≤ 57))

/-- `validate_timestamp`. -/
def validateTimestamp (value : String) : Bool :=
  let bytes := byteNumbers value
  timestampShape bytes && realTime bytes

/-- `valid_currency`. -/
def validCurrency (value : String) : Bool :=
  let bytes := asBytes value
  bytes.length == 3 && bytes.all isAsciiUppercase

/-- `str::split_once('.')`. -/
def splitOnce (value : List Char) : List Char × Option (List Char) :=
  match value.dropWhile (· != '.') with
  | [] => (value, none)
  | _ :: part => (value.takeWhile (· != '.'), some part)

/-- What `valid_amount` checks before the point. -/
def acceptsWhole (whole : List Char) : Bool :=
  let bytes := utf8 whole
  !(whole.isEmpty || decide (16 < bytes.length) || !bytes.all isAsciiDigit ||
    (decide (1 < bytes.length) && whole.head? == some '0'))

/-- What `valid_amount` checks after the point. -/
def acceptsFraction (part : List Char) : Bool :=
  let bytes := utf8 part
  !part.isEmpty && decide (bytes.length ≤ 8) && bytes.all isAsciiDigit && part.getLast? != some '0'

/-- `valid_amount`. -/
def validAmount (value : String) : Bool :=
  let (whole, fractional) := splitOnce value.toList
  acceptsWhole whole && fractional.all acceptsFraction

/-- The loop of `validate_projection` over the tags of a row. -/
def validateTags : Option String → List String → Bool
  | _, [] => true
  | previous, tag :: tags =>
    if tag.toList.isEmpty || decide (64 < tag.toList.length) ||
        trimEnds isWhitespace tag.toList != tag.toList ||
        tag.toList.any isForbiddenTextCharacter ||
        previous.any (fun value => decide (asBytes tag ≤ asBytes value)) then false
    else validateTags (some tag) tags

/-- `validate_projection`. -/
def validateProjection : Option String → List DomainAssetProjectionRow → Bool
  | _, [] => true
  | previous, row :: rows =>
    if !validateDomainAssetId row.entityId then false
    else if previous.any (fun value => decide (asBytes row.entityId ≤ asBytes value)) then false
    else if row.note.any (fun note =>
        decide (10000 < note.toList.length) || note.toList.any isForbiddenTextCharacter) then false
    else if row.portfolioId.any (fun id => !validateIdentifier id) then false
    else if 128 < row.tags.length then false
    else if !validateTags none row.tags then false
    else if row.targetPrice.any (fun price =>
        !validCurrency price.currency || !validAmount price.amount) then false
    else validateProjection (some row.entityId) rows

/-! ## Classes of bytes -/

section

variable {p : Nat → Bool} (hp : ∀ n, p n = true → n < 0x80)

include hp

/-- A class of ASCII bytes is a class of characters. -/
theorem all_bytes (value : List Char) :
    (utf8 value).all (fun b => p b.toNat) = value.all (fun c => p c.toNat) := by
  rw [all_utf8 fun b hb => hp _ hb]
  congr 1
  funext c
  by_cases hc : c.toNat < 0x80
  · rw [decide_eq_true hc, Bool.true_and, UInt8.toNat_ofNat', Nat.mod_eq_of_lt (by omega)]
  · have hfalse : p c.toNat = false := Bool.eq_false_iff.mpr fun h => hc (hp _ h)
    rw [decide_eq_false hc, Bool.false_and, hfalse]

/-- Texts of such a class have as many bytes as characters. -/
theorem length_bytes {value : List Char} (h : value.all (fun c => p c.toNat) = true) :
    (utf8 value).length = value.length :=
  length_utf8_ascii fun c hc => hp _ (all_eq_true.mp h c hc)

theorem class_bytes (low high : Nat) (value : List Char) :
    (decide (low ≤ (utf8 value).length) && decide ((utf8 value).length ≤ high) &&
        (utf8 value).all fun b => p b.toNat) =
      (decide (low ≤ value.length) && decide (value.length ≤ high) &&
        value.all fun c => p c.toNat) := by
  rw [all_bytes hp]
  cases h : value.all fun c => p c.toNat with
  | false => rw [Bool.and_false, Bool.and_false]
  | true => rw [length_bytes hp h]

end

theorem isEmpty_utf8 (value : List Char) : (utf8 value).isEmpty = value.isEmpty := by
  cases value with
  | nil => rfl
  | cons c value =>
    rw [isEmpty_cons, isEmpty_eq_false_iff]
    exact append_ne_nil_of_left_ne_nil String.utf8EncodeChar_ne_nil _

theorem isEmpty_eq {α : Type} (l : List α) : (!l.isEmpty) = decide (1 ≤ l.length) := by
  cases l with
  | nil => rfl
  | cons a l => exact (decide_eq_true (by simp)).symm

theorem not_decide_lt (m n : Nat) : (!decide (m < n)) = decide (n ≤ m) := by
  rw [Bool.eq_iff_iff, not_eq_true', decide_eq_false_iff_not, decide_eq_true_eq, not_lt]

theorem validateIdentifier_eq (value : String) :
    validateIdentifier value = validIdentifier value := by
  rw [validateIdentifier, asBytes, Bool.not_or, Bool.not_or, Bool.not_not, isEmpty_eq,
    not_decide_lt]
  refine class_bytes (p := fun n => 0x21 ≤ n && n ≤ 0x7e) ?_ 1 160 value.toList
  intro n hn
  simp only [and_eq_true, decide_eq_true_eq] at hn
  omega

/-! ## Domain names -/

theorem labelClass_lt (n : Nat) (h : (alnum n || n == '-'.toNat) = true) : n < 0x80 := by
  simp only [alnum, or_eq_true, and_eq_true, decide_eq_true_eq, beq_iff_eq,
    Char.reduceToNat] at h
  omega

theorem validateLabel_eq (label : List Char) : validateLabel label = validDomainLabel label := by
  have hclass := class_bytes labelClass_lt 1 63 label
  have hall : (fun c : Char => alnum c.toNat || c.toNat == '-'.toNat) =
      fun c => isLowerAlnum c || c == '-' := by
    funext c
    rw [alnum_toNat, beq_toNat]
  rw [hall, ← isEmpty_eq, isEmpty_utf8, ← not_decide_lt] at hclass
  have hbytes : (fun b : UInt8 => isAsciiLowercase b || isAsciiDigit b || b.toNat == '-'.toNat) =
      fun b => alnum b.toNat || b.toNat == '-'.toNat := rfl
  rw [validDomainLabel, ← hclass, validateLabel, hbytes]
  simp only [Bool.not_or, Bool.not_not, bne]
  ac_rfl

theorem label_lower {label : List Char} (h : validDomainLabel label = true) :
    ∀ c ∈ label, c.toNat < 0x80 ∧ c.toLower = c := by
  simp only [validDomainLabel, and_eq_true, all_eq_true, ← alnum_toNat, ← beq_toNat] at h
  intro c hc
  have hclass := h.1.1.2 c hc
  refine ⟨labelClass_lt _ hclass, ?_⟩
  simp only [alnum, or_eq_true, and_eq_true, decide_eq_true_eq, beq_iff_eq,
    Char.reduceToNat] at hclass
  have hupper : ¬ (c.val ≥ 'A'.val ∧ c.val ≤ 'Z'.val) := by
    rintro ⟨h₁, h₂⟩
    have h₁ : 65 ≤ c.toNat := h₁
    have h₂ : c.toNat ≤ 90 := h₂
    omega
  exact dif_neg hupper

variable {l : List Char}

/-- A name has two labels when it contains a dot. -/
theorem two_labels (h : ∀ part ∈ l.splitOn '.', '.' ∉ part) :
    2 ≤ (l.splitOn '.').length ↔ '.' ∈ l := by
  have hjoin := @List.intercalate_splitOn _ l _ _ '.'
  constructor
  · intro htwo
    by_contra hdot
    rw [splitOn_eq_singleton hdot] at htwo
    simp at htwo
  · intro hdot
    rcases hparts : l.splitOn '.' with _ | ⟨w, _ | ⟨v, parts⟩⟩
    · rw [hparts, intercalate_nil] at hjoin
      rw [← hjoin] at hdot
      cases hdot
    · rw [hparts, intercalate_singleton] at hjoin
      exact absurd (hjoin ▸ hdot) (h w (hparts ▸ mem_singleton_self w))
    · simp

theorem validateDomainAssetId_eq (value : String) :
    validateDomainAssetId value = validDomainAssetId value := by
  have hlabels : (value.toList.splitOn '.').all validateLabel =
      (value.toList.splitOn '.').all validDomainLabel :=
    congrArg _ (funext validateLabel_eq)
  have hne : (value.toList.splitOn '.').isEmpty = false :=
    isEmpty_eq_false_iff.mpr (splitOnP_ne_nil _ _)
  rw [validateDomainAssetId, validDomainAssetId, hlabels]
  cases hall : (value.toList.splitOn '.').all validDomainLabel with
  | false =>
    rw [Bool.and_false]
    split <;> first | rfl | (split <;> rfl)
  | true =>
    -- every character is lower-case ASCII, so bytes and characters are counted alike
    have hvalid := all_eq_true.mp hall
    have hchars : ∀ c ∈ value.toList, c.toNat < 0x80 ∧ c.toLower = c :=
      forall_of_labels (by decide) fun part hpart => label_lower (hvalid part hpart)
    have hlower : value.toList.map Char.toLower = value.toList :=
      (map_congr_left fun c hc => (hchars c hc).2).trans (map_id _)
    have htwo := two_labels fun part hpart => dot_notMem_label (hvalid part hpart)
    simp only [asBytes, length_utf8_ascii fun c hc => (hchars c hc).1, hlower, hne, ne_eq,
      not_true_eq_false, or_false, Bool.false_or, Bool.and_true]
    rw [Bool.eq_iff_iff]
    simp only [and_eq_true, decide_eq_true_eq, htwo]
    split
    next h => exact iff_of_false (by decide) fun hlen => by omega
    next h =>
    cases hdot : value.toList.contains '.' with
    | false =>
      refine iff_of_false (by decide) fun hmem => ?_
      exact Bool.false_ne_true (hdot.symm.trans (contains_iff_mem.mpr hmem.2))
    | true => exact iff_of_true rfl ⟨by omega, contains_iff_mem.mp hdot⟩

/-! ## Prices -/

theorem digitClass_lt (n : Nat) (h : (decide (48 ≤ n) && decide (n ≤ 57)) = true) : n < 0x80 := by
  simp only [and_eq_true, decide_eq_true_eq] at h
  omega

theorem upperClass_lt (n : Nat) (h : (decide (65 ≤ n) && decide (n ≤ 90)) = true) : n < 0x80 := by
  simp only [and_eq_true, decide_eq_true_eq] at h
  omega

theorem validCurrency_eq (value : String) : validCurrency value =
    (value.toList.length == 3 && value.toList.all (fun c => 'A' ≤ c && c ≤ 'Z')) := by
  have hclass := class_bytes upperClass_lt 3 3 value.toList
  have hlength : ∀ n : Nat, (n == 3) = (decide (3 ≤ n) && decide (n ≤ 3)) := by
    intro n
    rw [Bool.eq_iff_iff, beq_iff_eq, and_eq_true, decide_eq_true_eq, decide_eq_true_eq]
    omega
  rw [validCurrency, hlength, hlength]
  exact hclass

theorem acceptsWhole_eq (w : List Char) : acceptsWhole w = isWhole w := by
  have hclass := class_bytes digitClass_lt 1 16 w
  rw [← isEmpty_eq, isEmpty_utf8, ← not_decide_lt] at hclass
  have hwhole : isWhole w = ((!w.isEmpty && !decide (16 < (utf8 w).length) &&
      (utf8 w).all isAsciiDigit) && (w.length == 1 || w.head? != some '0')) :=
    congrArg (· && (w.length == 1 || w.head? != some '0')) hclass.symm
  rw [hwhole, acceptsWhole, Bool.not_or, Bool.not_or, Bool.not_or, Bool.not_not]
  cases hall : (utf8 w).all isAsciiDigit with
  | false => rw [Bool.and_false, Bool.false_and, Bool.false_and]
  | true =>
    have hlen : (utf8 w).length = w.length :=
      length_bytes digitClass_lt ((all_bytes digitClass_lt w).symm.trans hall)
    cases w with
    | nil => rfl
    | cons c w =>
      have hone : (!decide (1 < (c :: w).length)) = ((c :: w).length == 1) := by
        rw [not_decide_lt, Bool.eq_iff_iff, decide_eq_true_eq, beq_iff_eq, length_cons]
        omega
      rw [hlen, Bool.not_and, hone, bne]

theorem acceptsFraction_eq (f : List Char) : acceptsFraction f = isFraction f := by
  have hclass := class_bytes digitClass_lt 1 8 f
  rw [← isEmpty_eq, isEmpty_utf8] at hclass
  exact congrArg (· && f.getLast? != some '0') hclass

theorem splitOnce_of_notMem (h : '.' ∉ l) : splitOnce l = (l, none) := by
  have hall : ∀ c ∈ l, (c != '.') = true := fun c hc => bne_iff_ne.mpr fun heq => h (heq ▸ hc)
  have hdrop := @List.dropWhile_append_of_pos _ _ l [] hall
  rw [append_nil, dropWhile_nil] at hdrop
  rw [splitOnce, hdrop]

theorem splitOnce_of_mem {w part : List Char} (h : '.' ∉ w) :
    splitOnce (w ++ '.' :: part) = (w, some part) := by
  have hall : ∀ c ∈ w, (c != '.') = true := fun c hc => bne_iff_ne.mpr fun heq => h (heq ▸ hc)
  have hdrop : (w ++ '.' :: part).dropWhile (· != '.') = '.' :: part := by
    rw [dropWhile_append_of_pos hall]
    rfl
  have htake : (w ++ '.' :: part).takeWhile (· != '.') = w := by
    rw [takeWhile_append_of_pos hall]
    simp
  rw [splitOnce, hdrop, htake]

theorem dot_notMem_fraction {f : List Char} (h : isFraction f = true) : '.' ∉ f := by
  simp only [isFraction, and_eq_true, all_eq_true] at h
  exact dot_notMem_digits h.1.2

theorem validAmount_eq (value : String) : validAmount value = GoodDealer.validAmount value := by
  rw [Schemas.validAmount_eq, validAmount]
  by_cases hdot : '.' ∈ value.toList
  · obtain ⟨w, part, hvalue, hw⟩ := eq_append_cons_of_mem hdot
    rw [hvalue, splitOnce_of_mem hw, splitOn_append_cons_self_of_not_mem hw]
    show (acceptsWhole w && acceptsFraction part) = _
    rw [acceptsWhole_eq, acceptsFraction_eq]
    by_cases hpart : '.' ∈ part
    · -- a second point is no digit, and makes a third part
      have hfalse : isFraction part = false :=
        Bool.eq_false_iff.mpr fun h => dot_notMem_fraction h hpart
      obtain ⟨v, rest, hrest, hv⟩ := eq_append_cons_of_mem hpart
      rw [hfalse, Bool.and_false, hrest, splitOn_append_cons_self_of_not_mem hv]
      rcases hparts : rest.splitOn '.' with _ | ⟨u, parts⟩
      · exact absurd hparts (splitOn_ne_nil _ _)
      · rfl
    · rw [splitOn_eq_singleton hpart]
  · rw [splitOnce_of_notMem hdot, splitOn_eq_singleton hdot]
    show (acceptsWhole value.toList && true) = _
    rw [acceptsWhole_eq, Bool.and_true]

/-! ## Rows -/

theorem bytes_lt_iff {a b : String} : ¬ asBytes b ≤ asBytes a ↔ a < b := by
  rw [List.not_le, asBytes, asBytes, utf8_lt_iff]
  exact String.lt_iff_toList_lt.symm

/-- One tag of a local edit. -/
def tagAccepted (tag : String) : Bool :=
  1 ≤ tag.toList.length && tag.toList.length ≤ 64 &&
    !(tag.toList.head?.any isWhitespace) && !(tag.toList.getLast?.any isWhitespace) &&
    tag.toList.all (fun c => !isForbiddenTextCharacter c)

theorem tagRefused_eq (tag : String) :
    (tag.toList.isEmpty || decide (64 < tag.toList.length) ||
      trimEnds isWhitespace tag.toList != tag.toList ||
      tag.toList.any isForbiddenTextCharacter) = !tagAccepted tag := by
  have htrim : (trimEnds isWhitespace tag.toList != tag.toList) =
      !(!(tag.toList.head?.any isWhitespace) && !(tag.toList.getLast?.any isWhitespace)) := by
    rw [bne, Bool.eq_iff_iff, not_eq_true', not_eq_true', beq_eq_false_iff_ne, ne_eq,
      trimEnds_eq_self, Bool.and_eq_false_imp]
    simp only [not_eq_true', Bool.not_eq_false', not_and, Bool.not_eq_false]
  rw [← Bool.not_eq_eq_eq_not, Bool.not_or, Bool.not_or, Bool.not_or, isEmpty_eq,
    not_decide_lt, htrim, Bool.not_not, not_any_eq_all_not, tagAccepted]
  simp only [Bool.and_assoc]

/-- A loop that checks each element, and its text against the one before it. -/
def checkAscending {α : Type} (text : α → String) (accepts : α → Bool) :
    Option String → List α → Bool
  | _, [] => true
  | previous, a :: rest =>
    if previous.any (fun prior => decide (asBytes (text a) ≤ asBytes prior)) || !accepts a then
      false
    else checkAscending text accepts (some (text a)) rest

theorem checkAscending_iff {α : Type} {text : α → String} {accepts : α → Bool}
    {previous : Option String} {l : List α} :
    checkAscending text accepts previous l = true ↔
      (∀ a ∈ l, accepts a = true) ∧ (previous.toList ++ l.map text).IsChain (· < ·) := by
  induction l generalizing previous with
  | nil =>
    refine iff_of_true rfl ⟨fun _ h => absurd h not_mem_nil, ?_⟩
    cases previous with
    | none => exact isChain_nil
    | some p => exact isChain_singleton p
  | cons a l ih =>
    have hchain : (previous.toList ++ (a :: l).map text).IsChain (· < ·) ↔
        ¬ previous.any (fun prior => decide (asBytes (text a) ≤ asBytes prior)) = true ∧
          (text a :: l.map text).IsChain (· < ·) := by
      cases previous with
      | none => exact (and_iff_right Bool.false_ne_true).symm
      | some p =>
        rw [Option.toList_some, map_cons, singleton_append, isChain_cons_cons,
          Option.any_some, decide_eq_true_eq, bytes_lt_iff]
    rw [checkAscending, forall_mem_cons, hchain]
    split
    next h =>
      rw [or_eq_true, not_eq_true'] at h
      refine iff_of_false (by decide) fun hgood => ?_
      rcases h with h | h
      · exact hgood.2.1 h
      · exact absurd hgood.1.1 (by rw [h]; decide)
    next h =>
      rw [or_eq_true, not_or, not_eq_true', Bool.not_eq_false] at h
      rw [ih]
      exact ⟨fun hrest => ⟨⟨h.2, hrest.1⟩, h.1, hrest.2⟩, fun hgood => ⟨hgood.1.2, hgood.2.2⟩⟩

/-- The loop checks each tag, and each against the one before it. -/
theorem validateTags_eq (previous : Option String) (tags : List String) :
    validateTags previous tags = checkAscending id tagAccepted previous tags := by
  induction tags generalizing previous with
  | nil => rfl
  | cons tag tags ih =>
    rw [validateTags, checkAscending, ih, tagRefused_eq, Bool.or_comm]
    rfl

theorem refuse_eq (b rest : Bool) : (if b = true then false else rest) = (!b && rest) := by
  cases b <;> rfl

theorem not_any_eq {α : Type} (o : Option α) (p : α → Bool) :
    (!o.any p) = o.all (fun a => !p a) := by
  cases o <;> rfl

/-- A row by itself. -/
theorem validateProjection_eq (row : DomainAssetProjectionRow) :
    validateProjection none [row] = validateDomainAsset row := by
  have htags : validateTags none row.tags = (row.tags.all tagAccepted &&
      decide (row.tags.Pairwise (· < ·))) := by
    rw [Bool.eq_iff_iff, validateTags_eq, checkAscending_iff, map_id, and_eq_true, all_eq_true,
      decide_eq_true_eq, Option.toList_none, nil_append, isChain_iff_pairwise]
  have hlength : ∀ rest : Bool, (if 128 < row.tags.length then false else rest) =
      (decide (row.tags.length ≤ 128) && rest) := by
    intro rest
    rw [← not_decide_lt, ← refuse_eq]
    simp only [decide_eq_true_eq]
  have hprice : ∀ price : Money,
      (validCurrency price.currency && validAmount price.amount) = price.valid := by
    intro price
    rw [validCurrency_eq, validAmount_eq]
    rfl
  show _ = (_ && _ && _ && _ && row.tags.all tagAccepted && _ && _)
  simp only [validateProjection, refuse_eq, hlength, Option.any_none, Bool.not_false, Bool.true_and,
    not_any_eq, Bool.not_not, htags, hprice, validateDomainAssetId_eq, validateIdentifier_eq,
    Bool.not_or, not_decide_lt, not_any_eq_all_not, Bool.and_true, Bool.and_assoc]

/-! ## Timestamps -/

/-- The bytes that are no separators are digits. -/
theorem timestampShape_iff {bytes : List Nat} : timestampShape bytes = true ↔
    ∃ (d : Date) (hour minute second : Nat), (d.year < 10000 ∧ d.month < 100 ∧ d.day < 100 ∧
      hour < 100 ∧ minute < 100 ∧ second < 100) ∧
      bytes = printTime d hour minute second ++ ['Z'.toNat] := by
  constructor
  · intro h
    simp only [timestampShape, and_eq_true, beq_iff_eq] at h
    obtain ⟨⟨⟨⟨⟨⟨⟨hlen, h4⟩, h7⟩, h10⟩, h13⟩, h16⟩, h19⟩, hall⟩ := h
    match bytes, hlen with
    | [y₁, y₂, y₃, y₄, b4, m₁, m₂, b7, d₁, d₂, b10, h₁, h₂, b13, i₁, i₂, b16, s₁, s₂, b19], _ =>
      simp [isSeparator] at h4 h7 h10 h13 h16 h19 hall
      obtain ⟨hy₁, hy₂, hy₃, hy₄, hm₁, hm₂, hd₁, hd₂, hh₁, hh₂, hi₁, hi₂, hs₁, hs₂⟩ := hall
      refine ⟨⟨num4 y₁ y₂ y₃ y₄, num2 m₁ m₂, num2 d₁ d₂⟩, num2 h₁ h₂, num2 i₁ i₂, num2 s₁ s₂,
        by simp only [num4, num2]; omega, ?_⟩
      rw [printTime, pad4_num4 hy₁ hy₂ hy₃ hy₄, pad2_num2 hm₁ hm₂, pad2_num2 hd₁ hd₂,
        pad2_num2 hh₁ hh₂, pad2_num2 hi₁ hi₂, pad2_num2 hs₁ hs₂, h4, h7, h10, h13, h16, h19]
      rfl
  · rintro ⟨d, hour, minute, second, -, rfl⟩
    simp [timestampShape, isSeparator, printTime, pad4, pad2]
    omega

theorem maxDay_eq (year month : Nat) : maxDay year month = Date.daysInMonth year month := rfl

/-- The numbers of a text are those that were printed. -/
theorem realTime_printed {d : Date} {hour minute second x : Nat} (hyear : d.year < 10000)
    (hmonth : d.month < 100) (hday : d.day < 100) (hhour : hour < 100) (hminute : minute < 100)
    (hsecond : second < 100) : realTime (printTime d hour minute second ++ [x]) = true ↔
      d.Real ∧ hour < 24 ∧ minute < 60 ∧ second < 60 := by
  have hy : number (printTime d hour minute second ++ [x]) 0 4 = d.year := by
    simp [number, printTime, pad4, pad2]
    omega
  have hm : number (printTime d hour minute second ++ [x]) 5 7 = d.month := by
    simp [number, printTime, pad4, pad2]
    omega
  have hd : number (printTime d hour minute second ++ [x]) 8 10 = d.day := by
    simp [number, printTime, pad4, pad2]
    omega
  have hh : number (printTime d hour minute second ++ [x]) 11 13 = hour := by
    simp [number, printTime, pad4, pad2]
    omega
  have hi : number (printTime d hour minute second ++ [x]) 14 16 = minute := by
    simp [number, printTime, pad4, pad2]
    omega
  have hs : number (printTime d hour minute second ++ [x]) 17 19 = second := by
    simp [number, printTime, pad4, pad2]
    omega
  have hmonths : 1 ≤ d.day ∧ d.day ≤ Date.daysInMonth d.year d.month ↔ d.Real := by
    refine ⟨fun h => ⟨?_, ?_, h⟩, fun h => h.2.2⟩
    · refine Nat.pos_of_ne_zero fun hzero => ?_
      rw [hzero] at h
      exact absurd (h.1.trans h.2) (by simp [Date.daysInMonth])
    · refine Nat.le_of_not_lt fun hlarge => ?_
      have hnone : Date.daysInMonth d.year d.month = 0 := by
        unfold Date.daysInMonth
        split <;> first | rfl | omega
      omega
  simp only [realTime, hy, hm, hd, hh, hi, hs, maxDay_eq, ← hmonths, not_eq_true',
    Bool.or_eq_false_iff, beq_eq_false_iff_ne, decide_eq_false_iff_not]
  omega

/-- The texts of `validate_timestamp` are those of the seconds before the year 10000. -/
theorem validateTimestamp_iff {value : String} :
    validateTimestamp value = true ↔ ∃ t < secondLimit, value = timestampText t := by
  have hbytes : ∀ t, byteNumbers value = isoSeconds t ++ ['Z'.toNat] ↔ value = timestampText t := by
    intro t
    constructor
    · intro h
      have hascii : ∀ b ∈ asBytes value, b.toNat < 0x80 := fun b hb =>
        isoSeconds_lt t _ (h ▸ mem_map_of_mem hb)
      rw [byteNumbers, asBytes, toNat_utf8_ascii (ascii_of_utf8 hascii), ← toNat_timestampText] at h
      exact String.toList_inj.mp ((List.map_inj_right fun _ _ => Char.toNat_inj.mp).mp h)
    · rintro rfl
      have hascii : ∀ c ∈ (timestampText t).toList, c.toNat < 0x80 := fun c hc =>
        isoSeconds_lt t _ (toNat_timestampText t ▸ mem_map_of_mem hc)
      rw [byteNumbers, asBytes, toNat_utf8_ascii hascii, toNat_timestampText]
  simp only [← hbytes]
  rw [validateTimestamp, and_eq_true, timestampShape_iff]
  constructor
  · rintro ⟨⟨d, hour, minute, second, ⟨hy, hm, hd, hh, hi, hs⟩, hprint⟩, hreal⟩
    rw [hprint, realTime_printed hy hm hd hh hi hs] at hreal
    obtain ⟨hdate, hhour, hminute, hsecond⟩ := hreal
    have hrange : InRange d hour minute second :=
      ⟨hy, ⟨hdate.1, hdate.2.1⟩, ⟨hdate.2.2.1, hdate.2.2.2.trans (daysInMonth_le _ _)⟩, hhour,
        hminute, hsecond⟩
    refine ⟨secondOf d hour minute second, secondOf_lt hrange, ?_⟩
    rw [hprint, isoSeconds_secondOf hrange, Date.ofDayNumber_dayNumber.mpr hdate]
  · rintro ⟨t, ht, hprint⟩
    have hrange := inRange_isoSeconds ht
    have hm := hrange.month
    have hd := hrange.day
    have hh := hrange.hour
    have hi := hrange.minute
    have hs := hrange.second
    rw [isoSeconds] at hprint
    refine ⟨⟨_, _, _, _, ⟨hrange.year, by omega, by omega, by omega, by omega, by omega⟩, hprint⟩,
      ?_⟩
    rw [hprint, realTime_printed hrange.year (by omega) (by omega) (by omega) (by omega) (by omega)]
    exact ⟨Date.real_ofDayNumber _, hh, hi, hs⟩

end GoodDealer.Desktop
