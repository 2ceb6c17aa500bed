/-
# `GoodDealer.Lib.Framing` — tagged, length-delimited encodings of JSON values

A frame is a tag, the length of its payload in decimal, a colon, and the payload.
What follows a frame cannot be mistaken for a part of it (`frame_append_inj`).

`encode order text` writes a value as nested frames: texts as `text` gives their
bytes, the entries of an object in the order of their keys.  The bytes are those of
the value with its texts encoded and its keys sorted (`encode_eq`), and of no other
such value (`write_inj`); none is a proper initial part of another
(`write_append_inj`).
-/
import GoodDealer.Lib.Json
import GoodDealer.Lib.Unicode

namespace GoodDealer.Framing

open List

open Unicode (utf8 utf8_inj utf8EncodeChar_ascii)

def byte (c : Char) : UInt8 := UInt8.ofNat c.toNat

/-- A number in decimal. -/
def decimal (n : Nat) : Bytes := utf8 (Nat.toDigits 10 n)

def frame (tag : Char) (payload : Bytes) : Bytes :=
  byte tag :: (decimal payload.length ++ byte ':' :: payload)

theorem decimal_inj {m n : Nat} (h : decimal m = decimal n) : m = n := by
  have h := utf8_inj h
  rw [← @Nat.ofDigitChars_ten_toDigits m, h, Nat.ofDigitChars_ten_toDigits]

/-- The bytes of decimal digits. -/
theorem mem_decimal {n : Nat} {b : UInt8} (h : b ∈ decimal n) : 48 ≤ b.toNat ∧ b.toNat ≤ 57 := by
  obtain ⟨c, hc, hb⟩ := mem_flatMap.mp h
  have hdigit := Nat.isDigit_of_mem_toDigits (by decide) (by decide) hc
  have hrange : 48 ≤ c.toNat ∧ c.toNat ≤ 57 := by
    simp only [Char.isDigit, Bool.and_eq_true, decide_eq_true_eq] at hdigit
    exact hdigit
  rw [utf8EncodeChar_ascii (by omega), mem_singleton] at hb
  rw [hb, UInt8.toNat_ofNat']
  omega

theorem colon_notMem_decimal (n : Nat) : byte ':' ∉ decimal n := by
  intro h
  have h := mem_decimal h
  have hcolon : (byte ':').toNat = 58 := by decide
  omega

/-- A frame ends where its length says. -/
theorem frame_append_inj {a b : Char} {p q s t : Bytes}
    (h : frame a p ++ s = frame b q ++ t) : byte a = byte b ∧ p = q ∧ s = t := by
  simp only [frame, cons_append, append_assoc, List.cons.injEq] at h
  obtain ⟨htag, h⟩ := h
  -- the colon after the digits is the first one
  have hsplit : ∀ {l l' r r' : Bytes}, byte ':' ∉ l → byte ':' ∉ l' →
      l ++ byte ':' :: r = l' ++ byte ':' :: r' → l = l' ∧ r = r' := by
    intro l
    induction l with
    | nil =>
      intro l' r r' _ hl' heq
      cases l' with
      | nil => exact ⟨rfl, (List.cons.inj heq).2⟩
      | cons x l' => exact absurd (List.cons.inj heq).1 fun hx => hl' (by simp [hx])
    | cons x l ih =>
      intro l' r r' hl hl' heq
      cases l' with
      | nil => exact absurd (List.cons.inj heq).1 fun hx => hl (by simp [hx])
      | cons y l' =>
        obtain ⟨rfl, htail⟩ := List.cons.inj heq
        obtain ⟨rfl, hr⟩ := ih (fun hm => hl (mem_cons_of_mem _ hm))
          (fun hm => hl' (mem_cons_of_mem _ hm)) htail
        exact ⟨rfl, hr⟩
  obtain ⟨hlen, hrest⟩ := hsplit (colon_notMem_decimal _) (colon_notMem_decimal _) h
  obtain ⟨hp, hs⟩ := append_inj hrest (decimal_inj hlen)
  exact ⟨htag, hp, hs⟩

theorem frame_inj {a b : Char} {p q : Bytes} (h : frame a p = frame b q) :
    byte a = byte b ∧ p = q := by
  have h : frame a p ++ [] = frame b q ++ [] := by rw [h]
  exact ⟨(frame_append_inj h).1, (frame_append_inj h).2.1⟩

theorem frame_ne_nil (tag : Char) (p : Bytes) : frame tag p ≠ [] := cons_ne_nil _ _

/-! ## Values -/

/-- The text of an integer. -/
def integerText : Int → List Char
  | .ofNat n => Nat.toDigits 10 n
  | .negSucc n => '-' :: Nat.toDigits 10 (n + 1)

mutual

/-- A value whose texts are bytes, with its entries as they stand. -/
def write : Json Bytes → Bytes
  | .null => [byte 'z', byte '0', byte ':']
  | .bool b => [byte 'b', byte '1', byte ':', byte (if b then '1' else '0')]
  | .number n => frame 'n' (utf8 (integerText n))
  | .string s => frame 's' s
  | .array vs => frame 'a' (writeItems vs)
  | .object es => frame 'o' (writeEntries es)

def writeItems : List (Json Bytes) → Bytes
  | [] => []
  | v :: vs => frame 'e' (write v) ++ writeItems vs

def writeEntries : List (String × Json Bytes) → Bytes
  | [] => []
  | (k, v) :: es =>
    frame 'e' (frame 'k' (utf8 k.toList) ++ frame 'v' (write v)) ++ writeEntries es

end

variable {σ κ : Type} [LE κ] [DecidableLE κ]

mutual

/-- The canonical bytes of a value: entries in key order. -/
def encode (order : String → κ) (text : σ → Bytes) : Json σ → Bytes
  | .null => [byte 'z', byte '0', byte ':']
  | .bool b => [byte 'b', byte '1', byte ':', byte (if b then '1' else '0')]
  | .number n => frame 'n' (utf8 (integerText n))
  | .string s => frame 's' (text s)
  | .array vs => frame 'a' (encodeItems order text vs)
  | .object es =>
    frame 'o' ((Keyed.sortByKey (fun e => order e.1) (encodeEntries order text es)).flatMap
      fun e => frame 'e' (frame 'k' (utf8 e.1.toList) ++ frame 'v' e.2))

def encodeItems (order : String → κ) (text : σ → Bytes) : List (Json σ) → Bytes
  | [] => []
  | v :: vs => frame 'e' (encode order text v) ++ encodeItems order text vs

/-- The keys with the bytes of their values. -/
def encodeEntries (order : String → κ) (text : σ → Bytes) :
    List (String × Json σ) → List (String × Bytes)
  | [] => []
  | (k, v) :: es => (k, encode order text v) :: encodeEntries order text es

end

theorem integerText_inj {m n : Int} (h : integerText m = integerText n) : m = n := by
  have hminus : ∀ k, '-' ∉ Nat.toDigits 10 k := by
    intro k hk
    have := Nat.isDigit_of_mem_toDigits (by decide) (by decide) hk
    revert this
    decide
  have hdigits : ∀ {j k : Nat}, Nat.toDigits 10 j = Nat.toDigits 10 k → j = k := by
    intro j k hjk
    rw [← @Nat.ofDigitChars_ten_toDigits j, hjk, Nat.ofDigitChars_ten_toDigits]
  cases m with
  | ofNat m =>
    cases n with
    | ofNat n => rw [hdigits h]
    | negSucc n =>
      have hm : Nat.toDigits 10 m = '-' :: Nat.toDigits 10 (n + 1) := h
      exact absurd (hm ▸ mem_cons_self) (hminus m)
  | negSucc m =>
    cases n with
    | ofNat n =>
      have hn : Nat.toDigits 10 n = '-' :: Nat.toDigits 10 (m + 1) := h.symm
      exact absurd (hn ▸ mem_cons_self) (hminus n)
    | negSucc n =>
      have := hdigits (List.cons.inj h).2
      rw [Nat.succ_injective this]

/-! ## One value for each encoding -/

/-- The tag of a value. -/
def tagOf : Json Bytes → Char
  | .null => 'z'
  | .bool _ => 'b'
  | .number _ => 'n'
  | .string _ => 's'
  | .array _ => 'a'
  | .object _ => 'o'

/-- What stands after the colon. -/
def payload : Json Bytes → Bytes
  | .null => []
  | .bool b => [byte (if b then '1' else '0')]
  | .number n => utf8 (integerText n)
  | .string s => s
  | .array vs => writeItems vs
  | .object es => writeEntries es

theorem write_eq_frame (v : Json Bytes) : write v = frame (tagOf v) (payload v) := by
  cases v with
  | null => rw [write]; decide
  | bool b => rw [write]; cases b <;> decide
  | number | string | array | object => rw [write]; rfl

/-- No encoding is a proper initial part of another one. -/
theorem write_append_inj {v w : Json Bytes} {s t : Bytes} (h : write v ++ s = write w ++ t) :
    write v = write w ∧ s = t := by
  simp only [write_eq_frame] at h ⊢
  obtain ⟨htag, hp, hs⟩ := frame_append_inj h
  refine ⟨?_, hs⟩
  rw [hp, frame, frame, htag]

/-- The tags are six different bytes. -/
theorem tagOf_inj {v w : Json Bytes} (h : byte (tagOf v) = byte (tagOf w)) : tagOf v = tagOf w := by
  cases v <;> cases w <;> first | rfl | (revert h; simp only [tagOf]; decide)

mutual

theorem write_inj : ∀ (v w : Json Bytes), write v = write w → v = w := by
  intro v w h
  simp only [write_eq_frame] at h
  obtain ⟨htag, hp⟩ := frame_inj h
  have htag := tagOf_inj htag
  cases v with
  | null =>
    cases w with
    | null => rfl
    | _ => simp [tagOf] at htag
  | bool b =>
    cases w with
    | bool b' =>
      simp only [payload, List.cons.injEq, and_true] at hp
      cases b <;> cases b' <;> first | rfl | exact absurd hp (by decide)
    | _ => simp [tagOf] at htag
  | number n =>
    cases w with
    | number m => rw [integerText_inj (utf8_inj hp)]
    | _ => simp [tagOf] at htag
  | string s =>
    cases w with
    | string s' => rw [show s = s' from hp]
    | _ => simp [tagOf] at htag
  | array vs =>
    cases w with
    | array ws => rw [writeItems_inj vs ws hp]
    | _ => simp [tagOf] at htag
  | object es =>
    cases w with
    | object es' => rw [writeEntries_inj es es' hp]
    | _ => simp [tagOf] at htag

theorem writeItems_inj :
    ∀ (vs ws : List (Json Bytes)), writeItems vs = writeItems ws → vs = ws := by
  intro vs ws h
  match vs, ws with
  | [], [] => rfl
  | [], w :: ws => exact absurd (append_eq_nil_iff.mp h.symm).1 (frame_ne_nil _ _)
  | v :: vs, [] => exact absurd (append_eq_nil_iff.mp h).1 (frame_ne_nil _ _)
  | v :: vs, w :: ws =>
    obtain ⟨-, hv, hvs⟩ := frame_append_inj h
    rw [write_inj v w hv, writeItems_inj vs ws hvs]

theorem writeEntries_inj : ∀ (es es' : List (String × Json Bytes)),
    writeEntries es = writeEntries es' → es = es' := by
  intro es es' h
  match es, es' with
  | [], [] => rfl
  | [], (k, v) :: es => exact absurd (append_eq_nil_iff.mp h.symm).1 (frame_ne_nil _ _)
  | (k, v) :: es, [] => exact absurd (append_eq_nil_iff.mp h).1 (frame_ne_nil _ _)
  | (k, v) :: es, (k', v') :: es' =>
    obtain ⟨-, hentry, hes⟩ := frame_append_inj h
    obtain ⟨-, hk, hv⟩ := frame_append_inj hentry
    obtain ⟨-, hv⟩ := frame_inj hv
    rw [String.toList_injective (utf8_inj hk), write_inj v v' hv, writeEntries_inj es es' hes]

end

/-! ## The canonical value -/

theorem writeEntries_eq (es : List (String × Json Bytes)) : writeEntries es =
    (es.map (fun e => (e.1, write e.2))).flatMap
      fun e => frame 'e' (frame 'k' (utf8 e.1.toList) ++ frame 'v' e.2) := by
  induction es with
  | nil => rfl
  | cons e es ih => rw [writeEntries, ih, map_cons, flatMap_cons]

mutual

/-- The bytes of a value are those of its canonical form. -/
theorem encode_eq (order : String → κ) (text : σ → Bytes) :
    ∀ v : Json σ, encode order text v = write ((v.map text).sortKeys order) := by
  intro v
  cases v with
  | null | bool b | number n | string s => rfl
  | array vs => rw [encode, Json.map, Json.sortKeys, write, encodeItems_eq order text vs]
  | object es =>
    rw [encode, Json.map, Json.sortKeys, write,
      writeEntries_eq, ← Json.sortByKey_values order write, encodeEntries_eq order text es]

theorem encodeItems_eq (order : String → κ) (text : σ → Bytes) : ∀ vs : List (Json σ),
    encodeItems order text vs = writeItems (Json.sortItems order (Json.mapItems text vs)) := by
  intro vs
  match vs with
  | [] => rfl
  | v :: vs =>
    rw [encodeItems, Json.mapItems, Json.sortItems, writeItems, encode_eq order text v,
      encodeItems_eq order text vs]

theorem encodeEntries_eq (order : String → κ) (text : σ → Bytes) : ∀ es : List (String × Json σ),
    encodeEntries order text es =
      (Json.sortEntries order (Json.mapEntries text es)).map fun e => (e.1, write e.2) := by
  intro es
  match es with
  | [] => rfl
  | (k, v) :: es =>
    rw [encodeEntries, Json.mapEntries, Json.sortEntries, map_cons,
      encode_eq order text v, encodeEntries_eq order text es]

end

end GoodDealer.Framing
