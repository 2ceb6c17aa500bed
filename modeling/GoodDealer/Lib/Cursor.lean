/-
# `GoodDealer.Lib.Cursor` — reading binary records

A reader takes a value off the front of a byte string, or fails.  `Reads r w` says that
`r` takes off what `w` writes, whatever follows, and nothing else: a record that is read
field by field is then known in both directions from the writers of its fields
(`Reads.bind`).

Numbers are written most significant byte first, in a fixed number of bytes.
-/
import GoodDealer.Lib.Bytes

namespace GoodDealer

open List

/-- A byte string of a fixed length. -/
abbrev Block (n : Nat) := { b : Bytes // b.length = n }

namespace Bytes

/-! ## Big-endian numbers -/

/-- The last `w` bytes of a number, most significant first. -/
def bigEndian : Nat → Nat → Bytes
  | 0, _ => []
  | w + 1, n => UInt8.ofNat (n / 256 ^ w) :: bigEndian w n

def ofBigEndian : Bytes → Nat
  | [] => 0
  | b :: bs => b.toNat * 256 ^ bs.length + ofBigEndian bs

@[simp] theorem length_bigEndian (w n : Nat) : (bigEndian w n).length = w := by
  induction w with
  | zero => rfl
  | succ w ih => rw [bigEndian, length_cons, ih]

theorem ofBigEndian_lt (bs : Bytes) : ofBigEndian bs < 256 ^ bs.length := by
  induction bs with
  | nil => exact Nat.one_pos
  | cons b bs ih =>
    have hb : b.toNat + 1 ≤ 256 := b.toNat_lt
    calc b.toNat * 256 ^ bs.length + ofBigEndian bs
        < b.toNat * 256 ^ bs.length + 256 ^ bs.length := by omega
      _ = (b.toNat + 1) * 256 ^ bs.length := (Nat.succ_mul _ _).symm
      _ ≤ 256 * 256 ^ bs.length := Nat.mul_le_mul_right _ hb
      _ = 256 ^ (bs.length + 1) := by rw [Nat.pow_succ, Nat.mul_comm]

theorem ofBigEndian_bigEndian (w n : Nat) : ofBigEndian (bigEndian w n) = n % 256 ^ w := by
  induction w with
  | zero => rw [Nat.pow_zero, Nat.mod_one]; rfl
  | succ w ih =>
    rw [bigEndian, ofBigEndian, ih, length_bigEndian, UInt8.toNat_ofNat',
      show 256 ^ (w + 1) = 256 ^ w * 256 from Nat.pow_succ _ _, Nat.mod_mul, Nat.mul_comm,
        Nat.add_comm]

/-- The bytes above the width do not count. -/
theorem bigEndian_add_mul (w a n : Nat) : bigEndian w (a * 256 ^ w + n) = bigEndian w n := by
  induction w generalizing a with
  | zero => rfl
  | succ w ih =>
    have hsplit : a * 256 ^ (w + 1) + n = a * 256 * 256 ^ w + n := by
      rw [Nat.pow_succ, Nat.mul_assoc, Nat.mul_comm (256 ^ w)]
    have hdigit : UInt8.ofNat ((a * 256 * 256 ^ w + n) / 256 ^ w) = UInt8.ofNat (n / 256 ^ w) := by
      rw [Nat.mul_comm, Nat.mul_add_div (Nat.pow_pos (by decide)), ← UInt8.toNat_inj,
        UInt8.toNat_ofNat', UInt8.toNat_ofNat', Nat.mul_comm a]
      exact Nat.mul_add_mod _ _ _
    rw [bigEndian, bigEndian, hsplit, hdigit, ih]

theorem bigEndian_ofBigEndian (bs : Bytes) : bigEndian bs.length (ofBigEndian bs) = bs := by
  induction bs with
  | nil => rfl
  | cons b bs ih =>
    have hdigit : (b.toNat * 256 ^ bs.length + ofBigEndian bs) / 256 ^ bs.length = b.toNat := by
      rw [Nat.mul_comm, Nat.mul_add_div (Nat.pow_pos (by decide)),
        Nat.div_eq_of_lt (ofBigEndian_lt bs), Nat.add_zero]
    rw [length_cons, bigEndian, ofBigEndian, hdigit, UInt8.ofNat_toNat, bigEndian_add_mul, ih]

end Bytes

open Bytes

/-! ## Readers -/

/-- Takes a value off the front. -/
abbrev Reader (α : Type) := StateT Bytes Option α

namespace Reader

variable {α β : Type}

/-- A byte string of length `n`. -/
def block (n : Nat) : Reader (Block n) := fun bs =>
  if h : n ≤ bs.length then some (⟨bs.take n, length_take_of_le h⟩, bs.drop n) else none

/-- A number in `w` bytes. -/
def number (w : Nat) : Reader Nat := fun bs =>
  (block w bs).map fun (b, rest) => (ofBigEndian b.val, rest)

/-- A number of a machine type of `w` bytes. -/
def word {α : Type} (w : Nat) (ofNat : Nat → α) : Reader α := fun bs =>
  (number w bs).map fun (n, rest) => (ofNat n, rest)

def uint32 : Reader UInt32 := word 4 UInt32.ofNat

def uint64 : Reader UInt64 := word 8 UInt64.ofNat

/-- Goes on only if the check passes. -/
def require (check : Bool) : Reader Unit := fun bs => if check then some ((), bs) else none

/-- A number that has to be this one. -/
def literal (w n : Nat) : Reader Unit := number w >>= fun found => require (found == n)

/-- The value of a record that takes up all bytes. -/
def whole (r : Reader α) (bs : Bytes) : Option α :=
  match r bs with
  | some (x, []) => some x
  | _ => none

variable {bs rest : Bytes} {y : β} {f : α → Reader β} {r : Reader α}

theorem bind_eq_some :
    (r >>= f) bs = some (y, rest) ↔ ∃ x mid, r bs = some (x, mid) ∧ f x mid = some (y, rest) := by
  rw [show (r >>= f) bs = (r bs).bind fun p => f p.1 p.2 from rfl, Option.bind_eq_some_iff,
    Prod.exists]

theorem pure_eq_some {x y : α} : (pure x : Reader α) bs = some (y, rest) ↔ x = y ∧ bs = rest := by
  rw [show (pure x : Reader α) bs = some (x, bs) from rfl, Option.some.injEq, Prod.mk.injEq]

theorem require_bind_eq_some {check : Bool} {f : Unit → Reader β} :
    (require check >>= f) bs = some (y, rest) ↔ check = true ∧ f () bs = some (y, rest) := by
  rw [bind_eq_some]
  unfold require
  constructor
  · rintro ⟨_, mid, h, hf⟩
    split at h
    next hcheck =>
      cases h
      exact ⟨hcheck, hf⟩
    next => cases h
  · rintro ⟨hcheck, hf⟩
    exact ⟨(), bs, if_pos hcheck, hf⟩

theorem lift_bind_eq_some {o : Option α} :
    (StateT.lift o >>= f) bs = some (y, rest) ↔ ∃ x, o = some x ∧ f x bs = some (y, rest) := by
  rw [bind_eq_some]
  constructor
  · rintro ⟨x, mid, hx, hf⟩
    obtain ⟨x', hx', heq⟩ := Option.bind_eq_some_iff.mp hx
    cases heq
    exact ⟨x, hx', hf⟩
  · rintro ⟨x, hx, hf⟩
    exact ⟨x, bs, Option.bind_eq_some_iff.mpr ⟨x, hx, rfl⟩, hf⟩

theorem whole_eq_some {x : α} : whole r bs = some x ↔ r bs = some (x, []) := by
  unfold whole
  constructor
  · intro h
    split at h
    next heq =>
      cases h
      exact heq
    next => cases h
  · intro h
    rw [h]

end Reader

/-- The reader takes off what the writer writes. -/
def Reads {α : Type} (r : Reader α) (w : α → Bytes) : Prop :=
  ∀ bs x rest, r bs = some (x, rest) ↔ bs = w x ++ rest

namespace Reads

variable {α β : Type} {r : Reader α} {w : α → Bytes}

theorem read (h : Reads r w) (x : α) (rest : Bytes) : r (w x ++ rest) = some (x, rest) :=
  (h _ _ _).mpr rfl

/-- A field, then the rest of the record. -/
theorem bind (h : Reads r w) {f : α → Reader β} {bs rest : Bytes} {y : β} :
    (r >>= f) bs = some (y, rest) ↔ ∃ x mid, bs = w x ++ mid ∧ f x mid = some (y, rest) := by
  rw [Reader.bind_eq_some]
  exact exists₂_congr fun x mid => and_congr_left' (h bs x mid)

end Reads

namespace Reader

theorem reads_block (n : Nat) : Reads (block n) Subtype.val := by
  intro bs x rest
  unfold block
  constructor
  · intro h
    split at h
    next =>
      cases h
      exact (take_append_drop n bs).symm
    next => cases h
  · rintro rfl
    have hlength : n ≤ (x.val ++ rest).length := by
      rw [length_append, x.property]
      exact Nat.le_add_right _ _
    rw [dif_pos hlength, Option.some.injEq, Prod.mk.injEq]
    exact ⟨Subtype.ext (take_left' x.property), drop_left' x.property⟩

variable {w : Nat}

variable {bs rest : Bytes}

/-- A number is read from its bytes. -/
theorem number_eq_some {n : Nat} :
    number w bs = some (n, rest) ↔ n < 256 ^ w ∧ bs = bigEndian w n ++ rest := by
  unfold number
  rw [Option.map_eq_some_iff]
  constructor
  · rintro ⟨⟨b, mid⟩, hb, heq⟩
    cases heq
    rw [(reads_block w _ _ _).mp hb]
    have hlt := ofBigEndian_lt b.val
    have hbytes := bigEndian_ofBigEndian b.val
    rw [b.property] at hlt hbytes
    exact ⟨hlt, by rw [hbytes]⟩
  · rintro ⟨hlt, rfl⟩
    have hread := (reads_block w).read ⟨bigEndian w n, length_bigEndian w n⟩ rest
    have hvalue : ofBigEndian (bigEndian w n) = n := by
      rw [ofBigEndian_bigEndian, Nat.mod_eq_of_lt hlt]
    exact ⟨_, hread, Prod.ext hvalue rfl⟩

theorem number_bind_eq_some {β : Type} {f : Nat → Reader β} {y : β} :
    (number w >>= f) bs = some (y, rest) ↔
      ∃ n mid, n < 256 ^ w ∧ bs = bigEndian w n ++ mid ∧ f n mid = some (y, rest) := by
  rw [bind_eq_some]
  refine exists₂_congr fun n mid => ?_
  rw [number_eq_some, and_assoc]

theorem literal_bind_eq_some {β : Type} {n : Nat} (hn : n < 256 ^ w) {f : Unit → Reader β}
    {y : β} : (literal w n >>= f) bs = some (y, rest) ↔
      ∃ mid, bs = bigEndian w n ++ mid ∧ f () mid = some (y, rest) := by
  rw [literal, bind_assoc, number_bind_eq_some]
  constructor
  · rintro ⟨_, mid, -, rfl, h⟩
    obtain ⟨hfound, h⟩ := require_bind_eq_some.mp h
    exact ⟨mid, by rw [beq_iff_eq.mp hfound], h⟩
  · rintro ⟨mid, rfl, h⟩
    exact ⟨n, mid, hn, rfl, require_bind_eq_some.mpr ⟨beq_self_eq_true n, h⟩⟩

theorem reads_word {α : Type} {ofNat : Nat → α} {toNat : α → Nat}
    (hlt : ∀ x, toNat x < 256 ^ w) (hto : ∀ n, n < 256 ^ w → toNat (ofNat n) = n)
    (hof : ∀ x, ofNat (toNat x) = x) : Reads (word w ofNat) (fun x => bigEndian w (toNat x)) := by
  intro bs x rest
  unfold word
  rw [Option.map_eq_some_iff]
  constructor
  · rintro ⟨⟨n, mid⟩, hn, heq⟩
    cases heq
    obtain ⟨hbound, rfl⟩ := number_eq_some.mp hn
    exact congrArg (bigEndian w · ++ rest) (hto n hbound).symm
  · rintro rfl
    exact ⟨(toNat x, rest), number_eq_some.mpr ⟨hlt x, rfl⟩, Prod.ext (hof x) rfl⟩

theorem reads_uint32 : Reads uint32 (fun n => bigEndian 4 n.toNat) :=
  reads_word UInt32.toNat_lt (fun _ => UInt32.toNat_ofNat_of_lt') (fun _ => UInt32.ofNat_toNat)

theorem reads_uint64 : Reads uint64 (fun n => bigEndian 8 n.toNat) :=
  reads_word UInt64.toNat_lt (fun _ => UInt64.toNat_ofNat_of_lt') (fun _ => UInt64.ofNat_toNat)

end Reader

end GoodDealer
