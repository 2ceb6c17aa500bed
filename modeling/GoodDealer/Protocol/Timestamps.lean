/-
# `GoodDealer.Protocol.Timestamps` — the text of a UTC second

`canonicalUtcTimestamp` tests a text with a regular expression and then sends it
through `Date`: it must come back as it was.  The expression admits 31 days in every
month; a day past the end of its month is counted into the next one, and comes back
as another text.  So the texts that pass are those of the seconds of the years 0 to
9999 (`canonicalUtcTimestamp_iff`), one for each; they stand for the numbers that
`Timestamp` counts.
-/
import GoodDealer.Lib.Calendar
import GoodDealer.Protocol.Mutation
import GoodDealer.Protocol.Patterns

namespace GoodDealer.Schemas

open Unicode Regex List

/-! ## Printing -/

/-- Two digits. -/
def pad2 (n : Nat) : List Nat := [48 + n / 10 % 10, 48 + n % 10]

/-- Four digits. -/
def pad4 (n : Nat) : List Nat :=
  [48 + n / 1000 % 10, 48 + n / 100 % 10, 48 + n / 10 % 10, 48 + n % 10]

/-- `YYYY-MM-DDTHH:mm:ss`. -/
def printTime (d : Date) (hour minute second : Nat) : List Nat :=
  pad4 d.year ++ '-'.toNat :: (pad2 d.month ++ '-'.toNat :: (pad2 d.day ++ 'T'.toNat ::
    (pad2 hour ++ ':'.toNat :: (pad2 minute ++ ':'.toNat :: pad2 second))))

/-- The second of a date and a time of day. -/
def secondOf (d : Date) (hour minute second : Nat) : Nat :=
  d.dayNumber * 86400 + hour * 3600 + minute * 60 + second

/-- A second of the years 0 to 9999, as `toISOString` prints it, without the fraction. -/
def isoSeconds (t : Nat) : List Nat :=
  printTime (Date.ofDayNumber (t / 86400)) (t % 86400 / 3600) (t % 3600 / 60) (t % 60)

/-! ## The schema -/

/-- `(0[1-9]|1[0-2])`. -/
def monthPattern : Regex Nat :=
  alt (seq (char '0') (range '1' '9')) (seq (char '1') (range '0' '2'))

/-- `(0[1-9]|[12]\d|3[01])`. -/
def dayPattern : Regex Nat :=
  alt (seq (char '0') (range '1' '9'))
    (alt (seq (range '1' '2') digit) (seq (char '3') (range '0' '1')))

/-- `([01]\d|2[0-3])`. -/
def hourPattern : Regex Nat := alt (seq (range '0' '1') digit) (seq (char '2') (range '0' '3'))

/-- `[0-5]\d`. -/
def sixtyPattern : Regex Nat := seq (range '0' '5') digit

def timestampPattern : Regex Nat :=
  seq (digit.exactly 4) (seq (char '-') (seq monthPattern (seq (char '-') (seq dayPattern
    (seq (char 'T') (seq hourPattern (seq (char ':') (seq sixtyPattern (seq (char ':')
      (seq sixtyPattern (char 'Z')))))))))))

def num2 (a b : Nat) : Nat := 10 * (a - 48) + (b - 48)

def num4 (a b c d : Nat) : Nat := 1000 * (a - 48) + 100 * (b - 48) + 10 * (c - 48) + (d - 48)

/-- `Date.parse` of a text that passed the expression, in seconds; a day past the end of
its month is counted on. -/
def dateParse : List Nat → Option Nat
  | [y₁, y₂, y₃, y₄, _, m₁, m₂, _, d₁, d₂, _, h₁, h₂, _, i₁, i₂, _, s₁, s₂, _] =>
    some (secondOf ⟨num4 y₁ y₂ y₃ y₄, num2 m₁ m₂, num2 d₁ d₂⟩ (num2 h₁ h₂) (num2 i₁ i₂)
      (num2 s₁ s₂))
  | _ => none

/-- `.000Z`. -/
def milliseconds : List Nat := [46, 48, 48, 48, 90]

/-- `canonicalUtcTimestamp`. -/
def canonicalUtcTimestamp (us : JsString) : Bool :=
  test timestampPattern us &&
    match dateParse (us.map UInt16.toNat) with
    | some t => isoSeconds t ++ milliseconds == (us.map UInt16.toNat).dropLast ++ milliseconds
    | none => false

/-! ## What the expression admits -/

variable {w : List Nat} {hour minute second n : Nat} {d : Date}

theorem mem_two {p q : Nat → Bool} : w ∈ (seq (cls p) (cls q)).language ↔
    ∃ a b, w = [a, b] ∧ p a = true ∧ q b = true := by
  rw [mem_cls_seq]
  constructor
  · rintro ⟨a, v, rfl, ha, b, rfl, hb⟩
    exact ⟨a, b, rfl, ha, hb⟩
  · rintro ⟨a, b, rfl, ha, hb⟩
    exact ⟨a, [b], rfl, ha, b, rfl, hb⟩

theorem pad2_num2 {a b : Nat} (ha : 48 ≤ a ∧ a ≤ 57) (hb : 48 ≤ b ∧ b ≤ 57) :
    pad2 (num2 a b) = [a, b] := by
  simp only [pad2, num2, List.cons.injEq, and_true]
  omega

theorem pad4_num4 {a b c d : Nat} (ha : 48 ≤ a ∧ a ≤ 57) (hb : 48 ≤ b ∧ b ≤ 57)
    (hc : 48 ≤ c ∧ c ≤ 57) (hd : 48 ≤ d ∧ d ≤ 57) : pad4 (num4 a b c d) = [a, b, c, d] := by
  simp only [pad4, num4, List.cons.injEq, and_true]
  omega

/-- Two digits are the text of their number. -/
theorem pair_iff {p : Nat → Nat → Prop} {q : Nat → Prop}
    (hnum : ∀ a b, p a b → (48 ≤ a ∧ a ≤ 57) ∧ (48 ≤ b ∧ b ≤ 57) ∧ q (num2 a b))
    (hpad : ∀ n, q n → p (48 + n / 10 % 10) (48 + n % 10)) :
    (∃ a b, w = [a, b] ∧ p a b) ↔ ∃ n, q n ∧ w = pad2 n := by
  constructor
  · rintro ⟨a, b, rfl, hab⟩
    obtain ⟨ha, hb, hq⟩ := hnum a b hab
    exact ⟨num2 a b, hq, (pad2_num2 ha hb).symm⟩
  · rintro ⟨n, hn, rfl⟩
    exact ⟨_, _, rfl, hpad n hn⟩

theorem mem_sixtyPattern : w ∈ sixtyPattern.language ↔ ∃ n, n < 60 ∧ w = pad2 n := by
  rw [sixtyPattern, digit, range, range, mem_two]
  simp only [Bool.and_eq_true, decide_eq_true_eq, Char.reduceToNat]
  exact pair_iff (by simp only [num2]; omega) (by omega)

theorem mem_hourPattern : w ∈ hourPattern.language ↔ ∃ n, n < 24 ∧ w = pad2 n := by
  rw [hourPattern, digit, range, range, range, char, mem_alt, mem_two, mem_two]
  simp only [Bool.and_eq_true, decide_eq_true_eq, beq_iff_eq,
    Char.reduceToNat, ← exists_or, ← and_or_left]
  exact pair_iff (by simp only [num2]; omega) (by omega)

theorem mem_monthPattern : w ∈ monthPattern.language ↔ ∃ n, (1 ≤ n ∧ n ≤ 12) ∧ w = pad2 n := by
  rw [monthPattern, range, range, char, char, mem_alt, mem_two, mem_two]
  simp only [Bool.and_eq_true, decide_eq_true_eq, beq_iff_eq,
    Char.reduceToNat, ← exists_or, ← and_or_left]
  exact pair_iff (by simp only [num2]; omega) (by omega)

theorem mem_dayPattern : w ∈ dayPattern.language ↔ ∃ n, (1 ≤ n ∧ n ≤ 31) ∧ w = pad2 n := by
  rw [dayPattern, digit, range, range, range, range, char, char, mem_alt, mem_alt, mem_two, mem_two,
    mem_two]
  simp only [Bool.and_eq_true, decide_eq_true_eq, beq_iff_eq,
    Char.reduceToNat, ← exists_or, ← and_or_left]
  exact pair_iff (by simp only [num2]; omega) (by omega)

theorem mem_yearPattern : w ∈ (digit.exactly 4).language ↔ ∃ n, n < 10000 ∧ w = pad4 n := by
  rw [digit, range, mem_exactly_cls]
  simp only [Bool.and_eq_true, decide_eq_true_eq, Char.reduceToNat]
  constructor
  · rintro ⟨hlen, hall⟩
    rcases w with _ | ⟨a, _ | ⟨b, _ | ⟨c, _ | ⟨d, _ | ⟨e, w⟩⟩⟩⟩⟩
    case cons.cons.cons.cons.nil =>
      have ha := hall a (by simp)
      have hb := hall b (by simp)
      have hc := hall c (by simp)
      have hd := hall d (by simp)
      exact ⟨num4 a b c d, by simp only [num4]; omega, (pad4_num4 ha hb hc hd).symm⟩
    all_goals simp at hlen
  · rintro ⟨n, hn, rfl⟩
    refine ⟨rfl, fun x hx => ?_⟩
    simp only [pad4, mem_cons, not_mem_nil, or_false] at hx
    omega

/-- A number and the character that ends it stand first. -/
theorem mem_field {r s : Regex Nat} {c : Char} {P : Nat → Prop} {pad : Nat → List Nat}
    (hr : ∀ {u}, u ∈ r.language ↔ ∃ n, P n ∧ u = pad n) :
    w ∈ (seq r (seq (char c) s)).language ↔
      ∃ n, P n ∧ ∃ v ∈ s.language, w = pad n ++ c.toNat :: v := by
  rw [mem_seq]
  constructor
  · rintro ⟨u, hu, _, hrest, rfl⟩
    obtain ⟨n, hn, rfl⟩ := hr.mp hu
    obtain ⟨x, v, rfl, hx, hv⟩ := mem_cls_seq.mp hrest
    exact ⟨n, hn, v, hv, by rw [beq_iff_eq.mp hx]⟩
  · rintro ⟨n, hn, v, hv, rfl⟩
    exact ⟨_, hr.mpr ⟨n, hn, rfl⟩, _, mem_cls_seq.mpr ⟨_, v, rfl, beq_self_eq_true _, hv⟩, rfl⟩

/-- The fields of a text the expression admits. -/
structure InRange (d : Date) (hour minute second : Nat) : Prop where
  year : d.year < 10000
  month : 1 ≤ d.month ∧ d.month ≤ 12
  day : 1 ≤ d.day ∧ d.day ≤ 31
  hour : hour < 24
  minute : minute < 60
  second : second < 60

theorem mem_timestampPattern : w ∈ timestampPattern.language ↔
    ∃ d hour minute second, InRange d hour minute second ∧
      w = printTime d hour minute second ++ ['Z'.toNat] := by
  have hlast : ∀ v : List Nat, v ∈ (char 'Z').language ↔ v = ['Z'.toNat] := by
    intro v
    constructor
    · rintro ⟨x, rfl, hx⟩
      rw [beq_iff_eq.mp hx]
    · rintro rfl
      exact ⟨_, rfl, beq_self_eq_true _⟩
  constructor
  · intro h
    obtain ⟨y, hyear, w₁, h₁, rfl⟩ := (mem_field mem_yearPattern).mp h
    obtain ⟨m, hmonth, w₂, h₂, rfl⟩ := (mem_field mem_monthPattern).mp h₁
    obtain ⟨d, hday, w₃, h₃, rfl⟩ := (mem_field mem_dayPattern).mp h₂
    obtain ⟨ho, hhour, w₄, h₄, rfl⟩ := (mem_field mem_hourPattern).mp h₃
    obtain ⟨mi, hminute, w₅, h₅, rfl⟩ := (mem_field mem_sixtyPattern).mp h₄
    obtain ⟨w₆, h₆, w₇, h₇, rfl⟩ := mem_seq.mp h₅
    obtain ⟨se, hsecond, rfl⟩ := mem_sixtyPattern.mp h₆
    obtain rfl := (hlast _).mp h₇
    refine ⟨⟨y, m, d⟩, ho, mi, se, ⟨hyear, hmonth, hday, hhour, hminute, hsecond⟩, ?_⟩
    simp only [printTime, append_assoc, cons_append]
  · rintro ⟨d, ho, mi, se, ⟨hy, hm, hd, hho, hmi, hse⟩, rfl⟩
    simp only [printTime, append_assoc, cons_append]
    refine (mem_field mem_yearPattern).mpr ⟨_, hy, _, ?_, rfl⟩
    refine (mem_field mem_monthPattern).mpr ⟨_, hm, _, ?_, rfl⟩
    refine (mem_field mem_dayPattern).mpr ⟨_, hd, _, ?_, rfl⟩
    refine (mem_field mem_hourPattern).mpr ⟨_, hho, _, ?_, rfl⟩
    refine (mem_field mem_sixtyPattern).mpr ⟨_, hmi, _, ?_, rfl⟩
    exact mem_seq.mpr ⟨_, mem_sixtyPattern.mpr ⟨_, hse, rfl⟩, _, (hlast _).mpr rfl, rfl⟩

/-! ## What `Date` gives back -/

theorem num2_pad2 (h : n < 100) : num2 (48 + n / 10 % 10) (48 + n % 10) = n := by
  simp only [num2]
  omega

theorem num4_pad4 (h : n < 10000) :
    num4 (48 + n / 1000 % 10) (48 + n / 100 % 10) (48 + n / 10 % 10) (48 + n % 10) = n := by
  simp only [num4]
  omega

theorem dateParse_print (h : InRange d hour minute second) (x : Nat) :
    dateParse (printTime d hour minute second ++ [x]) =
      some (secondOf d hour minute second) := by
  show some (secondOf ⟨num4 _ _ _ _, num2 _ _, num2 _ _⟩ (num2 _ _) (num2 _ _) (num2 _ _)) = _
  have := h.month
  have := h.day
  have := h.hour
  have := h.minute
  have := h.second
  rw [num4_pad4 h.year, num2_pad2 (by omega), num2_pad2 (by omega), num2_pad2 (by omega),
    num2_pad2 (by omega), num2_pad2 (by omega)]

/-- The seconds before the year 10000. -/
def secondLimit : Nat := Date.daysBeforeYear 10000 * 86400

theorem daysInMonth_le (y m : Nat) : Date.daysInMonth y m ≤ 31 := by
  unfold Date.daysInMonth
  split <;> first | omega | (split <;> omega)

theorem inRange_ofDayNumber (h : n < Date.daysBeforeYear 10000) (hhour : hour < 24)
    (hminute : minute < 60) (hsecond : second < 60) :
    InRange (Date.ofDayNumber n) hour minute second := by
  obtain ⟨h₁, h₂, h₃, h₄⟩ := Date.real_ofDayNumber n
  refine ⟨?_, ⟨h₁, h₂⟩, ⟨h₃, h₄.trans (daysInMonth_le _ _)⟩, hhour, hminute, hsecond⟩
  refine Nat.lt_of_not_le fun hyear => ?_
  have hmono := Date.daysBeforeYear_mono hyear
  have hspec := (Date.yearOf_spec n).1
  simp only [Date.ofDayNumber] at hmono
  omega

theorem inRange_isoSeconds {t : Nat} (h : t < secondLimit) :
    InRange (Date.ofDayNumber (t / 86400)) (t % 86400 / 3600) (t % 3600 / 60) (t % 60) := by
  have hday : t / 86400 < Date.daysBeforeYear 10000 := by
    unfold secondLimit at h
    omega
  exact inRange_ofDayNumber hday (by omega) (by omega) (by omega)

section

variable (h : InRange d hour minute second)

include h

/-- A date the expression admits is counted inside its year. -/
theorem dayNumber_lt :
    d.dayNumber < Date.daysBeforeYear 10000 := by
  have hmonth := h.month
  have hday := h.day
  have hyear : Date.daysBeforeYear (d.year + 1) ≤ Date.daysBeforeYear 10000 :=
    Date.daysBeforeYear_mono h.year
  have hmonths : Date.daysOfMonths d.year (d.month - 1) ≤ Date.daysOfMonths d.year 11 :=
    Date.daysOfMonths_mono d.year (by omega)
  have hlast : Date.daysOfMonths d.year 12 = Date.daysOfMonths d.year 11 + 31 := rfl
  rw [Date.daysOfMonths_year] at hlast
  rw [Date.daysBeforeYear_succ] at hyear
  simp only [Date.dayNumber]
  omega

theorem secondOf_lt :
    secondOf d hour minute second < secondLimit := by
  have hday := dayNumber_lt h
  have hhour := h.hour
  have hminute := h.minute
  have hsecond := h.second
  unfold secondLimit secondOf
  generalize Date.daysBeforeYear 10000 = limit at hday ⊢
  omega

theorem isoSeconds_secondOf :
    isoSeconds (secondOf d hour minute second) =
      printTime (Date.ofDayNumber d.dayNumber) hour minute second := by
  have hhour := h.hour
  have hminute := h.minute
  have hsecond := h.second
  have h₁ : secondOf d hour minute second / 86400 = d.dayNumber := by
    simp only [secondOf]
    omega
  have h₂ : secondOf d hour minute second % 86400 / 3600 = hour := by
    simp only [secondOf]
    omega
  have h₃ : secondOf d hour minute second % 3600 / 60 = minute := by
    simp only [secondOf]
    omega
  have h₄ : secondOf d hour minute second % 60 = second := by
    simp only [secondOf]
    omega
  rw [isoSeconds, h₁, h₂, h₃, h₄]

end

theorem dateParse_isoSeconds {t : Nat} (h : t < secondLimit) (x : Nat) :
    dateParse (isoSeconds t ++ [x]) = some t := by
  have hsecond : secondOf (Date.ofDayNumber (t / 86400)) (t % 86400 / 3600) (t % 3600 / 60)
      (t % 60) = t := by
    simp only [secondOf, Date.dayNumber_ofDayNumber]
    omega
  rw [isoSeconds, dateParse_print (inRange_isoSeconds h), hsecond]

/-- The texts of the schema are those of the seconds before the year 10000. -/
theorem canonicalUtcTimestamp_iff {us : JsString} : canonicalUtcTimestamp us = true ↔
    ∃ t < secondLimit, us.map UInt16.toNat = isoSeconds t ++ ['Z'.toNat] := by
  rw [canonicalUtcTimestamp, Bool.and_eq_true, test, accepts_iff, mem_timestampPattern]
  constructor
  · rintro ⟨⟨d, hour, minute, second, h, hus⟩, hdate⟩
    rw [hus, dateParse_print h, dropLast_concat] at hdate
    have hiso := append_cancel_right (beq_iff_eq.mp hdate)
    refine ⟨secondOf d hour minute second, ?_, ?_⟩
    · exact secondOf_lt h
    · rw [hus, hiso]
  · rintro ⟨t, ht, hus⟩
    refine ⟨⟨_, _, _, _, inRange_isoSeconds ht, hus⟩, ?_⟩
    rw [hus, dateParse_isoSeconds ht, dropLast_concat]
    exact beq_iff_eq.mpr rfl

end GoodDealer.Schemas
