/-
# `GoodDealer.Client.CsvImport` — a table read back from its CSV text

`parseCsv` goes over the text once, with the rows read so far, the row and the field it is in,
and whether it is inside quotes.  A text that quotes every field comes back field by field
(`scan_writeField`).  The end of a record takes one carriage return off the last field: the one
that CRLF leaves there, but with LF one that belongs to the field (`parseCsv_not_inverse`).
-/
import GoodDealer.Lib.Unicode

namespace GoodDealer.Client

open List Unicode

/-! ## The parser -/

def quote : UInt16 := 0x22
def comma : UInt16 := 0x2c
def carriageReturn : UInt16 := 0x0d
def lineFeed : UInt16 := 0x0a

/-- `field.replace(/\r$/u, "")`. -/
def stripReturn (field : JsString) : JsString :=
  if field.getLast? = some carriageReturn then field.dropLast else field

/-- The variables of the loop of `parseCsv`. -/
structure CsvScan where
  rows : List (List JsString)
  row : List JsString
  field : JsString
  quoted : Bool

/-- One character that is not half of a doubled quote. -/
def CsvScan.step (s : CsvScan) (character : UInt16) : CsvScan :=
  if s.quoted then
    if character = quote then { s with quoted := false }
    else { s with field := s.field ++ [character] }
  else if character = quote ∧ s.field.length = 0 then { s with quoted := true }
  else if character = comma then { s with row := s.row ++ [s.field], field := [] }
  else if character = lineFeed then ⟨s.rows ++ [s.row ++ [stripReturn s.field]], [], [], false⟩
  else { s with field := s.field ++ [character] }

/-- The loop of `parseCsv`. -/
def scan : CsvScan → JsString → CsvScan
  | s, [] => s
  | s, [c] => s.step c
  | s, c :: d :: rest =>
    if s.quoted ∧ c = quote ∧ d = quote then scan { s with field := s.field ++ [quote] } rest
    else scan (s.step c) (d :: rest)

def parseCsv (text : JsString) : Except String (List (List JsString)) :=
  if 20000000 < text.length then .error "CSV exceeds the 20 MB parsing limit"
  else
    let s := scan ⟨[], [], [], false⟩ text
    if s.quoted then .error "CSV has an unterminated quoted field"
    else if s.field.length > 0 ∨ s.row.length > 0 then
      .ok (s.rows ++ [s.row ++ [stripReturn s.field]])
    else .ok s.rows

/-! ## A table as RFC 4180 writes it -/

inductive RecordEnd where
  | lf
  | crlf
deriving DecidableEq

def RecordEnd.units : RecordEnd → JsString
  | .lf => [lineFeed]
  | .crlf => [carriageReturn, lineFeed]

def escape (field : JsString) : JsString :=
  field.flatMap fun u => if u = quote then [quote, quote] else [u]

def writeField (field : JsString) : JsString := quote :: (escape field ++ [quote])

def writeRecord (e : RecordEnd) : List JsString → JsString
  | [] => e.units
  | [field] => writeField field ++ e.units
  | field :: next :: rest => writeField field ++ comma :: writeRecord e (next :: rest)

def writeTable (e : RecordEnd) (table : List (List JsString)) : JsString :=
  table.flatMap (writeRecord e)

/-! ## Reading it back -/

/-- A record that is read back: it has a field, and the last one keeps its characters. -/
structure RecordEnd.Reads (e : RecordEnd) (record : List JsString) : Prop where
  nonempty : record ≠ []
  last : e = .lf → ∀ field ∈ record.getLast?, field.getLast? ≠ some carriageReturn

variable {s : CsvScan} {c : UInt16} {rest field : JsString} {e : RecordEnd}

theorem scan_cons (h : ¬ (s.quoted = true ∧ c = quote ∧ rest.head? = some quote)) :
    scan s (c :: rest) = scan (s.step c) rest := by
  cases rest with
  | nil => rfl
  | cons d rest =>
    rw [head?_cons, Option.some.injEq] at h
    exact if_neg h

theorem scan_unquoted (h : s.quoted = false) : scan s (c :: rest) = scan (s.step c) rest :=
  scan_cons fun hdouble => by rw [h] at hdouble; cases hdouble.1

/-- Inside quotes, up to the quote that closes the field. -/
theorem scan_escape (field : JsString) (h : s.quoted = true) (hrest : rest.head? ≠ some quote) :
    scan s (escape field ++ quote :: rest) =
      scan { s with field := s.field ++ field, quoted := false } rest := by
  induction field generalizing s with
  | nil =>
    rw [append_nil]
    refine (scan_cons fun hdouble => hrest hdouble.2.2).trans ?_
    rw [CsvScan.step, if_pos h, if_pos rfl]
  | cons u field ih =>
    have hcons :
        escape (u :: field) = (if u = quote then [quote, quote] else [u]) ++ escape field :=
      rfl
    rw [hcons, append_assoc, append_cons s.field u field]
    by_cases hu : u = quote
    · rw [if_pos hu, hu]
      exact (if_pos ⟨h, rfl, rfl⟩).trans (ih (s := { s with field := s.field ++ [quote] }) h)
    · rw [if_neg hu]
      refine (scan_cons fun hdouble => hu hdouble.2.1).trans ?_
      rw [CsvScan.step, if_pos h, if_neg hu]
      exact ih (s := { s with field := s.field ++ [u] }) h

variable (rows : List (List JsString)) (row : List JsString)

theorem scan_writeField (field : JsString) (hrest : rest.head? ≠ some quote) :
    scan ⟨rows, row, [], false⟩ (writeField field ++ rest) =
      scan ⟨rows, row, field, false⟩ rest := by
  rw [writeField, cons_append, append_assoc, scan_unquoted rfl]
  exact scan_escape field rfl hrest

/-- The end of a record takes off the return of CRLF and nothing else. -/
theorem scan_units (rest : JsString) (hlast : e = .lf → field.getLast? ≠ some carriageReturn) :
    scan ⟨rows, row, field, false⟩ (e.units ++ rest) =
      scan ⟨rows ++ [row ++ [field]], [], [], false⟩ rest := by
  cases e with
  | lf =>
    refine (scan_unquoted rfl).trans ?_
    have hstrip : stripReturn field = field := if_neg (hlast rfl)
    exact congrArg (fun f => scan ⟨rows ++ [row ++ [f]], [], [], false⟩ rest) hstrip
  | crlf =>
    refine (scan_unquoted rfl).trans ((scan_unquoted rfl).trans ?_)
    have hstrip : stripReturn (field ++ [carriageReturn]) = field := by
      rw [stripReturn, getLast?_concat, if_pos rfl, dropLast_concat]
    exact congrArg (fun f => scan ⟨rows ++ [row ++ [f]], [], [], false⟩ rest) hstrip

theorem scan_writeRecord {record : List JsString} (hrecord : e.Reads record) (rest : JsString) :
    scan ⟨rows, row, [], false⟩ (writeRecord e record ++ rest) =
      scan ⟨rows ++ [row ++ record], [], [], false⟩ rest := by
  induction record generalizing row with
  | nil => exact absurd rfl hrecord.nonempty
  | cons field record ih =>
    cases record with
    | nil =>
      have hhead : (e.units ++ rest).head? ≠ some quote := by
        cases e <;> exact fun h => absurd (Option.some.inj h) (by decide)
      rw [writeRecord, append_assoc, scan_writeField _ _ _ hhead]
      exact scan_units _ _ _ fun he => hrecord.last he field rfl
    | cons next record =>
      have hhead : (comma :: writeRecord e (next :: record) ++ rest).head? ≠ some quote :=
        fun h => absurd (Option.some.inj h) (by decide)
      rw [writeRecord, append_assoc, scan_writeField _ _ _ hhead, cons_append, scan_unquoted rfl]
      refine (ih (row ++ [field]) ⟨cons_ne_nil _ _, ?_⟩).trans ?_
      · rw [← getLast?_cons_cons]
        exact hrecord.last
      · rw [append_assoc, singleton_append]

theorem scan_writeTable {table : List (List JsString)} (h : ∀ record ∈ table, e.Reads record) :
    scan ⟨rows, [], [], false⟩ (writeTable e table) = ⟨rows ++ table, [], [], false⟩ := by
  induction table generalizing rows with
  | nil => rw [append_nil]; rfl
  | cons record table ih =>
    obtain ⟨hrecord, htable⟩ := forall_mem_cons.mp h
    rw [writeTable, flatMap_cons, scan_writeRecord _ _ hrecord]
    refine (ih _ htable).trans ?_
    rw [append_assoc, nil_append, singleton_append]

/-- A table comes back from a text within the limit. -/
theorem parseCsv_writeTable (e : RecordEnd) (table : List (List JsString))
    (h : ∀ record ∈ table, e.Reads record) (hlimit : (writeTable e table).length ≤ 20000000) :
    parseCsv (writeTable e table) = .ok table := by
  rw [parseCsv, if_neg (Nat.not_lt.mpr hlimit), scan_writeTable [] h]
  rfl

theorem parseCsv_writeTable_lf :
    parseCsv (writeTable .lf [[[0x22, 0x0d], [0x61, 0x0d, 0x0a]], [[]]]) =
      .ok [[[0x22, 0x0d], [0x61, 0x0d, 0x0a]], [[]]] := by
  refine parseCsv_writeTable .lf _ ?_ (by decide)
  exact fun record hrecord =>
    ⟨fun h => absurd (h ▸ hrecord) (by decide), fun _ => by revert record; decide⟩

/-- A return at the end of a quoted field is lost before LF, and a text over the limit is
not read. -/
theorem parseCsv_not_inverse :
    parseCsv (writeTable .lf [[[0x61, 0x0d]]]) = .ok [[[0x61]]] ∧
      parseCsv (writeTable .crlf [[List.replicate 20000000 0x61]]) =
        .error "CSV exceeds the 20 MB parsing limit" := by
  refine ⟨rfl, if_pos ?_⟩
  have hescape : ∀ n, (escape (List.replicate n 0x61)).length = n := by
    intro n
    induction n with
    | zero => rfl
    | succ n ih => exact congrArg (· + 1) ih
  have hlength : ∀ n, (writeTable .crlf [[List.replicate n 0x61]]).length = n + 4 := by
    intro n
    simp [writeTable, writeRecord, writeField, RecordEnd.units, hescape]
  rw [hlength]
  decide

end GoodDealer.Client
