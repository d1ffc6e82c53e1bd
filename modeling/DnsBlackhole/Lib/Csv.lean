/-
  Comma-separated values (RFC 4180).

  A file is read character by character.  Outside of quotes a field has neither
  quotes nor line breaks; inside of them a quote is written twice.

  * `Csv.read`: the rows of a file, if it is well formed;
  * `Csv.read_write`: what is written with every field in quotes is read back.
-/
import Mathlib.Data.List.Basic

namespace DnsBlackhole.Lib.Csv

/-! ## Reading -/

inductive Mode
  /-- Before a field. -/
  | start
  | plain
  | quoted
  /-- Behind a quote of a field in quotes: its end, or the first of two. -/
  | closed
  /-- Behind a carriage return. -/
  | ending
  deriving DecidableEq

structure Reading where
  mode : Mode := .start
  field : List Char := []
  row : List (List Char) := []
  rows : List (List (List Char)) := []

namespace Reading
variable (r : Reading)

/-- A character that is neither a quote nor part of a field in quotes. -/
def outside (c : Char) : Option Reading :=
  if c = ',' then some { r with mode := .start, field := [], row := r.row ++ [r.field] }
  else if c = '\r' then some { r with mode := .ending }
  else none

def push (mode : Mode) (c : Char) : Reading := { r with mode, field := r.field ++ [c] }

def step (c : Char) : Option Reading :=
  match r.mode with
  | .start =>
    if c = '"' then some { r with mode := .quoted }
    else if c = ',' ∨ c = '\r' ∨ c = '\n' then r.outside c
    else some (r.push .plain c)
  | .plain =>
    if c = '"' ∨ c = ',' ∨ c = '\r' ∨ c = '\n' then r.outside c else some (r.push .plain c)
  | .quoted => if c = '"' then some { r with mode := .closed } else some (r.push .quoted c)
  | .closed => if c = '"' then some (r.push .quoted c) else r.outside c
  | .ending =>
    if c = '\n' then some { rows := r.rows ++ [r.row ++ [r.field]] } else none

/-- The end of the file, perhaps behind a line break. -/
def finish : Option (List (List (List Char))) :=
  match r.mode with
  | .start => some (if r.row = [] then r.rows else r.rows ++ [r.row ++ [r.field]])
  | .plain | .closed => some (r.rows ++ [r.row ++ [r.field]])
  | .quoted | .ending => none

end Reading

/-- The rows of a file. -/
def read (file : List Char) : Option (List (List (List Char))) :=
  (file.foldlM Reading.step {}).bind Reading.finish

/-! ## Writing -/

/-- A field in quotes. -/
def quote (field : List Char) : List Char :=
  '"' :: field.flatMap (fun c => if c = '"' then ['"', '"'] else [c]) ++ ['"']

def writeRow (row : List (List Char)) : List Char := List.intercalate [','] (row.map quote)

/-- A file whose rows all end with a line break. -/
def write (rows : List (List (List Char))) : List Char :=
  List.intercalate ['\r', '\n'] (rows.map writeRow) ++ ['\r', '\n']

/-! ## What is written is read back -/

variable {field : List Char} {row : List (List Char)} {rows : List (List (List Char))}

theorem foldlM_quoted (text : List Char) (r : Reading) (hr : r.mode = .quoted) :
    (text.flatMap fun c => if c = '"' then ['"', '"'] else [c]).foldlM Reading.step r =
      some { r with field := r.field ++ text } := by
  induction text generalizing r with
  | nil =>
    rw [List.append_nil]
    rfl
  | cons c text ih =>
    obtain ⟨mode, field, row, rows⟩ := r
    cases hr
    have hpush := ih (Reading.push ⟨.quoted, field, row, rows⟩ .quoted c) rfl
    have happend : field ++ c :: text = field ++ [c] ++ text := List.append_cons ..
    rw [List.flatMap_cons, List.foldlM_append, happend]
    by_cases hc : c = '"'
    · subst hc
      exact hpush
    · rw [if_neg hc]
      simp only [List.foldlM_cons, List.foldlM_nil, Reading.step, if_neg hc]
      exact hpush

theorem foldlM_quote (field : List Char) (row : List (List Char))
    (rows : List (List (List Char))) :
    (quote field).foldlM Reading.step { row, rows } =
      some { mode := .closed, field, row, rows } := by
  have hquoted := foldlM_quoted field { mode := .quoted, row, rows } rfl
  unfold quote
  rw [List.foldlM_append, List.foldlM_cons]
  show (List.foldlM Reading.step { mode := .quoted, row, rows } _).bind _ = _
  rw [hquoted]
  rfl

variable (rows) in
theorem foldlM_writeRow (hrow : row ≠ []) (before : List (List Char)) :
    ∃ init last, before ++ row = init ++ [last] ∧
      (writeRow row).foldlM Reading.step { row := before, rows } =
        some { mode := .closed, field := last, row := init, rows } := by
  induction row generalizing before with
  | nil => exact absurd rfl hrow
  | cons field row ih =>
    cases row with
    | nil =>
      refine ⟨before, field, rfl, ?_⟩
      simp only [writeRow, List.map_cons, List.map_nil, List.intercalate, List.intersperse,
        List.flatten_cons, List.flatten_nil, List.append_nil]
      exact foldlM_quote field before rows
    | cons next row =>
      obtain ⟨init, last, happend, hfold⟩ := ih (List.cons_ne_nil _ _) (before ++ [field])
      refine ⟨init, last, by rw [← happend, List.append_assoc]; rfl, ?_⟩
      have hsplit : writeRow (field :: next :: row) =
          quote field ++ ',' :: writeRow (next :: row) := by
        simp [writeRow, List.intercalate]
      rw [hsplit, List.foldlM_append, foldlM_quote]
      exact hfold

theorem foldlM_line (hrow : row ≠ []) (text : List Char) :
    (writeRow row ++ '\r' :: '\n' :: text).foldlM Reading.step { rows } =
      text.foldlM Reading.step { rows := rows ++ [row] } := by
  obtain ⟨init, last, happend, hfold⟩ := foldlM_writeRow rows hrow []
  rw [List.foldlM_append, hfold, show row = init ++ [last] from happend]
  rfl

theorem write_cons (row : List (List Char)) (hrows : rows ≠ []) :
    write (row :: rows) = writeRow row ++ '\r' :: '\n' :: write rows := by
  cases rows with
  | nil => exact absurd rfl hrows
  | cons next rows => simp [write, List.intercalate]

theorem write_singleton (row : List (List Char)) : write [row] = writeRow row ++ ['\r', '\n'] := by
  simp [write, List.intercalate]

/-- **What is written is read back.** -/
theorem read_write (hrows : rows ≠ []) (h : ∀ row ∈ rows, row ≠ []) :
    read (write rows) = some rows := by
  have hfold : ∀ before, (write rows).foldlM Reading.step { rows := before } =
      some { rows := before ++ rows } := by
    induction rows with
    | nil => exact absurd rfl hrows
    | cons row rows ih =>
      intro before
      obtain ⟨hrow, hrest⟩ := List.forall_mem_cons.1 h
      by_cases hnil : rows = []
      · rw [hnil, write_singleton, foldlM_line hrow]
        rfl
      · rw [write_cons row hnil, foldlM_line hrow, ih hnil hrest, List.append_assoc]
        rfl
  rw [read, hfold []]
  rfl

example : read "a,\"b\"\"c\"\r\n,\r\n".toList =
    some [["a".toList, "b\"c".toList], [[], []]] := by decide

end DnsBlackhole.Lib.Csv
