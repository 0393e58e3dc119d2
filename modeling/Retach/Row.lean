import Retach.Style
/-!
# Rows of cells (`screen/cell.rs`)

A row is its cells and, per column, the combining marks of that column's
character. Indexing a cell past the end panics.
-/

open Checked

namespace Retach

/-- `width` is 1 for a normal character, 2 for the first cell of a wide one
and 0 for its continuation. -/
structure Cell where
  c : Char := ' '
  styleId : StyleId := 0
  width : Nat := 1
deriving DecidableEq, Repr

structure Row where
  cells : List Cell
  /-- Combining marks per column. -/
  combining : List (Nat × List Char) := []
deriving DecidableEq, Repr

namespace Row

/-- `Row::from_cells(vec![fill; cols])`. -/
def filled (cols : Nat) (fill : Cell) : Row := { cells := List.replicate cols fill }

/-- `Row::new`. -/
def new (cols : Nat) : Row := filled cols {}

def len (r : Row) : Nat := r.cells.length

/-- `row[x]`. -/
def get (r : Row) (x : Nat) : Option Cell := r.cells[x]?

/-- `row[x] = cell`. -/
def set (r : Row) (x : Nat) (cell : Cell) : Option Row := do
  let cells ← setAt r.cells x cell
  return { r with cells }

/-! ## Combining marks -/

/-- The marks of a column: those of its first entry. -/
def marks (r : Row) (col : Nat) : List Char :=
  match r.combining.find? (·.1 = col) with
  | some (_, ms) => ms
  | none => []

/-- `combining_len`. -/
def combiningLen (r : Row) (col : Nat) : Nat := (r.marks col).length

def pushMark (col : Nat) (mark : Char) : List (Nat × List Char) → List (Nat × List Char)
  | [] => [(col, [mark])]
  | (c, ms) :: rest => if c = col then (c, ms ++ [mark]) :: rest else (c, ms) :: pushMark col mark rest

/-- `push_combining`. -/
def pushCombining (r : Row) (col : Nat) (mark : Char) : Row :=
  { r with combining := pushMark col mark r.combining }

/-- Keep the marks of the columns satisfying `p`. -/
def retain (r : Row) (p : Nat → Bool) : Row :=
  { r with combining := r.combining.filter fun e => p e.1 }

/-- Renumber the columns of the marks. -/
def shiftMarks (r : Row) (f : Nat → Nat) : Row :=
  { r with combining := r.combining.map fun e => (f e.1, e.2) }

def clearCombining (r : Row) (col : Nat) : Row := r.retain (· ≠ col)

def clearAllCombining (r : Row) : Row := { r with combining := [] }

/-- Clears the columns in `[lo, hi)`. -/
def clearCombiningRange (r : Row) (lo hi : Nat) : Row := r.retain fun c => c < lo ∨ c ≥ hi

/-! ## Changing the number of cells

The code casts positions to 16-bit columns. No row is longer than 65535 cells,
so the casts keep them. -/

def resize (r : Row) (newLen : Nat) (value : Cell) : Row :=
  let r := if newLen < r.len then r.retain (· < newLen) else r
  { r with cells := r.cells.take newLen ++ List.replicate (newLen - r.cells.length) value }

/-- Removes the cell at `index`; later cells and their marks move left. -/
def remove (r : Row) (index : Nat) : Option Row := do
  let r := (r.retain (· ≠ index)).shiftMarks fun c => if c > index then c - 1 else c
  ensure (index < r.len)
  return { r with cells := r.cells.eraseIdx index }

/-- Inserts a cell at `index`; later cells and their marks move right. -/
def insert (r : Row) (index : Nat) (cell : Cell) : Option Row := do
  let r := r.shiftMarks fun c => if c ≥ index then satAdd16 c 1 else c
  let cells ← insertAt r.cells index cell
  return { r with cells }

def push (r : Row) (cell : Cell) : Row := { r with cells := r.cells ++ [cell] }

def pop (r : Row) : Row :=
  if r.cells.isEmpty then r
  else { r with cells := r.cells.dropLast }.retain (· ≠ r.len - 1)

/-- `fix_wide_char_orphan_at_boundary`: blanks the wide character that a
truncation to `newCols` columns would cut, and the pair that ends there. -/
def fixWideCharOrphanAtBoundary (r : Row) (newCols : Nat) : Option Row :=
  if newCols = 0 ∨ r.len ≤ newCols then some r
  else do
    let last := newCols - 1
    let cell ← r.get last
    if cell.width = 2 then r.set last {}
    else if 0 < last ∧ cell.width = 0 then do
      let r ← r.set last {}
      r.set (last - 1) {}
    else some r

end Row

end Retach
