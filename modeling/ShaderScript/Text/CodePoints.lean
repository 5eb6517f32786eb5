/-!
# Tables of code points

A table of a standard has data for ranges of code points, in increasing order.  It is written as
text and searched by halving.  A range is written as the distance to its first code point from the
range before, and the distance from its first to its last one if there are more: `41-19 7-19` are
the letters of ASCII.
-/

namespace ShaderScript.Text

/-- The value of a hexadecimal digit; other characters count as zero. -/
def hexDigit (c : Char) : Nat :=
  if '0' ≤ c ∧ c ≤ '9' then c.toNat - '0'.toNat
  else if 'A' ≤ c ∧ c ≤ 'F' then c.toNat - 'A'.toNat + 10
  else if 'a' ≤ c ∧ c ≤ 'f' then c.toNat - 'a'.toNat + 10
  else 0

/-- The value of a run of hexadecimal digits. -/
def hexNumber (cs : List Char) : Nat := cs.foldl (fun n c => 16 * n + hexDigit c) 0

/-- The pieces of a list between the elements equal to `mark`. -/
def splitAt (mark : Char) (cs : List Char) : List (List Char) :=
  cs.foldr
    (fun c pieces =>
      if c = mark then [] :: pieces
      else match pieces with
        | [] => [[c]]
        | piece :: rest => (c :: piece) :: rest)
    [[]]

/-- The entries of a table written in lines, divided by blanks. -/
def entriesOf (lines : List String) : List (List Char) :=
  lines.flatMap fun line => splitAt ' ' line.toList

/-- Data for ranges of code points, each with both ends, in increasing order. -/
abbrev RangeTable (α : Type) := Array (Nat × Nat × α)

namespace RangeTable

variable {α : Type}

/-- The ends of a range behind `last`. -/
def rangeAfter (last : Nat) (place : List Char) : Nat × Nat :=
  match splitAt '-' place with
  | gap :: length :: _ =>
    let first := last + hexNumber gap
    (first, first + hexNumber length)
  | _ => (last + hexNumber place, last + hexNumber place)

/-- The ranges behind `last`.  `parse` divides an entry into its place and its data. -/
def rangesFrom (parse : List Char → List Char × α) : Nat → List (List Char) → List (Nat × Nat × α)
  | _, [] => []
  | last, entry :: rest =>
    let ends := rangeAfter last (parse entry).1
    (ends.1, ends.2, (parse entry).2) :: rangesFrom parse ends.2 rest

/-- Reads lines of entries: a range and its data, or the data of the next code point. -/
def ofLines (data : List Char → α) (lines : List String) : RangeTable α :=
  (rangesFrom
    (fun entry => match splitAt '=' entry with
      | place :: value :: _ => (place, data value)
      | _ => (['1'], data entry))
    0 (entriesOf lines)).toArray

/-- Halves the part of the table from `low` up to `high` until the code point's place is found. -/
def search (table : RangeTable α) (n : Nat) : Nat → Nat → Nat → Option α
  | 0, _, _ => none
  | fuel + 1, low, high =>
    if low < high then
      let middle := (low + high) / 2
      match table[middle]? with
      | some (first, last, value) =>
        if n < first then search table n fuel low middle
        else if last < n then search table n fuel (middle + 1) high
        else some value
      | none => none
    else none

def find? (table : RangeTable α) (n : Nat) : Option α :=
  search table n (table.size + 1) 0 table.size

end RangeTable

/-- A set of code points: ranges without data. -/
structure CodePoints where
  ranges : RangeTable Unit

namespace CodePoints

def ofLines (lines : List String) : CodePoints :=
  ⟨(RangeTable.rangesFrom (·, ()) 0 (entriesOf lines)).toArray⟩

/-- Membership. -/
def contains (s : CodePoints) (n : Nat) : Bool := (s.ranges.find? n).isSome

end CodePoints

end ShaderScript.Text
