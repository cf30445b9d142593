import Parlance.Decimal.Numeral

/-!
Tables of texts with aligned columns: a line of headers, a line of dashes, and a line for each row.
A column is as wide as its widest cell. A row that is too short is filled with empty cells, and
cells beyond the last column are left out.
-/

namespace Parlance.Grid

def padded (width : Nat) (text : String) : String :=
  text ++ String.ofList (List.replicate (width - text.length) ' ')

def widen : List Nat → List String → List Nat
  | [], _ => []
  | widths, [] => widths
  | width :: widths, cell :: cells => max width cell.length :: widen widths cells

def widths (headers : List String) (rows : List (List String)) : List Nat :=
  rows.foldl widen (headers.map String.length)

def line : List Nat → List String → List String
  | [], _ => []
  | width :: widths, [] => padded width "" :: line widths []
  | width :: widths, cell :: cells => padded width cell :: line widths cells

def joined (cells : List String) : String := " | ".intercalate cells

def dashes (length : Nat) : String := String.ofList (List.replicate length '-')

def lines (columns : List Nat) (headers : List String) (rows : List (List String)) :
    List String :=
  let header := joined (line columns headers)
  header :: dashes header.length :: rows.map fun row => joined (line columns row)

end Parlance.Grid
