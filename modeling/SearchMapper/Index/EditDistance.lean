namespace SearchMapper.Index.EditDistance

/-- The cells of a row behind its first: each from the cells to its left, above it, and above the
one to its left. -/
def cells (c : Char) (left diagonal : Nat) : List Char → List Nat → List Nat
  | d :: b, above :: row =>
    let cost := if c = d then 0 else 1
    let here := min (diagonal + cost) (min (above + 1) (left + 1))
    here :: cells c here above b row
  | _, _ => []

/-- The distances of a text one character longer from the fronts of `b`. -/
def nextRow (b : List Char) (row : List Nat) (c : Char) : List Nat :=
  match row with
  | [] => []
  | first :: rest => (first + 1) :: cells c (first + 1) first b rest

def distance (a b : List Char) : Nat :=
  (a.foldl (nextRow b) (List.range (b.length + 1))).getLast?.getD 0

end SearchMapper.Index.EditDistance
