import SearchMapper.Text.Scan

namespace SearchMapper.Index.Wildcard

open Text (after? before? cut? pieces)

/-- Finds the pieces one after the other, each as early as it occurs, and the last one at the
end. -/
def matchesFrom : List (List Char) → List Char → Bool
  | [], _ => true
  | [last], value => (before? last value).isSome
  | piece :: next :: rest, value =>
    match cut? piece value with
    | some (_, value) => matchesFrom (next :: rest) value
    | none => false

def matchesText (pattern value : List Char) : Bool :=
  match pieces '*' pattern with
  | [] | [_] => pattern = value
  | first :: next :: rest =>
    match after? first value with
    | some value => matchesFrom (next :: rest) value
    | none => false

end SearchMapper.Index.Wildcard
