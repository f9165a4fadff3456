import SearchMapper.Number.Reading

namespace SearchMapper.Index

def number? (s : String) : Option Number.Double :=
  Number.readBinary? .double s.toList

/-- The order by code points, which is also that of the bytes. -/
def compareText (a b : String) : Ordering :=
  if a < b then .lt else if a = b then .eq else .gt

/-- A number that is none, such as `nan`, is equal to all numbers. -/
def compareValues (a b : String) : Ordering :=
  match number? a, number? b with
  | some x, some y => (x.compare? y).getD .eq
  | _, _ => compareText a b

def sameNumber (a b : String) : Bool :=
  match number? a, number? b with
  | some x, some y => x.sameValue y
  | _, _ => false

end SearchMapper.Index
