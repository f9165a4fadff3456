import SearchMapper.Text.LetterCase.Table

namespace SearchMapper.Text

namespace LetterCase

def inSteps (n : Nat) : Nat × Nat × Nat → Bool
  | (first, last, step) => first ≤ n && n ≤ last && (n - first) % step == 0

def inRange (n : Nat) : Nat × Nat → Bool
  | (first, last) => first ≤ n && n ≤ last

def isCased (c : Char) : Bool :=
  Table.cased.any (inRange c.toNat)

def isCaseIgnorable (c : Char) : Bool :=
  Table.caseIgnorable.any (inRange c.toNat)

def meetsCased (s : List Char) : Bool :=
  match s.dropWhile isCaseIgnorable with
  | [] => false
  | c :: _ => isCased c

end LetterCase

open LetterCase

def isUpper (c : Char) : Bool :=
  Table.uppercase.any (inSteps c.toNat)

def startsUpper : List Char → Bool
  | [] => false
  | c :: _ => isUpper c

def lowerChar (c : Char) : List Char :=
  if c = 'İ' then ['i', '\u0307']
  else match Table.lowerForm.find? fun (a, b, step, _) => inSteps c.toNat (a, b, step) with
    | some (_, _, _, distance) => [Char.ofNat (c.toNat + distance).toNat]
    | none => [c]

/-- `before` is the text in front, last character first. -/
def lowerAfter (before : List Char) : List Char → List Char
  | [] => []
  | c :: s =>
    -- At the end of a word a sigma has a form of its own.
    let form :=
      if c = 'Σ' then [if meetsCased before && !meetsCased s then 'ς' else 'σ'] else lowerChar c
    form ++ lowerAfter (c :: before) s

def lower (s : List Char) : List Char :=
  lowerAfter [] s

def sameLetters (a b : List Char) : Bool :=
  a.map Char.toLower == b.map Char.toLower

end SearchMapper.Text
