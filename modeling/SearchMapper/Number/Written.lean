import SearchMapper.Number.Shortest

namespace SearchMapper.Number

def ofNat (n : Nat) : String :=
  String.ofList (digitsOf n)

def ofInt (i : Int) : String :=
  if i < 0 then "-" ++ ofNat i.natAbs else ofNat i.natAbs

/-- The significant digits, without zeros at the end, and the place of the point behind the
first of them. -/
def significant (d : Decimal) : List Char × Int :=
  let all := digitsOf d.digits
  ((all.reverse.dropWhile (· == '0')).reverse, all.length + d.exponent)

/-- Digits with the point `place` digits from the left; a whole number ends in `ending`. -/
def positional (ending : List Char) (digits : List Char) (place : Int) : List Char :=
  if place ≤ 0 then '0' :: '.' :: (List.replicate (-place).toNat '0' ++ digits)
  else if digits.length ≤ place.toNat then
    digits ++ List.replicate (place.toNat - digits.length) '0' ++ ending
  else digits.take place.toNat ++ '.' :: digits.drop place.toNat

def scientific (digits : List Char) (place : Int) : List Char :=
  let power := place - 1
  let fraction := if digits.length ≤ 1 then [] else '.' :: digits.drop 1
  let sign := if power < 0 then '-' else '+'
  digits.take 1 ++ fraction ++ 'e' :: sign :: digitsOf power.natAbs

structure Style where
  tie : Tie
  ending : List Char
  positionalAt : Int → Bool

def plain : Style := ⟨.up, [], fun _ => true⟩

/-- Positional from `0.00001` to below `1e+16`; a whole number keeps one decimal. -/
def exchange : Style := ⟨.toEven, ['.', '0'], fun place => -5 < place && place ≤ 16⟩

def Style.magnitude (style : Style) (F : Format) (m : Nat) (q : Int) : List Char :=
  if m = 0 then '0' :: style.ending else
  let (digits, place) := significant (shortest F style.tie m q)
  if style.positionalAt place then positional style.ending digits place
  else scientific digits place

def Style.write {F : Format} (style : Style) : Binary F → String
  | .finite s m q _ => (if s then "-" else "") ++ String.ofList (style.magnitude F m q)
  | .infinite s => (if s then "-" else "") ++ "inf"
  | .nan => "NaN"

end SearchMapper.Number
