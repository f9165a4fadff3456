import SearchMapper.Number.Binary
import SearchMapper.Text.Scan

namespace SearchMapper.Number

def digitValue (c : Char) : Nat :=
  c.toNat - 48

def ofDigits (s : List Char) : Nat :=
  s.foldl (fun n c => 10 * n + digitValue c) 0

def readDigits? (s : List Char) : Option Nat :=
  if s ≠ [] ∧ s.all Char.isDigit then some (ofDigits s) else none

def readBelow? (bound : Nat) (s : List Char) : Option Nat :=
  let body := match s with
    | '+' :: r => r
    | _ => s
  (readDigits? body).filter (· < bound)

def readInt? : List Char → Option Int
  | '-' :: r => (readDigits? r).map fun n => -(n : Int)
  | '+' :: r => (readDigits? r).map Int.ofNat
  | s => (readDigits? s).map Int.ofNat

def readExponent? : List Char → Option Int
  | [] => some 0
  | c :: r => if c = 'e' ∨ c = 'E' then readInt? r else none

/-- Digits, point and exponent as the whole number of all digits and the power of ten that
scales it. A point needs a digit on one of its sides. -/
def readDecimal? (s : List Char) : Option (List Char × Int) :=
  let (front, rest) := Text.span Char.isDigit s
  let (back, rest) := match rest with
    | '.' :: r => Text.span Char.isDigit r
    | _ => ([], rest)
  if front = [] ∧ back = [] then none
  else (readExponent? rest).map fun e => (front ++ back, e - back.length)

/-- `digits * 10 ^ e` rounded. Past the powers that any format holds the answer is known without
writing out the power. -/
def ofDecimal (F : Format) (negative : Bool) (digits : List Char) (e : Int) : Binary F :=
  let size : Int := (digits.dropWhile (· == '0')).length
  if size = 0 then Binary.zero F negative
  else if 400 < size + e then .infinite negative
  else if size + e < -400 then Binary.zero F negative
  else Binary.ofRatio F negative (ofDigits digits * Nat.pow 10 e.toNat) (Nat.pow 10 (-e).toNat)

/-- A decimal number, or one of the names of infinity and of no number in letters of any case;
each may have a sign. -/
def readBinary? (F : Format) (s : List Char) : Option (Binary F) :=
  let (negative, body) := match s with
    | '-' :: r => (true, r)
    | '+' :: r => (false, r)
    | _ => (false, s)
  let name := String.ofList (body.map Char.toLower)
  if name = "inf" ∨ name = "infinity" then some (.infinite negative)
  else if name = "nan" then some .nan
  else (readDecimal? body).map fun (digits, e) => ofDecimal F negative digits e

end SearchMapper.Number
