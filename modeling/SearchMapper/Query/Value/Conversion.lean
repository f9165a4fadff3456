import SearchMapper.Number.Reading
import SearchMapper.Query.Value
import SearchMapper.Text.Scan

namespace SearchMapper.Value

/-- A number that 63 bits do not hold becomes its text. -/
def ofNat (n : Nat) : Value :=
  if n < Nat.pow 2 63 then int (Int64.ofNat n) else text (Number.ofNat n)

/-- Widens through the shortest decimal text, so that 0.1 stays 0.1. -/
def ofSingle (x : Number.Single) : Value :=
  float ((Number.readBinary? .double (Number.plain.write x).toList).getD (x.convert .double))

def ofOption {α : Type} (f : α → Value) : Option α → Value
  | some a => f a
  | none => null

def hyphenated : List Char → List Nat → List Char
  | digits, [] => digits
  | digits, size :: sizes => digits.take size ++ '-' :: hyphenated (digits.drop size) sizes

def isHexDigit (c : Char) : Bool :=
  c.isDigit || ('a' ≤ c && c ≤ 'f')

/-- An identifier of 32 hexadecimal digits in letters of any case, plain or with hyphens, and
either in braces or as a resource name too. Its text has hyphens and small letters. -/
def ofIdentifier? (s : String) : Option Value :=
  let bare := match s.toList.map Char.toLower with
    | '\x7b' :: r => (Text.before? ['\x7d'] r).getD []
    | cs => (Text.after? "urn:uuid:".toList cs).getD cs
  let digits := bare.filter (· ≠ '-')
  if digits.length = 32 ∧ digits.all isHexDigit ∧
      (bare = digits ∨ bare = hyphenated digits [8, 4, 4, 4]) then
    some (text (String.ofList (hyphenated digits [8, 4, 4, 4])))
  else none

end SearchMapper.Value
