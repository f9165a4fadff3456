import SearchMapper.Json.Basic
import SearchMapper.Number.Reading

namespace SearchMapper.Json

structure NumberText where
  negative : Bool
  whole : List Char
  fraction : List Char
  exponent : Option (Bool × List Char)

namespace NumberText

def power (n : NumberText) : Int :=
  match n.exponent with
  | none => 0
  | some (negative, digits) =>
    let e : Int := Number.ofDigits digits
    if negative then -e else e

/-- The nearest double; a number that would round to infinity is out of range. -/
def double? (n : NumberText) : Option Json :=
  let x := Number.ofDecimal .double n.negative (n.whole ++ n.fraction)
    (n.power - n.fraction.length)
  if x.isFinite then some (float x) else none

/-- A whole number that fits 64 bits is kept; negative zero and all other numbers are doubles. -/
def value? (n : NumberText) : Option Json :=
  let magnitude := Number.ofDigits n.whole
  if n.fraction ≠ [] ∨ n.exponent.isSome then n.double?
  else if !n.negative ∧ magnitude < UInt64.size then some (int magnitude)
  else if n.negative ∧ 0 < magnitude ∧ magnitude ≤ Nat.pow 2 63 then some (int (-magnitude))
  else n.double?

end NumberText

end SearchMapper.Json
