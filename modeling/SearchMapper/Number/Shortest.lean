import SearchMapper.Number.Binary

namespace SearchMapper.Number

structure Decimal where
  digits : Nat
  exponent : Int

/-- What becomes of a value halfway between two decimals of the same length. -/
inductive Tie
  | toEven
  | up

def digitsOf (n : Nat) : List Char :=
  Nat.toDigits 10 n

namespace Shortest

/-- The interval of a binary number in quarters of its last place: bounds and value, and whether
the bounds belong to it. -/
structure Interval where
  low : Nat
  value : Nat
  high : Nat
  closed : Bool

def interval (F : Format) (m : Nat) (q : Int) : Interval where
  low := 4 * m - (if m = Nat.pow 2 (F.precision - 1) ∧ F.minExponent < q then 1 else 2)
  value := 4 * m
  high := 4 * m + 2
  closed := m % 2 = 0

def within (i : Interval) (unit point low high : Nat) : Bool :=
  let x := point * unit
  if i.closed then low ≤ x && x ≤ high else low < x && x < high

def onGrid? (i : Interval) (tie : Tie) (q k : Int) : Option Nat :=
  let unit := Nat.pow 10 k.toNat * Nat.pow 2 (-q).toNat
  let scale := Nat.pow 10 (-k).toNat * Nat.pow 2 q.toNat
  let value := i.value * scale
  let floor := value / unit
  let holds (point : Nat) := point ≠ 0 && within i unit point (i.low * scale) (i.high * scale)
  let upper :=
    match compare (2 * (value % unit)) unit with
    | .lt => false
    | .gt => true
    | .eq => match tie with
      | .up => true
      | .toEven => floor % 2 = 1
  -- No other multiple lies as near: on the coarsest grid with a hit, one of these two is it.
  let first := if upper then floor + 1 else floor
  let second := if upper then floor else floor + 1
  if holds first then some first else if holds second then some second else none

def search (i : Interval) (tie : Tie) (q : Int) : Nat → Int → Option Decimal
  | 0, _ => none
  | count + 1, k =>
    match onGrid? i tie q k with
    | some digits => some ⟨digits, k⟩
    | none => search i tie q count (k - 1)

def startOf (num den : Nat) : Int :=
  (digitsOf num).length - (digitsOf den).length + 1

end Shortest

open Shortest

/-- The decimal of fewest digits that reads back as `m * 2 ^ q`, and of those the nearest.
Seventeen digits always do for 53 bits; the two grids more make up for a start too high. -/
def shortest (F : Format) (tie : Tie) (m : Nat) (q : Int) : Decimal :=
  if m = 0 then ⟨0, 0⟩ else
  let i := interval F m q
  let (n, d) := scaled i.value 1 (2 - q)
  (search i tie (q - 2) 20 (startOf n d)).getD ⟨0, 0⟩

end SearchMapper.Number
