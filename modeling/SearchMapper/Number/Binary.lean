namespace SearchMapper.Number

/-- Finite numbers have significands below `2 ^ precision` and exponents within the bounds. -/
structure Format where
  precision : Nat
  minExponent : Int
  maxExponent : Int

namespace Format

def double : Format := ⟨53, -1074, 971⟩

def single : Format := ⟨24, -149, 104⟩

/-- Each value has one such pair: the significand is as long as the least exponent allows. -/
def Canonical (F : Format) (m : Nat) (q : Int) : Prop :=
  m < Nat.pow 2 F.precision ∧ F.minExponent ≤ q ∧ q ≤ F.maxExponent ∧
    (q = F.minExponent ∨ Nat.pow 2 (F.precision - 1) ≤ m)

instance (F : Format) (m : Nat) (q : Int) : Decidable (F.Canonical m q) :=
  inferInstanceAs (Decidable (_ ∧ _ ∧ _ ∧ _))

end Format

inductive Binary (F : Format)
  | finite (negative : Bool) (m : Nat) (q : Int) (canonical : F.Canonical m q)
  | infinite (negative : Bool)
  | nan
deriving DecidableEq

abbrev Double := Binary .double

abbrev Single := Binary .single

def scaled (num den : Nat) (q : Int) : Nat × Nat :=
  (num * Nat.pow 2 (-q).toNat, den * Nat.pow 2 q.toNat)

/-- The nearest whole number; halfway, the even one. -/
def roundQuotient (num den : Nat) : Nat :=
  let whole := num / den
  let twice := 2 * (num % den)
  if twice < den then whole
  else if den < twice then whole + 1
  else whole + whole % 2

namespace Binary

variable {F : Format}

def make (negative : Bool) (m : Nat) (q : Int) : Binary F :=
  if h : F.Canonical m q then .finite negative m q h else .infinite negative

def exponentOf (F : Format) (num den : Nat) : Int :=
  if num = 0 then F.minExponent else
  let e : Int := (num.log2 : Int) - den.log2
  let (n, d) := scaled num den e
  let top := if d ≤ n then e else e - 1
  max F.minExponent (top + 1 - F.precision)

/-- The number nearest to `num / den`; halfway, the one with the even significand. What rounds
beyond the largest exponent is infinite. -/
def ofRatio (F : Format) (negative : Bool) (num den : Nat) : Binary F :=
  let q := exponentOf F num den
  let (n, d) := scaled num den q
  let m := roundQuotient n d
  if m = Nat.pow 2 F.precision then make negative (Nat.pow 2 (F.precision - 1)) (q + 1)
  else make negative m q

def ofNat (F : Format) (n : Nat) : Binary F :=
  ofRatio F false n 1

def ofInt (F : Format) (i : Int) : Binary F :=
  ofRatio F (i < 0) i.natAbs 1

def zero (F : Format) (negative : Bool) : Binary F :=
  ofRatio F negative 0 1

def isFinite : Binary F → Bool
  | finite .. => true
  | _ => false

def convert (G : Format) : Binary F → Binary G
  | finite s m q _ => let (n, d) := scaled m 1 (-q); ofRatio G s n d
  | infinite s => infinite s
  | nan => nan

def multiple (negative : Bool) (m : Nat) (q e : Int) : Int :=
  let n : Int := m * Nat.pow 2 (q - e).toNat
  if negative then -n else n

/-- The order of values; a number that is none has no place in it, and both zeros are equal. -/
def compare? : Binary F → Binary F → Option Ordering
  | finite s m q _, finite t n r _ =>
    let e := min q r
    some (compare (multiple s m q e) (multiple t n r e))
  | infinite s, infinite t => some (compare t s)
  | infinite s, finite .. => some (if s then .lt else .gt)
  | finite .., infinite t => some (if t then .gt else .lt)
  | _, _ => none

def sameValue (x y : Binary F) : Bool :=
  compare? x y == some .eq

def whole? : Binary F → Option Nat
  | finite _ m q _ =>
    let (n, d) := scaled m 1 (-q)
    if n % d = 0 then some (n / d) else none
  | _ => none

def isNegative : Binary F → Bool
  | finite s .. | infinite s => s
  | nan => false

end Binary

end SearchMapper.Number
