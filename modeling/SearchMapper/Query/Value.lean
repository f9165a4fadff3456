import SearchMapper.Number.Written
import SearchMapper.Time.Instant

namespace SearchMapper

inductive Value
  | null
  | text (s : String)
  | int (i : Int64)
  | float (x : Number.Double)
  | bool (b : Bool)
  | instant (t : Time.Instant)
  | list (items : List Value)

namespace Value

/-- A whole number below 10^15 keeps one decimal; no float has an exponent. -/
def floatText (x : Number.Double) : String :=
  match x.whole? with
  | some n =>
    if n < Nat.pow 10 15 then (if x.isNegative then "-" else "") ++ Number.ofNat n ++ ".0"
    else Number.plain.write x
  | none => Number.plain.write x

mutual

def toText : Value → String
  | null => "null"
  | text s => s
  | int i => Number.ofInt i.toInt
  | float x => floatText x
  | bool b => if b then "true" else "false"
  | instant t => t.text
  | list items => " ".intercalate (itemTexts items)

def itemTexts : List Value → List String
  | [] => []
  | item :: rest => toText item :: itemTexts rest

end

def isNull : Value → Bool
  | null => true
  | _ => false

def text? : Value → Option String
  | text s => some s
  | _ => none

def int? : Value → Option Int64
  | int i => some i
  | _ => none

def list? : Value → Option (List Value)
  | list items => some items
  | _ => none

def items : Value → List Value
  | list items => items
  | v => [v]

end Value

end SearchMapper
