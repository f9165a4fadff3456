import SearchMapper.Dictionary
import SearchMapper.Number.Binary

namespace SearchMapper

inductive Json
  | null
  | bool (b : Bool)
  | int (i : Int)
  | float (x : Number.Double)
  | text (s : String)
  | array (items : List Json)
  | object (members : List (String × Json))

namespace Json

def isNull : Json → Bool
  | null => true
  | _ => false

def text? : Json → Option String
  | text s => some s
  | _ => none

def bool? : Json → Option Bool
  | bool b => some b
  | _ => none

def int? : Json → Option Int
  | int i => some i
  | _ => none

def array? : Json → Option (List Json)
  | array items => some items
  | _ => none

def object? : Json → Option (Dictionary Json)
  | object members => some members
  | _ => none

def ofDouble (x : Number.Double) : Json :=
  if x.isFinite then float x else null

def optional {α : Type} (f : α → Json) : Option α → Json
  | some a => f a
  | none => null

end Json

end SearchMapper
