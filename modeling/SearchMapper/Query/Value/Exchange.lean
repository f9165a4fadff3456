import SearchMapper.Json.Basic
import SearchMapper.Number.Reading
import SearchMapper.Query.Value

namespace SearchMapper.Value

mutual

def toJson : Value → Json
  | null => .null
  | text s => .text s
  | int i => .int i.toInt
  | float x => .ofDouble x
  | bool b => .bool b
  | instant t => .text t.exactText
  | list items => .array (itemsToJson items)

def itemsToJson : List Value → List Json
  | [] => []
  | item :: rest => toJson item :: itemsToJson rest

end

mutual

/-- Whole numbers that 64 bits with a sign do not hold become floats. -/
def ofJson? : Json → Option Value
  | .null => some null
  -- No mark tells a point in time from its text.
  | .text s => some (text s)
  | .int i =>
    if (Int64.ofInt i).toInt = i then some (int (Int64.ofInt i))
    else some (float (Number.Binary.ofInt .double i))
  | .float x => some (float x)
  | .bool b => some (bool b)
  | .array items => (itemsOfJson? items).map list
  | .object _ => none

def itemsOfJson? : List Json → Option (List Value)
  | [] => some []
  | item :: rest => do pure ((← ofJson? item) :: (← itemsOfJson? rest))

end

end SearchMapper.Value
