import SearchMapper.Json.Basic

namespace SearchMapper

/-- How documents are read: what is made of a JSON value that is one of them, and of a member that
is missing. The readers below are those of plain records; a document type may bring its own. -/
structure Shape where
  read? : Json → Option Json
  missing? : Option Json := none

namespace Shape

def any : Shape where
  read? := some

def text : Shape where
  read?
    | .text s => some (.text s)
    | _ => none

def integer : Shape where
  read?
    | .int i => if (Int64.ofInt i).toInt = i then some (.int i) else none
    | _ => none

/-- Whole numbers are numbers too. -/
def number : Shape where
  read?
    | .int i => some (.float (.ofInt .double i))
    | .float x => some (.float x)
    | _ => none

def flag : Shape where
  read?
    | .bool b => some (.bool b)
    | _ => none

def list (item : Shape) : Shape where
  read?
    | .array vs => (vs.mapM item.read?).map .array
    | _ => none

def optional (value : Shape) : Shape where
  read?
    | .null => some .null
    | v => value.read? v
  missing? := some .null

/-- Other members are passed over. -/
def readMembers? : List (String × Shape) → Dictionary Json → Option (List (String × Json))
  | [], _ => some []
  | (name, shape) :: rest, given => do
    let value ← match given.find? name with
      | some v => shape.read? v
      | none => shape.missing?
    pure ((name, value) :: (← readMembers? rest given))

def readValues? : List (String × Shape) → List Json → Option (List (String × Json))
  | [], [] => some []
  | (name, shape) :: rest, v :: vs => do
    pure ((name, ← shape.read? v) :: (← readValues? rest vs))
  | _, _ => none

/-- A record may be given as the list of its values. -/
def object (fields : List (String × Shape)) : Shape where
  read?
    | .object given => (readMembers? fields given).map fun ms =>
      .object (Dictionary.ofList ms)
    | .array vs => (readValues? fields vs).map fun ms =>
      .object (Dictionary.ofList ms)
    | _ => none

end Shape

end SearchMapper
