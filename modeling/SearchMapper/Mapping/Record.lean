import SearchMapper.Json.Printer
import SearchMapper.Mapping.Entity

namespace SearchMapper

abbrev Record := Dictionary Json

namespace Record

def valueText? (record : Record) (field : String) : Option String :=
  (record.find? field).bind Json.scalarText?

mutual

/-- The fields that a value is stored in: its own, those of its members if it is an object with
nested properties, and none for null. -/
def fieldsOf (name : String) (children : Option (Dictionary Property)) :
    Json → List (String × Json)
  | .null => []
  | .object nested =>
    match children with
    | some children => flatten (name ++ ".") children nested
    | none => [(name, .object nested)]
  | value => [(name, value)]

/-- The fields of an object in the order of its members. Members that are no property keep their
keys. -/
def flatten (front : String) (properties : Dictionary Property) :
    List (String × Json) → List (String × Json)
  | [] => []
  | (key, value) :: rest =>
    let property? := properties.find? key
    fieldsOf (front ++ (property?.map Property.fieldName).getD key)
      (property?.bind Property.children) value ++ flatten front properties rest

end

def ofObject (e : Entity) (members : Dictionary Json) : Record :=
  .ofList (flatten "" e.properties members)

def ofDocument (e : Entity) : Json → Except Error Record
  | .object members => .ok (ofObject e members)
  | _ => .error (.notAnObject e.typeName)

mutual

/-- The value of a property: what its field holds, or else the object of its nested properties
that have values. -/
def propertyValue? (record : Record) (front : String) : Property → Option Json
  | ⟨_, fieldName, _, children⟩ =>
    match record.find? (front ++ fieldName) with
    | some value => some value
    | none =>
      match children with
      | none => none
      | some children =>
        match members record (front ++ fieldName ++ ".") children with
        | [] => none
        | m :: ms => some (.object (m :: ms))

def members (record : Record) (front : String) : List (String × Property) → List (String × Json)
  | [] => []
  | (_, property) :: rest =>
    match propertyValue? record front property with
    | some value => (property.name, value) :: members record front rest
    | none => members record front rest

end

def toDocument (e : Entity) (record : Record) : Json :=
  .object (members record "" e.properties)

end Record

end SearchMapper
