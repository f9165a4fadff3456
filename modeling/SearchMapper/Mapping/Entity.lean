import SearchMapper.Dictionary
import SearchMapper.Error
import SearchMapper.Text.Blank

namespace SearchMapper

structure Descriptor where
  name : String
  field : Option String := none
  isId : Bool := false
  nested : Option String := none
deriving DecidableEq

/-- The declared types by name; types may refer to each other and to themselves. -/
abbrev TypeTable := Dictionary (List Descriptor)

structure Property where
  name : String
  fieldName : String
  isId : Bool
  /-- The properties of a nested type, whose fields are named behind this field and a point. -/
  children : Option (List (String × Property))

structure Entity where
  typeName : String
  idProperty : Property
  properties : Dictionary Property

namespace Descriptor

/-- The declared field name, unless it is missing, blank or the mark for the property's own. -/
def fieldName (d : Descriptor) : String :=
  match d.field with
  | some field => if Text.isBlankText field ∨ field = "#default" then d.name else field
  | none => d.name

def property (d : Descriptor) (children : Option (Dictionary Property)) : Property :=
  ⟨d.name, d.fieldName, d.isId || d.fieldName = "id", children⟩

end Descriptor

namespace Entity

/-- Nested types are followed so many times. -/
def maxLevels : Nat := 8

def assemble (nest : Descriptor → String → Except Error (Dictionary Property)) :
    List Descriptor → Dictionary Property → Except Error (Dictionary Property)
  | [], found => .ok found
  | d :: rest, found => do
    let children ← match d.nested with
      | none => pure none
      | some type => some <$> nest d type
    if found.contains d.name then .error (.declaredTwice d.name)
    assemble nest rest (found.insert d.name (d.property children))

def propertiesOf (table : TypeTable) : Nat → List Descriptor → Except Error (Dictionary Property)
  | 0, ds => assemble (fun d _ => .error (.nestedTooDeep d.name maxLevels)) ds []
  | levels + 1, ds =>
    assemble (fun _ type => propertiesOf table levels ((table.find? type).getD [])) ds []

/-- The name of the property marked as id, or else of the first one stored as `id`. -/
def idName (type : String) (ds : List Descriptor) (properties : Dictionary Property) :
    Except Error String :=
  match ds.filter Descriptor.isId with
  | [d] => .ok d.name
  | [] =>
    match properties.values.find? (·.fieldName = "id") with
    | some p => .ok p.name
    | none => .error (.noIdProperty type)
  | _ => .error (.severalIdProperties type)

def ofDescriptors (table : TypeTable) (type : String) (ds : List Descriptor) :
    Except Error Entity := do
  let properties ← propertiesOf table maxLevels ds
  let name ← idName type ds properties
  match properties.find? name with
  | some p => pure ⟨type, p, properties⟩
  | none => .error (.unknownIdProperty name)

def ofTable (table : TypeTable) (type : String) : Except Error Entity :=
  ofDescriptors table type ((table.find? type).getD [])

end Entity

end SearchMapper
