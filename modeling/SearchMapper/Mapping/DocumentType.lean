import SearchMapper.Mapping.Record
import SearchMapper.Mapping.Shape

namespace SearchMapper

structure DocumentType where
  name : String
  table : TypeTable
  shape : Shape

namespace DocumentType

def entity (t : DocumentType) : Except Error Entity :=
  Entity.ofTable t.table t.name

def read (t : DocumentType) (e : Entity) (record : Record) : Except Error Json :=
  match t.shape.read? (record.toDocument e) with
  | some document => .ok document
  | none => .error .unreadableDocument

end DocumentType

end SearchMapper
