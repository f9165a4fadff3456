import SearchMapper.Repository.Basic

namespace SearchMapper.Repository

structure Builder where
  declared : List Method.Declaration := []
  catalog : Catalog := []
  custom : Dictionary Method.Implementation := []

namespace Builder

def declare (d : Method.Declaration) (b : Builder) : Builder :=
  { b with declared := b.declared ++ [d] }

def namedQueries (c : Catalog) (b : Builder) : Builder :=
  { b with catalog := b.catalog.merge c }

def implement (name : String) (run : Method.Implementation) (b : Builder) : Builder :=
  { b with custom := b.custom.insert name run }

/-- An implemented method has the result kind of its first declaration. -/
def customMethod (declared : List Method.Declaration) (name : String)
    (run : Method.Implementation) : Method :=
  ⟨.custom run, (declared.find? (·.name = name)).bind (·.result), none⟩

/-- Resolves the declarations in order; the first one of a name stands. -/
def resolveAll (e : Entity) (catalog : Catalog) :
    List Method.Declaration → Dictionary Method → Except Error (Dictionary Method)
  | [], methods => .ok methods
  | d :: rest, methods => do
    if methods.contains d.name then resolveAll e catalog rest methods
    else resolveAll e catalog rest (methods.insert d.name (← Method.resolve e catalog d))

/-- The repository of a type. The text is that of the catalog file, if there is one; named queries
of the builder go before it. -/
def build (type : DocumentType) (settings : Settings) (catalogText : Option String)
    (b : Builder) : Except Error Repository := do
  let catalog : Catalog := ((catalogText.map Catalog.ofText).getD []).merge b.catalog
  let e ← type.entity
  let idField ← Field.named e.idProperty.fieldName
  let custom : Dictionary Method :=
    b.custom.map fun (name, run) => (name, customMethod b.declared name run)
  pure ⟨type, e, idField, settings, ← resolveAll e catalog b.declared custom⟩

end Builder

end SearchMapper.Repository
