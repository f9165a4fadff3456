import SearchMapper.MethodName.Finder
import SearchMapper.Query.Template
import SearchMapper.Repository.Catalog
import SearchMapper.Repository.Outcome
import SearchMapper.Repository.Session

namespace SearchMapper

namespace Method

structure Declaration where
  name : String
  template : Option String := none
  result : Option Repository.ResultKind := none
  facets : Option FacetOptions := none

structure Invocation where
  args : List Value := []
  window : Option Window := none
  sort : Option (List SortKey) := none

abbrev Implementation := Invocation → Session Outcome

inductive Strategy
  | custom (run : Implementation)
  | named (template : String)
  | annotated (template : String)
  | derived (finder : Finder)

end Method

structure Method where
  strategy : Method.Strategy
  /-- None for a custom method that declares none. -/
  result : Option Repository.ResultKind
  facets : Option FacetOptions

namespace Method

open MethodName (Subject)
open Repository (ResultKind)

def defaultResult (subject : Subject) (limit : Option Nat) (faceted : Bool) : ResultKind :=
  match subject with
  | .count => .count
  | .present => .existence
  | .delete => .deletion
  | .find => if faceted then .facet else if limit = some 1 then .one else .list

/-- The result of a method with a template, as far as its name tells. -/
def templateResult (name : String) (faceted : Bool) : ResultKind :=
  match MethodName.ofText name with
  | .ok m => defaultResult m.subject m.limit faceted
  | .error _ => if faceted then .facet else .list

def resolve (e : Entity) (catalog : Catalog) (d : Declaration) : Except Error Method :=
  let ofTemplate (strategy : Strategy) : Method :=
    ⟨strategy, some (d.result.getD (templateResult d.name d.facets.isSome)), d.facets⟩
  -- A template in the catalog goes before the one that is declared.
  match catalog.find? (Catalog.key e.typeName d.name), d.template with
  | some template, _ => .ok (ofTemplate (.named template))
  | none, some template => .ok (ofTemplate (.annotated template))
  | none, none => do
    let m ← MethodName.ofText d.name
    let finder ← Finder.ofMethodName m e
    let result := d.result.getD (defaultResult m.subject m.limit d.facets.isSome)
    pure ⟨.derived finder, some result, d.facets⟩

end Method

end SearchMapper
