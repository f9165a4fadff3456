import SearchMapper.Query.Basic
import SearchMapper.Query.Criteria.Rendering

namespace SearchMapper

structure FacetRequest where
  fields : List String
  limit : Nat
  minCount : Nat

structure Request where
  query : String
  filters : List String := []
  fields : List String := []
  start : Option Nat := none
  rows : Option Nat := none
  sort : List String := []
  groupFields : List String := []
  facet : Option FacetRequest := none

namespace Query

def toText (q : Query) : String :=
  (q.criteria.map Criteria.toText).getD ""

/-- The request for a query. Filters without predicates are left out. -/
def request (q : Query) : Except Error Request :=
  if q.toText = "" then .error .noPredicate
  else .ok {
    query := q.toText
    filters := (q.filters.map toText).filter (· ≠ "")
    fields := q.projection.map Field.name
    start := q.window.map Window.offset
    rows := q.window.map Window.size
    sort := (q.sort.getD []).map fun key => key.field.name ++ " " ++ key.direction.word
    groupFields := q.grouping.map Field.name }

/-- The request for a query with facets; without facet fields it asks for none. -/
def facetRequest (q : Query) (facets : Option FacetOptions) : Except Error Request := do
  let request ← q.request
  match facets with
  | some options =>
    if options.fields = [] then pure request
    else pure { request with
      facet := some ⟨options.fields.map Field.name, options.limit, options.minCount⟩ }
  | none => pure request

end Query

namespace Request

def optionalParam (key : String) : Option Nat → List (String × String)
  | some n => [(key, Number.ofNat n)]
  | none => []

def listParam (key : String) : List String → List (String × String)
  | [] => []
  | items => [(key, ",".intercalate items)]

def groupParams : List String → List (String × String)
  | [] => []
  | fields => ("group", "true") :: fields.map ("group.field", ·)

def facetParams : Option FacetRequest → List (String × String)
  | none => []
  | some facet =>
    ("facet", "true") :: facet.fields.map ("facet.field", ·) ++
      [("facet.limit", Number.ofNat facet.limit), ("facet.mincount", Number.ofNat facet.minCount)]

def params (r : Request) : List (String × String) :=
  ("q", r.query) :: r.filters.map ("fq", ·) ++ listParam "fl" r.fields ++
    optionalParam "start" r.start ++ optionalParam "rows" r.rows ++ listParam "sort" r.sort ++
    groupParams r.groupFields ++ facetParams r.facet

end Request

end SearchMapper
