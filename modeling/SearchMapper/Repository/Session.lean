import SearchMapper.Index.Store
import SearchMapper.Mapping.DocumentType
import SearchMapper.Query.Page

namespace SearchMapper

/-- A step that fails keeps what it has done to the store before. -/
abbrev Session := EStateM Error Store

namespace Session

variable {α : Type}

def ofExcept : Except Error α → Session α
  | .ok a => pure a
  | .error e => throw e

def onStore (step : Store → Except Index.Refusal α × Store) : Session α := fun s =>
  match step s with
  | (.ok a, s) => .ok a s
  | (.error cause, s) => .error (.refused cause) s

def execute (r : Request) : Session Response :=
  onStore (Store.query r)

def documents (type : DocumentType) (records : List Record) : Session (List Json) := do
  let e ← ofExcept type.entity
  ofExcept (records.mapM (type.read e))

def findOne (type : DocumentType) (q : Query) : Session (Option Json) := do
  let request ← ofExcept q.request
  let response ← execute { request with rows := some 1 }
  let found ← documents type (response.records.take 1)
  pure found.head?

def findPage (type : DocumentType) (q : Query) : Session (Page Json) := do
  let response ← execute (← ofExcept q.request)
  pure ⟨← documents type response.records, q.window, response.total⟩

def findFacetPage (type : DocumentType) (q : Query) (facets : Option FacetOptions) :
    Session (FacetPage Json) := do
  let response ← execute (← ofExcept (q.facetRequest facets))
  let page := ⟨← documents type response.records, q.window, response.total⟩
  let fields := (facets.map FacetOptions.fields).getD []
  pure <| fields.foldl
    (fun page field => page.addCounts field ((response.facets.find? field.name).getD []))
    { page := page }

/-- The number of all documents that match, whatever the window and the order. -/
def count (q : Query) : Session Nat := do
  let request ← ofExcept q.request
  let response ← execute { request with rows := some 0, start := none, sort := [] }
  pure response.total

def save (type : DocumentType) (docs : List Json) : Session Unit := do
  if docs.isEmpty then return
  let e ← ofExcept type.entity
  let records ← ofExcept (docs.mapM (Record.ofDocument e))
  onStore (Store.add records)

def deleteIds (ids : List String) : Session Unit :=
  modify (Store.deleteIds ids)

def deleteMatches (q : Query) : Session Unit := do
  let request ← ofExcept q.request
  onStore (Store.deleteMatches request.query)

def commit : Session Unit :=
  modify Store.commit

def rollback : Session Unit :=
  modify Store.rollback

end Session

end SearchMapper
