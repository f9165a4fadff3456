import SearchMapper.Repository.Method
import SearchMapper.Settings

namespace SearchMapper

structure Repository where
  type : DocumentType
  entity : Entity
  idField : Field
  settings : Settings
  methods : Dictionary Method

namespace Repository

def maxRows : Nat := UInt32.size - 1

/-- All documents that match: counts them and reads one page of that size. -/
def findMatching (r : Repository) (q : Query) : Session (List Json) := do
  let total ← Session.count q
  if total = 0 then pure []
  else
    let window ← Session.ofExcept (Window.ofOffset 0 (min total maxRows))
    pure (← Session.findPage r.type (q.withWindow window)).content

def commitWrite (r : Repository) : Session Unit :=
  if r.settings.commitOnWrite then Session.commit else pure ()

def byId (r : Repository) (id : Value) : Query :=
  .ofCriteria ((Criteria.start r.idField).is id)

def findById (r : Repository) (id : Value) : Session (Option Json) :=
  Session.findOne r.type (r.byId id)

def findAll (r : Repository) : Session (List Json) :=
  r.findMatching .matchAll

def findAllByIds (r : Repository) (ids : List Value) : Session (List Json) :=
  if ids.isEmpty then pure []
  else do
    let criteria ← Session.ofExcept ((Criteria.start r.idField).isIn ids)
    let window ← Session.ofExcept (Window.ofOffset 0 (min ids.length maxRows))
    pure (← Session.findPage r.type ((Query.ofCriteria criteria).withWindow window)).content

def count (_ : Repository) : Session Nat :=
  Session.count .matchAll

def existsById (r : Repository) (id : Value) : Session Bool := do
  pure (0 < (← Session.count (r.byId id)))

def saveAll (r : Repository) (docs : List Json) : Session Unit := do
  Session.save r.type docs
  r.commitWrite

def save (r : Repository) (doc : Json) : Session Unit :=
  r.saveAll [doc]

def delete (r : Repository) (doc : Json) : Session Unit := do
  let record ← Session.ofExcept (Record.ofDocument r.entity doc)
  match record.valueText? r.idField.name with
  | none => throw (.deleteWithoutId r.type.name)
  | some id =>
    Session.deleteIds [id]
    r.commitWrite

def deleteById (r : Repository) (id : Value) : Session Unit := do
  Session.deleteIds [id.toText]
  r.commitWrite

def deleteAll (r : Repository) : Session Unit := do
  Session.deleteMatches .matchAll
  r.commitWrite

def findAllPaged (r : Repository) (window : Window) : Session (Page Json) :=
  Session.findPage r.type (Query.matchAll.withWindow window)

def findAllSorted (r : Repository) (keys : List SortKey) : Session (List Json) :=
  r.findMatching (Query.matchAll.addSort keys)

end Repository

end SearchMapper
