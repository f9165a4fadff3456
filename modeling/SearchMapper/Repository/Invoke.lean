import SearchMapper.Repository.Builder

namespace SearchMapper.Repository

open Method (Invocation Strategy)

def withDefaultWindow (r : Repository) (q : Query) : Session Query :=
  match q.window with
  | some _ => pure q
  | none => do
    pure (q.withWindow (← Session.ofExcept (Window.page 0 r.settings.defaultPageSize)))

/-- Counts the matches and, if there are any, deletes them. -/
def deleteMatching (r : Repository) (q : Query) : Session Nat := do
  let matched ← Session.count q
  if 0 < matched then
    Session.deleteMatches q
    r.commitWrite
  pure matched

def run (r : Repository) (kind : ResultKind) (facets : Option FacetOptions) (q : Query) :
    Session Outcome :=
  match kind with
  | .one => .one <$> Session.findOne r.type q
  | .list =>
    match q.window with
    | some _ => do pure (.list (← Session.findPage r.type q).content)
    | none => .list <$> r.findMatching q
  | .page => do
    let q ← r.withDefaultWindow q
    .page <$> Session.findPage r.type q
  | .facet => do
    let q ← r.withDefaultWindow q
    .facets <$> Session.findFacetPage r.type q facets
  | .count => .count <$> Session.count q
  | .existence => do pure (.existence (0 < (← Session.count q)))
  | .deletion => .deletion <$> r.deleteMatching q

/-- The sort keys and the window of a call; its window replaces that of the query. -/
def arranged (i : Invocation) (q : Query) : Query :=
  let q := match i.sort with
    | some keys => q.addSort keys
    | none => q
  match i.window with
  | some w => q.withWindow w
  | none => q

def invoke (r : Repository) (name : String) (i : Invocation) : Session Outcome :=
  match r.methods.find? name with
  | none => throw (.undeclaredMethod name r.type.name)
  | some method =>
    let runQuery (q : Except Error Query) : Session Outcome := do
      let q := arranged i (← Session.ofExcept q)
      match method.result with
      | none => throw .noResultKind
      | some kind => r.run kind method.facets q
    match method.strategy with
    | .custom run => run i
    | .named template | .annotated template => runQuery (Template.query template i.args)
    | .derived finder => runQuery (finder.query i.args)

end SearchMapper.Repository
