namespace SearchMapper.Repository

inductive ResultKind
  | one
  | list
  | page
  | facet
  | count
  | existence
  | deletion
deriving DecidableEq

def ResultKind.label : ResultKind → String
  | one => "one"
  | list => "list"
  | page => "page"
  | facet => "facet page"
  | count => "count"
  | existence => "exists"
  | deletion => "delete"

end SearchMapper.Repository
