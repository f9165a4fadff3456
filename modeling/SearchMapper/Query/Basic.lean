import SearchMapper.Query.Criteria.Builder
import SearchMapper.Query.Window

namespace SearchMapper

inductive Direction
  | asc
  | desc
deriving DecidableEq

def Direction.word : Direction → String
  | asc => "asc"
  | desc => "desc"

structure SortKey where
  field : Field
  direction : Direction
deriving DecidableEq

structure Query where
  criteria : Option Criteria := none
  filters : List Query := []
  projection : List Field := []
  grouping : List Field := []
  window : Option Window := none
  sort : Option (List SortKey) := none

namespace Query

def ofCriteria (c : Criteria) : Query :=
  { criteria := some c }

def matchAll : Query :=
  ofCriteria .matchAll

/-- Adds criteria as an alternative. A root of several links becomes a group first, so that the
alternative is one to all of it. -/
def addCriteria (q : Query) (c : Criteria) : Query :=
  { q with criteria := some <|
      match q.criteria with
      | none => c
      | some root => ((if 1 < root.links.length then .group root else root).orCriteria c) }

def addFilter (q filter : Query) : Query :=
  { q with filters := q.filters ++ [filter] }

def project (q : Query) (field : Field) : Query :=
  { q with projection := q.projection ++ [field] }

def groupBy (q : Query) (field : Field) : Query :=
  { q with grouping := q.grouping ++ [field] }

def withWindow (q : Query) (w : Window) : Query :=
  { q with window := some w }

/-- The keys order what the earlier keys leave equal. -/
def addSort (q : Query) (keys : List SortKey) : Query :=
  { q with sort := some (q.sort.getD [] ++ keys) }

end Query

structure FacetOptions where
  fields : List Field
  limit : Nat := 10
  minCount : Nat := 1

end SearchMapper
