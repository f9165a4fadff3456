import SearchMapper.Json.Basic
import SearchMapper.Query.Page
import SearchMapper.Repository.ResultKind

namespace SearchMapper

open Repository (ResultKind)

inductive Outcome
  | one (document : Option Json)
  | list (documents : List Json)
  | page (page : Page Json)
  | facets (page : FacetPage Json)
  | count (n : Nat)
  | existence (found : Bool)
  | deletion (n : Nat)

namespace Outcome

def kind : Outcome → ResultKind
  | one _ => .one
  | list _ => .list
  | page _ => .page
  | facets _ => .facet
  | count _ => .count
  | existence _ => .existence
  | deletion _ => .deletion

def toOne : Outcome → Except Error (Option Json)
  | one document => .ok document
  | other => .error (.otherResult .one other.kind)

/-- A page is a list too. -/
def toList : Outcome → Except Error (List Json)
  | list documents => .ok documents
  | page p => .ok p.content
  | other => .error (.otherResult .list other.kind)

def toPage : Outcome → Except Error (Page Json)
  | page p => .ok p
  | facets p => .ok p.page
  | other => .error (.otherResult .page other.kind)

def toFacetPage : Outcome → Except Error (FacetPage Json)
  | facets p => .ok p
  | other => .error (.otherResult .facet other.kind)

def toCount : Outcome → Except Error Nat
  | count n => .ok n
  | other => .error (.otherResult .count other.kind)

def toExistence : Outcome → Except Error Bool
  | existence found => .ok found
  | other => .error (.otherResult .existence other.kind)

def toDeletion : Outcome → Except Error Nat
  | deletion n => .ok n
  | other => .error (.otherResult .deletion other.kind)

end Outcome

end SearchMapper
