import SearchMapper.Query.Field
import SearchMapper.Query.Value

namespace SearchMapper

inductive Conjunction
  | and
  | or
deriving DecidableEq

def Conjunction.word : Conjunction → String
  | and => "AND"
  | or => "OR"

/-- A test of the values of a field. In a range, `null` is an open bound. -/
inductive Predicate
  | is (value : Value)
  | isNot (value : Value)
  | startsWith (start : String)
  | endsWith (ending : String)
  | contains (part : String)
  | fuzzy (term : String) (distance : Option Number.Single)
  | expression (raw : String)
  | between (lower upper : Value) (includeLower includeUpper : Bool)
  | isNull
  | isNotNull

structure FieldNode where
  field : Field
  predicates : List Predicate
  boost : Option Number.Single

def FieldNode.fresh (field : Field) : FieldNode :=
  ⟨field, [], none⟩

inductive Node
  | field (node : FieldNode)
  | group (links : List (Conjunction × Node))

abbrev Link := Conjunction × Node

structure Criteria where
  links : List Link

namespace Criteria

mutual

def nodeIsEmpty : Node → Bool
  | .field node => node.predicates.isEmpty
  | .group links => linksAreEmpty links

def linksAreEmpty : List (Conjunction × Node) → Bool
  | [] => true
  | (_, node) :: rest => nodeIsEmpty node && linksAreEmpty rest

end

def isEmpty (c : Criteria) : Bool :=
  linksAreEmpty c.links

mutual

def lastInNode? : Node → Option FieldNode
  | .field node => some node
  | .group links => lastField? links

/-- The field that predicates go to: the last one of the chain, inside its group if it is in one. -/
def lastField? : List (Conjunction × Node) → Option FieldNode
  | [] => none
  | [(_, node)] => lastInNode? node
  | _ :: link :: rest => lastField? (link :: rest)

end

mutual

def updateInNode (f : FieldNode → FieldNode) : Node → Node
  | .field node => .field (f node)
  | .group links => .group (updateLast f links)

def updateLast (f : FieldNode → FieldNode) : List (Conjunction × Node) → List (Conjunction × Node)
  | [] => []
  | [(join, node)] => [(join, updateInNode f node)]
  | first :: link :: rest => first :: updateLast f (link :: rest)

end

def current? (c : Criteria) : Option FieldNode :=
  lastField? c.links

def update (c : Criteria) (f : FieldNode → FieldNode) : Criteria :=
  ⟨updateLast f c.links⟩

def push (c : Criteria) (p : Predicate) : Criteria :=
  c.update fun node => { node with predicates := node.predicates ++ [p] }

def pushAll (c : Criteria) (ps : List Predicate) : Criteria :=
  ps.foldl push c

theorem linksAreEmpty_eq_all (links : List Link) :
    linksAreEmpty links = links.all fun link => nodeIsEmpty link.2 := by
  induction links with
  | nil => rfl
  | cons link links ih => simp [linksAreEmpty, ih]

end Criteria

end SearchMapper
