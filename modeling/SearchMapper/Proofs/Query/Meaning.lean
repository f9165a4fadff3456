import SearchMapper.Index.Reading
import SearchMapper.Query.Criteria.Basic

namespace SearchMapper

open Index (Test)

def Value.limit? : Value → Option String
  | null => none
  | v => some v.toText

namespace Predicate

/-- The test that a predicate is about. A raw expression is taken for a single token. -/
def test : Predicate → Test
  | is v | isNot v => .exact v.toText
  | startsWith start => .wildcard (start ++ "*")
  | endsWith ending => .wildcard ("*" ++ ending)
  | contains part => .wildcard ("*" ++ part ++ "*")
  | fuzzy term _ => .fuzzy term
  | expression raw => Index.Reading.tokenTest raw.toList
  | between lower upper includeLower includeUpper =>
    .range lower.limit? upper.limit? includeLower includeUpper
  | isNull | isNotNull => .range none none true true

def isNegation : Predicate → Bool
  | isNot _ => true
  | _ => false

def isExclusion : Predicate → Bool
  | isNot _ | isNull => true
  | _ => false

def holds (values : List String) (p : Predicate) : Bool :=
  if p.isExclusion then !p.test.holds values else p.test.holds values

end Predicate

namespace FieldNode

/-- One predicate speaks for itself, and negations alone exclude each of their terms. Otherwise one
of the plain predicates has to hold, and all of the exclusions. -/
def holdsOf (values : List String) : List Predicate → Bool
  | [p] => p.holds values
  | ps =>
    if ps.all Predicate.isNegation then ps.all (·.holds values)
    else (ps.any fun p => !p.isExclusion && p.holds values) &&
      ps.all fun p => !p.isExclusion || p.holds values

def holds (record : Record) (node : FieldNode) : Bool :=
  holdsOf (record.fieldValues node.field.name) node.predicates

end FieldNode

namespace Criteria

/-- A chain cut at each OR, since AND binds closer. What stands in front of the chain's first link
joins it to nothing. -/
def alternatives {α : Type} : List (Conjunction × α) → List (List α)
  | [] => []
  | [(_, a)] => [[a]]
  | (_, a) :: (.or, b) :: rest => [a] :: alternatives ((.or, b) :: rest)
  | (_, a) :: (.and, b) :: rest => (alternatives ((.and, b) :: rest)).modifyHead (a :: ·)

def chainHolds (chain : List (Conjunction × Bool)) : Bool :=
  (alternatives chain).any fun run => run.all id

mutual

def nodeHolds (record : Record) : Node → Bool
  | .field node => node.holds record
  | .group links => chainHolds (keptHolds record links)

/-- The links that carry a predicate, each by whether it holds. -/
def keptHolds (record : Record) : List (Conjunction × Node) → List (Conjunction × Bool)
  | [] => []
  | (join, node) :: rest =>
    if nodeIsEmpty node then keptHolds record rest
    else (join, nodeHolds record node) :: keptHolds record rest

end

def holds (record : Record) (c : Criteria) : Bool :=
  chainHolds (keptHolds record c.links)

end Criteria

end SearchMapper
