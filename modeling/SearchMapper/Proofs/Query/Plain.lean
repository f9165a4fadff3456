import SearchMapper.Proofs.Query.Meaning
import SearchMapper.Query.Criteria.Rendering

namespace SearchMapper

open Index (Reading.endsField Reading.endsRange Reading.endsToken)

namespace Plain

/-- A single token that asks for no similar terms. -/
def isWord (s : List Char) : Bool :=
  s.all fun c => !Reading.endsToken c && c ≠ '~'

/-- Nothing that opens a phrase or a range, and none of the characters barred at the place: a minus
negates what follows it in a group, and behind the colon of a field a parenthesis opens one. -/
def startsFree (barred : List Char) (s : List Char) : Bool :=
  s.head?.all fun c => c ∉ ['"', '[', '\x7b'] && c ∉ barred

def isQuoted (s : String) : Bool :=
  s = "" || Text.hasBlank s

def isName (name : String) : Bool :=
  name ≠ "*" && name.toList.head? ≠ some '-' && name.toList.all fun c => !Reading.endsField c

def isFactor (x : Number.Single) : Bool :=
  let written : Number.Double := x.convert .double
  written.isFinite && !written.isNegative

def isTerm (barred : List Char) : Value → Bool
  | .instant _ => true
  | v =>
    if isQuoted v.toText then '\\' ∉ v.toText.toList
    else isWord v.toText.toList && '*' ∉ v.toText.toList && startsFree barred v.toText.toList

def isBound : Value → Bool
  | .null | .instant _ => true
  | v =>
    (v.toText.toList.all fun c => !Reading.endsRange c) &&
      if isQuoted v.toText then '"' ∉ v.toText.toList
      else v.toText ≠ "*" && v.toText.toList.head? ≠ some '"' &&
        v.toText.toList.getLast? ≠ some '"'

def isPredicate (barred : List Char) : Predicate → Bool
  | .is v | .isNot v => isTerm barred v
  | .startsWith start => isWord start.toList && startsFree barred start.toList
  | .endsWith s | .contains s => isWord s.toList
  | .fuzzy term _ => isWord term.toList && startsFree barred term.toList
  | .expression raw =>
    raw ≠ "" && (raw.toList.all fun c => !Reading.endsToken c) && startsFree barred raw.toList
  | .between lower upper _ _ =>
    isBound lower && isBound upper && !Text.occursIn " TO ".toList lower.toText.toList
  | .isNull | .isNotNull => true

/-- Behind the minus of an exclusion another minus is part of the term. -/
def arePredicates : List Predicate → Bool
  | [p] => isPredicate ['('] p
  | ps =>
    if ps.all Predicate.isNegation then ps.all (isPredicate ['-'])
    else ps.all fun p => isPredicate (if p.isNegation then [] else ['-']) p

def isField (node : FieldNode) : Bool :=
  node.predicates.isEmpty ||
    isName node.field.name && node.boost.all isFactor && arePredicates node.predicates

mutual

def isNode : Node → Bool
  | .field node => isField node
  | .group links => areLinks links

def areLinks : List (Conjunction × Node) → Bool
  | [] => true
  | (_, node) :: rest => isNode node && areLinks rest

end

end Plain

def Criteria.isPlain (c : Criteria) : Bool :=
  Plain.areLinks c.links

end SearchMapper
