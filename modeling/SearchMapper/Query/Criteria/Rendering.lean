import SearchMapper.Query.Criteria.Basic

namespace SearchMapper

namespace Value

def isInstant : Value → Bool
  | instant _ => true
  | _ => false

def quoted (s : String) : String :=
  "\"" ++ String.ofList (s.toList.flatMap fun c => if c = '"' then ['\\', '"'] else [c]) ++ "\""

/-- A value in the place of a term. Quotes keep an empty text, and one with blanks, one term. -/
def term (v : Value) : String :=
  let raw := v.toText
  if raw = "" ∨ Text.hasBlank raw ∨ v.isInstant then quoted raw else raw

def bound : Value → String
  | null => "*"
  | instant t => t.text
  | v => v.term

end Value

def Predicate.fragment : Predicate → String
  | is v => v.term
  | isNot v => "-" ++ v.term
  | startsWith start => start ++ "*"
  | endsWith ending => "*" ++ ending
  | contains part => "*" ++ part ++ "*"
  | fuzzy term none => term ++ "~"
  | fuzzy term (some distance) => term ++ "~" ++ Number.plain.write distance
  | expression raw => raw
  | between lower upper includeLower includeUpper =>
    (if includeLower then "[" else "\x7b") ++ lower.bound ++ " TO " ++ upper.bound ++
      (if includeUpper then "]" else "\x7d")
  | isNull => "-[* TO *]"
  | isNotNull => "[* TO *]"

def Predicate.excluded? : Predicate → Option Value
  | isNot v => some v
  | _ => none

namespace FieldNode

def qualifier (node : FieldNode) : String :=
  if node.field.isWildcard then "" else node.field.name ++ ":"

def parenthesized (parts : List String) : String :=
  "(" ++ " ".intercalate parts ++ ")"

/-- The predicates behind the name of the field. A group of negations alone would match nothing,
so then the field is negated instead. -/
def predicatesText? (node : FieldNode) : Option String :=
  match node.predicates with
  | [] => none
  | [.isNot v] => some ("-" ++ node.qualifier ++ v.term)
  | [.isNull] => some ("-" ++ node.qualifier ++ "[* TO *]")
  | [p] => some (node.qualifier ++ p.fragment)
  | ps =>
    match ps.mapM Predicate.excluded? with
    | some vs => some ("-" ++ node.qualifier ++ parenthesized (vs.map Value.term))
    | none => some (node.qualifier ++ parenthesized (ps.map Predicate.fragment))

def boostText : Option Number.Single → String
  | none => ""
  | some factor => "^" ++ Value.floatText (factor.convert .double)

def text? (node : FieldNode) : Option String :=
  node.predicatesText?.map (· ++ boostText node.boost)

end FieldNode

namespace Criteria

def joined (out : String) (join : Conjunction) (text : String) : String :=
  if out = "" then text else out ++ " " ++ join.word ++ " " ++ text

def filled (links : List (Conjunction × Node)) : List (Conjunction × Node) :=
  links.filter fun link => !nodeIsEmpty link.2

mutual

/-- A node without predicates has no text, and parentheses stand around more than one link. -/
def nodeText? : Node → Option String
  | .field node => node.text?
  | .group links =>
    let text := linksText "" links
    match (filled links).length with
    | 0 => none
    | 1 => some text
    | _ => some ("(" ++ text ++ ")")

def linksText (out : String) : List (Conjunction × Node) → String
  | [] => out
  | (join, node) :: rest =>
    match nodeText? node with
    | none => linksText out rest
    | some text => linksText (joined out join text) rest

end

def toText (c : Criteria) : String :=
  linksText "" c.links

end Criteria

end SearchMapper
