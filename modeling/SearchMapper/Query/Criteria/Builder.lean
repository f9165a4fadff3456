import SearchMapper.Query.Criteria.Basic

namespace SearchMapper.Criteria

def start (field : Field) : Criteria :=
  ⟨[(.and, .field (.fresh field))]⟩

def onField (name : String) : Except Error Criteria :=
  (Field.named name).map start

def raw (query : String) : Criteria :=
  (start .wildcard).push (.expression query)

def matchAll : Criteria :=
  raw "*:*"

def group (inner : Criteria) : Criteria :=
  ⟨[(.and, .group inner.links)]⟩

def link (c : Criteria) (join : Conjunction) (node : Node) : Criteria :=
  ⟨c.links ++ [(join, node)]⟩

def joinField (c : Criteria) (join : Conjunction) (field : Field) : Criteria :=
  c.link join (.field (.fresh field))

def joinNamed (c : Criteria) (join : Conjunction) (name : String) : Except Error Criteria :=
  (Field.named name).map (c.joinField join)

/-- Appends other criteria. A single link of theirs is taken over, more become a group. -/
def joinCriteria (c : Criteria) (join : Conjunction) (other : Criteria) : Criteria :=
  match other.links with
  | [(_, node)] => c.link join node
  | links => c.link join (.group links)

def andField (c : Criteria) (field : Field) : Criteria :=
  c.joinField .and field

def orField (c : Criteria) (field : Field) : Criteria :=
  c.joinField .or field

def andCriteria (c other : Criteria) : Criteria :=
  c.joinCriteria .and other

def orCriteria (c other : Criteria) : Criteria :=
  c.joinCriteria .or other

/-- Null asks for no value, and a list for each of its items. -/
def is (c : Criteria) (v : Value) : Criteria :=
  match v with
  | .null => c.push .isNull
  | .list items => c.pushAll (items.map .is)
  | v => c.push (.is v)

def isNot (c : Criteria) (v : Value) : Criteria :=
  match v with
  | .null => c.push .isNotNull
  | .list items => c.pushAll (items.map .isNot)
  | v => c.push (.isNot v)

def isIn (c : Criteria) (vs : List Value) : Except Error Criteria :=
  match vs.flatMap Value.items with
  | [] => .error (.noMembers false)
  | items => .ok (c.pushAll (items.map .is))

def notIn (c : Criteria) (vs : List Value) : Except Error Criteria :=
  match vs.flatMap Value.items with
  | [] => .error (.noMembers true)
  | items => .ok (c.pushAll (items.map .isNot))

/-- The text of a value that must stay one token of the query text. -/
def token (v : Value) (before after : String) : Except Error String :=
  let trimmed := String.ofList (Text.trim v.toText.toList)
  if Text.hasBlank trimmed then .error (.severalTokens (before ++ trimmed ++ after))
  else .ok trimmed

def startsWith (c : Criteria) (v : Value) : Except Error Criteria := do
  pure (c.push (.startsWith (← token v "" "*")))

def endsWith (c : Criteria) (v : Value) : Except Error Criteria := do
  pure (c.push (.endsWith (← token v "*" "")))

def contains (c : Criteria) (v : Value) : Except Error Criteria := do
  pure (c.push (.contains (← token v "*" "*")))

def fuzzy (c : Criteria) (v : Value) : Except Error Criteria := do
  pure (c.push (.fuzzy (← token v "" "~") none))

def isFraction (x : Number.Single) : Bool :=
  let atLeastZero := x.compare? (.zero .single false)
  let atMostOne := x.compare? (.ofNat .single 1)
  (atLeastZero = some .gt || atLeastZero = some .eq) &&
    (atMostOne = some .lt || atMostOne = some .eq)

/-- A fuzzy match whose distance lies between zero and one. -/
def fuzzyWithin (c : Criteria) (v : Value) (distance : Number.Single) : Except Error Criteria :=
  if isFraction distance then do
    let term ← token v "" ("~" ++ Number.plain.write distance)
    pure (c.push (.fuzzy term (some distance)))
  else .error (.distanceOutOfRange distance)

def expression (c : Criteria) (raw : String) : Criteria :=
  c.push (.expression raw)

def betweenWith (c : Criteria) (lower upper : Value) (includeLower includeUpper : Bool) :
    Criteria :=
  c.push (.between lower upper includeLower includeUpper)

def between (c : Criteria) (lower upper : Value) : Criteria :=
  c.betweenWith lower upper true true

def greaterThan (c : Criteria) (v : Value) : Criteria :=
  c.betweenWith v .null false true

def greaterThanEqual (c : Criteria) (v : Value) : Criteria :=
  c.betweenWith v .null true true

def lessThan (c : Criteria) (v : Value) : Criteria :=
  c.betweenWith .null v true false

def lessThanEqual (c : Criteria) (v : Value) : Criteria :=
  c.betweenWith .null v true true

def isNull (c : Criteria) : Criteria :=
  c.push .isNull

def isNotNull (c : Criteria) : Criteria :=
  c.push .isNotNull

def boost (c : Criteria) (factor : Number.Single) : Criteria :=
  c.update fun node => { node with boost := some factor }

end SearchMapper.Criteria
