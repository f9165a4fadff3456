import SearchMapper.Mapping.Declaration.Token.Basic

namespace SearchMapper.Declaration.Token

def splitArguments : List Token → List (List Token)
  | [] => []
  | t :: ts =>
    if t = mark [','] then [t] :: splitArguments ts
    else match splitArguments ts with
      | [] => [[t]]
      | argument :: rest => (t :: argument) :: rest

/-- Whether an argument is a lifetime. Behind a `+`, it would be a bound of a type. -/
def isLifetime : List Token → Bool
  | lifetime _ :: mark ['+'] :: _ => false
  | lifetime _ :: _ => true
  | _ => false

/-- Tokens of arguments with lifetimes in front. A lifetime that was the last argument may lack a
comma, and gets one if others come behind it. -/
def lifetimesFirst (ts : List Token) : List Token :=
  let (lifetimes, others) := (splitArguments ts).partition isLifetime
  let front := lifetimes.flatten
  if others.isEmpty || front.getLast?.all (· = mark [',']) then front ++ others.flatten
  else front ++ mark [','] :: others.flatten

/-- Tokens of parameters, where a colon without any bounds behind it is left out. -/
def withoutEmptyBounds : List Token → List Token
  | [] => []
  | t :: ts =>
    if t = mark [':'] ∧ ts.head? ∈ [none, some (mark [',']), some (mark ['='])] then
      withoutEmptyBounds ts
    else t :: withoutEmptyBounds ts

/-- Whether parameters of an item would follow, from the tokens before them, the latest in front. -/
def leadsParameters : List Token → Bool
  | name ['i', 'm', 'p', 'l'] :: _ => true
  | name _ :: name word :: _ =>
    String.ofList word ∈ ["fn", "struct", "enum", "union", "trait", "type"]
  | _ => false

/-- What angle brackets hold, with them. An item without parameters needs no brackets, and lifetimes
that `for` introduces in front of a type keep their order. -/
def angled (before inner : List Token) : List Token :=
  let bound := before.head? = some (name ['f', 'o', 'r'])
  let kept := if bound || leadsParameters before then withoutEmptyBounds inner else inner
  let ordered := if bound then kept else lifetimesFirst kept
  if leadsParameters before && inner.isEmpty then []
  else [enclosed ('<' :: textOf ordered ++ ['>'])]

end SearchMapper.Declaration.Token
