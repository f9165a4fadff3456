import SearchMapper.Mapping.Declaration.Token.Arguments

namespace SearchMapper.Declaration.Token

/-- Splits a path off tokens, which come with the latest in front. -/
def splitPath : List Token → List Token × List Token
  | name n :: mark [':', ':'] :: name m :: before =>
    let (path, before) := splitPath (name m :: before)
    (name n :: mark [':', ':'] :: path, before)
  | name n :: before => ([name n], before)
  | before => ([], before)

/-- Puts a token behind others. The mark `?` of a bound goes before the lifetimes that `for`
introduces, a macro has no such lifetimes, and a `::` that leads to round brackets is left out. -/
def put (done : List Token) : Token → List Token
  | mark ['?'] =>
    match done with
    | enclosed ('<' :: t) :: name ['f', 'o', 'r'] :: rest =>
      enclosed ('<' :: t) :: name ['f', 'o', 'r'] :: mark ['?'] :: rest
    | _ => mark ['?'] :: done
  | mark ['!'] =>
    match splitPath done with
    | (path, enclosed ('<' :: _) :: name ['f', 'o', 'r'] :: rest) => mark ['!'] :: path ++ rest
    | _ => mark ['!'] :: done
  | enclosed ('(' :: t) =>
    match done with
    | mark [':', ':'] :: rest => enclosed ('(' :: t) :: rest
    | _ => enclosed ('(' :: t) :: done
  | t => t :: done

def step : List Token × List (List Token) → Token → List Token × List (List Token)
  | (done, outer), mark ['<'] => ([], done :: outer)
  | (done, before :: outer), mark ['>'] => (angled before done.reverse ++ before, outer)
  | (done, outer), t => (put done t, outer)

/-- Tokens as they are printed. An angle bracket without a partner stays where it is. -/
def arranged (ts : List Token) : List Token :=
  let (done, outer) := ts.foldl step ([], [])
  -- A comparison in a constant may look like a bracket. But only true arguments hold a lifetime
  -- between commas, so that nothing moves between false brackets.
  (outer.foldl (fun behind before => behind ++ mark ['<'] :: before) done).reverse

end SearchMapper.Declaration.Token
