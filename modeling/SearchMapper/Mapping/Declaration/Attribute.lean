import SearchMapper.Mapping.Declaration.Token.Reading

namespace SearchMapper.Declaration

/-- An item of an attribute: a word, a key with a string or another literal, or a key with a list
of its own. -/
inductive Item
  | word (path : String)
  | text (path value : String)
  | literal (path : String)
  | list (path : String)
deriving DecidableEq

/-- An attribute may have no list of items at all. -/
structure Attribute where
  name : String
  items : Option (List Item)

inductive Flaw
  | keyword (name : String)
  | noName (ended : Bool)
  | noSegment (ended : Bool)
  | noComma
deriving DecidableEq

def Flaw.message : Flaw → String
  | keyword name => s!"expected identifier, found keyword `{name}`"
  | noName ended => atEnd ended ++ "expected identifier"
  | noSegment ended => atEnd ended ++ "expected path segment after `::`"
  | noComma => "expected `,`"
where
  atEnd (ended : Bool) : String := if ended then "unexpected end of input, " else ""

/-- Some keywords name a place, and stand in paths as names do. -/
def isSegment (name : List Char) : Bool :=
  !isKeyword name || String.ofList name ∈ ["crate", "Self", "self", "super"]

/-- What follows the names in front, which are joined by `::`; `joined` behind such a mark. -/
def afterNames (joined : Bool) : List Token → Except Flaw (List Token)
  | .name n :: rest =>
    if isSegment n then
      match rest with
      | .mark [':', ':'] :: next => afterNames true next
      | rest => .ok rest
    else .error (if joined then .noSegment false else .keyword (String.ofList n))
  | ts => .error (if joined then .noSegment ts.isEmpty else .noName ts.isEmpty)

/-- What follows the path in front. The keyword `unsafe` is a path of its own. -/
def afterPath (ts : List Token) : Except Flaw (List Token) :=
  match ts with
  | .mark [':', ':'] :: rest => afterNames false rest
  | .name ['u', 'n', 's', 'a', 'f', 'e'] :: rest => .ok rest
  | _ => afterNames false ts

def checkPath (path : String) (following : List Token) : Except Flaw Unit := do
  if (← afterPath (Token.ofText path ++ following)) ≠ following then throw .noComma

/-- A name without the blanks and comments around it. Any other text stays as it is. -/
def bareName (s : String) : String :=
  match Token.ofText s with
  | [.name n] => String.ofList n
  | _ => s

namespace Item

def path : Item → String
  | word p | text p _ | literal p | list p => p

def mapPath (f : String → String) : Item → Item
  | word p => word (f p)
  | text p value => text (f p) value
  | literal p => literal (f p)
  | list p => list (f p)

/-- The token behind the path of an item. The last item may be a word, with nothing behind it. -/
def following (isLast : Bool) : Item → List Token
  | word _ => if isLast then [] else [.mark [',']]
  | text .. | literal _ => [.mark ['=']]
  | list _ => [.enclosed ['(', ')']]

def check : List Item → Except Flaw Unit
  | [] => .ok ()
  | i :: rest => do
    checkPath i.path (i.following rest.isEmpty)
    check rest

end Item

end SearchMapper.Declaration
