import SearchMapper.Mapping.Declaration.Token.Arrangement
import SearchMapper.Mapping.Declaration.Token.Documentation
import SearchMapper.Text.Blank
import SearchMapper.Text.Scan

namespace SearchMapper.Declaration.Token

/-- Tokens are separated by blanks, and by the marks that set a direction of writing. -/
def isSeparator (c : Char) : Bool :=
  Text.isBlank c || c = '\u200e' || c = '\u200f'

def isNameChar (c : Char) : Bool :=
  c.isAlphanum || c = '_' || (127 < c.toNat && !isSeparator c)

def nameSize (s : List Char) : Nat :=
  (s.takeWhile isNameChar).length

def commentSize (depth : Nat) : List Char → Nat
  | [] => 0
  | '/' :: '*' :: s => 2 + commentSize (depth + 1) s
  | '*' :: '/' :: s => if depth = 0 then 2 else 2 + commentSize (depth - 1) s
  | _ :: s => 1 + commentSize depth s

def quotedSize (quote : Char) : List Char → Nat
  | [] => 0
  | '\\' :: _ :: s => 2 + quotedSize quote s
  | c :: s => if c = quote then 1 else 1 + quotedSize quote s

def rawSize (ending : List Char) : List Char → Nat
  | [] => 0
  | c :: s =>
    if (Text.after? ending (c :: s)).isSome then ending.length else 1 + rawSize ending s

abbrev Kind := Option (List Char → Token)

/-- A piece that begins with a name. A name can open a string, and `r#` makes a name of a word. -/
def wordAt (s : List Char) : Kind × Nat :=
  let size := nameSize s
  let word := String.ofList (s.take size)
  let hashes := ((s.drop size).takeWhile (· = '#')).length
  match s.drop (size + hashes) with
  | '"' :: r =>
    if word ∈ ["r", "br", "cr"] then
      (some literal, size + hashes + 1 + rawSize ('"' :: List.replicate hashes '#') r)
    else if word ∈ ["b", "c"] ∧ hashes = 0 then (some literal, size + 1 + quotedSize '"' r)
    else (some name, size)
  | '\'' :: r =>
    if word = "b" ∧ hashes = 0 then (some literal, size + 1 + quotedSize '\'' r)
    else (some name, size)
  | r =>
    if word = "r" ∧ hashes = 1 then (some name, size + 1 + nameSize r)
    else if s.head?.any Char.isDigit then (some literal, size)
    else (some name, size)

def commentKind (s : List Char) : Kind :=
  if isDocumentation s then some documentation else none

def pieceAt (s : List Char) : Kind × Nat :=
  match s with
  | '/' :: '/' :: r => (commentKind s, 2 + (r.takeWhile (· ≠ '\n')).length)
  | '/' :: '*' :: r => (commentKind s, 2 + commentSize 0 r)
  | '"' :: r => (some literal, 1 + quotedSize '"' r)
  | '\'' :: '\\' :: r => (some literal, 3 + quotedSize '\'' (r.drop 1))
  | '\'' :: _ :: '\'' :: _ => (some literal, 3)
  | '\'' :: 'r' :: '#' :: r => (some lifetime, 3 + nameSize r)
  | '\'' :: r => (some lifetime, 1 + nameSize r)
  | '-' :: '>' :: _ | ':' :: ':' :: _ => (some mark, 2)
  | c :: _ =>
    if isNameChar c then wordAt s
    else if isSeparator c then (none, 1)
    else (some mark, 1)
  | [] => (none, 0)

def isOpening (c : Char) : Bool :=
  c = '(' || c = '[' || c = '\x7b'

def isClosing (c : Char) : Bool :=
  c = ')' || c = ']' || c = '\x7d'

/-- Whether brackets would hold the tokens of a macro or an attribute, from the tokens before them,
the latest in front. -/
def leadsPlain : List Token → Bool
  | mark ['#'] :: _ | mark ['!'] :: mark ['#'] :: _ => true
  | mark ['!'] :: name n :: _ => !isKeyword n
  | _ => false

/-- The tokens up to a closing bracket that none of them opens, and the text from there. What
brackets hold stays as written where `plain` says so, and inside of it. The tokens before the text
come with the latest in front. -/
def read (plain : Bool) (before : List Token) (s : List Char) :
    List Token × { rest : List Char // rest.length ≤ s.length } :=
  match s with
  | [] => ([], ⟨[], Nat.le_refl _⟩)
  | c :: r =>
    if isClosing c then ([], ⟨c :: r, Nat.le_refl _⟩)
    else if isOpening c then
      let plainInside := plain || leadsPlain before
      let (inner, ⟨ending, _⟩) := read plainInside [] r
      let inner := if plainInside then inner else arranged inner
      let group := enclosed (c :: textOf inner ++ ending.take 1)
      let (more, ⟨rest, _⟩) := read plain (group :: before) (ending.drop 1)
      (group :: more, ⟨rest, by simp_all; omega⟩)
    else
      let (kind, size) := pieceAt (c :: r)
      let token := (kind.map fun token => token (c :: r.take (size - 1))).toList
      let (more, ⟨rest, _⟩) := read plain (token ++ before) (r.drop (size - 1))
      (token ++ more, ⟨rest, by simp_all; omega⟩)
termination_by s.length
decreasing_by
  all_goals
    simp only [List.length_drop, List.length_cons] at *
    omega

def ofText (s : String) : List Token :=
  (read false [] s.toList).1

end SearchMapper.Declaration.Token
