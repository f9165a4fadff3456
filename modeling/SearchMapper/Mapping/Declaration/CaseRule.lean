import SearchMapper.Text.Scan

namespace SearchMapper.Declaration

inductive CaseRule
  | lower
  | upper
  | pascal
  | camel
  | snake
  | screamingSnake
  | kebab
deriving DecidableEq

namespace CaseRule

def ofName? : String → Option CaseRule
  | "lowercase" => some lower
  | "UPPERCASE" => some upper
  | "PascalCase" => some pascal
  | "camelCase" => some camel
  | "snake_case" => some snake
  | "SCREAMING_SNAKE_CASE" => some screamingSnake
  | "kebab-case" => some kebab
  | _ => none

def mapFirst (f : Char → Char) : List Char → List Char
  | [] => []
  | c :: s => f c :: s

def pascalText (s : List Char) : List Char :=
  (Text.pieces '_' s).flatMap (mapFirst Char.toUpper)

def apply : CaseRule → List Char → List Char
  | lower, s | snake, s => s
  | upper, s | screamingSnake, s => s.map Char.toUpper
  | pascal, s => pascalText s
  | camel, s => mapFirst Char.toLower (pascalText s)
  | kebab, s => s.map fun c => if c = '_' then '-' else c

end CaseRule

end SearchMapper.Declaration
