import SearchMapper.Mapping.Declaration.Token.Basic
import SearchMapper.Text.Blank

namespace SearchMapper.Declaration.Token

/-- Three slashes or two stars document what follows, and a `!` what is around. One more of the same
mark, or nothing inside, makes a plain comment. -/
def isDocumentation : List Char → Bool
  | '/' :: '/' :: '!' :: _ | '/' :: '*' :: '!' :: _ => true
  | '/' :: '/' :: '/' :: s => s.head? ≠ some '/'
  | '/' :: '*' :: '*' :: s => s.head? ≠ some '*' && s.head? ≠ some '/'
  | _ => false

/-- Controls and blanks other than a space are written by their numbers. -/
def escape (c : Char) : List Char :=
  match c with
  | ' ' => [' ']
  | '"' => ['\\', '"']
  | '\\' => ['\\', '\\']
  | '\n' => ['\\', 'n']
  | '\r' => ['\\', 'r']
  | '\t' => ['\\', 't']
  | '\x00' => ['\\', '0']
  | c =>
    if c.toNat < 32 || (127 ≤ c.toNat && c.toNat < 160) || Text.isBlank c then
      "\\u\x7b".toList ++ Nat.toDigits 16 c.toNat ++ ['\x7d']
    else [c]

/-- What a comment holds. The break of a line may begin with a return, which is no part of it. -/
def commentBody : List Char → List Char
  | '/' :: '/' :: _ :: s => if s.getLast? = some '\r' then s.dropLast else s
  | s => (s.drop 3).dropLast.dropLast

def documentation (comment : List Char) : Token :=
  let around := if comment[2]? = some '!' then ['!'] else []
  let value := '"' :: (commentBody comment).flatMap escape ++ ['"']
  enclosed ('#' :: around ++ "[doc=".toList ++ value ++ [']'])

end SearchMapper.Declaration.Token
