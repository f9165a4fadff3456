import SearchMapper.Dictionary
import SearchMapper.Text.Blank
import SearchMapper.Text.Scan

namespace SearchMapper

abbrev Catalog := Dictionary String

namespace Catalog

def key (type method : String) : String :=
  type ++ "." ++ method

def merge (c other : Catalog) : Catalog :=
  c.insertAll other

/-- The lines of a text, each ended by a line feed, which may have a carriage return before it. A
last line without a line feed counts if it is not empty. -/
def lines (front : List Char) : List Char → List (List Char)
  | [] => if front = [] then [] else [front.reverse]
  | '\n' :: rest =>
    (match front with
    | '\r' :: front => front.reverse
    | front => front.reverse) :: lines [] rest
  | c :: rest => lines (c :: front) rest

def isComment : List Char → Bool
  | [] => true
  | c :: _ => c = '#' || c = '!'

/-- The entry of a full line: key and query at the sides of the first equals sign or colon. -/
def entryOf? (line : List Char) : Option (String × String) :=
  let isMark (c : Char) := c = '=' || c = ':'
  match Text.span (fun c => !isMark c) line with
  | (_, []) => none
  | (front, _ :: rest) =>
    match Text.trim front with
    | [] => none
    | key => some (String.ofList key, String.ofList (Text.trim rest))

/-- The entries of lines; `pending` is the text before a backslash at the end of the line before.
Within a continued line nothing is a comment. -/
def entries (pending : List Char) : List (List Char) → List (String × String)
  | [] => []
  | line :: rest =>
    let line := Text.trimStart line
    if pending = [] ∧ isComment line then entries [] rest
    else match Text.before? ['\\'] line with
      | some continued => entries (pending ++ continued) rest
      | none => (entryOf? (pending ++ line)).toList ++ entries [] rest

def ofText (s : String) : Catalog :=
  .ofList (entries [] (lines [] s.toList))

end Catalog

end SearchMapper
