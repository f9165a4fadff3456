import SearchMapper.Text.Scan

namespace SearchMapper.MethodName

inductive Keyword
  | simpleProperty
  | negating
  | isTrue
  | isFalse
  | like
  | notLike
  | startingWith
  | endingWith
  | containing
  | notContaining
  | regex
  | near
  | within
  | greaterThan
  | greaterThanEqual
  | lessThan
  | lessThanEqual
  | before
  | after
  | between
  | isIn
  | notIn
  | isNull
  | isNotNull
  | present
  | isEmpty
  | isNotEmpty
deriving DecidableEq

namespace Keyword

def name : Keyword → String
  | simpleProperty => "SIMPLE_PROPERTY"
  | negating => "NEGATING_SIMPLE_PROPERTY"
  | isTrue => "TRUE"
  | isFalse => "FALSE"
  | like => "LIKE"
  | notLike => "NOT_LIKE"
  | startingWith => "STARTING_WITH"
  | endingWith => "ENDING_WITH"
  | containing => "CONTAINING"
  | notContaining => "NOT_CONTAINING"
  | regex => "REGEX"
  | near => "NEAR"
  | within => "WITHIN"
  | greaterThan => "GREATER_THAN"
  | greaterThanEqual => "GREATER_THAN_EQUAL"
  | lessThan => "LESS_THAN"
  | lessThanEqual => "LESS_THAN_EQUAL"
  | before => "BEFORE"
  | after => "AFTER"
  | between => "BETWEEN"
  | isIn => "IN"
  | notIn => "NOT_IN"
  | isNull => "IS_NULL"
  | isNotNull => "IS_NOT_NULL"
  | present => "EXISTS"
  | isEmpty => "IS_EMPTY"
  | isNotEmpty => "IS_NOT_EMPTY"

def arity : Keyword → Nat
  | isTrue | isFalse | isNull | isNotNull | present | isEmpty | isNotEmpty => 0
  | between | within => 2
  | _ => 1

def suffixes : List (String × Keyword) := [
  ("IsNotNull", isNotNull), ("NotNull", isNotNull), ("IsNull", isNull), ("Null", isNull),
  ("IsLessThanEqual", lessThanEqual), ("LessThanEqual", lessThanEqual),
  ("IsLessThan", lessThan), ("LessThan", lessThan),
  ("IsGreaterThanEqual", greaterThanEqual), ("GreaterThanEqual", greaterThanEqual),
  ("IsGreaterThan", greaterThan), ("GreaterThan", greaterThan),
  ("IsBefore", before), ("Before", before), ("IsAfter", after), ("After", after),
  ("IsBetween", between), ("Between", between),
  ("IsNotLike", notLike), ("NotLike", notLike), ("IsLike", like), ("Like", like),
  ("IsStartingWith", startingWith), ("StartingWith", startingWith), ("StartsWith", startingWith),
  ("IsEndingWith", endingWith), ("EndingWith", endingWith), ("EndsWith", endingWith),
  ("IsNotContaining", notContaining), ("NotContaining", notContaining),
  ("NotContains", notContaining), ("IsContaining", containing), ("Containing", containing),
  ("Contains", containing),
  ("IsNotIn", notIn), ("NotIn", notIn), ("IsIn", isIn), ("In", isIn),
  ("IsNear", near), ("Near", near), ("IsWithin", within), ("Within", within),
  ("MatchesRegex", regex), ("Matches", regex), ("Regex", regex),
  ("Exists", present), ("IsTrue", isTrue), ("True", isTrue), ("IsFalse", isFalse),
  ("False", isFalse),
  ("IsNotEmpty", isNotEmpty), ("NotEmpty", isNotEmpty), ("IsEmpty", isEmpty),
  ("Empty", isEmpty),
  ("IsNot", negating), ("Not", negating), ("Is", simpleProperty), ("Equals", simpleProperty)]

def stem? (suffix : String) (raw : List Char) : Option (List Char) :=
  (Text.before? suffix.toList raw).filter (· ≠ [])

def longest? (raw : List Char) : List (String × Keyword) → Option (List Char × Keyword)
  | [] => none
  | (suffix, keyword) :: rest =>
    match stem? suffix raw, longest? raw rest with
    | none, found => found
    | some stem, none => some (stem, keyword)
    | some stem, some (stem', keyword') =>
      if stem.length < stem'.length then some (stem, keyword) else some (stem', keyword')

def detect (raw : List Char) : List Char × Keyword :=
  (longest? raw suffixes).getD (raw, simpleProperty)

end Keyword

end SearchMapper.MethodName
