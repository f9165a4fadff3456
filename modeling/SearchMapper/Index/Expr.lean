import SearchMapper.Index.EditDistance
import SearchMapper.Index.ValueOrder
import SearchMapper.Index.Wildcard
import SearchMapper.Mapping.Record
import SearchMapper.Text.LetterCase

namespace SearchMapper

def Record.fieldValues (record : Record) (field : String) : List String :=
  match record.find? field with
  | none => []
  | some (.array items) => items.filterMap Json.scalarText?
  | some value => value.scalarText?.toList

namespace Index

inductive Test
  | exact (term : String)
  | wildcard (pattern : String)
  | fuzzy (term : String)
  /-- A range without a bound is open there. -/
  | range (lower upper : Option String) (includeLower includeUpper : Bool)
deriving DecidableEq

inductive FieldTest
  | one (test : Test)
  | group (items : List (Bool × Test))
deriving DecidableEq

inductive Expr
  | all
  | not (inner : Expr)
  | and (items : List Expr)
  | or (items : List Expr)
  | field (name : String) (test : FieldTest)

namespace Test

def within (o : Ordering) (included : Bool) (side : Ordering) : Bool :=
  o = side || (o = .eq && included)

def holdsOf (value : String) : Test → Bool
  | exact term => Text.sameLetters value.toList term.toList || sameNumber value term
  | wildcard pattern =>
    Wildcard.matchesText (Text.lower pattern.toList) (Text.lower value.toList)
  | fuzzy term =>
    EditDistance.distance (Text.lower value.toList) (Text.lower term.toList) ≤ 2
  | range lower upper includeLower includeUpper =>
    lower.all (fun lo => within (compareValues value lo) includeLower .gt) &&
      upper.all (fun hi => within (compareValues value hi) includeUpper .lt)

def holds (test : Test) (values : List String) : Bool :=
  values.any fun value => test.holdsOf value

end Test

/-- A group asks for one of its plain tests and for none of its negated ones; without a plain test
it matches nothing. -/
def FieldTest.holds (values : List String) : FieldTest → Bool
  | one test => test.holds values
  | group items =>
    !(items.any fun (negated, test) => negated && test.holds values) &&
      items.any fun (negated, test) => !negated && test.holds values

namespace Expr

mutual

def holds (record : Record) : Expr → Bool
  | all => true
  | not inner => !holds record inner
  | and items => holdsAll record items
  | or items => holdsAny record items
  | field name test => test.holds (record.fieldValues name)

def holdsAll (record : Record) : List Expr → Bool
  | [] => true
  | e :: rest => holds record e && holdsAll record rest

def holdsAny (record : Record) : List Expr → Bool
  | [] => false
  | e :: rest => holds record e || holdsAny record rest

end

end Expr

end Index

end SearchMapper
