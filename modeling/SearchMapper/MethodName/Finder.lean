import SearchMapper.Mapping.Path
import SearchMapper.MethodName.Basic

namespace SearchMapper

open MethodName (Condition Keyword OrderKey Subject)

structure Finder.Test where
  field : Field
  keyword : Keyword

structure Finder where
  method : String
  subject : Subject
  clauses : List (List Finder.Test)
  sort : List SortKey
  limit : Option Nat

namespace MethodName.Keyword

def isSupported : Keyword → Bool
  | notLike | notContaining | within | present | isEmpty | isNotEmpty => false
  | _ => true

def apply (k : Keyword) (args : List Value) (c : Criteria) : Except Error Criteria :=
  match k, args with
  | isTrue, [] => .ok (c.is (.bool true))
  | isFalse, [] => .ok (c.is (.bool false))
  | isNull, [] => .ok c.isNull
  | isNotNull, [] => .ok c.isNotNull
  | simpleProperty, [v] => .ok (c.is v)
  | negating, [v] => .ok (c.isNot v)
  | like, [v] | startingWith, [v] => c.startsWith v
  | endingWith, [v] => c.endsWith v
  | containing, [v] => c.contains v
  | regex, [v] => .ok (c.expression v.toText)
  | near, [v] => c.fuzzy v
  | greaterThan, [v] | after, [v] => .ok (c.greaterThan v)
  | greaterThanEqual, [v] => .ok (c.greaterThanEqual v)
  | lessThan, [v] | before, [v] => .ok (c.lessThan v)
  | lessThanEqual, [v] => .ok (c.lessThanEqual v)
  | between, [lower, upper] => .ok (c.between lower upper)
  | isIn, [v] => c.isIn v.items
  | notIn, [v] => c.notIn v.items
  | k, _ => .error (if k.isSupported then .missingArgument else .inapplicableKeyword k)

end MethodName.Keyword

namespace Finder

/-- The path and keyword of a condition. Where the source is no property, the text as written may
be one: `Domain` is a property, not `Doma` with `In`. -/
def resolve (e : Entity) (c : Condition) : Except Error (Path × Keyword) :=
  match e.path (c.source) with
  | .ok path => .ok (path, c.keyword)
  | .error cause =>
    if c.keyword = .simpleProperty then .error cause
    else match e.path c.raw with
      | .ok path => .ok (path, .simpleProperty)
      | .error _ => .error cause

def testOf (e : Entity) (method : String) (c : Condition) : Except Error Test := do
  let (path, keyword) ← resolve e c
  if !keyword.isSupported then .error (.unsupportedKeyword keyword method)
  pure ⟨← Field.named path.fieldName, keyword⟩

def sortKeyOf (e : Entity) (key : OrderKey) : Except Error SortKey := do
  let path ← e.path key.source
  pure ⟨← Field.named path.fieldName, key.direction⟩

def ofMethodName (m : MethodName) (e : Entity) : Except Error Finder := do
  let clauses ← m.clauses.mapM (·.mapM (testOf e m.text))
  let sort ← m.orders.mapM (sortKeyOf e)
  pure ⟨m.text, m.subject, clauses, sort, m.limit⟩

def arityOf : List Test → Nat
  | [] => 0
  | test :: rest => test.keyword.arity + arityOf rest

def arity (f : Finder) : Nat :=
  arityOf f.clauses.flatten

def clauseFrom (current : Option Criteria) : List Test → List Value →
    Except Error (Option Criteria × List Value)
  | [], args => .ok (current, args)
  | test :: rest, args => do
    let node := match current with
      | none => Criteria.start test.field
      | some c => c.andField test.field
    let c ← test.keyword.apply (args.take test.keyword.arity) node
    clauseFrom (some c) rest (args.drop test.keyword.arity)

/-- Adds a clause as an alternative; among several, a clause of several fields is a group. -/
def alternative (several : Bool) (root : Option Criteria) (clause : Criteria) : Criteria :=
  match root with
  | none => if several ∧ 1 < clause.links.length then .group clause else clause
  | some root => root.orCriteria clause

def criteriaFrom (several : Bool) (root : Option Criteria) : List (List Test) → List Value →
    Except Error (Option Criteria)
  | [], _ => .ok root
  | tests :: rest, args => do
    let (clause, args) ← clauseFrom none tests args
    criteriaFrom several ((clause.map (alternative several root)).or root) rest args

def criteria (f : Finder) (args : List Value) : Except Error Criteria := do
  pure ((← criteriaFrom (1 < f.clauses.length) none f.clauses args).getD .matchAll)

def query (f : Finder) (args : List Value) : Except Error Query := do
  if args.length ≠ f.arity then .error (.argumentCount f.method f.arity args.length)
  let q := Query.ofCriteria (← f.criteria args)
  let q := if f.sort = [] then q else q.addSort f.sort
  match f.limit with
  | some n => pure (q.withWindow (← Window.ofOffset 0 n))
  | none => pure q

end Finder

end SearchMapper
