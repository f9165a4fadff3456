import SearchMapper.Index.Reading
import SearchMapper.Query.Request

namespace SearchMapper

structure Response where
  total : Nat
  records : List Record
  facets : Dictionary (List (String × Nat)) := []

namespace Index

abbrev SortTerm := String × Bool

def sortTerm? (text : String) : Option SortTerm :=
  (Text.nextWord? text.toList).map fun (field, rest) =>
    (String.ofList field,
      match Text.nextWord? rest with
      | some (direction, _) => Text.sameLetters direction "desc".toList
      | none => false)

def firstValue? (record : Record) (field : String) : Option String :=
  (record.fieldValues field).head?

/-- Records without a value come last in both directions. -/
def compareOptional (descending : Bool) : Option String → Option String → Ordering
  | some a, some b => if descending then (compareValues a b).swap else compareValues a b
  | some _, none => .lt
  | none, some _ => .gt
  | none, none => .eq

def compareRecords (a b : Record) : List SortTerm → Ordering
  | [] => .eq
  | (field, descending) :: rest =>
    (compareOptional descending (firstValue? a field) (firstValue? b field)).then
      (compareRecords a b rest)

/-- Puts `x` behind the last of the items, which stand last one first, that it does not precede. -/
def place {α : Type} (precedes : α → α → Bool) (x : α) : List α → List α
  | [] => [x]
  | y :: ys => if precedes x y then y :: place precedes x ys else x :: y :: ys

def arrange {α : Type} (precedes : α → α → Bool) (xs : List α) : List α :=
  (xs.foldl (fun placed x => place precedes x placed) []).reverse

/-- Terms that compare the hits in a circle leave no order to be found: then the places that the
hits take here are not to be relied on. -/
def sortHits (terms : List SortTerm) (hits : List Record) : List Record :=
  arrange (fun a b => compareRecords a b terms = .lt) hits

def tally (values : List String) : Dictionary Nat :=
  values.foldl (fun d v => d.insert v ((d.find? v).getD 0 + 1)) []

/-- The most frequent values of a field; among equals those that come first as texts. -/
def countFacet (hits : List Record) (field : String) (limit minCount : Nat) :
    List (String × Nat) :=
  (((tally (hits.flatMap fun hit => hit.fieldValues field)).filter fun entry =>
    minCount ≤ entry.2).mergeSort fun a b => b.2 ≤ a.2).take limit

def project (fields : List String) (record : Record) : Record :=
  if fields = [] ∨ "*" ∈ fields then record
  else .ofList (fields.filterMap fun field => (record.find? field).map (field, ·))

def defaultRows : Nat := 10

def hits (records : Dictionary Record) (query : Expr) (filters : List Expr) : List Record :=
  records.values.filter fun record =>
    query.holds record && filters.all fun filter => filter.holds record

def respond (records : Dictionary Record) (r : Request) (query : Expr) (filters : List Expr) :
    Response :=
  let sorted := sortHits (r.sort.filterMap sortTerm?) (hits records query filters)
  { total := sorted.length
    records := ((sorted.drop (r.start.getD 0)).take (r.rows.getD defaultRows)).map
      (project r.fields)
    facets := match r.facet with
      | none => []
      | some facet => .ofList (facet.fields.map fun field =>
          (field, countFacet sorted field facet.limit facet.minCount)) }

def answer (records : Dictionary Record) (r : Request) : Except ReadError Response := do
  let query ← Expr.ofText r.query
  let filters ← r.filters.mapM Expr.ofText
  pure (respond records r query filters)

end Index

end SearchMapper
