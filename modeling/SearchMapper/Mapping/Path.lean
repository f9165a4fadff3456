import SearchMapper.Mapping.Entity
import SearchMapper.Text.LetterCase
import SearchMapper.Text.Scan

namespace SearchMapper

namespace Text

/-- `Name` becomes `name`, while `URL` stays. -/
def decapitalize : List Char → List Char
  | [] => []
  | [c] => lowerChar c
  | c :: d :: rest => if isUpper c && isUpper d then c :: d :: rest else lowerChar c ++ d :: rest

/-- The ways to cut a text in two before a capital, the one with the longest front first. -/
def splits (s : List Char) : List (List Char × List Char) :=
  (List.range s.length).reverse.filterMap fun i =>
    if 0 < i ∧ startsUpper (s.drop i) then some (s.take i, s.drop i) else none

theorem length_lt_of_mem_splits {s front rest : List Char} (h : (front, rest) ∈ splits s) :
    rest.length < s.length := by
  simp only [splits, List.mem_filterMap, List.mem_reverse, List.mem_range] at h
  obtain ⟨i, hi, h⟩ := h
  split at h
  · next hc =>
    simp only [Option.some.injEq, Prod.mk.injEq] at h
    obtain ⟨rfl, rfl⟩ := h
    simp only [List.length_drop]
    omega
  · simp at h

end Text

structure Path where
  properties : List Property

namespace Path

def segments (p : Path) : List String :=
  p.properties.map Property.name

def fieldName (p : Path) : String :=
  ".".intercalate (p.properties.map Property.fieldName)

/-- The property of a capitalised name, or of the name as it is. -/
def lookup? (properties : Dictionary Property) (source : List Char) : Option Property :=
  (properties.find? (String.ofList (Text.decapitalize source))).or
    (properties.find? (String.ofList source))

/-- The property of the whole text, or of the longest front of it whose nested properties resolve
the rest. -/
def resolveWords (properties : Dictionary Property) (source : List Char) :
    Option (List Property) :=
  if source = [] then none
  else match lookup? properties source with
    | some p => some [p]
    | none =>
      (Text.splits source).attach.findSome? fun ⟨(front, rest), h⟩ => do
        let p ← lookup? properties front
        let children ← p.children
        have := Text.length_lt_of_mem_splits h
        let deeper ← resolveWords children rest
        pure (p :: deeper)
termination_by source.length

def resolvePieces (properties : Dictionary Property) : List (List Char) → Option (List Property)
  | [] => none
  | [source] => resolveWords properties source
  | source :: next :: rest => do
    let chain ← resolveWords properties source
    let children ← chain.getLast?.bind Property.children
    let deeper ← resolvePieces children (next :: rest)
    pure (chain ++ deeper)

end Path

namespace Entity

def path? (e : Entity) (source : String) : Option Path :=
  (Path.resolvePieces e.properties (Text.pieces '_' source.toList)).map Path.mk

def path (e : Entity) (source : String) : Except Error Path :=
  match e.path? source with
  | some p => .ok p
  | none =>
    .error (.unknownProperty (String.ofList (Text.decapitalize source.toList)) e.typeName)

end Entity

end SearchMapper
