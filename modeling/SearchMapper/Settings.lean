import SearchMapper.Error
import SearchMapper.Json.Literal
import SearchMapper.Text.Blank

namespace SearchMapper

structure Settings where
  defaultPageSize : Nat := 10
  commitOnWrite : Bool := true
  namedQueriesLocation : Option String := none

namespace Settings

def checked (s : Settings) : Except Error Settings :=
  if s.defaultPageSize = 0 then .error .zeroDefaultPageSize else .ok s

inductive Key
  | defaultPageSize
  | commitOnWrite
  | namedQueriesLocation
deriving DecidableEq

def Key.ofName? : String → Option Key
  | "default_page_size" => some .defaultPageSize
  | "commit_on_write" => some .commitOnWrite
  | "named_queries_location" => some .namedQueriesLocation
  | _ => none

open Json (Literal)

/-- Sets one value. Page sizes have 32 bits. -/
def assign? (s : Settings) (key : Key) (value : Literal) : Option Settings := do
  let value ← Json.ofLiteral? value
  match key, value with
  | .defaultPageSize, .int i =>
    if 0 ≤ i ∧ i < UInt32.size then some { s with defaultPageSize := i.toNat } else none
  | .commitOnWrite, .bool b => some { s with commitOnWrite := b }
  | .namedQueriesLocation, .text t => some { s with namedQueriesLocation := some t }
  | .namedQueriesLocation, .null => some { s with namedQueriesLocation := none }
  | _, _ => none

/-- Reads members one by one. Those with other keys need no value, and no key may come twice. -/
def ofMembers? (seen : List Key) (s : Settings) :
    List (List Json.Unit16 × Literal) → Option Settings
  | [] => some s
  | (name, value) :: rest => do
    match Key.ofName? (← Json.stringOf? name) with
    | none => ofMembers? seen s rest
    | some key => if key ∈ seen then none else ofMembers? (key :: seen) (← s.assign? key value) rest

def ofItems? (s : Settings) : List Key → List Literal → Option Settings
  | _, [] => some s
  | [], _ :: _ => none
  | key :: keys, value :: rest => do ofItems? (← s.assign? key value) keys rest

def ofLiteral? : Literal → Option Settings
  | .object members => ofMembers? [] {} members
  | .array items => ofItems? {} [.defaultPageSize, .commitOnWrite, .namedQueriesLocation] items
  | _ => none

def ofJsonText (s : String) : Except Error Settings :=
  match (Literal.ofText? s).bind ofLiteral? with
  | some settings => settings.checked
  | none => .error .unreadableSettings

def pageSizeVariable : String := "SOLR_OSM_DEFAULT_PAGE_SIZE"

def commitVariable : String := "SOLR_OSM_COMMIT_ON_WRITE"

def namedQueriesVariable : String := "SOLR_OSM_NAMED_QUERIES"

def readFlag? (raw : String) : Option Bool :=
  let word := String.ofList ((Text.trim raw.toList).map Char.toLower)
  if word ∈ ["1", "true", "yes"] then some true
  else if word ∈ ["0", "false", "no"] then some false
  else none

/-- Reads variables; `lookup` gives the value of one that is set. A blank location counts as
none. -/
def ofEnvironment (lookup : String → Option String) : Except Error Settings := do
  let size ← match lookup pageSizeVariable with
    | none => pure 10
    | some raw =>
      match Number.readBelow? UInt32.size (Text.trim raw.toList) with
      | some n => pure n
      | none => .error (.notANumber pageSizeVariable raw)
  let commit ← match lookup commitVariable with
    | none => pure true
    | some raw =>
      match readFlag? raw with
      | some b => pure b
      | none => .error (.notABoolean commitVariable raw)
  let location := (lookup namedQueriesVariable).filter fun raw => !Text.isBlankText raw
  checked ⟨size, commit, location⟩

end Settings

end SearchMapper
