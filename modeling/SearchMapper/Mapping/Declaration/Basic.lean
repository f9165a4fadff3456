import SearchMapper.Mapping.Declaration.Attribute
import SearchMapper.Mapping.Declaration.CaseRule
import SearchMapper.Mapping.Declaration.TypeText
import SearchMapper.Mapping.Entity

namespace SearchMapper

namespace Declaration

structure FieldDeclaration where
  name : String
  type : String
  attributes : List Attribute

inductive Body
  | named (fields : List FieldDeclaration)
  | unnamed
  | alternatives

inductive Fault
  | unreadable (flaw : Flaw)
  | unreadableItems (name : String) (flaw : Flaw)
  | unknownTypeAttribute
  | unknownFieldAttribute
  | notAString (key : String)
  | unknownRule (name : String)
  | blankFieldName
  | severalIds
  | unnamedFields
  | notAStructure
deriving DecidableEq

def Fault.message : Fault → String
  | unreadable flaw => flaw.message
  | unreadableItems name flaw => s!"Failed to parse {name} attributes: {flaw.message}"
  | unknownTypeAttribute => "unknown solr container attribute"
  | unknownFieldAttribute => "unknown solr field attribute"
  | notAString key => s!"{key} must be a string literal"
  | unknownRule name => s!"unsupported rename_all rule '{name}'"
  | blankFieldName => "field name must not be empty"
  | severalIds => "only one field may be marked #[solr(id)]"
  | unnamedFields => "SolrDocument only supports structs with named fields"
  | notAStructure => "SolrDocument only supports structs"

/-- The items of all attributes of a name, in order. All of them are read before any has a say. -/
def itemsOf (name : String) (attributes : List Attribute) : Except Fault (List Item) := do
  let lists := (attributes.filter (bareName ·.name = name)).map fun a => a.items.getD []
  (lists.forM Item.check).mapError (.unreadableItems name)
  pure (lists.flatten.map (Item.mapPath bareName))

/-- The type name that the attributes give; the last one stands. -/
def typeNameOf : List Item → Option String → Except Fault (Option String)
  | [], found => .ok found
  | .text "type_name" value :: rest, _ => typeNameOf rest (some value)
  | .literal "type_name" :: _, _ => .error (.notAString "type_name")
  | _ :: _, _ => .error .unknownTypeAttribute

def caseRuleOf : List Item → Option CaseRule → Except Fault (Option CaseRule)
  | [], found => .ok found
  | .text "rename_all" value :: rest, _ =>
    match CaseRule.ofName? value with
    | some rule => caseRuleOf rest (some rule)
    | none => .error (.unknownRule value)
  | .literal "rename_all" :: _, _ => .error (.notAString "rename_all")
  | _ :: rest, found => caseRuleOf rest found

/-- The name under which a field is written; none if it is not written at all. -/
def writtenName (name : String) : List Item → Except Fault (Option String)
  | [] => .ok (some name)
  | .word "skip" :: _ | .word "skip_serializing" :: _ => .ok none
  | .text "rename" value :: rest => writtenName value rest
  | .literal "rename" :: _ => .error (.notAString "rename")
  | _ :: rest => writtenName name rest

def describe (type : String) (d : Descriptor) : List Item → Except Fault Descriptor
  | [] => .ok d
  | .word "id" :: rest => describe type { d with isId := true } rest
  | .word "nested" :: rest => describe type { d with nested := some (TypeText.nested type) } rest
  | .text "field" value :: rest =>
    if Text.isBlankText value then .error .blankFieldName
    else describe type { d with field := some value } rest
  | .literal "field" :: _ => .error (.notAString "field")
  | _ :: _ => .error .unknownFieldAttribute

/-- A name without the mark that lets it be a keyword. -/
def unmarkedName (name : String) : List Char :=
  let name := (bareName name).toList
  (Text.after? ['r', '#'] name).getD name

def descriptor? (rule : Option CaseRule) (f : FieldDeclaration) :
    Except Fault (Option Descriptor) := do
  let name := match rule with
    | some rule => rule.apply (unmarkedName f.name)
    | none => unmarkedName f.name
  match ← writtenName (String.ofList name) (← itemsOf "serde" f.attributes) with
  | none => pure none
  | some name => some <$> describe f.type { name := name } (← itemsOf "solr" f.attributes)

def descriptors (rule : Option CaseRule) (idSeen : Bool) :
    List FieldDeclaration → Except Fault (List Descriptor)
  | [] => .ok []
  | f :: rest => do
    match ← descriptor? rule f with
    | none => descriptors rule idSeen rest
    | some d =>
      if d.isId && idSeen then .error .severalIds
      pure (d :: (← descriptors rule (idSeen || d.isId) rest))

def checkName (name : String) : Except Flaw Unit :=
  let name := bareName name
  if isKeyword name.toList then throw (.keyword name) else pure ()

def checkAttributes (attributes : List Attribute) : Except Flaw Unit :=
  attributes.forM fun a =>
    checkPath a.name (if a.items.isSome then [.enclosed ['(', ')']] else [])

end Declaration

structure Declaration where
  name : String
  attributes : List Declaration.Attribute
  body : Declaration.Body

/-- Refuses the first name that is none. A field may have no more of a name than an underscore. -/
def Declaration.checkNames (d : Declaration) : Except Declaration.Flaw Unit := do
  checkAttributes d.attributes
  checkName d.name
  match d.body with
  | .named fields => fields.forM fun f => do
    checkAttributes f.attributes
    if bareName f.name ≠ "_" then checkName f.name
  | _ => pure ()

def Declaration.expand (d : Declaration) :
    Except Declaration.Fault (String × List Descriptor) := do
  d.checkNames.mapError .unreadable
  let typeName ← typeNameOf (← itemsOf "solr" d.attributes) none
  let rule ← caseRuleOf (← itemsOf "serde" d.attributes) none
  match d.body with
  | .named fields => pure (typeName.getD (bareName d.name), ← descriptors rule false fields)
  | .unnamed => .error .unnamedFields
  | .alternatives => .error .notAStructure

end SearchMapper
