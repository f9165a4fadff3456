import SearchMapper.Index.Refusal
import SearchMapper.MethodName.Keyword
import SearchMapper.Number.Written
import SearchMapper.Repository.ResultKind

namespace SearchMapper

open Index (Refusal)
open MethodName (Keyword)
open Repository (ResultKind)

inductive Error
  | blankFieldName
  | nestedTooDeep (property : String) (levels : Nat)
  | declaredTwice (property : String)
  | noIdProperty (type : String)
  | severalIdProperties (type : String)
  | unknownIdProperty (property : String)
  | notANumber (setting raw : String)
  | notABoolean (setting raw : String)
  | zeroDefaultPageSize
  | unreadableSettings
  | noMembers (negated : Bool)
  | severalTokens (fragment : String)
  | distanceOutOfRange (distance : Number.Single)
  | emptyPage
  | offsetOverflow
  | noPredicate
  | notAMethodName (name : String)
  | emptyCondition
  | limitTooLarge (digits : String)
  | zeroLimit
  | emptyOrderClause (name : String)
  | unknownProperty (property type : String)
  | unsupportedKeyword (keyword : Keyword) (method : String)
  | argumentCount (method : String) (expected supplied : Nat)
  | missingArgument
  | inapplicableKeyword (keyword : Keyword)
  | undeclaredMethod (method type : String)
  | otherResult (expected actual : ResultKind)
  | noResultKind
  | deleteWithoutId (type : String)
  | custom (message : String)
  | parameterOutOfRange (index count : Nat)
  | refused (cause : Refusal)
  | notAnObject (type : String)
  | unreadableDocument
deriving DecidableEq

namespace Error

inductive Kind
  | configuration
  | usage
  | parameter
  | execution
  | serialization
  | deserialization
deriving DecidableEq

def kind : Error → Kind
  | blankFieldName | nestedTooDeep .. | declaredTwice _ | noIdProperty _ | severalIdProperties _
  | unknownIdProperty _ | notANumber .. | notABoolean .. | zeroDefaultPageSize
  | unreadableSettings => .configuration
  | parameterOutOfRange .. => .parameter
  | refused _ => .execution
  | notAnObject _ => .serialization
  | unreadableDocument => .deserialization
  | _ => .usage

def detail : Error → String
  | blankFieldName => "field name must not be empty"
  | nestedTooDeep property levels => s!"property '{property}' nests deeper than {levels} levels"
  | declaredTwice property => s!"property '{property}' is declared twice"
  | noIdProperty type => s!"no id property found for type '{type}'"
  | severalIdProperties type => s!"type '{type}' marks more than one id property"
  | unknownIdProperty property => s!"unknown id property '{property}'"
  | notANumber setting raw => s!"{setting} must be a number, got '{raw}'"
  | notABoolean setting raw => s!"{setting} must be a boolean, got '{raw}'"
  | zeroDefaultPageSize => "default_page_size must be positive"
  | unreadableSettings => "settings cannot be read"
  | noMembers negated => (if negated then "'not in'" else "'in'") ++ " requires at least one value"
  | severalTokens fragment =>
    s!"cannot construct query '{fragment}', use expression or multiple clauses instead"
  | distanceOutOfRange distance =>
    "levenshtein distance " ++ Number.plain.write distance ++ " must be within 0.0 and 1.0"
  | emptyPage => "page size must be positive"
  | offsetOverflow => "page offset overflows"
  | noPredicate => "query must carry criteria with at least one predicate"
  | notAMethodName name => s!"'{name}' is not a query method name"
  | emptyCondition => "empty predicate part in method name"
  | limitTooLarge digits => s!"invalid result limit '{digits}'"
  | zeroLimit => "result limit must be positive"
  | emptyOrderClause name => s!"'{name}' has an empty OrderBy clause"
  | unknownProperty property type => s!"no property '{property}' found for type '{type}'"
  | unsupportedKeyword keyword method =>
    "illegal criteria found '" ++ keyword.name ++ "' in method '" ++ method ++ "'"
  | argumentCount method expected supplied =>
    s!"method '{method}' expects {expected} argument(s) but {supplied} were supplied"
  | missingArgument => "not enough arguments for method"
  | inapplicableKeyword keyword => "illegal criteria found '" ++ keyword.name ++ "'"
  | undeclaredMethod method type =>
    s!"method '{method}' is not declared on the '{type}' repository"
  | otherResult expected actual =>
    "expected a " ++ expected.label ++ " result but the method returned a " ++ actual.label ++
      " result"
  | noResultKind => "method has no result kind"
  | deleteWithoutId type => s!"cannot delete a '{type}' without an id"
  | custom message => message
  | parameterOutOfRange index count =>
    s!"parameter index {index} out of range, {count} parameter(s) supplied"
  | refused cause => cause.message
  | notAnObject type => s!"type '{type}' does not serialize to an object"
  | unreadableDocument => "document cannot be read"

def message (e : Error) : String :=
  match e.kind with
  | .configuration => "configuration error: " ++ e.detail
  | .usage => "invalid api usage: " ++ e.detail
  | .parameter => e.detail
  | .execution => "execution error: " ++ e.detail
  | .serialization => "serialization error: " ++ e.detail
  | .deserialization => "deserialization error: " ++ e.detail

end Error

end SearchMapper
