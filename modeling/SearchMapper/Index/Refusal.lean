namespace SearchMapper.Index

/-- Why a query text has no meaning. Positions count characters. -/
inductive ReadError
  | unsupportedText (position : Nat) (query : String)
  | unbalancedParentheses
  | fieldExpected (position : Nat)
  | unqualifiedTerm (term : String)
  | unbalancedGroup
  | valueExpected (position : Nat)
  | openPhrase
  | openRange
  | rangeWithoutTo
deriving DecidableEq

def ReadError.message : ReadError → String
  | unsupportedText position query =>
    s!"unsupported query syntax near position {position} in '{query}'"
  | unbalancedParentheses => "unbalanced parentheses"
  | fieldExpected position => s!"expected a field at position {position}"
  | unqualifiedTerm term => s!"unqualified term '{term}' is not supported"
  | unbalancedGroup => "unbalanced field group"
  | valueExpected position => s!"expected a value at position {position}"
  | openPhrase => "unterminated phrase"
  | openRange => "unterminated range"
  | rangeWithoutTo => "range without TO"

inductive Refusal
  | unreadable (cause : ReadError)
  | missingKey (key : String)
  | scripted (message : String)
deriving DecidableEq

def Refusal.message : Refusal → String
  | unreadable cause => cause.message
  | missingKey key => s!"document is missing unique key '{key}'"
  | scripted message => message

end SearchMapper.Index
