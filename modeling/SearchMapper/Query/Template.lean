import SearchMapper.Number.Reading
import SearchMapper.Query.Basic

namespace SearchMapper.Template

/-- The parameter that a run of digits stands for. An index beyond 64 bits counts as the largest
one. -/
def parameter (params : List Value) (digits : List Char) : Except Error (List Char) :=
  let index := min (Number.ofDigits digits) (UInt64.size - 1)
  match params[index]? with
  | some v => .ok v.toText.toList
  | none => .error (.parameterOutOfRange index params.length)

/-- Replaces each question mark with digits behind it; `digits?` are those read behind the last
question mark, last one first. -/
def bindFrom (params : List Value) (digits? : Option (List Char)) :
    List Char → Except Error (List Char)
  | [] => close
  | c :: rest =>
    match digits? with
    | some digits =>
      if c.isDigit then bindFrom params (some (c :: digits)) rest
      else if c = '?' then do pure ((← close) ++ (← bindFrom params (some []) rest))
      else do pure ((← close) ++ c :: (← bindFrom params none rest))
    | none =>
      if c = '?' then bindFrom params (some []) rest
      else do pure (c :: (← bindFrom params none rest))
where
  close : Except Error (List Char) :=
    match digits? with
    | none => .ok []
    | some [] => .ok ['?']
    | some digits => parameter params digits.reverse

def bind (template : String) (params : List Value) : Except Error String := do
  pure (String.ofList (← bindFrom params none template.toList))

def query (template : String) (params : List Value) : Except Error Query := do
  pure (.ofCriteria (.raw (← bind template params)))

end SearchMapper.Template
