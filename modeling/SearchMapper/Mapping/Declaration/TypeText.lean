import SearchMapper.Mapping.Declaration.Token.Reading

namespace SearchMapper.Declaration.TypeText

open Token

def untilOutside (stop : Token → Bool) (depth : Nat) :
    List Token → List Token × List Token
  | [] => ([], [])
  | t :: ts =>
    if depth = 0 ∧ stop t then ([], t :: ts)
    else
      let depth := if t = mark ['<'] then depth + 1 else if t = mark ['>'] then depth - 1 else depth
      let (front, rest) := untilOutside stop depth ts
      (t :: front, rest)

theorem length_untilOutside_le (stop : Token → Bool) (depth : Nat) (ts : List Token) :
    (untilOutside stop depth ts).2.length ≤ ts.length := by
  fun_induction untilOutside stop depth ts with
  | case1 => simp
  | case2 => simp
  | case3 depth t ts _ d front rest h ih => simp_all; omega

def argumentsFrom (ts : List Token) : List Token × List Token :=
  let (args, rest) := untilOutside (· = mark ['>']) 0 ts
  (args, rest.drop 1)

def arguments? : List Token → Option (List Token) × List Token
  | mark [':', ':'] :: mark ['<'] :: ts | mark ['<'] :: ts =>
    let (args, rest) := argumentsFrom ts
    (some args, rest)
  | ts => (none, ts)

theorem length_argumentsFrom_le (ts : List Token) :
    (argumentsFrom ts).2.length ≤ ts.length := by
  have := length_untilOutside_le (· = mark ['>']) 0 ts
  simp only [argumentsFrom, List.length_drop]
  omega

theorem length_arguments?_le (ts : List Token) : (arguments? ts).2.length ≤ ts.length := by
  unfold arguments?
  split
  · next ts => have := length_argumentsFrom_le ts; simp; omega
  · next ts => have := length_argumentsFrom_le ts; simp; omega
  · exact Nat.le_refl _

/-- Words that a type other than a path begins with, although a path can follow them. -/
def leadsBounds (name : List Char) : Bool :=
  String.ofList name ∈ ["impl", "dyn", "for"]

/-- The last name of a path with its arguments; none for a type that is no path. -/
def lastSegment? (ts : List Token) : Option (List Char × Option (List Token)) :=
  match ts with
  | name n :: rest =>
    if leadsBounds n then none
    else match _h : (arguments? rest).2 with
      | [] => some (n, (arguments? rest).1)
      | mark [':', ':'] :: next => lastSegment? next
      | _ => none
  | _ => none
termination_by ts.length
decreasing_by
  have := length_arguments?_le rest
  simp_all
  omega

/-- A path may begin at the root, or behind a type in angle brackets. -/
def pathStart (ts : List Token) : List Token :=
  match ts with
  | mark ['<'] :: inner =>
    match (argumentsFrom inner).2 with
    | mark [':', ':'] :: path => path
    | _ => ts
  | mark [':', ':'] :: path => path
  | _ => ts

/-- Whether an argument is a type, and not a constant, a lifetime, a binding or a bound. -/
def isType (argument : List Token) : Bool :=
  let plain := (untilOutside (fun t => t = mark ['='] || t = mark [':']) 0 argument).2 = []
  match argument with
  | [] | literal _ :: _ | mark ['-'] :: _ | enclosed ('\x7b' :: _) :: _ | [lifetime _] => false
  | name n :: _ => plain && String.ofList n ∉ ["true", "false"]
  | _ => plain

/-- The type of the documents in a property of the given type, without blanks. The first argument is
chosen as written, and arranged only then. -/
def nested (type : String) : String :=
  let tokens := ofText type
  let found := do
    let (wrapper, args) ← lastSegment? (pathStart tokens)
    let first := (untilOutside (· = mark [',']) 0 (← args)).1
    if String.ofList wrapper ∈ ["Option", "Vec"] ∧ isType first then some first else none
  String.ofList ((textOf (arranged (found.getD tokens))).filter fun c => !Text.isBlank c)

end SearchMapper.Declaration.TypeText
