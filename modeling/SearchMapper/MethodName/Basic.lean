import SearchMapper.Error
import SearchMapper.Number.Reading
import SearchMapper.Query.Basic
import SearchMapper.Text.LetterCase

namespace SearchMapper

namespace MethodName

inductive Subject
  | find
  | count
  | present
  | delete
deriving DecidableEq

def subjects : List (String × Subject) := [
  ("find", .find), ("read", .find), ("get", .find), ("query", .find), ("search", .find),
  ("stream", .find), ("count", .count), ("exists", .present), ("delete", .delete),
  ("remove", .delete)]

structure Condition where
  /-- The text as written, keyword included. -/
  raw : String
  source : String
  keyword : Keyword
deriving DecidableEq

structure OrderKey where
  source : String
  direction : Direction
deriving DecidableEq

end MethodName

structure MethodName where
  text : String
  subject : MethodName.Subject
  distinct : Bool
  limit : Option Nat
  clauses : List (List MethodName.Condition)
  orders : List MethodName.OrderKey

namespace MethodName

open Text (after? cut? startsUpper)

def subjectOf? (name : List Char) : List (String × Subject) → Option (Subject × List Char)
  | [] => none
  | (word, subject) :: others =>
    match after? word.toList name with
    | some rest =>
      if rest = [] ∨ startsUpper rest then some (subject, rest) else subjectOf? name others
    | none => subjectOf? name others

def extend (c : Char) : List (List Char) → List (List Char)
  | [] => [[c]]
  | piece :: pieces => (c :: piece) :: pieces

/-- Cuts a text at each occurrence of the word `k :: ks` that a capital follows. -/
def cutAtWord (k : Char) (ks : List Char) : List Char → List (List Char)
  | [] => [[]]
  | c :: s =>
    match h : (if c = k then after? ks s else none) with
    | none => extend c (cutAtWord k ks s)
    | some rest =>
      have : rest.length < s.length + 1 := by
        split at h
        · exact Nat.lt_succ_of_le (Text.length_le_of_after? h)
        · simp at h
      if startsUpper rest then [] :: cutAtWord k ks rest else extend c (cutAtWord k ks s)
termination_by s => s.length

def condition (raw : List Char) : Except Error Condition :=
  if raw = [] then .error .emptyCondition
  else
    let (source, keyword) := Keyword.detect raw
    .ok ⟨String.ofList raw, String.ofList source, keyword⟩

def clausesOf (predicate : List Char) : Except Error (List (List Condition)) :=
  if predicate = [] then .ok []
  else (cutAtWord 'O' ['r'] predicate).mapM fun clause =>
    (cutAtWord 'A' ['n', 'd'] clause).mapM condition

def direction? (s : List Char) : Option (Direction × List Char) :=
  let wordEnd (d : Direction) (rest : List Char) :=
    if rest = [] ∨ startsUpper rest then some (d, rest) else none
  ((after? ['A', 's', 'c'] s).bind (wordEnd .asc)).or
    ((after? ['D', 'e', 's', 'c'] s).bind (wordEnd .desc))

theorem length_lt_of_direction? {s rest : List Char} {d : Direction}
    (h : direction? s = some (d, rest)) : rest.length < s.length := by
  simp only [direction?, Option.or_eq_some_iff, Option.bind_eq_some_iff] at h
  rcases h with ⟨t, ht, h⟩ | ⟨_, t, ht, h⟩ <;>
  · split at h
    · simp only [Option.some.injEq, Prod.mk.injEq] at h
      simp only [Text.eq_append_of_after? ht, h.2, List.length_append, List.length_cons]
      omega
    · simp at h

/-- The sort keys of a text: each a source and a direction, which the last one may lack. `front` is
the source read so far, last character first. -/
def ordersFrom (front : List Char) (s : List Char) : List OrderKey :=
  let source := String.ofList front.reverse
  match s with
  | [] => if front = [] then [] else [⟨source, .asc⟩]
  | c :: s' =>
    match h : direction? (c :: s') with
    | some (direction, rest) =>
      have : rest.length < s'.length + 1 := by simpa using length_lt_of_direction? h
      if front = [] then ordersFrom (c :: front) s'
      else ⟨source, direction⟩ :: ordersFrom [] rest
    | none => ordersFrom (c :: front) s'
termination_by s.length

def ordersOf (name : String) : Option (List Char) → Except Error (List OrderKey)
  | none => .ok []
  | some clause =>
    match ordersFrom [] clause with
    | [] => .error (.emptyOrderClause name)
    | keys => .ok keys

/-- The limit behind a marker: its digits, or one if it has none. Limits have 32 bits. -/
def limitOf (rest : List Char) : Except Error Nat :=
  match rest.takeWhile Char.isDigit with
  | [] => .ok 1
  | digits =>
    match Number.readBelow? UInt32.size digits with
    | none => .error (.limitTooLarge (String.ofList digits))
    | some 0 => .error .zeroLimit
    | some n => .ok n

def limitIn (modifiers : List Char) : Except Error (Option Nat) :=
  match cut? "First".toList modifiers, cut? "Top".toList modifiers with
  | some (_, rest), _ | none, some (_, rest) => some <$> limitOf rest
  | none, none => .ok none

def cutOr (word : String) (s : List Char) : List Char × Option (List Char) :=
  match cut? word.toList s with
  | some (front, rest) => (front, some rest)
  | none => (s, none)

def ofText (name : String) : Except Error MethodName :=
  match subjectOf? name.toList subjects with
  | none => .error (.notAMethodName name)
  | some (subject, rest) => do
    let (head, orderClause) := cutOr "OrderBy" rest
    let (modifiers, predicate) := cutOr "By" head
    let clauses ← clausesOf (predicate.getD [])
    let orders ← ordersOf name orderClause
    let limit ← limitIn modifiers
    pure {
      text := name
      subject := subject
      distinct := Text.occursIn "Distinct".toList modifiers
      limit := limit
      clauses := clauses
      orders := orders }

def conditions (m : MethodName) : List Condition :=
  m.clauses.flatten

end MethodName

end SearchMapper
