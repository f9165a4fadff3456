import SearchMapper.Json.Number
import SearchMapper.Text.Taken

namespace SearchMapper.Json

open Text (Taken)

/-- A character of a string, or an escaped UTF-16 unit. -/
inductive Unit16
  | plain (c : Char)
  | escaped (n : Nat)

inductive Literal
  | null
  | bool (b : Bool)
  | number (n : NumberText)
  | text (units : List Unit16)
  | array (items : List Literal)
  | object (members : List (List Unit16 × Literal))

def isSpace (c : Char) : Bool :=
  c = ' ' || c = '\n' || c = '\t' || c = '\r'

def next (s : List Char) : List Char :=
  s.dropWhile isSpace

theorem length_next_le (s : List Char) : (next s).length ≤ s.length :=
  Text.length_dropWhile_le isSpace s

theorem length_lt_of_next {s r : List Char} {c : Char} (h : next s = c :: r) :
    r.length < s.length := by
  have := length_next_le s
  simp [h] at this
  omega

namespace Literal

def hexValue? (c : Char) : Option Nat :=
  if c.isDigit then some (c.toNat - 48)
  else if 'a' ≤ c ∧ c ≤ 'f' then some (c.toNat - 87)
  else if 'A' ≤ c ∧ c ≤ 'F' then some (c.toNat - 55)
  else none

def shortEscape? : Char → Option Char
  | '"' => some '"'
  | '\\' => some '\\'
  | '/' => some '/'
  | 'b' => some '\x08'
  | 'f' => some '\x0c'
  | 'n' => some '\n'
  | 'r' => some '\r'
  | 't' => some '\t'
  | _ => none

def string? (s : List Char) : Option (Taken (List Unit16) s) :=
  match s with
  | [] => none
  | '"' :: r => some ⟨[], r, by simp⟩
  | '\\' :: 'u' :: a :: b :: c :: d :: r => do
    let n := (← hexValue? a) * 4096 + (← hexValue? b) * 256 + (← hexValue? c) * 16 + (← hexValue? d)
    let t ← string? r
    pure ((t.map (Unit16.escaped n :: ·)).within (by simp; omega))
  | '\\' :: e :: r => do
    let c ← shortEscape? e
    let t ← string? r
    pure ((t.map (Unit16.plain c :: ·)).within (by simp; omega))
  | c :: r => do
    if c = '\\' ∨ c.toNat < 32 then none
    let t ← string? r
    pure ((t.map (Unit16.plain c :: ·)).within (by simp))

def fraction? : List Char → Option (List Char × List Char)
  | '.' :: r =>
    let (digits, rest) := Text.span Char.isDigit r
    if digits = [] then none else some (digits, rest)
  | s => some ([], s)

def exponent? (s : List Char) : Option (Option (Bool × List Char) × List Char) :=
  match s with
  | [] => some (none, s)
  | c :: r =>
    if c ≠ 'e' ∧ c ≠ 'E' then some (none, s) else
    let (negative, r) := match r with
      | '-' :: r => (true, r)
      | '+' :: r => (false, r)
      | _ => (false, r)
    let (digits, rest) := Text.span Char.isDigit r
    if digits = [] then none else some (some (negative, digits), rest)

/-- A number; a zero in front stands alone. -/
def number? (s : List Char) : Option (NumberText × List Char) := do
  let (negative, s) := match s with
    | '-' :: r => (true, r)
    | _ => (false, s)
  let (whole, rest) := Text.span Char.isDigit s
  if whole = [] ∨ (whole.head? = some '0' ∧ 1 < whole.length) then none
  let (fraction, rest) ← fraction? rest
  let (exponent, rest) ← exponent? rest
  pure (⟨negative, whole, fraction, exponent⟩, rest)

def atom? (s : List Char) : Option (Literal × List Char) :=
  match s with
  | 'n' :: 'u' :: 'l' :: 'l' :: r => some (.null, r)
  | 't' :: 'r' :: 'u' :: 'e' :: r => some (.bool true, r)
  | 'f' :: 'a' :: 'l' :: 's' :: 'e' :: r => some (.bool false, r)
  | _ => (number? s).map fun (n, r) => (.number n, r)

mutual

def value? (s : List Char) : Option (Taken Literal s) :=
  match s with
  | '"' :: r => (string? r).map fun t => (t.map .text).within (by simp)
  | '[' :: r =>
    match h : next r with
    | ']' :: rest => some ⟨.array [], rest, by have := length_lt_of_next h; simp; omega⟩
    | _ => (items? (next r)).map fun t =>
        (t.map .array).within (by have := length_next_le r; simp; omega)
  | '\x7b' :: r =>
    match h : next r with
    | '\x7d' :: rest => some ⟨.object [], rest, by have := length_lt_of_next h; simp; omega⟩
    | _ => (members? (next r)).map fun t =>
        (t.map .object).within (by have := length_next_le r; simp; omega)
  | s =>
    match atom? s with
    | some (value, rest) => if h : rest.length < s.length then some ⟨value, rest, h⟩ else none
    | none => none
termination_by 3 * s.length
decreasing_by
  all_goals
    have := length_next_le r
    simp only [List.length_cons]
    omega

def items? (s : List Char) : Option (Taken (List Literal) s) :=
  match value? s with
  | none => none
  | some ⟨value, rest, shorter⟩ =>
    match h : next rest with
    | ']' :: r => some ⟨[value], r, by have := length_lt_of_next h; omega⟩
    | ',' :: r =>
      (items? (next r)).map fun t => (t.map (value :: ·)).within
        (by have := length_lt_of_next h; have := length_next_le r; omega)
    | _ => none
termination_by 3 * s.length + 1
decreasing_by
  · omega
  · have := length_lt_of_next h; have := length_next_le r; omega

def members? (s : List Char) : Option (Taken (List (List Unit16 × Literal)) s) :=
  match s with
  | '"' :: k =>
    match string? k with
    | none => none
    | some ⟨key, rest, shorter⟩ =>
      match hColon : next rest with
      | ':' :: v =>
        match value? (next v) with
        | none => none
        | some ⟨value, rest', shorter'⟩ =>
          match h : next rest' with
          | '\x7d' :: r => some ⟨[(key, value)], r, by
              have := length_lt_of_next h; have := length_lt_of_next hColon
              have := length_next_le v; simp; omega⟩
          | ',' :: r =>
            (members? (next r)).map fun t => (t.map ((key, value) :: ·)).within (by
              have := length_lt_of_next h; have := length_lt_of_next hColon
              have := length_next_le v; have := length_next_le r; simp; omega)
          | _ => none
      | _ => none
  | _ => none
termination_by 3 * s.length + 2
decreasing_by
  · have := length_lt_of_next hColon; have := length_next_le v; simp only [List.length_cons]; omega
  · have := length_lt_of_next h; have := length_lt_of_next hColon
    have := length_next_le v; have := length_next_le r; simp only [List.length_cons]; omega

end

def ofText? (s : String) : Option Literal := do
  let t ← value? (next s.toList)
  if next t.rest = [] then some t.value else none

end Literal

/-- The characters of a string. The two halves of a pair of units stand next to each other. -/
def characters? : List Unit16 → Option (List Char)
  | [] => some []
  | .plain c :: rest => (characters? rest).map (c :: ·)
  | .escaped high :: .escaped low :: rest =>
    if 0xD800 ≤ high ∧ high < 0xDC00 then
      if 0xDC00 ≤ low ∧ low < 0xE000 then
        let c := Char.ofNat (0x10000 + (high - 0xD800) * 1024 + (low - 0xDC00))
        (characters? rest).map (c :: ·)
      else none
    else if 0xDC00 ≤ high ∧ high < 0xE000 then none
    else (characters? (.escaped low :: rest)).map (Char.ofNat high :: ·)
  | .escaped n :: rest =>
    if 0xD800 ≤ n ∧ n < 0xE000 then none else (characters? rest).map (Char.ofNat n :: ·)

def stringOf? (units : List Unit16) : Option String :=
  (characters? units).map String.ofList

mutual

/-- The value of a text; of members with the same key the last one stays. -/
def ofLiteral? : Literal → Option Json
  | .null => some null
  | .bool b => some (bool b)
  | .number n => n.value?
  | .text units => (stringOf? units).map text
  | .array items => (ofItems? items).map array
  | .object members => (ofMembers? members).map fun m => object (Dictionary.ofList m)

def ofItems? : List Literal → Option (List Json)
  | [] => some []
  | item :: rest => do pure ((← ofLiteral? item) :: (← ofItems? rest))

def ofMembers? : List (List Unit16 × Literal) → Option (List (String × Json))
  | [] => some []
  | (key, value) :: rest => do
    pure ((← stringOf? key, ← ofLiteral? value) :: (← ofMembers? rest))

end

def ofText? (s : String) : Option Json :=
  (Literal.ofText? s).bind ofLiteral?

end SearchMapper.Json
