import SearchMapper.Index.Reading

-- Reading by position: the text stays as it is and a cursor goes over it by hand, so that nothing
-- here tells by its type whether a reader comes to an end or where its cursor stops. Loops whose
-- progress hangs on what they read count their rounds, and give up when they run out of them.

namespace SearchMapper.Index.Cursor

open Reading (bound conjunction disjunction endsField endsRange endsToken tokenTest)
open Text (isBlank)

/-- Why a reader stops short: the text has no meaning, or a slice of it would lie behind its end. -/
inductive Stop
  | refused (cause : ReadError)
  | outside

/-- What a reader comes to; `none` if it has not ended after the rounds that it was given. -/
abbrev Run (α : Type) : Type :=
  ExceptT Stop Option α

def refuse {α : Type} (cause : ReadError) : Run α :=
  throw (.refused cause)

def unended {α : Type} : Run α :=
  ExceptT.mk none

def slice (chars : List Char) (start stop : Nat) : Run (List Char) :=
  if start ≤ stop ∧ stop ≤ chars.length then pure ((chars.drop start).take (stop - start))
  else throw .outside

section Tokens

theorem lt_length_of_getElem? {chars : List Char} {pos : Nat} {c : Char}
    (h : chars[pos]? = some c) : pos < chars.length :=
  (List.getElem?_eq_some_iff.1 h).1

def scan (p : Char → Bool) (chars : List Char) (pos : Nat) : Nat :=
  match h : chars[pos]? with
  | none => pos
  | some c => if p c then scan p chars (pos + 1) else pos
termination_by chars.length - pos
decreasing_by
  have := lt_length_of_getElem? h
  omega

def skipBlanks : List Char → Nat → Nat :=
  scan isBlank

def skipBoost (chars : List Char) (pos : Nat) : Nat :=
  if chars[pos]? = some '^' then scan (fun c => c.isDigit || c = '.') chars (pos + 1) else pos

/-- Whether the keyword is next. The blanks in front of it are skipped in any case. -/
def keyword (word chars : List Char) (pos : Nat) : Run (Bool × Nat) := do
  let start := skipBlanks chars pos
  let stop := start + word.length
  if chars.length < stop then pure (false, start)
  else
    let candidate ← slice chars start stop
    if candidate = word ∧ chars[stop]?.all isBlank then pure (true, stop) else pure (false, start)

def phrase? (chars : List Char) (pos : Nat) : Option (List Char × Nat) :=
  match h : chars[pos]? with
  | none => none
  | some '"' => some ([], pos + 1)
  -- at the end of the text this steps over a character that is not there
  | some '\\' => (phrase? chars (pos + 2)).map fun (text, stop) =>
      (chars[pos + 1]?.toList ++ text, stop)
  | some c => (phrase? chars (pos + 1)).map fun (text, stop) => (c :: text, stop)
termination_by chars.length - pos
decreasing_by all_goals
  have := lt_length_of_getElem? h
  omega

def phrase (chars : List Char) (pos : Nat) : Run (Test × Nat) :=
  match phrase? chars pos with
  | none => refuse .openPhrase
  | some (text, stop) => pure (.exact (String.ofList text), stop)

def range (includeLower : Bool) (chars : List Char) (pos : Nat) : Run (Test × Nat) := do
  let stop := scan (fun c => !endsRange c) chars pos
  match chars[stop]? with
  | none => refuse .openRange
  | some close =>
    let body ← slice chars pos stop
    match Text.cut? " TO ".toList body with
    | none => refuse .rangeWithoutTo
    | some (lower, upper) =>
      pure (.range (bound lower) (bound upper) includeLower (close = ']'), stop + 1)

def token (chars : List Char) (pos : Nat) : Run (Test × Nat) := do
  let stop := scan (fun c => !endsToken c) chars pos
  let text ← slice chars pos stop
  if text = [] then refuse (.valueExpected pos) else pure (tokenTest text, stop)

end Tokens

section Expressions

def value (chars : List Char) (pos : Nat) : Run (Test × Nat) := do
  let (test, stop) ← match chars[pos]? with
    | some '"' => phrase chars (pos + 1)
    | some '[' => range true chars (pos + 1)
    | some '\x7b' => range false chars (pos + 1)
    | _ => token chars pos
  pure (test, skipBoost chars stop)

def groupItems (chars : List Char) : Nat → Nat → Run (List (Bool × Test) × Nat)
  | 0, _ => unended
  | rounds + 1, pos => do
    let start := skipBlanks chars pos
    match chars[start]? with
    | none => refuse .unbalancedGroup
    | some ')' => pure ([], start + 1)
    | some c =>
      let (test, next) ← value chars (if c = '-' then start + 1 else start)
      let (items, stop) ← groupItems chars rounds next
      pure ((decide (c = '-'), test) :: items, stop)

def fieldTest (chars : List Char) (rounds pos : Nat) : Run (FieldTest × Nat) := do
  if chars[pos]? = some '(' then
    let (items, stop) ← groupItems chars rounds (pos + 1)
    pure (.group items, skipBoost chars stop)
  else
    let (test, stop) ← value chars pos
    pure (.one test, stop)

def fieldExpr (chars : List Char) (rounds pos : Nat) : Run (Expr × Nat) := do
  let stop := scan (fun c => !endsField c) chars pos
  let name ← slice chars pos stop
  if name = [] then refuse (.fieldExpected pos)
  else if chars[stop]? ≠ some ':' then
    if name = ['*'] then pure (.all, stop) else refuse (.unqualifiedTerm (String.ofList name))
  else if name = ['*'] ∧ chars[stop + 1]? = some '*' then pure (.all, stop + 2)
  else
    let (test, stop) ← fieldTest chars rounds (stop + 1)
    pure (.field (String.ofList name) test, stop)

mutual

def anyOf (chars : List Char) : Nat → Nat → Run (List Expr × Nat)
  | 0, _ => unended
  | rounds + 1, pos => do
    let (first, next) ← allOf chars rounds pos
    let (found, next) ← keyword ['O', 'R'] chars next
    if found then
      let (more, stop) ← anyOf chars rounds next
      pure (conjunction first :: more, stop)
    else pure ([conjunction first], next)

def allOf (chars : List Char) : Nat → Nat → Run (List Expr × Nat)
  | 0, _ => unended
  | rounds + 1, pos => do
    let (first, next) ← signed chars rounds pos
    let (found, next) ← keyword ['A', 'N', 'D'] chars next
    if found then
      let (more, stop) ← allOf chars rounds next
      pure (first :: more, stop)
    else pure ([first], next)

def signed (chars : List Char) : Nat → Nat → Run (Expr × Nat)
  | 0, _ => unended
  | rounds + 1, pos => do
    let start := skipBlanks chars pos
    if chars[start]? = some '-' then
      let (e, stop) ← primary chars rounds (start + 1)
      pure (.not e, stop)
    else primary chars rounds start

def primary (chars : List Char) : Nat → Nat → Run (Expr × Nat)
  | 0, _ => unended
  | rounds + 1, pos => do
    let start := skipBlanks chars pos
    if chars[start]? = some '(' then
      let (items, next) ← anyOf chars rounds (start + 1)
      let close := skipBlanks chars next
      if chars[close]? = some ')' then pure (disjunction items, skipBoost chars (close + 1))
      else refuse .unbalancedParentheses
    else fieldExpr chars rounds start

end

def parse (rounds : Nat) (query : String) : Run Expr := do
  let chars := query.toList
  let (items, next) ← anyOf chars rounds 0
  let stop := skipBlanks chars next
  if stop < chars.length then refuse (.unsupportedText stop query)
  else pure (disjunction items)

end Expressions

end SearchMapper.Index.Cursor
