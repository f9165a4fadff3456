import SearchMapper.Index.Expr
import SearchMapper.Index.Refusal
import SearchMapper.Text.Blank
import SearchMapper.Text.Taken

namespace SearchMapper.Index

open Text (Taken isBlank trimStart)

namespace Reading

/-- The rest behind a keyword at the front of the text, which a blank or the end delimits. -/
def keyword? (word : List Char) (s : List Char) : Option (List Char) :=
  match Text.after? word (trimStart s) with
  | none => none
  | some [] => some []
  | some (c :: rest) => if isBlank c then some (c :: rest) else none

def skipBoost : List Char → List Char
  | '^' :: rest => rest.dropWhile fun c => c.isDigit || c = '.'
  | s => s

def endsField (c : Char) : Bool :=
  isBlank c || c = ':' || c = '(' || c = ')'

def endsToken (c : Char) : Bool :=
  isBlank c || c = ')' || c = '^'

def endsRange (c : Char) : Bool :=
  c = ']' || c = '\x7d'

/-- A phrase up to its closing quote, from behind the opening one. A backslash keeps the character
behind it. -/
def phrase? : List Char → Option (List Char × List Char)
  | [] => none
  | '"' :: rest => some ([], rest)
  | ['\\'] => none
  | '\\' :: c :: rest => (phrase? rest).map fun (text, rest) => (c :: text, rest)
  | c :: rest => (phrase? rest).map fun (text, rest) => (c :: text, rest)

/-- A bound without blanks and quotes around it; a star leaves the range open. -/
def bound (s : List Char) : Option String :=
  let bare := ((Text.trim s).dropWhile (· = '"')).reverse.dropWhile (· = '"')
  if bare = ['*'] then none else some (String.ofList bare.reverse)

def range (includeLower : Bool) (s : List Char) : Except ReadError (Test × List Char) :=
  match Text.span (fun c => !endsRange c) s with
  | (_, []) => .error .openRange
  | (body, close :: rest) =>
    match Text.cut? " TO ".toList body with
    | none => .error .rangeWithoutTo
    | some (lower, upper) =>
      .ok (.range (bound lower) (bound upper) includeLower (close = ']'), rest)

def tokenTest (token : List Char) : Test :=
  match Text.cut? ['~'] token with
  | some (term, _) => .fuzzy (String.ofList term)
  | none =>
    if '*' ∈ token then .wildcard (String.ofList token) else .exact (String.ofList token)

theorem length_le_trimStart (s : List Char) : (trimStart s).length ≤ s.length :=
  Text.length_dropWhile_le isBlank s

theorem length_skipBoost_le (s : List Char) : (skipBoost s).length ≤ s.length := by
  unfold skipBoost
  split
  · exact Nat.le_succ_of_le (Text.length_dropWhile_le _ _)
  · exact Nat.le_refl _

theorem length_le_of_keyword? {word s rest : List Char} (h : keyword? word s = some rest) :
    rest.length + word.length ≤ s.length := by
  have hs := length_le_trimStart s
  unfold keyword? at h
  split at h
  · simp at h
  · next ha =>
    have := congrArg List.length (Text.eq_append_of_after? ha)
    simp_all
  · next ha =>
    have hl := congrArg List.length (Text.eq_append_of_after? ha)
    split at h
    · simp only [Option.some.injEq] at h
      simp only [List.length_append, h] at hl
      omega
    · simp at h

theorem length_lt_of_phrase? {s text rest : List Char} (h : phrase? s = some (text, rest)) :
    rest.length < s.length := by
  fun_induction phrase? s generalizing text rest with
  | case1 => simp at h
  | case2 => simp_all
  | case3 => simp at h
  | case4 c s ih | case5 c s _ _ _ ih =>
    obtain ⟨⟨t, r⟩, ht, he⟩ := Option.map_eq_some_iff.1 h
    simp only [Prod.mk.injEq] at he
    have := ih ht
    simp only [List.length_cons, ← he.2]
    omega

theorem length_lt_of_range {includeLower : Bool} {s rest : List Char} {test : Test}
    (h : range includeLower s = .ok (test, rest)) : rest.length < s.length := by
  unfold range at h
  split at h
  · simp at h
  · next body close tail hs =>
    have hl := congrArg List.length (Text.eq_append_of_span hs)
    simp only [List.length_append, List.length_cons] at hl
    split at h
    · simp at h
    · simp only [Except.ok.injEq, Prod.mk.injEq] at h
      rw [← h.2]
      omega

/-- A text that is read from its position in a query of `size` characters. -/
def position (size : Nat) (s : List Char) : Nat :=
  size - s.length

def value (size : Nat) (s : List Char) : Except ReadError (Taken Test s) :=
  match s with
  | '"' :: r =>
    match h : phrase? r with
    | none => .error .openPhrase
    | some (text, rest) => .ok ⟨.exact (String.ofList text), skipBoost rest, by
        have := length_lt_of_phrase? h; have := length_skipBoost_le rest; simp; omega⟩
  | '[' :: r =>
    match h : range true r with
    | .error e => .error e
    | .ok (test, rest) => .ok ⟨test, skipBoost rest, by
        have := length_lt_of_range h; have := length_skipBoost_le rest; simp; omega⟩
  | '\x7b' :: r =>
    match h : range false r with
    | .error e => .error e
    | .ok (test, rest) => .ok ⟨test, skipBoost rest, by
        have := length_lt_of_range h; have := length_skipBoost_le rest; simp; omega⟩
  | s =>
    match h : Text.span (fun c => !endsToken c) s with
    | ([], _) => .error (.valueExpected (position size s))
    | (c :: token, rest) => .ok ⟨tokenTest (c :: token), skipBoost rest, by
        have hl := congrArg List.length (Text.eq_append_of_span h)
        have := length_skipBoost_le rest
        simp at hl; omega⟩

def groupItems (size : Nat) (s : List Char) :
    Except ReadError (Taken (List (Bool × Test)) s) :=
  match h : trimStart s with
  | [] => .error .unbalancedGroup
  | ')' :: rest => .ok ⟨[], rest, by have := length_le_trimStart s; simp [h] at this; omega⟩
  | c :: r =>
    have hs : r.length + 1 ≤ s.length := by have := length_le_trimStart s; simp [h] at this; omega
    match value size (if c = '-' then r else c :: r) with
    | .error e => .error e
    | .ok ⟨test, rest, shorter⟩ =>
      have hr : rest.length < s.length := by
        have : (if c = '-' then r else c :: r).length ≤ r.length + 1 := by split <;> simp
        omega
      match groupItems size rest with
      | .error e => .error e
      | .ok items => .ok ((items.map ((decide (c = '-'), test) :: ·)).within
          (Nat.le_of_lt hr))
termination_by s.length

def fieldTest (size : Nat) (s : List Char) : Except ReadError (Taken FieldTest s) :=
  match s with
  | '(' :: r =>
    match groupItems size r with
    | .error e => .error e
    | .ok ⟨items, rest, shorter⟩ => .ok ⟨.group items, skipBoost rest, by
        have := length_skipBoost_le rest; simp; omega⟩
  | s => (fun t => t.map .one) <$> value size s

def fieldExpr (size : Nat) (s : List Char) : Except ReadError (Taken Expr s) :=
  match h : Text.span (fun c => !endsField c) s with
  | ([], _) => .error (.fieldExpected (position size s))
  | (c :: name, rest) =>
    have hl : rest.length < s.length := by
      have hl := congrArg List.length (Text.eq_append_of_span h)
      simp at hl; omega
    let field := c :: name
    match rest with
    | ':' :: '*' :: rest' =>
      if field = ['*'] then .ok ⟨.all, rest', by simp at hl; omega⟩
      else ((fun t => (t.map (.field (String.ofList field) <| .one ·)).within
        (by simp at hl ⊢; omega)) <$> value size ('*' :: rest'))
    | ':' :: rest' =>
      (fun t => (t.map (.field (String.ofList field))).within (by simp at hl; omega)) <$>
        fieldTest size rest'
    | rest =>
      if field = ['*'] then .ok ⟨.all, rest, hl⟩
      else .error (.unqualifiedTerm (String.ofList field))

def conjunction : List Expr → Expr
  | [e] => e
  | es => .and es

def disjunction : List Expr → Expr
  | [e] => e
  | es => .or es

mutual

def anyOf (size : Nat) (s : List Char) : Except ReadError (Taken (List Expr) s) :=
  match allOf size s with
  | .error e => .error e
  | .ok ⟨first, rest, shorter⟩ =>
    match h : keyword? ['O', 'R'] rest with
    | none => .ok ⟨[conjunction first], rest, shorter⟩
    | some r =>
      match anyOf size r with
      | .error e => .error e
      | .ok t => .ok ((t.map (conjunction first :: ·)).within
          (by have := length_le_of_keyword? h; simp at this; omega))
termination_by 4 * s.length + 3
decreasing_by
  · omega
  · have := length_le_of_keyword? h; simp at this; omega

def allOf (size : Nat) (s : List Char) : Except ReadError (Taken (List Expr) s) :=
  match signed size s with
  | .error e => .error e
  | .ok ⟨first, rest, shorter⟩ =>
    match h : keyword? ['A', 'N', 'D'] rest with
    | none => .ok ⟨[first], rest, shorter⟩
    | some r =>
      match allOf size r with
      | .error e => .error e
      | .ok t => .ok ((t.map (first :: ·)).within
          (by have := length_le_of_keyword? h; simp at this; omega))
termination_by 4 * s.length + 2
decreasing_by
  · omega
  · have := length_le_of_keyword? h; simp at this; omega

def signed (size : Nat) (s : List Char) : Except ReadError (Taken Expr s) :=
  match h : trimStart s with
  | '-' :: r =>
    match primary size r with
    | .error e => .error e
    | .ok t => .ok ((t.map .not).within
        (by have := length_le_trimStart s; simp [h] at this; omega))
  | _ => primary size s
termination_by 4 * s.length + 1
decreasing_by
  · have := length_le_trimStart s; simp only [h, List.length_cons] at this; omega
  · omega

def primary (size : Nat) (s : List Char) : Except ReadError (Taken Expr s) :=
  match h : trimStart s with
  | '(' :: r =>
    match anyOf size r with
    | .error e => .error e
    | .ok ⟨items, rest, shorter⟩ =>
      match hc : trimStart rest with
      | ')' :: rest' => .ok ⟨disjunction items, skipBoost rest', by
          have := length_le_trimStart s; have := length_le_trimStart rest
          have := length_skipBoost_le rest'
          simp_all only [List.length_cons]; omega⟩
      | _ => .error .unbalancedParentheses
  | s' => (fun t => t.within (h ▸ length_le_trimStart s)) <$> fieldExpr size s'
termination_by 4 * s.length
decreasing_by
  have := length_le_trimStart s; simp only [h, List.length_cons] at this; omega

end

end Reading

open Reading in
def Expr.ofText (query : String) : Except ReadError Expr :=
  let s := query.toList
  match anyOf s.length s with
  | .error e => .error e
  | .ok ⟨items, rest, _⟩ =>
    match trimStart rest with
    | [] => .ok (disjunction items)
    | rest => .error (.unsupportedText (position s.length rest) query)

end SearchMapper.Index
