import SearchMapper.Query.Criteria.Builder

namespace SearchMapper.Criteria

/-- The calls that ask something of the current field. -/
inductive Asking
  | is (value : Value)
  | isNot (value : Value)
  | isIn (values : List Value)
  | notIn (values : List Value)
  | startsWith (start : Value)
  | endsWith (ending : Value)
  | contains (part : Value)
  | fuzzy (term : Value)
  | fuzzyWithin (term : Value) (distance : Number.Single)
  | expression (raw : String)
  | between (lower upper : Value)
  | betweenWith (lower upper : Value) (includeLower includeUpper : Bool)
  | greaterThan (value : Value)
  | greaterThanEqual (value : Value)
  | lessThan (value : Value)
  | lessThanEqual (value : Value)
  | isNull
  | isNotNull

namespace Asking

def perform (c : Criteria) : Asking → Except Error Criteria
  | is v => .ok (c.is v)
  | isNot v => .ok (c.isNot v)
  | isIn vs => c.isIn vs
  | notIn vs => c.notIn vs
  | startsWith v => c.startsWith v
  | endsWith v => c.endsWith v
  | contains v => c.contains v
  | fuzzy v => c.fuzzy v
  | fuzzyWithin v distance => c.fuzzyWithin v distance
  | expression raw => .ok (c.expression raw)
  | between lower upper => .ok (c.between lower upper)
  | betweenWith lower upper includeLower includeUpper =>
    .ok (c.betweenWith lower upper includeLower includeUpper)
  | greaterThan v => .ok (c.greaterThan v)
  | greaterThanEqual v => .ok (c.greaterThanEqual v)
  | lessThan v => .ok (c.lessThan v)
  | lessThanEqual v => .ok (c.lessThanEqual v)
  | isNull => .ok c.isNull
  | isNotNull => .ok c.isNotNull

def members (negated : Bool) (f : Value → Predicate) (vs : List Value) :
    Except Error (List Predicate) :=
  if vs.flatMap Value.items = [] then .error (.noMembers negated)
  else .ok ((vs.flatMap Value.items).map f)

/-- What is asked, whatever the criteria. -/
def predicates : Asking → Except Error (List Predicate)
  | is .null => .ok [.isNull]
  | is v => .ok (v.items.map .is)
  | isNot .null => .ok [.isNotNull]
  | isNot v => .ok (v.items.map .isNot)
  | isIn vs => members false .is vs
  | notIn vs => members true .isNot vs
  | startsWith v => (token v "" "*").map fun t => [.startsWith t]
  | endsWith v => (token v "*" "").map fun t => [.endsWith t]
  | contains v => (token v "*" "*").map fun t => [.contains t]
  | fuzzy v => (token v "" "~").map fun t => [.fuzzy t none]
  | fuzzyWithin v distance =>
    if isFraction distance then
      (token v "" ("~" ++ Number.plain.write distance)).map fun t => [.fuzzy t (some distance)]
    else .error (.distanceOutOfRange distance)
  | expression raw => .ok [.expression raw]
  | between lower upper => .ok [.between lower upper true true]
  | betweenWith lower upper includeLower includeUpper =>
    .ok [.between lower upper includeLower includeUpper]
  | greaterThan v => .ok [.between v .null false true]
  | greaterThanEqual v => .ok [.between v .null true true]
  | lessThan v => .ok [.between .null v true false]
  | lessThanEqual v => .ok [.between .null v true true]
  | isNull => .ok [.isNull]
  | isNotNull => .ok [.isNotNull]

end Asking

variable {c : Criteria} {asking : Asking} {ps : List Predicate}

theorem perform_members (negated : Bool) (f : Value → Predicate) (vs : List Value) :
    (match vs.flatMap Value.items with
      | [] => .error (.noMembers negated)
      | items => .ok (c.pushAll (items.map f))) =
      (Asking.members negated f vs).map c.pushAll := by
  unfold Asking.members
  split
  · next hnil =>
    rw [if_pos hnil]
    rfl
  · next hne =>
    rw [if_neg hne]
    rfl

theorem perform_token (f : String → Predicate) (v : Value) (before behind : String) :
    (do pure (c.push (f (← token v before behind)))) =
      ((token v before behind).map fun t => [f t]).map c.pushAll := by
  cases token v before behind <;> rfl

theorem Asking.perform_eq (asking : Asking) (c : Criteria) :
    asking.perform c = asking.predicates.map c.pushAll := by
  cases asking with
  | is v => cases v <;> rfl
  | isNot v => cases v <;> rfl
  | isIn vs => exact perform_members false .is vs
  | notIn vs => exact perform_members true .isNot vs
  | startsWith v => exact perform_token .startsWith v "" "*"
  | endsWith v => exact perform_token .endsWith v "*" ""
  | contains v => exact perform_token .contains v "*" "*"
  | fuzzy v => exact perform_token (.fuzzy · none) v "" "~"
  | fuzzyWithin v distance =>
    simp only [perform, predicates, Criteria.fuzzyWithin]
    split
    · exact perform_token (.fuzzy · (some distance)) v "" _
    · rfl
  | _ => rfl

theorem isIn_eq_ok {vs : List Value} (hne : vs.flatMap Value.items ≠ []) (c : Criteria) :
    c.isIn vs = .ok (c.pushAll ((vs.flatMap Value.items).map .is)) := by
  have hmembers : Asking.members false .is vs = .ok ((vs.flatMap Value.items).map .is) :=
    if_neg hne
  exact ((Asking.isIn vs).perform_eq c).trans (congrArg (Except.map c.pushAll) hmembers)

theorem Asking.members_ne_nil {negated : Bool} {f : Value → Predicate} {vs : List Value}
    (h : members negated f vs = .ok ps) : ps ≠ [] := by
  unfold members at h
  split at h
  · cases h
  · next hne =>
    cases h
    simpa using hne

theorem Asking.token_ne_nil {f : String → Predicate} {v : Value} {before behind : String}
    (h : ((token v before behind).map fun t => [f t]) = .ok ps) : ps ≠ [] := by
  cases ht : token v before behind with
  | error cause =>
    rw [ht] at h
    cases h
  | ok t =>
    rw [ht] at h
    cases h
    exact List.cons_ne_nil _ _

theorem Asking.predicates_eq_nil_iff (h : asking.predicates = .ok ps) :
    ps = [] ↔ asking = .is (.list []) ∨ asking = .isNot (.list []) := by
  cases asking with
  | is v | isNot v =>
    cases v <;> cases h <;> simp [Value.items]
  | isIn vs | notIn vs => simp [members_ne_nil h]
  | startsWith v | endsWith v | contains v | fuzzy v =>
    rw [predicates] at h
    simp [token_ne_nil h]
  | fuzzyWithin v distance =>
    rw [predicates] at h
    split at h
    · simp [token_ne_nil h]
    · cases h
  | _ =>
    cases h
    simp

end SearchMapper.Criteria
