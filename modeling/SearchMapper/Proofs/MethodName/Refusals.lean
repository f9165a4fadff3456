import SearchMapper.Proofs.MethodName.Trees

namespace SearchMapper

open MethodName (Condition Keyword)

namespace Value

/-- A list without items, or with empty lists alone. -/
def hasNoItem : Value → Bool
  | list items => items.all fun
    | list [] => true
    | _ => false
  | _ => false

theorem flatMap_items_eq_nil_iff (v : Value) :
    v.items.flatMap items = [] ↔ v.hasNoItem = true := by
  cases v with
  | list vs =>
    rw [items, List.flatMap_eq_nil_iff, hasNoItem, List.all_eq_true]
    refine forall₂_congr fun w _ => ?_
    cases w with
    | list ws => cases ws <;> simp [items]
    | _ => simp [items]
  | _ => simp [items, hasNoItem]

end Value

namespace MethodName.Keyword

/-- A text that has to be one token, but has a blank inside. -/
def severalTokens? (before behind : String) (v : Value) : Option Error :=
  let trimmed := Text.trim v.toText.toList
  if trimmed.any Text.isBlank then some (.severalTokens (before ++ String.ofList trimmed ++ behind))
  else none

def refusal? : Keyword → List Value → Option Error
  | like, [v] | startingWith, [v] => severalTokens? "" "*" v
  | endingWith, [v] => severalTokens? "*" "" v
  | containing, [v] => severalTokens? "*" "*" v
  | near, [v] => severalTokens? "" "~" v
  | isIn, [v] => if v.hasNoItem then some (.noMembers false) else none
  | notIn, [v] => if v.hasNoItem then some (.noMembers true) else none
  | _, _ => none

variable {k : Keyword} {args : List Value} {cause : Error}

theorem push_token_eq_error_iff {f : String → Predicate} {v : Value} {before behind : String}
    (c : Criteria) :
    (do pure (c.push (f (← Criteria.token v before behind)))) = Except.error cause ↔
      severalTokens? before behind v = some cause := by
  simp only [Criteria.token, severalTokens?, Text.hasBlank, String.toList_ofList]
  split
  · exact error_eq_iff_some_eq
  · exact ⟨nofun, nofun⟩

theorem pushAll_members_eq_error_iff {negated : Bool} {f : Value → Predicate} {v : Value}
    (c : Criteria) :
    (match v.items.flatMap Value.items with
      | [] => .error (.noMembers negated)
      | items => .ok (c.pushAll (items.map f))) = Except.error cause ↔
      (if v.hasNoItem then some (.noMembers negated) else none) = some cause := by
  by_cases hv : v.hasNoItem = true
  · rw [(Value.flatMap_items_eq_nil_iff v).2 hv, if_pos hv]
    exact error_eq_iff_some_eq
  · rw [if_neg hv]
    split
    · next hnil => exact absurd ((Value.flatMap_items_eq_nil_iff v).1 hnil) hv
    · exact ⟨nofun, nofun⟩

/-- Given as many arguments as it takes, a keyword fails for no other reason. -/
theorem apply_eq_error_iff (hk : k.isSupported = true) (hargs : args.length = k.arity)
    (c : Criteria) : k.apply args c = .error cause ↔ k.refusal? args = some cause := by
  match args with
  | [] => cases k <;> simp_all [arity, isSupported, apply, refusal?]
  | [v] =>
    cases k with
    | like | startingWith | endingWith | containing | near => exact push_token_eq_error_iff c
    | isIn | notIn => exact pushAll_members_eq_error_iff c
    | _ => simp_all [arity, isSupported, apply, refusal?]
  | v :: w :: rest => cases k <;> simp_all [arity, isSupported, apply, refusal?]

theorem exists_apply_eq_ok (hk : k.isSupported = true) (hargs : args.length = k.arity)
    (h : k.refusal? args = none) (c : Criteria) : ∃ c', k.apply args c = .ok c' := by
  cases happly : k.apply args c with
  | ok c' => exact ⟨c', rfl⟩
  | error cause =>
    rw [(apply_eq_error_iff hk hargs c).1 happly] at h
    cases h

theorem refusal?_cases (h : k.refusal? args = some cause) :
    (∃ fragment, cause = .severalTokens fragment) ∨ ∃ negated, cause = .noMembers negated := by
  have htoken {before behind : String} {v : Value}
      (h : severalTokens? before behind v = some cause) :
      ∃ fragment, cause = .severalTokens fragment := by
    simp only [severalTokens?] at h
    split at h
    · cases h
      exact ⟨_, rfl⟩
    · cases h
  have hmembers {v : Value} {negated : Bool}
      (h : (if v.hasNoItem then some (Error.noMembers negated) else none) = some cause) :
      ∃ negated, cause = .noMembers negated := by
    split at h
    · cases h
      exact ⟨_, rfl⟩
    · cases h
  unfold refusal? at h
  split at h
  · exact .inl (htoken h)
  · exact .inl (htoken h)
  · exact .inl (htoken h)
  · exact .inl (htoken h)
  · exact .inl (htoken h)
  · exact .inr (hmembers h)
  · exact .inr (hmembers h)
  · cases h

end MethodName.Keyword

namespace Finder

def tests (f : Finder) : List Test :=
  f.clauses.flatten

/-- The first of the tests that cannot use its arguments decides why a call is refused. -/
def refusalOf? (tests : List Test) (args : List Value) : Option Error :=
  (tests.zip (shares tests args)).findSome? fun part => part.1.keyword.refusal? part.2

variable {tests : List Test} {args : List Value} {cause : Error}

theorem refusalOf?_cons (test : Test) (tests : List Test) (args : List Value) :
    refusalOf? (test :: tests) args =
      (test.keyword.refusal? (args.take test.keyword.arity)).or
        (refusalOf? tests (args.drop test.keyword.arity)) := by
  rw [refusalOf?, shares, List.zip_cons_cons, List.findSome?_cons]
  cases test.keyword.refusal? (args.take test.keyword.arity) <;> rfl

theorem arityOf_append (before behind : List Test) :
    arityOf (before ++ behind) = arityOf before + arityOf behind := by
  simp [arityOf_eq_sum]

theorem refusalOf?_append (before behind : List Test) (args : List Value) :
    refusalOf? (before ++ behind) args =
      (refusalOf? before args).or (refusalOf? behind (args.drop (arityOf before))) := by
  rw [refusalOf?, shares_append, List.zip_append (length_shares before args).symm,
    List.findSome?_append]
  rfl

theorem clauseFrom_eq_error_iff (htests : ∀ test ∈ tests, test.keyword.isSupported = true)
    (hargs : arityOf tests ≤ args.length) (current : Option Criteria) :
    clauseFrom current tests args = .error cause ↔ refusalOf? tests args = some cause := by
  induction tests generalizing current args with
  | nil => exact ⟨nofun, nofun⟩
  | cons test tests ih =>
    obtain ⟨htest, htests⟩ := List.forall_mem_cons.1 htests
    rw [arityOf] at hargs
    have hshare : (args.take test.keyword.arity).length = test.keyword.arity := by
      rw [List.length_take]
      omega
    have hrest : arityOf tests ≤ (args.drop test.keyword.arity).length := by
      rw [List.length_drop]
      omega
    obtain ⟨node, hstep⟩ : ∃ node, clauseFrom current (test :: tests) args =
        (test.keyword.apply (args.take test.keyword.arity) node >>= fun c =>
          clauseFrom (some c) tests (args.drop test.keyword.arity)) := ⟨_, rfl⟩
    rw [refusalOf?_cons, hstep]
    cases hrefusal : test.keyword.refusal? (args.take test.keyword.arity) with
    | some failure =>
      rw [(MethodName.Keyword.apply_eq_error_iff htest hshare node).2 hrefusal]
      exact error_eq_iff_some_eq
    | none =>
      obtain ⟨c, hc⟩ := MethodName.Keyword.exists_apply_eq_ok htest hshare hrefusal node
      rw [hc, Option.none_or, ← ih htests hrest (some c)]
      rfl

theorem criteriaFrom_eq_error_iff {clauses : List (List Test)}
    (htests : ∀ test ∈ clauses.flatten, test.keyword.isSupported = true)
    (hargs : arityOf clauses.flatten ≤ args.length) (several : Bool) (root : Option Criteria) :
    criteriaFrom several root clauses args = .error cause ↔
      refusalOf? clauses.flatten args = some cause := by
  induction clauses generalizing root args with
  | nil => exact ⟨nofun, nofun⟩
  | cons tests clauses ih =>
    rw [List.flatten_cons] at htests hargs ⊢
    obtain ⟨htests, hothers⟩ := List.forall_mem_append.1 htests
    rw [arityOf_append] at hargs
    have hclause (failure : Error) : clauseFrom none tests args = .error failure ↔
        refusalOf? tests args = some failure :=
      clauseFrom_eq_error_iff htests (Nat.le_of_add_right_le hargs) none
    rw [refusalOf?_append, criteriaFrom]
    cases hfrom : clauseFrom none tests args with
    | error failure =>
      rw [(hclause failure).1 hfrom]
      exact error_eq_iff_some_eq
    | ok result =>
      obtain ⟨clause, rest⟩ := result
      obtain ⟨-, -, -, rfl⟩ := clauseFrom_eq [] hfrom
      have hnone : refusalOf? tests args = none := by
        cases hrefusal : refusalOf? tests args with
        | none => rfl
        | some failure =>
          rw [(hclause failure).2 hrefusal] at hfrom
          cases hfrom
      rw [hnone, Option.none_or, ← ih hothers (by rw [List.length_drop]; omega)
        ((clause.map (alternative several root)).or root)]
      rfl

theorem criteria_eq_error_iff {f : Finder}
    (htests : ∀ test ∈ f.tests, test.keyword.isSupported = true)
    (hargs : args.length = f.arity) :
    f.criteria args = .error cause ↔ refusalOf? f.tests args = some cause := by
  rw [Finder.tests, ← criteriaFrom_eq_error_iff htests hargs.ge (1 < f.clauses.length) none,
    criteria]
  cases criteriaFrom (1 < f.clauses.length) none f.clauses args with
  | error failure => exact error_eq_iff_some_eq.trans error_eq_iff_some_eq.symm
  | ok result => exact iff_of_false (fun h => by cases h) (fun h => by cases h)

theorem query_eq_error_iff {f : Finder} (hlimit : ∀ limit, f.limit = some limit → 0 < limit) :
    f.query args = .error cause ↔
      args.length ≠ f.arity ∧ cause = .argumentCount f.method f.arity args.length ∨
        args.length = f.arity ∧ f.criteria args = .error cause := by
  by_cases hargs : args.length = f.arity
  · simp only [query, ne_eq, hargs, not_true_eq_false, if_false, false_and, false_or, true_and]
    cases hcriteria : f.criteria args with
    | error failure => exact error_eq_iff_some_eq.trans error_eq_iff_some_eq.symm
    | ok c =>
      refine iff_of_false (fun h => ?_) (fun h => by cases h)
      cases hlim : f.limit with
      | none =>
        rw [hlim] at h
        cases h
      | some limit =>
        have hw : Window.ofOffset 0 limit = .ok ⟨0, limit, hlimit limit hlim⟩ :=
          dif_pos (hlimit limit hlim)
        simp only [hlim, hw, bind, Except.bind] at h
        cases h
  · simp [query, hargs, bind, Except.bind, eq_comm]

variable {name : String} {m : MethodName} {e : Entity} {f : Finder}

theorem method_of_ofMethodName (h : ofMethodName m e = .ok f) : f.method = m.text := by
  obtain ⟨_, -, h⟩ := exists_of_bind_eq_ok h
  obtain ⟨_, -, h⟩ := exists_of_bind_eq_ok h
  obtain rfl := Except.ok.inj h
  rfl

theorem isSupported_of_ofMethodName (h : ofMethodName m e = .ok f) :
    ∀ test ∈ f.tests, test.keyword.isSupported = true := by
  intro test hm
  obtain ⟨part, -, hpart⟩ := exists_of_forall₂_mem (List.rel_flatten (ofMethodName_eq_ok h).1) hm
  obtain ⟨_, -, hsupported, -⟩ := testOf_eq_ok_iff.1 hpart
  exact hsupported

/-- A call is refused if the number of its arguments is wrong, and else if a keyword cannot use what
it is given, where the first such keyword gives the cause. What is checked with the name never fails
again. In a call that is not refused each condition has its own share of the arguments, and no
argument is left. -/
theorem query_refused_iff (hname : MethodName.ofText name = .ok m) (hf : ofMethodName m e = .ok f)
    (args : List Value) :
    List.Forall₂ (fun part test => ∃ path, resolve e part = .ok (path, test.keyword) ∧
        test.field.name = path.fieldName) m.conditions f.tests ∧
      (∀ cause, f.query args = .error cause ↔
        args.length ≠ (f.tests.map (·.keyword.arity)).sum ∧
            cause = .argumentCount name (f.tests.map (·.keyword.arity)).sum args.length ∨
          args.length = (f.tests.map (·.keyword.arity)).sum ∧
            refusalOf? f.tests args = some cause) ∧
      (∀ cause, f.query args = .error cause → cause ≠ .missingArgument ∧
        (∀ k, cause ≠ .inapplicableKeyword k) ∧ (∀ k method, cause ≠ .unsupportedKeyword k method) ∧
        cause ≠ .emptyPage) ∧
      ∀ q, f.query args = .ok q → (shares f.tests args).flatten = args ∧
        List.Forall₂ (fun test share => List.length share = test.keyword.arity) f.tests
          (shares f.tests args) ∧
        ∃ nodes, q.criteria = some (tree nodes) ∧
          List.Forall₂ Makes (f.tests.zip (shares f.tests args)) nodes.flatten := by
  obtain ⟨htests, -, hlimit⟩ := ofMethodName_eq_ok hf
  have hmethod : f.method = name := by
    obtain ⟨_, _, _, htext, -⟩ := MethodName.exists_cuts_of_ofText hname
    rw [method_of_ofMethodName hf, htext]
  have harity : f.arity = (f.tests.map (·.keyword.arity)).sum := arityOf_eq_sum _
  have hrefused (cause : Error) : f.query args = .error cause ↔
      args.length ≠ (f.tests.map (·.keyword.arity)).sum ∧
          cause = .argumentCount name (f.tests.map (·.keyword.arity)).sum args.length ∨
        args.length = (f.tests.map (·.keyword.arity)).sum ∧
          refusalOf? f.tests args = some cause := by
    rw [query_eq_error_iff (hlimit ▸ MethodName.limit_pos hname), hmethod, ← harity]
    refine or_congr_right (and_congr_right fun hargs => ?_)
    exact criteria_eq_error_iff (isSupported_of_ofMethodName hf) hargs
  refine ⟨?_, hrefused, fun cause h => ?_, fun q hq => ?_⟩
  · exact (List.rel_flatten htests).imp fun part test h => by
      obtain ⟨path, hpath, -, hfield⟩ := testOf_eq_ok_iff.1 h
      exact ⟨path, hpath, Field.name_of_named hfield⟩
  · obtain ⟨-, rfl⟩ | ⟨-, h⟩ := (hrefused cause).1 h
    · simp
    · obtain ⟨part, -, hpart⟩ := List.exists_of_findSome?_eq_some h
      obtain ⟨_, rfl⟩ | ⟨_, rfl⟩ := MethodName.Keyword.refusal?_cases hpart <;> simp
  · obtain ⟨c, _, hc, -, hargs, rfl⟩ := query_eq_ok hq
    obtain ⟨nodes, -, hmakes, rfl⟩ := criteria_made (tests_ne_nil hname hf) hc
    obtain ⟨hflat, hlens⟩ := shares_spec hargs
    exact ⟨hflat, hlens, nodes, rfl, hmakes⟩

section Books

theorem query_refused_iff_titleIdOrRange :
    findTitleIdOrRange.query [.text "Emma", .list [.list []], .text "A", .text "F"] =
        .error (.noMembers false) ∧
      findTitleIdOrRange.query [.text "Emma", .list []] =
        .error (.argumentCount "findTop2ByTitleAndIdInOrTitleBetweenOrderByIdDesc" 4 2) := by
  have hrefused (args : List Value) :=
    (query_refused_iff ofText_titleIdOrRange ofMethodName_titleIdOrRange args).2.1
  exact ⟨(hrefused _ _).2 (.inr ⟨rfl, rfl⟩), (hrefused _ _).2 (.inl ⟨by decide, rfl⟩)⟩

end Books

end Finder

end SearchMapper
