import SearchMapper.Proofs.MethodName.Queries

namespace SearchMapper.Finder

open MethodName (Condition Keyword OrderKey)

variable {e : Entity} {method : String} {m : MethodName} {f : Finder} {tests : List Test}
  {args : List Value} {q : Query}

theorem arityOf_eq_sum (tests : List Test) :
    arityOf tests = (tests.map fun test => test.keyword.arity).sum := by
  induction tests with
  | nil => rfl
  | cons test tests ih => rw [arityOf, ih, List.map_cons, List.sum_cons]

theorem getElem?_shares (tests : List Test) (args : List Value) (i : Nat) :
    (shares tests args)[i]? = tests[i]?.map fun test =>
      (args.drop (arityOf (tests.take i))).take test.keyword.arity := by
  induction tests generalizing args i with
  | nil => rfl
  | cons test tests ih =>
    cases i with
    | zero => rfl
    | succ i =>
      rw [shares, List.getElem?_cons_succ, ih, List.getElem?_cons_succ, List.take_succ_cons,
        arityOf]
      simp only [List.drop_drop]

theorem testOf_eq_ok_iff {part : Condition} {test : Test} :
    testOf e method part = .ok test ↔ ∃ path, resolve e part = .ok (path, test.keyword) ∧
      test.keyword.isSupported = true ∧ Field.named path.fieldName = .ok test.field := by
  constructor
  · intro h
    obtain ⟨⟨path, keyword⟩, hpath, h⟩ := exists_of_bind_eq_ok h
    by_cases hk : keyword.isSupported = true
    · simp only [hk] at h
      obtain ⟨field, hfield, h⟩ := exists_of_bind_eq_ok h
      cases h
      exact ⟨path, hpath, hk, hfield⟩
    · simp only [hk] at h
      cases h
  · rintro ⟨path, hpath, hk, hfield⟩
    simp only [testOf, hpath, bind, Except.bind, hk, hfield]
    rfl

theorem sortKeyOf_eq_ok {order : OrderKey} {key : SortKey} (h : sortKeyOf e order = .ok key) :
    ∃ path, e.path order.source = .ok path ∧ key.field.name = path.fieldName ∧
      key.direction = order.direction := by
  obtain ⟨path, hpath, h⟩ := exists_of_bind_eq_ok h
  obtain ⟨field, hfield, h⟩ := exists_of_bind_eq_ok h
  cases h
  exact ⟨path, hpath, Field.name_of_named hfield, rfl⟩

theorem clauses_eq_of_ofMethodName {m' : MethodName} {f' : Finder}
    (hf : ofMethodName m e = .ok f) (hf' : ofMethodName m' e = .ok f')
    (hclauses : m'.clauses = m.clauses) : f'.clauses = f.clauses := by
  have htests := (ofMethodName_eq_ok hf).1
  have htests' := (ofMethodName_eq_ok hf').1
  rw [hclauses] at htests'
  have hsame : List.Forall₂ (List.Forall₂ fun part test => testOf e m.text part = .ok test)
      m.clauses f'.clauses :=
    htests'.imp fun _ _ => List.Forall₂.imp fun _ _ h => testOf_eq_ok_iff.2 (testOf_eq_ok_iff.1 h)
  exact eq_of_forall₂_ok (hsame.imp fun _ _ => mapM_eq_ok_iff.2)
    (htests.imp fun _ _ => mapM_eq_ok_iff.2)

theorem criteria_congr {f' : Finder} (h : f'.clauses = f.clauses) (args : List Value) :
    f'.criteria args = f.criteria args := by
  rw [criteria, criteria, h]

theorem exists_of_getElem? {α β : Type} {R : α → β → Prop} {xs : List α} {ys : List β}
    (h : List.Forall₂ R xs ys) {i : Nat} {x : α} (hx : xs[i]? = some x) :
    ∃ y, ys[i]? = some y ∧ R x y := by
  induction h generalizing i with
  | nil => cases hx
  | cons hxy _ ih =>
    cases i with
    | zero =>
      cases hx
      exact ⟨_, rfl, hxy⟩
    | succ i => exact ih hx

theorem tests_ne_nil {name : String} (hname : MethodName.ofText name = .ok m)
    (hf : ofMethodName m e = .ok f) : ∀ tests ∈ f.clauses, tests ≠ [] := by
  rintro tests hm rfl
  have hzero : 0 ∈ m.clauses.map List.length := by
    rw [map_length_eq (ofMethodName_eq_ok hf).1]
    exact List.mem_map_of_mem hm
  obtain ⟨clause, hclause, hlength⟩ := List.mem_map.1 hzero
  exact MethodName.clause_ne_nil hname clause hclause (List.length_eq_zero_iff.1 hlength)

/-- The criteria have a node for each condition, clause by clause and in order. Its field is that
of the condition, and its predicates are those that the keyword brings, given the arguments behind
the ones of all earlier conditions. The sort keys and the limit are kept apart. -/
theorem exists_nodes_of_query {name : String} (hname : MethodName.ofText name = .ok m)
    (hf : ofMethodName m e = .ok f) (hq : f.query args = .ok q) :
    ∃ nodes keys, q.criteria = some (tree nodes) ∧
      nodes.map List.length = m.clauses.map List.length ∧
      (∀ i part, m.conditions[i]? = some part → ∃ path keyword node,
        resolve e part = .ok (path, keyword) ∧ nodes.flatten[i]? = some node ∧
        node.field.name = path.fieldName ∧ node.boost = none ∧
        f.clauses.flatten[i]? = some ⟨node.field, keyword⟩ ∧
        keyword.Brings ((args.drop ((f.clauses.flatten.take i).map (·.keyword.arity)).sum).take
          keyword.arity) node.predicates) ∧
      List.Forall₂ (fun (order : OrderKey) (key : SortKey) => ∃ path,
        e.path order.source = .ok path ∧ key.field.name = path.fieldName ∧
          key.direction = order.direction) m.orders keys ∧
      q.sort = (if keys = [] then none else some keys) ∧
      q.window.map (fun w => (w.offset, w.size)) = m.limit.map (fun limit => (0, limit)) ∧
      ∀ m' f' q', m'.clauses = m.clauses → ofMethodName m' e = .ok f' →
        f'.query args = .ok q' → q'.criteria = q.criteria := by
  obtain ⟨htests, hsort, hlimit⟩ := ofMethodName_eq_ok hf
  obtain ⟨c, window, hc, hwindow, -, rfl⟩ := query_eq_ok hq
  obtain ⟨nodes, hlens, hmakes, rfl⟩ := criteria_made (tests_ne_nil hname hf) hc
  refine ⟨nodes, f.sort, rfl, (hlens.symm.trans (map_length_eq htests).symm), ?_,
    hsort.imp fun _ _ => sortKeyOf_eq_ok, rfl, hlimit ▸ map_windowOf hwindow, ?_⟩
  · intro i part hpart
    obtain ⟨test, htest, hpart⟩ := exists_of_getElem? (List.rel_flatten htests) hpart
    obtain ⟨path, hpath, -, hfield⟩ := testOf_eq_ok_iff.1 hpart
    have hshare := getElem?_shares f.clauses.flatten args i
    rw [htest, Option.map_some, arityOf_eq_sum] at hshare
    -- Nodes, tests and shares are lists of one length, so one index leads through all of them.
    have hzip : (f.clauses.flatten.zip (shares f.clauses.flatten args))[i]? = some (test, _) :=
      List.getElem?_zip_eq_some.2 ⟨htest, hshare⟩
    obtain ⟨node, hnode, hmade⟩ := exists_of_getElem? hmakes hzip
    obtain ⟨ps, rfl, hbrings⟩ := hmade.exists_predicates
    exact ⟨path, test.keyword, _, hpath, hnode, Field.name_of_named hfield, rfl, htest, hbrings⟩
  · intro m' f' q' hclauses hf' hq'
    obtain ⟨c', window', hc', -, -, rfl⟩ := query_eq_ok hq'
    rw [criteria_congr (clauses_eq_of_ofMethodName hf hf' hclauses)] at hc'
    exact congrArg some (Except.ok.inj (hc'.symm.trans hc))

section Books

def titleIdOrRange : MethodName :=
  ⟨"findTop2ByTitleAndIdInOrTitleBetweenOrderByIdDesc", .find, false, some 2,
    [[⟨"Title", "Title", .simpleProperty⟩, ⟨"IdIn", "Id", .isIn⟩],
      [⟨"TitleBetween", "Title", .between⟩]], [⟨"Id", .desc⟩]⟩

def findTitleIdOrRange : Finder :=
  ⟨"findTop2ByTitleAndIdInOrTitleBetweenOrderByIdDesc", .find,
    [[⟨bookTitle, .simpleProperty⟩, ⟨bookId, .isIn⟩], [⟨bookTitle, .between⟩]],
    [⟨bookId, .desc⟩], some 2⟩

theorem ofText_titleIdOrRange :
    MethodName.ofText "findTop2ByTitleAndIdInOrTitleBetweenOrderByIdDesc" =
      .ok titleIdOrRange := by
  cbv

theorem ofMethodName_titleIdOrRange :
    ofMethodName titleIdOrRange bookEntity = .ok findTitleIdOrRange := by
  cbv

theorem exists_nodes_of_titleIdOrRange :
    ∃ q nodes keys ids range,
      findTitleIdOrRange.query [.text "Emma", .list [.text "1", .text "2"], .text "A",
        .text "F"] = .ok q ∧
      q.criteria = some (tree nodes) ∧ nodes.map List.length = [2, 1] ∧
      nodes.flatten[1]? = some ids ∧ ids.field.name = "id" ∧
      ids.predicates = [.is (.text "1"), .is (.text "2")] ∧
      nodes.flatten[2]? = some range ∧ range.field.name = "title" ∧
      range.predicates = [.between (.text "A") (.text "F") true true] ∧
      q.sort = (if keys = [] then none else some keys) ∧
      q.window.map (fun w => (w.offset, w.size)) = some (0, 2) := by
  obtain ⟨nodes, keys, hcriteria, hlengths, hnodes, -, hsort, hwindow, -⟩ :=
    @exists_nodes_of_query _ _ _ [.text "Emma", .list [.text "1", .text "2"], .text "A", .text "F"]
      _ _ ofText_titleIdOrRange ofMethodName_titleIdOrRange rfl
  obtain ⟨_, _, ids, -, hids, -, -, hidIn, _, hasked, hidPredicates⟩ :=
    hnodes 1 ⟨"IdIn", "Id", .isIn⟩ rfl
  obtain ⟨hidField, rfl⟩ : bookId = ids.field ∧ Keyword.isIn = _ :=
    Test.mk.inj (Option.some.inj hidIn)
  cases hasked
  obtain ⟨_, _, range, -, hrange, -, -, hbetween, _, hasked, hrangePredicates⟩ :=
    hnodes 2 ⟨"TitleBetween", "Title", .between⟩ rfl
  obtain ⟨hrangeField, rfl⟩ : bookTitle = range.field ∧ Keyword.between = _ :=
    Test.mk.inj (Option.some.inj hbetween)
  cases hasked
  exact ⟨_, nodes, keys, ids, range, rfl, hcriteria, hlengths, hids, hidField ▸ rfl,
    (Except.ok.inj hidPredicates).symm, hrange, hrangeField ▸ rfl,
    (Except.ok.inj hrangePredicates).symm, hsort, hwindow⟩

end Books

end SearchMapper.Finder
