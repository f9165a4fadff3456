import SearchMapper.MethodName.Finder
import SearchMapper.Proofs.MethodName.Pieces
import SearchMapper.Proofs.Query.Asking

namespace SearchMapper

open Criteria (Asking)
open MethodName (Condition Keyword)

namespace Criteria

section Updates

variable {links : List Link} {join : Conjunction} {node : FieldNode}

theorem updateLast_append (f : FieldNode → FieldNode) (links : List Link) (join : Conjunction)
    (node : Node) :
    updateLast f (links ++ [(join, node)]) = links ++ [(join, updateInNode f node)] := by
  induction links with
  | nil => rfl
  | cons link links ih =>
    cases links with
    | nil => rfl
    | cons next links =>
      rw [List.cons_append, List.cons_append, updateLast, ← List.cons_append, ih]
      rfl

theorem pushAll_append_field (links : List Link) (join : Conjunction) (node : FieldNode)
    (ps : List Predicate) :
    pushAll ⟨links ++ [(join, .field node)]⟩ ps =
      ⟨links ++ [(join, .field { node with predicates := node.predicates ++ ps })]⟩ := by
  induction ps generalizing node with
  | nil => simp [pushAll]
  | cons p ps ih =>
    have hp : push ⟨links ++ [(join, .field node)]⟩ p =
        ⟨links ++ [(join, .field { node with predicates := node.predicates ++ [p] })]⟩ := by
      simp only [push, update, updateLast_append, updateInNode]
    rw [pushAll, List.foldl_cons, hp, ← pushAll, ih]
    simp

theorem pushAll_start (field : Field) (ps : List Predicate) :
    (start field).pushAll ps = ⟨[(.and, .field ⟨field, ps, none⟩)]⟩ :=
  pushAll_append_field [] .and (.fresh field) ps

end Updates

end Criteria

namespace MethodName.Keyword

/-- What a keyword asks of its field, given its arguments. -/
def asking? : Keyword → List Value → Option Asking
  | simpleProperty, [v] => some (.is v)
  | negating, [v] => some (.isNot v)
  | isTrue, [] => some (.is (.bool true))
  | isFalse, [] => some (.is (.bool false))
  | isNull, [] => some .isNull
  | isNotNull, [] => some .isNotNull
  | like, [v] | startingWith, [v] => some (.startsWith v)
  | endingWith, [v] => some (.endsWith v)
  | containing, [v] => some (.contains v)
  | regex, [v] => some (.expression v.toText)
  | near, [v] => some (.fuzzy v)
  | greaterThan, [v] | after, [v] => some (.greaterThan v)
  | greaterThanEqual, [v] => some (.greaterThanEqual v)
  | lessThan, [v] | before, [v] => some (.lessThan v)
  | lessThanEqual, [v] => some (.lessThanEqual v)
  | between, [lower, upper] => some (.between lower upper)
  | isIn, [v] => some (.isIn v.items)
  | notIn, [v] => some (.notIn v.items)
  | _, _ => none

/-- The predicates that a keyword brings to its field. -/
def Brings (k : Keyword) (args : List Value) (ps : List Predicate) : Prop :=
  ∃ asking, k.asking? args = some asking ∧ asking.predicates = .ok ps

/-- An empty list that is asked for, or excluded, as if it were a single value. -/
def saysNothing : Keyword → List Value → Bool
  | simpleProperty, [.list []] | negating, [.list []] => true
  | _, _ => false

variable {k : Keyword} {args : List Value} {c c' : Criteria} {ps : List Predicate}

theorem exists_asking (h : k.apply args c = .ok c') :
    ∃ asking, k.asking? args = some asking ∧ ∀ d, k.apply args d = asking.perform d := by
  unfold apply at h
  split at h
  all_goals first
    | exact ⟨_, rfl, fun _ => rfl⟩
    | cases h

/-- A keyword adds the same predicates to every current field. -/
theorem exists_brings (h : k.apply args c = .ok c') :
    ∃ ps, k.Brings args ps ∧ ∀ d, k.apply args d = .ok (d.pushAll ps) := by
  obtain ⟨asking, hasking, hperform⟩ := exists_asking h
  rw [hperform, asking.perform_eq] at h
  obtain ⟨ps, hps, -⟩ := map_eq_ok_iff.1 h
  refine ⟨ps, ⟨asking, hasking, hps⟩, fun d => ?_⟩
  rw [hperform, asking.perform_eq, hps]
  rfl

theorem Brings.eq_nil_iff (h : k.Brings args ps) : ps = [] ↔ k.saysNothing args = true := by
  obtain ⟨asking, hasking, hps⟩ := h
  rw [Asking.predicates_eq_nil_iff hps]
  unfold asking? at hasking
  split at hasking
  · next v =>
    cases hasking
    unfold saysNothing
    split <;> simp_all
  · next v =>
    cases hasking
    unfold saysNothing
    split <;> simp_all
  all_goals cases hasking
  all_goals simp [saysNothing]

end MethodName.Keyword

namespace Finder

def chain (nodes : List FieldNode) : List Link :=
  nodes.map fun node => (.and, .field node)

def chain? : List FieldNode → Option Criteria
  | [] => none
  | node :: nodes => some ⟨chain (node :: nodes)⟩

def branch : List FieldNode → Node
  | [node] => .field node
  | nodes => .group (chain nodes)

def alternatives? : List (List FieldNode) → Option Criteria
  | [] => none
  | nodes :: rest => some ⟨(.and, branch nodes) :: rest.map fun nodes => (.or, branch nodes)⟩

def shares : List Test → List Value → List (List Value)
  | [], _ => []
  | test :: rest, args => args.take test.keyword.arity :: shares rest (args.drop test.keyword.arity)

/-- A node for a test and its arguments. It lacks a predicate only where an empty list says
nothing. -/
def Says (part : Test × List Value) (node : FieldNode) : Prop :=
  node.field = part.1.field ∧
    (node.predicates = [] ↔ part.1.keyword.saysNothing part.2 = true)

/-- A node for a test and its arguments: what the keyword adds to a fresh node of the field. -/
def Makes (part : Test × List Value) (node : FieldNode) : Prop :=
  part.1.keyword.apply part.2 (.start part.1.field) = .ok ⟨[(.and, .field node)]⟩

theorem Makes.exists_predicates {part : Test × List Value} {node : FieldNode}
    (h : Makes part node) :
    ∃ ps, node = ⟨part.1.field, ps, none⟩ ∧ part.1.keyword.Brings part.2 ps := by
  obtain ⟨ps, hbrings, hps⟩ := MethodName.Keyword.exists_brings h
  have heq := h.symm.trans (hps _)
  rw [Criteria.pushAll_start] at heq
  cases heq
  exact ⟨ps, rfl, hbrings⟩

theorem Makes.says {part : Test × List Value} {node : FieldNode} (h : Makes part node) :
    Says part node := by
  obtain ⟨ps, rfl, hbrings⟩ := h.exists_predicates
  exact ⟨rfl, hbrings.eq_nil_iff⟩

theorem chain_append (nodes : List FieldNode) (node : FieldNode) :
    chain (nodes ++ [node]) = chain nodes ++ [(.and, .field node)] := by
  simp [chain]

theorem chain?_of_ne_nil {nodes : List FieldNode} (h : nodes ≠ []) :
    chain? nodes = some ⟨chain nodes⟩ := by
  obtain ⟨node, nodes, rfl⟩ := List.exists_cons_of_ne_nil h
  rfl

theorem length_shares (tests : List Test) (args : List Value) :
    (shares tests args).length = tests.length := by
  induction tests generalizing args with
  | nil => rfl
  | cons test tests ih => rw [shares, List.length_cons, ih, List.length_cons]

theorem shares_append (before behind : List Test) (args : List Value) :
    shares (before ++ behind) args =
      shares before args ++ shares behind (args.drop (arityOf before)) := by
  induction before generalizing args with
  | nil => rfl
  | cons test tests ih => simp [shares, ih, arityOf, List.drop_drop]

theorem shares_spec {tests : List Test} {args : List Value} (h : args.length = arityOf tests) :
    (shares tests args).flatten = args ∧
      List.Forall₂ (fun test share => List.length share = test.keyword.arity) tests
        (shares tests args) := by
  induction tests generalizing args with
  | nil => exact ⟨(List.length_eq_zero_iff.1 h).symm, .nil⟩
  | cons test tests ih =>
    rw [arityOf] at h
    have hrest : (args.drop test.keyword.arity).length = arityOf tests := by
      simp [h]
    obtain ⟨hflat, hlens⟩ := ih hrest
    refine ⟨?_, .cons (by simp [h]) hlens⟩
    rw [shares, List.flatten_cons, hflat, List.take_append_drop]

theorem clauseFrom_cons (before : List FieldNode) (test : Test) (tests : List Test)
    (args : List Value) :
    clauseFrom (chain? before) (test :: tests) args =
      (test.keyword.apply (args.take test.keyword.arity)
        ⟨chain before ++ [(.and, .field (.fresh test.field))]⟩ >>=
          fun c => clauseFrom (some c) tests (args.drop test.keyword.arity)) := by
  cases before <;> rfl

theorem clauseFrom_eq {tests : List Test} (before : List FieldNode) {args rest : List Value}
    {result : Option Criteria} (h : clauseFrom (chain? before) tests args = .ok (result, rest)) :
    ∃ nodes, List.Forall₂ Makes (tests.zip (shares tests args)) nodes ∧
      result = chain? (before ++ nodes) ∧ rest = args.drop (arityOf tests) := by
  induction tests generalizing before args with
  | nil =>
    obtain ⟨rfl, rfl⟩ := Prod.mk.inj (Except.ok.inj h)
    exact ⟨[], .nil, by rw [List.append_nil], rfl⟩
  | cons test tests ih =>
    rw [clauseFrom_cons] at h
    obtain ⟨c, hc, h⟩ := exists_of_bind_eq_ok h
    obtain ⟨ps, -, hps⟩ := MethodName.Keyword.exists_brings hc
    obtain rfl := Except.ok.inj (hc.symm.trans (hps _))
    rw [Criteria.pushAll_append_field, ← chain_append, ← chain?_of_ne_nil (by simp)] at h
    obtain ⟨nodes, hnodes, rfl, rfl⟩ := ih _ h
    refine ⟨⟨test.field, ps, none⟩ :: nodes, ?_, ?_, ?_⟩
    · rw [shares, List.zip_cons_cons]
      exact .cons ((hps _).trans (congrArg _ (Criteria.pushAll_start _ _))) hnodes
    · simp [FieldNode.fresh]
    · rw [arityOf, List.drop_drop]

theorem wholeClause_eq {tests : List Test} (hne : tests ≠ []) {args rest : List Value}
    {clause : Option Criteria} (h : clauseFrom none tests args = .ok (clause, rest)) :
    ∃ nodes, nodes ≠ [] ∧ tests.length = nodes.length ∧
      List.Forall₂ Makes (tests.zip (shares tests args)) nodes ∧
      clause = some ⟨chain nodes⟩ ∧ rest = args.drop (arityOf tests) := by
  obtain ⟨nodes, hnodes, hclause, hrest⟩ := clauseFrom_eq [] h
  have hlen : tests.length = nodes.length := by
    rw [← hnodes.length_eq, List.length_zip, length_shares, Nat.min_self]
  have hnil : nodes ≠ [] := by
    rintro rfl
    exact hne (List.length_eq_zero_iff.1 hlen)
  rw [List.nil_append, chain?_of_ne_nil hnil] at hclause
  exact ⟨nodes, hnil, hlen, hnodes, hclause, hrest⟩

theorem alternative_eq (before : List (List FieldNode)) {nodes : List FieldNode}
    (hne : nodes ≠ []) :
    some (alternative true (alternatives? before) ⟨chain nodes⟩) =
      alternatives? (before ++ [nodes]) := by
  cases nodes with
  | nil => exact absurd rfl hne
  | cons node nodes =>
    cases before <;> cases nodes <;>
      simp [alternatives?, alternative, branch, chain, Criteria.group, Criteria.orCriteria,
        Criteria.joinCriteria, Criteria.link]

theorem criteriaFrom_eq {clauses : List (List Test)} (hne : ∀ tests ∈ clauses, tests ≠ [])
    (before : List (List FieldNode)) {args : List Value} {result : Option Criteria}
    (h : criteriaFrom true (alternatives? before) clauses args = .ok result) :
    ∃ nodes, clauses.map List.length = nodes.map List.length ∧
      List.Forall₂ Makes (clauses.flatten.zip (shares clauses.flatten args)) nodes.flatten ∧
      result = alternatives? (before ++ nodes) := by
  induction clauses generalizing before args with
  | nil => exact ⟨[], rfl, .nil, by rw [List.append_nil, Except.ok.inj h]⟩
  | cons tests clauses ih =>
    rw [criteriaFrom] at h
    obtain ⟨⟨clause, rest⟩, hclause, h⟩ := exists_of_bind_eq_ok h
    obtain ⟨nodes, hnil, hlen, hnodes, rfl, rfl⟩ :=
      wholeClause_eq (hne tests List.mem_cons_self) hclause
    simp only [Option.map_some, Option.some_or] at h
    rw [alternative_eq before hnil] at h
    obtain ⟨others, hlens, hothers, hresult⟩ :=
      ih (fun tests hm => hne tests (List.mem_cons_of_mem _ hm)) _ h
    refine ⟨nodes :: others, by simp [hlen, hlens], ?_, by simp [hresult]⟩
    rw [List.flatten_cons, List.flatten_cons, shares_append,
      List.zip_append (length_shares tests args).symm]
    exact List.rel_append hnodes hothers

def tree : List (List FieldNode) → Criteria
  | [nodes] => ⟨chain nodes⟩
  | clauses => (alternatives? clauses).getD .matchAll

theorem criteria_made {f : Finder} (hne : ∀ tests ∈ f.clauses, tests ≠ []) {args : List Value}
    {c : Criteria} (h : f.criteria args = .ok c) :
    ∃ nodes, f.clauses.map List.length = nodes.map List.length ∧
      List.Forall₂ Makes (f.clauses.flatten.zip (shares f.clauses.flatten args)) nodes.flatten ∧
      c = tree nodes := by
  obtain ⟨result, hr, h⟩ := exists_of_bind_eq_ok h
  obtain rfl := Except.ok.inj h
  match hf : f.clauses with
  | [] =>
    rw [hf] at hr
    obtain rfl := Except.ok.inj hr
    exact ⟨[], rfl, .nil, rfl⟩
  | [tests] =>
    rw [hf, criteriaFrom] at hr
    obtain ⟨⟨clause, rest⟩, hclause, hr⟩ := exists_of_bind_eq_ok hr
    obtain ⟨nodes, -, hlen, hnodes, rfl, rfl⟩ := wholeClause_eq (hne tests (by simp [hf])) hclause
    obtain rfl := Except.ok.inj hr
    exact ⟨[nodes], by simp [hlen], by simpa using hnodes, rfl⟩
  | tests :: next :: clauses =>
    rw [hf, decide_eq_true (by simp)] at hr
    obtain ⟨nodes, hlens, hnodes, rfl⟩ := criteriaFrom_eq (hf ▸ hne) [] hr
    refine ⟨nodes, hlens, hnodes, ?_⟩
    match nodes with
    | [] => rfl
    | [_] => simp at hlens
    | first :: second :: nodes => rfl

theorem criteria_eq {f : Finder} (hne : ∀ tests ∈ f.clauses, tests ≠ []) {args : List Value}
    {c : Criteria} (h : f.criteria args = .ok c) :
    ∃ nodes, f.clauses.map List.length = nodes.map List.length ∧
      List.Forall₂ Says (f.clauses.flatten.zip (shares f.clauses.flatten args)) nodes.flatten ∧
      c = tree nodes := by
  obtain ⟨nodes, hlens, hmakes, hc⟩ := criteria_made hne h
  exact ⟨nodes, hlens, hmakes.imp fun _ _ => Makes.says, hc⟩

def windowOf : Option Nat → Except Error (Option Window)
  | none => .ok none
  | some limit => some <$> Window.ofOffset 0 limit

theorem query_eq_ok {f : Finder} {args : List Value} {q : Query} (h : f.query args = .ok q) :
    ∃ c window, f.criteria args = .ok c ∧ windowOf f.limit = .ok window ∧
      args.length = f.arity ∧
      q = { criteria := some c, window := window,
            sort := if f.sort = [] then none else some f.sort } := by
  by_cases harity : args.length = f.arity
  · simp only [query, ne_eq, harity, not_true_eq_false, if_false] at h
    obtain ⟨c, hc, h⟩ := exists_of_bind_eq_ok h
    have hsorted : (if f.sort = [] then Query.ofCriteria c
        else (Query.ofCriteria c).addSort f.sort) =
          { criteria := some c, sort := if f.sort = [] then none else some f.sort } := by
      split <;> rfl
    rw [hsorted] at h
    cases hlimit : f.limit with
    | none =>
      rw [hlimit] at h
      obtain rfl := Except.ok.inj h
      exact ⟨c, none, hc, rfl, harity, rfl⟩
    | some limit =>
      rw [hlimit] at h
      obtain ⟨w, hw, h⟩ := exists_of_bind_eq_ok h
      obtain rfl := Except.ok.inj h
      exact ⟨c, some w, hc, by rw [windowOf, hw]; rfl, harity, rfl⟩
  · simp [query, harity, bind, Except.bind] at h

theorem map_windowOf {limit : Option Nat} {window : Option Window}
    (h : windowOf limit = .ok window) :
    window.map (fun w => (w.offset, w.size)) = limit.map (fun limit => (0, limit)) := by
  cases limit with
  | none =>
    cases h
    rfl
  | some limit =>
    by_cases hpos : 0 < limit
    · simp only [windowOf, Window.ofOffset, dif_pos hpos] at h
      cases h
      rfl
    · simp only [windowOf, Window.ofOffset, dif_neg hpos] at h
      cases h

theorem query_eq {f : Finder} {args : List Value} {q : Query} (h : f.query args = .ok q) :
    ∃ c, f.criteria args = .ok c ∧ q.criteria = some c ∧ args.length = f.arity ∧ q.filters = [] ∧
      q.window.map (fun w => (w.offset, w.size)) = f.limit.map (fun limit => (0, limit)) := by
  obtain ⟨c, window, hc, hwindow, harity, rfl⟩ := query_eq_ok h
  exact ⟨c, hc, rfl, harity, rfl, map_windowOf hwindow⟩

theorem ofMethodName_eq_ok {m : MethodName} {e : Entity} {f : Finder}
    (h : ofMethodName m e = .ok f) :
    List.Forall₂ (List.Forall₂ fun part test => testOf e m.text part = .ok test)
      m.clauses f.clauses ∧
    List.Forall₂ (fun order key => sortKeyOf e order = .ok key) m.orders f.sort ∧
    f.limit = m.limit := by
  obtain ⟨clauses, hclauses, h⟩ := exists_of_bind_eq_ok h
  obtain ⟨sort, hsort, h⟩ := exists_of_bind_eq_ok h
  obtain rfl := Except.ok.inj h
  exact ⟨(mapM_eq_ok_iff.1 hclauses).imp fun _ _ => mapM_eq_ok_iff.1, mapM_eq_ok_iff.1 hsort, rfl⟩

theorem ofMethodName_eq {m : MethodName} {e : Entity} {f : Finder}
    (h : ofMethodName m e = .ok f) :
    List.Forall₂ (List.Forall₂ fun part test => testOf e m.text part = .ok test)
      m.clauses f.clauses ∧ f.limit = m.limit :=
  ⟨(ofMethodName_eq_ok h).1, (ofMethodName_eq_ok h).2.2⟩

end Finder

end SearchMapper
