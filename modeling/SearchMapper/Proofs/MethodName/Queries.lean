import Mathlib
import SearchMapper.Proofs.MethodName.Conditions
import SearchMapper.Proofs.Query.JoinedText
import SearchMapper.Query.Request

namespace SearchMapper

open MethodName (Condition Keyword)

namespace Criteria

mutual

def nodesIn : Node → List FieldNode
  | .field node => [node]
  | .group links => nodesOf links

def nodesOf : List (Conjunction × Node) → List FieldNode
  | [] => []
  | (_, node) :: rest => nodesIn node ++ nodesOf rest

end

def fieldNodes (c : Criteria) : List FieldNode :=
  nodesOf c.links

end Criteria

namespace Finder

open Criteria (filled fieldNodes linksText nodeIsEmpty nodeText? nodesIn nodesOf)

section Trees

theorem nodesOf_chain (nodes : List FieldNode) : nodesOf (chain nodes) = nodes := by
  induction nodes with
  | nil => rfl
  | cons node nodes ih =>
    rw [chain, List.map_cons, nodesOf, nodesIn, ← chain, ih]
    rfl

theorem nodesIn_branch (nodes : List FieldNode) : nodesIn (branch nodes) = nodes := by
  match nodes with
  | [] => rfl
  | [node] => rfl
  | first :: second :: nodes => exact nodesOf_chain _

theorem fieldNodes_tree {clauses : List (List FieldNode)} (hne : clauses ≠ []) :
    (tree clauses).fieldNodes = clauses.flatten := by
  have hothers (clauses : List (List FieldNode)) :
      nodesOf (clauses.map fun nodes => (.or, branch nodes)) = clauses.flatten := by
    induction clauses with
    | nil => rfl
    | cons nodes clauses ih => rw [List.map_cons, nodesOf, nodesIn_branch, ih, List.flatten_cons]
  match clauses, hne with
  | [nodes], _ => simp [tree, fieldNodes, nodesOf_chain]
  | nodes :: next :: clauses, _ =>
    simp only [tree, alternatives?, Option.getD_some, fieldNodes]
    rw [nodesOf, nodesIn_branch, hothers]
    rfl

end Trees

section Texts

def clauseText? : List String → Option String
  | [] => none
  | [text] => some text
  | texts => some ("(" ++ Conjunction.and.joinTexts texts ++ ")")

/-- The texts of all fields that have one, joined as their conditions are. -/
def treeText : List (List FieldNode) → String
  | [nodes] => Conjunction.and.joinTexts (nodes.filterMap FieldNode.text?)
  | clauses => Conjunction.or.joinTexts
      (clauses.filterMap fun nodes => clauseText? (nodes.filterMap FieldNode.text?))

theorem linksText_chain (nodes : List FieldNode) :
    linksText "" (chain nodes) = Conjunction.and.joinTexts (nodes.filterMap FieldNode.text?) := by
  rw [Criteria.linksText_eq_joinTexts .and (by simp [chain]), chain, List.filterMap_map]
  rfl

theorem length_filled_chain (nodes : List FieldNode) :
    (filled (chain nodes)).length = (nodes.filterMap FieldNode.text?).length := by
  induction nodes with
  | nil => rfl
  | cons node nodes ih =>
    rw [chain, List.map_cons, ← chain]
    cases ht : node.text? with
    | none =>
      have hp := FieldNode.text?_eq_none.1 ht
      rw [List.filterMap_cons_none ht, ← ih, filled, List.filter_cons_of_neg]
      · rfl
      · simp [nodeIsEmpty, hp]
    | some text =>
      have hp : node.predicates ≠ [] := fun hp => by
        rw [FieldNode.text?_eq_none.2 hp] at ht
        cases ht
      rw [List.filterMap_cons_some ht, List.length_cons, ← ih, filled, List.filter_cons_of_pos]
      · rfl
      · simp [nodeIsEmpty, hp]

theorem nodeText?_branch (nodes : List FieldNode) :
    nodeText? (branch nodes) = clauseText? (nodes.filterMap FieldNode.text?) := by
  match nodes with
  | [] => rfl
  | [node] =>
    rw [branch, nodeText?]
    cases ht : node.text? <;> simp [ht, clauseText?]
  | first :: second :: nodes =>
    rw [branch, nodeText?, length_filled_chain, linksText_chain]
    · match (first :: second :: nodes).filterMap FieldNode.text? with
      | [] => rfl
      | [text] => simp [clauseText?, Conjunction.joinTexts_singleton]
      | text :: next :: texts => rfl
    · simp

theorem toText_tree {clauses : List (List FieldNode)} (hne : clauses ≠ []) :
    (tree clauses).toText = treeText clauses := by
  match clauses, hne with
  | [nodes], _ => exact linksText_chain nodes
  | nodes :: next :: clauses, _ =>
    calc
      (tree (nodes :: next :: clauses)).toText
      _ = linksText "" ((.and, branch nodes) :: (next :: clauses).map fun nodes =>
            (Conjunction.or, branch nodes)) := rfl
      _ = linksText "" ((nodes :: next :: clauses).map fun nodes =>
            (Conjunction.or, branch nodes)) := Criteria.linksText_cons _ _ _
      _ = treeText (nodes :: next :: clauses) := by
        rw [Criteria.linksText_eq_joinTexts .or (by simp), List.filterMap_map, treeText]
        · exact congrArg _ (List.filterMap_congr fun nodes _ => nodeText?_branch nodes)
        · simp

end Texts

/-- A node for a condition of a method name and its arguments. The node lacks a predicate only
where an empty list stands for a single value. -/
def Asks (m : MethodName) (e : Entity) (part : Condition × List Value) (node : FieldNode) : Prop :=
  ∃ test, testOf e m.text part.1 = .ok test ∧ node.field = test.field ∧
    part.2.length = test.keyword.arity ∧
    (node.predicates = [] ↔ test.keyword.saysNothing part.2 = true)

theorem forall₂_asks {m : MethodName} {e : Entity} {parts : List Condition} {tests : List Test}
    {args : List (List Value)} {nodes : List FieldNode}
    (htests : List.Forall₂ (fun part test => testOf e m.text part = .ok test) parts tests)
    (hargs : List.Forall₂ (fun test share => List.length share = test.keyword.arity) tests args)
    (hnodes : List.Forall₂ Says (tests.zip args) nodes) :
    List.Forall₂ (Asks m e) (parts.zip args) nodes := by
  induction htests generalizing args nodes with
  | nil =>
    cases hargs
    cases hnodes
    exact .nil
  | cons ht _ ih =>
    cases hargs with
    | cons ha hargs =>
      cases hnodes with
      | cons hn hnodes => exact .cons ⟨_, ht, hn.1, ha, hn.2⟩ (ih hargs hnodes)

theorem forall_predicates_iff {m : MethodName} {e : Entity}
    {parts : List (Condition × List Value)} {nodes : List FieldNode}
    (h : List.Forall₂ (Asks m e) parts nodes) :
    (∀ node ∈ nodes, node.predicates ≠ []) ↔
      ∀ part ∈ parts, ∀ test, testOf e m.text part.1 = .ok test →
        test.keyword.saysNothing part.2 = false := by
  induction h with
  | nil => simp
  | cons hask _ ih =>
    obtain ⟨test, ht, -, -, hnil⟩ := hask
    rw [List.forall_mem_cons, List.forall_mem_cons, ih]
    refine and_congr_left fun _ => ?_
    rw [ne_eq, hnil, ht]
    simp

/-- Each condition has its node, clause by clause, and the text joins the texts of all nodes that
have a predicate. A node has none if an empty list is given for a single value. -/
theorem exists_tree_of_query {name : String} {m : MethodName} {e : Entity} {f : Finder}
    {args : List Value} {q : Query} (hname : MethodName.ofText name = .ok m)
    (hf : ofMethodName m e = .ok f) (hq : f.query args = .ok q) :
    ∃ clauses shares, q.criteria = some (tree clauses) ∧
      m.clauses.map List.length = clauses.map List.length ∧
      shares.flatten = args ∧ shares.length = m.conditions.length ∧
      List.Forall₂ (Asks m e) (m.conditions.zip shares) clauses.flatten ∧
      ((∀ node ∈ clauses.flatten, node.predicates ≠ []) ↔
        ∀ part ∈ m.conditions.zip shares, ∀ test, testOf e m.text part.1 = .ok test →
          test.keyword.saysNothing part.2 = false) ∧
      (m.conditions ≠ [] → (tree clauses).fieldNodes = clauses.flatten ∧
        q.toText = treeText clauses) := by
  obtain ⟨htests, -⟩ := ofMethodName_eq hf
  obtain ⟨c, hc, hcriteria, hlen, -⟩ := query_eq hq
  have hlens := map_length_eq htests
  have hne : ∀ tests ∈ f.clauses, tests ≠ [] := by
    rintro tests hm rfl
    have hzero : 0 ∈ m.clauses.map List.length := hlens ▸ List.mem_map_of_mem hm
    obtain ⟨parts, hp, hparts⟩ := List.mem_map.1 hzero
    exact MethodName.clause_ne_nil hname parts hp (List.length_eq_zero_iff.1 hparts)
  obtain ⟨nodes, hnodes, hsays, rfl⟩ := criteria_eq hne hc
  obtain ⟨hflat, hshares⟩ := shares_spec hlen
  have hparts := List.rel_flatten htests
  have hasks := forall₂_asks hparts hshares hsays
  refine ⟨nodes, shares f.clauses.flatten args, hcriteria, hlens.trans hnodes, hflat, ?_, hasks,
    forall_predicates_iff hasks, ?_⟩
  · rw [← hshares.length_eq, ← hparts.length_eq, MethodName.conditions]
  · intro hconditions
    have hclauses : nodes ≠ [] := by
      rintro rfl
      rw [hnodes, List.map_nil, List.map_eq_nil_iff] at hlens
      exact hconditions (by rw [MethodName.conditions, hlens, List.flatten_nil])
    refine ⟨fieldNodes_tree hclauses, ?_⟩
    rw [Query.toText, hcriteria]
    exact toText_tree hclauses

end Finder

section Books

theorem isBlankText_id : Text.isBlankText "id" = false := by
  decide

theorem isBlankText_title : Text.isBlankText "title" = false := by
  decide

def bookId : Field :=
  ⟨"id", isBlankText_id⟩

def bookTitle : Field :=
  ⟨"title", isBlankText_title⟩

def bookEntity : Entity :=
  ⟨"Book", ⟨"id", "id", true, none⟩,
    [("id", ⟨"id", "id", true, none⟩), ("title", ⟨"title", "title", false, none⟩)]⟩

def titleAndId : MethodName :=
  ⟨"deleteByTitleAndId", .delete, false, none,
    [[⟨"Title", "Title", .simpleProperty⟩, ⟨"Id", "Id", .simpleProperty⟩]], []⟩

def deleteByTitleAndId : Finder :=
  ⟨"deleteByTitleAndId", .delete,
    [[⟨bookTitle, .simpleProperty⟩, ⟨bookId, .simpleProperty⟩]], [], none⟩

theorem ofText_titleAndId : MethodName.ofText "deleteByTitleAndId" = .ok titleAndId := by
  cbv

theorem ofMethodName_titleAndId :
    Finder.ofMethodName titleAndId bookEntity = .ok deleteByTitleAndId := by
  cbv

theorem exists_tree_of_deleteByTitleAndId :
    ∃ q clauses shares, deleteByTitleAndId.query [.text "Emma", .text "1"] = .ok q ∧
      q.criteria = some (Finder.tree clauses) ∧ shares.flatten = [.text "Emma", .text "1"] ∧
      List.Forall₂ (Finder.Asks titleAndId bookEntity) (titleAndId.conditions.zip shares)
        clauses.flatten ∧
      (Finder.tree clauses).fieldNodes = clauses.flatten := by
  obtain ⟨clauses, shares, hcriteria, -, hshares, -, hasks, -, hnodes⟩ :=
    @Finder.exists_tree_of_query _ _ _ _ [.text "Emma", .text "1"] _ ofText_titleAndId
      ofMethodName_titleAndId rfl
  exact ⟨_, clauses, shares, rfl, hcriteria, hshares, hasks, (hnodes (by decide)).1⟩

/-- The empty list leaves only the title to decide what is deleted. -/
theorem deleteByTitleAndId_drops_id :
    MethodName.ofText "deleteByTitleAndId" = .ok titleAndId ∧
      Finder.ofMethodName titleAndId bookEntity = .ok deleteByTitleAndId ∧
      ∃ q c, deleteByTitleAndId.query [.text "Emma", .list []] = .ok q ∧ q.criteria = some c ∧
        (∃ node ∈ c.fieldNodes, node.field.name = "id" ∧ node.predicates = []) ∧
        q.toText = "title:Emma" := by
  refine ⟨ofText_titleAndId, ofMethodName_titleAndId, _, _, rfl, rfl, ?_, by decide⟩
  exact ⟨⟨bookId, [], none⟩, .tail _ (.head _), rfl, rfl⟩

end Books

end SearchMapper
