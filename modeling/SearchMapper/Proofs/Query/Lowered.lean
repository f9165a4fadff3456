import SearchMapper.Proofs.Query.Meaning

namespace SearchMapper

open Index (Expr FieldTest Test)
open Index.Reading (conjunction disjunction)

namespace Index.Expr

variable {record : Record}

theorem holdsAll_eq_all (es : List Expr) : holdsAll record es = es.all (·.holds record) := by
  induction es with
  | nil => rfl
  | cons e es ih => rw [holdsAll, ih, List.all_cons]

theorem holdsAny_eq_any (es : List Expr) : holdsAny record es = es.any (·.holds record) := by
  induction es with
  | nil => rfl
  | cons e es ih => rw [holdsAny, ih, List.any_cons]

theorem holds_conjunction (es : List Expr) :
    (conjunction es).holds record = es.all (·.holds record) := by
  unfold conjunction
  split
  · simp
  · rw [holds, holdsAll_eq_all]

theorem holds_disjunction (es : List Expr) :
    (disjunction es).holds record = es.any (·.holds record) := by
  unfold disjunction
  split
  · simp
  · rw [holds, holdsAny_eq_any]

end Index.Expr

namespace Predicate

theorem isExclusion_of_isNegation {p : Predicate} (h : p.isNegation = true) :
    p.isExclusion = true := by
  cases p <;> first | rfl | simp [isNegation] at h

theorem holds_of_isExclusion {p : Predicate} (h : p.isExclusion = true) (values : List String) :
    p.holds values = !p.test.holds values :=
  if_pos h

theorem holds_of_not_isExclusion {p : Predicate} (h : p.isExclusion = false)
    (values : List String) : p.holds values = p.test.holds values :=
  if_neg (by simp [h])

end Predicate

namespace FieldNode

def loweredTo (name : String) : List Predicate → Expr
  | [p] =>
    if p.isExclusion then .not (.field name (.one p.test)) else .field name (.one p.test)
  | ps =>
    if ps.all Predicate.isNegation then
      .not (.field name (.group (ps.map fun p => (false, p.test))))
    else .field name (.group (ps.map fun p => (p.isExclusion, p.test)))

def lowered (node : FieldNode) : Expr :=
  loweredTo node.field.name node.predicates

theorem group_holds_of_negations {ps : List Predicate} (h : ps.all Predicate.isNegation = true)
    (values : List String) :
    (!(FieldTest.group (ps.map fun p => (false, p.test))).holds values) =
      ps.all (·.holds values) := by
  have hp : ps.all (·.holds values) = ps.all fun p => !p.test.holds values := by
    rw [Bool.eq_iff_iff, List.all_eq_true, List.all_eq_true]
    refine forall₂_congr fun p hm => ?_
    have hx := Predicate.isExclusion_of_isNegation (List.all_eq_true.1 h p hm)
    rw [Predicate.holds_of_isExclusion hx]
  rw [hp, ← List.not_any_eq_all_not]
  simp [FieldTest.holds, Function.comp_def]

theorem group_holds (ps : List Predicate) (values : List String) :
    (FieldTest.group (ps.map fun p => (p.isExclusion, p.test))).holds values =
      ((ps.any fun p => !p.isExclusion && p.holds values) &&
        ps.all fun p => !p.isExclusion || p.holds values) := by
  have hany : (ps.any fun p => !p.isExclusion && p.test.holds values) =
      ps.any fun p => !p.isExclusion && p.holds values := by
    congr 1
    funext p
    cases h : p.isExclusion <;> simp [Predicate.holds, h]
  have hall : (ps.all fun p => !(p.isExclusion && p.test.holds values)) =
      ps.all fun p => !p.isExclusion || p.holds values := by
    congr 1
    funext p
    cases h : p.isExclusion <;> simp [Predicate.holds, h]
  rw [← hany, ← hall, Bool.and_comm, ← List.not_any_eq_all_not]
  simp [FieldTest.holds, List.any_map, Function.comp_def]

theorem holds_loweredTo (record : Record) (name : String) (ps : List Predicate) :
    (loweredTo name ps).holds record = holdsOf (record.fieldValues name) ps := by
  fun_cases loweredTo name ps with
  | case1 p h =>
    rw [Expr.holds, Expr.holds, holdsOf, Predicate.holds_of_isExclusion h, FieldTest.holds]
  | case2 p h =>
    rw [Expr.holds, holdsOf, Predicate.holds_of_not_isExclusion (by simpa using h),
      FieldTest.holds]
  | case3 ps hne h =>
    rw [Expr.holds, Expr.holds, group_holds_of_negations h, holdsOf.eq_2 _ _ hne, if_pos h]
  | case4 ps hne h => rw [Expr.holds, group_holds, holdsOf.eq_2 _ _ hne, if_neg h]

theorem holds_lowered (record : Record) (node : FieldNode) :
    node.lowered.holds record = node.holds record :=
  holds_loweredTo record node.field.name node.predicates

end FieldNode

namespace Criteria

theorem alternatives_map {α β : Type} (f : α → β) (chain : List (Conjunction × α)) :
    alternatives (chain.map fun link => (link.1, f link.2)) =
      (alternatives chain).map (List.map f) := by
  fun_induction alternatives chain with
  | case1 | case2 => rfl
  | case3 join a b rest ih => simp only [List.map_cons, List.map_nil, alternatives, ← ih]
  | case4 join a b rest ih =>
    simp only [List.map_cons] at ih
    simp only [List.map_cons, alternatives, ih]
    cases alternatives ((Conjunction.and, b) :: rest) <;> rfl

def chainExpr (chain : List (Conjunction × Expr)) : Expr :=
  disjunction ((alternatives chain).map conjunction)

theorem holds_chainExpr (record : Record) (chain : List (Conjunction × Expr)) :
    (chainExpr chain).holds record =
      chainHolds (chain.map fun link => (link.1, link.2.holds record)) := by
  rw [chainExpr, Expr.holds_disjunction, chainHolds, alternatives_map, List.any_map, List.any_map]
  congr 1
  funext run
  simp [Expr.holds_conjunction]

mutual

def nodeExpr : Node → Expr
  | .field node => node.lowered
  | .group links => chainExpr (keptExprs links)

/-- The links that carry a predicate, each as an expression. -/
def keptExprs : List (Conjunction × Node) → List (Conjunction × Expr)
  | [] => []
  | (join, node) :: rest =>
    if nodeIsEmpty node then keptExprs rest else (join, nodeExpr node) :: keptExprs rest

end

def toExpr (c : Criteria) : Expr :=
  chainExpr (keptExprs c.links)

mutual

theorem holds_nodeExpr (record : Record) :
    ∀ node, (nodeExpr node).holds record = nodeHolds record node
  | .field node => by
    rw [nodeExpr, nodeHolds, FieldNode.holds_lowered]
  | .group links => by
    rw [nodeExpr, nodeHolds, holds_chainExpr, holds_keptExprs]

theorem holds_keptExprs (record : Record) :
    ∀ links, ((keptExprs links).map fun link => (link.1, link.2.holds record)) =
      keptHolds record links
  | [] => rfl
  | (join, node) :: rest => by
    have hrest := holds_keptExprs record rest
    rw [keptExprs, keptHolds]
    split
    · exact hrest
    · rw [List.map_cons, hrest, holds_nodeExpr record node]

end

theorem holds_toExpr (record : Record) (c : Criteria) :
    c.toExpr.holds record = c.holds record := by
  rw [toExpr, holds_chainExpr, holds_keptExprs, holds]

end Criteria

end SearchMapper
