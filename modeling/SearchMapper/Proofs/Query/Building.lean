import SearchMapper.Proofs.MethodName.Queries
import SearchMapper.Proofs.Query.Asking

namespace SearchMapper.Criteria

inductive Outline
  | field
  | group (links : List (Conjunction × Outline))

mutual

def nodeOutline : Node → Outline
  | .field _ => .field
  | .group links => .group (outlineOf links)

def outlineOf : List (Conjunction × Node) → List (Conjunction × Outline)
  | [] => []
  | (join, node) :: rest => (join, nodeOutline node) :: outlineOf rest

end

/-- The conjunctions and the nesting. -/
def outline (c : Criteria) : Outline :=
  .group (outlineOf c.links)

namespace Outline

mutual

def isSolid : Outline → Bool
  | field => true
  | group links => !links.isEmpty && areSolid links

def areSolid : List (Conjunction × Outline) → Bool
  | [] => true
  | (_, outline) :: rest => isSolid outline && areSolid rest

end

theorem isSolid_group {links : List (Conjunction × Outline)} :
    (group links).isSolid = true ↔ links ≠ [] ∧ areSolid links = true := by
  simp [isSolid]

end Outline

open Outline (areSolid isSolid_group)

/-- The chain has a link, as has each group in it. -/
def IsSolid (c : Criteria) : Prop :=
  c.outline.isSolid = true

/-- Only the last field differs, by a change to it. -/
structure Alters (f : FieldNode → FieldNode) (c c' : Criteria) : Prop where
  fieldNodes : ∃ front last, c.fieldNodes = front ++ [last] ∧ c'.fieldNodes = front ++ [f last]
  outline : c'.outline = c.outline

/-- A single link is taken over, more become a group. -/
inductive Inlines : List Link → Node → Prop
  | one (join : Conjunction) (node : Node) : Inlines [(join, node)] node
  | several {links : List Link} (h : 1 < links.length) : Inlines links (.group links)

/-- All that is asked, field by field. -/
def predicates (c : Criteria) : List Predicate :=
  c.fieldNodes.flatMap FieldNode.predicates

inductive Call
  | ask (asking : Asking)
  | boost (factor : Number.Single)
  | field (join : Conjunction) (next : Field)
  | named (join : Conjunction) (name : String)
  | criteria (join : Conjunction) (other : Criteria)

namespace Call

def perform (c : Criteria) : Call → Except Error Criteria
  | ask asking => asking.perform c
  | boost factor => .ok (c.boost factor)
  | field join next => .ok (c.joinField join next)
  | named join name => c.joinNamed join name
  | criteria join other => .ok (c.joinCriteria join other)

def refusal? : Call → Option Error
  | ask asking =>
    match asking.predicates with
    | .ok _ => none
    | .error cause => some cause
  | named _ name => if Text.isBlankText name then some .blankFieldName else none
  | _ => none

/-- The predicates that the call brings, if it does not fail. -/
def predicates : Call → List Predicate
  | ask asking => asking.predicates.toOption.getD []
  | criteria _ other => other.predicates
  | _ => []

def other? : Call → Option Criteria
  | criteria _ other => some other
  | _ => none

/-- What becomes of the criteria if the call does not fail. -/
def Does (c c' : Criteria) : Call → Prop
  | ask asking => ∃ ps, asking.predicates = .ok ps ∧
      Alters (fun node => { node with predicates := node.predicates ++ ps }) c c'
  | boost factor => Alters (fun node => { node with boost := some factor }) c c'
  | field join next => c'.links = c.links ++ [(join, .field (.fresh next))]
  | named join name => ∃ next, Field.named name = .ok next ∧
      c'.links = c.links ++ [(join, .field (.fresh next))]
  | criteria join other => ∃ node, Inlines other.links node ∧ nodesIn node = other.fieldNodes ∧
      c'.links = c.links ++ [(join, node)]

def attempt (c : Criteria) (call : Call) : Criteria :=
  (call.perform c).toOption.getD c

end Call

def run (calls : List Call) (c : Criteria) : Criteria :=
  calls.foldl Call.attempt c

/-- Criteria that come about by calls, as have all that they take in. -/
inductive Built : Criteria → Prop
  | start (field : Field) : Built (start field)
  | onField {name : String} {c : Criteria} (h : onField name = .ok c) : Built c
  | raw (query : String) : Built (raw query)
  | matchAll : Built matchAll
  | group {inner : Criteria} (h : Built inner) : Built (group inner)
  | call {c c' : Criteria} {call : Call} (h : Built c)
      (hother : ∀ other ∈ call.other?, Built other) (hcall : call.perform c = .ok c') : Built c'

section Trees

variable {links : List Link} {c : Criteria}

theorem nodesOf_append (links links' : List Link) :
    nodesOf (links ++ links') = nodesOf links ++ nodesOf links' := by
  induction links with
  | nil => rfl
  | cons link links ih => rw [List.cons_append, nodesOf, ih, nodesOf, List.append_assoc]

theorem outlineOf_append (links links' : List Link) :
    outlineOf (links ++ links') = outlineOf links ++ outlineOf links' := by
  induction links with
  | nil => rfl
  | cons link links ih => rw [List.cons_append, outlineOf, ih, outlineOf, List.cons_append]

theorem areSolid_append (outlines outlines' : List (Conjunction × Outline)) :
    areSolid (outlines ++ outlines') = (areSolid outlines && areSolid outlines') := by
  induction outlines with
  | nil => simp [areSolid]
  | cons outline outlines ih => rw [List.cons_append, areSolid, ih, areSolid, Bool.and_assoc]

theorem outlineOf_eq_nil : outlineOf links = [] ↔ links = [] := by
  cases links <;> simp [outlineOf]

theorem isSolid_iff : c.IsSolid ↔ c.links ≠ [] ∧ areSolid (outlineOf c.links) = true := by
  rw [IsSolid, outline, isSolid_group, ne_eq, outlineOf_eq_nil]

mutual

theorem nodeOutline_updateInNode (f : FieldNode → FieldNode) :
    ∀ node, nodeOutline (updateInNode f node) = nodeOutline node
  | .field _ => rfl
  | .group links => by rw [updateInNode, nodeOutline, nodeOutline, outlineOf_updateLast f links]

theorem outlineOf_updateLast (f : FieldNode → FieldNode) :
    ∀ links, outlineOf (updateLast f links) = outlineOf links
  | [] => rfl
  | [(join, node)] => by
    rw [updateLast, outlineOf, nodeOutline_updateInNode f node]
    rfl
  | (join, node) :: link :: rest => by
    rw [updateLast, outlineOf, outlineOf, outlineOf_updateLast f (link :: rest)]

end

mutual

theorem exists_lastIn : ∀ node, (nodeOutline node).isSolid = true → ∃ front last,
    nodesIn node = front ++ [last] ∧ lastInNode? node = some last ∧
      ∀ f, nodesIn (updateInNode f node) = front ++ [f last]
  | .field node, _ => ⟨[], node, rfl, rfl, fun _ => rfl⟩
  | .group links, h => by
    rw [nodeOutline, isSolid_group, ne_eq, outlineOf_eq_nil] at h
    exact exists_last links h.1 h.2

-- a link behind which others stand hands the question on to them, and the last one to its node
theorem exists_last : ∀ links, links ≠ [] → areSolid (outlineOf links) = true → ∃ front last,
    nodesOf links = front ++ [last] ∧ lastField? links = some last ∧
      ∀ f, nodesOf (updateLast f links) = front ++ [f last]
  | [], hne, _ => absurd rfl hne
  | [(join, node)], _, h => by
    rw [outlineOf, areSolid, Bool.and_eq_true] at h
    obtain ⟨front, last, hnodes, hlast, hupdate⟩ := exists_lastIn node h.1
    refine ⟨front, last, ?_, hlast, fun f => ?_⟩
    · rw [nodesOf, hnodes, nodesOf, List.append_nil]
    · rw [updateLast, nodesOf, hupdate, nodesOf, List.append_nil]
  | (join, node) :: link :: rest, _, h => by
    rw [outlineOf, areSolid, Bool.and_eq_true] at h
    obtain ⟨front, last, hnodes, hlast, hupdate⟩ :=
      exists_last (link :: rest) (List.cons_ne_nil _ _) h.2
    refine ⟨nodesIn node ++ front, last, ?_, hlast, fun f => ?_⟩
    · rw [nodesOf, hnodes, List.append_assoc]
    · rw [updateLast, nodesOf, hupdate, List.append_assoc]

end

mutual

theorem eq_of_nodeOutline : ∀ {node node' : Node} {later later' : List FieldNode},
    nodeOutline node = nodeOutline node' → nodesIn node ++ later = nodesIn node' ++ later' →
      node = node' ∧ later = later'
  | .field _, .field _, _, _, _, h => by
    obtain ⟨rfl, hlater⟩ := List.cons.inj h
    exact ⟨rfl, hlater⟩
  | .group _, .group _, _, _, hs, h => by
    obtain ⟨rfl, hlater⟩ := eq_of_outlineOf (Outline.group.inj hs) h
    exact ⟨rfl, hlater⟩
  | .field _, .group _, _, _, hs, _ => by cases hs
  | .group _, .field _, _, _, hs, _ => by cases hs

theorem eq_of_outlineOf : ∀ {links links' : List (Conjunction × Node)}
    {later later' : List FieldNode}, outlineOf links = outlineOf links' →
      nodesOf links ++ later = nodesOf links' ++ later' → links = links' ∧ later = later'
  | [], [], _, _, _, h => ⟨rfl, h⟩
  | (join, node) :: links, (join', node') :: links', _, _, hs, h => by
    rw [outlineOf, outlineOf, List.cons.injEq, Prod.mk.injEq] at hs
    obtain ⟨⟨rfl, hnode⟩, hlinks⟩ := hs
    rw [nodesOf, nodesOf, List.append_assoc, List.append_assoc] at h
    obtain ⟨rfl, hrest⟩ := eq_of_nodeOutline hnode h
    obtain ⟨rfl, hlater⟩ := eq_of_outlineOf hlinks hrest
    exact ⟨rfl, hlater⟩
  | [], _ :: _, _, _, hs, _ => by cases hs
  | _ :: _, [], _, _, hs, _ => by cases hs

end

end Trees

section Alterations

variable {c c' c'' : Criteria} {f g : FieldNode → FieldNode}

theorem IsSolid.exists_last (h : c.IsSolid) : ∃ front last, c.fieldNodes = front ++ [last] ∧
    c.current? = some last ∧ ∀ f, (c.update f).fieldNodes = front ++ [f last] :=
  Criteria.exists_last c.links (isSolid_iff.1 h).1 (isSolid_iff.1 h).2

theorem IsSolid.alters_update (h : c.IsSolid) (f : FieldNode → FieldNode) :
    Alters f c (c.update f) := by
  obtain ⟨front, last, hnodes, -, hupdate⟩ := h.exists_last
  exact ⟨⟨front, last, hnodes, hupdate f⟩, congrArg Outline.group (outlineOf_updateLast f c.links)⟩

theorem Alters.isSolid (h : Alters f c c') (hc : c.IsSolid) : c'.IsSolid := by
  rwa [IsSolid, h.outline]

theorem Alters.trans (h : Alters f c c') (h' : Alters g c' c'') :
    Alters (fun node => g (f node)) c c'' := by
  obtain ⟨front, last, hc, hc'⟩ := h.fieldNodes
  obtain ⟨front', last', hd, hd'⟩ := h'.fieldNodes
  obtain ⟨rfl, rfl⟩ := List.append_singleton_inj.1 (hc'.symm.trans hd)
  exact ⟨⟨front, last, hc, hd'⟩, h'.outline.trans h.outline⟩

theorem Alters.unique (h : Alters f c c') (h' : Alters f c c'') : c' = c'' := by
  obtain ⟨front, last, hc, hc'⟩ := h.fieldNodes
  obtain ⟨front', last', hd, hd'⟩ := h'.fieldNodes
  obtain ⟨rfl, rfl⟩ := List.append_singleton_inj.1 (hc.symm.trans hd)
  have houtline : outlineOf c'.links = outlineOf c''.links :=
    Outline.group.inj (h.outline.trans h'.outline.symm)
  have hnodes : nodesOf c'.links ++ [] = nodesOf c''.links ++ [] :=
    congrArg (· ++ []) (hc'.trans hd'.symm)
  exact congrArg Criteria.mk (eq_of_outlineOf houtline hnodes).1

theorem IsSolid.alters_pushAll (h : c.IsSolid) (ps : List Predicate) :
    Alters (fun node => { node with predicates := node.predicates ++ ps }) c (c.pushAll ps) := by
  induction ps generalizing c with
  | nil =>
    obtain ⟨front, last, hnodes, -⟩ := h.exists_last
    exact ⟨⟨front, last, hnodes, by simpa [pushAll] using hnodes⟩, rfl⟩
  | cons p ps ih =>
    -- what the first predicate leaves is solid again, and its last field is the same one
    have hp := h.alters_update fun node => { node with predicates := node.predicates ++ [p] }
    have hps := hp.trans (ih (hp.isSolid h))
    simpa [pushAll, push] using hps

end Alterations

section Calls

variable {c c' other : Criteria} {call : Call} {join : Conjunction} {node : Node}

theorem Call.perform_eq_error_iff (call : Call) (c : Criteria) {cause : Error} :
    call.perform c = .error cause ↔ call.refusal? = some cause := by
  cases call with
  | ask asking =>
    rw [perform, asking.perform_eq, refusal?]
    cases asking.predicates <;> simp [Except.map]
  | named join name =>
    simp only [perform, joinNamed, Field.named, refusal?]
    split <;> simp [Except.map]
  | _ => simp [perform, refusal?]

theorem Inlines.unique {links : List Link} {node' : Node} (h : Inlines links node)
    (h' : Inlines links node') : node = node' := by
  cases h with
  | one join node =>
    cases h' with
    | one => rfl
    | several hlength => simp at hlength
  | several hlength =>
    cases h' with
    | one => simp at hlength
    | several => rfl

theorem Inlines.nodesIn_eq {links : List Link} (h : Inlines links node) :
    nodesIn node = nodesOf links := by
  cases h with
  | one join node => rw [nodesOf, nodesOf, List.append_nil]
  | several => rw [nodesIn]

theorem Inlines.isSolid {links : List Link} (h : Inlines links node)
    (hlinks : areSolid (outlineOf links) = true) : (nodeOutline node).isSolid = true := by
  cases h with
  | one join node =>
    rw [outlineOf, areSolid, Bool.and_eq_true] at hlinks
    exact hlinks.1
  | several hlength =>
    have hne : links ≠ [] := List.ne_nil_of_length_pos (by omega)
    rw [nodeOutline, isSolid_group, ne_eq, outlineOf_eq_nil]
    exact ⟨hne, hlinks⟩

theorem exists_inlines (h : other.links ≠ []) (c : Criteria) (join : Conjunction) :
    ∃ node, Inlines other.links node ∧ c.joinCriteria join other = c.link join node := by
  unfold joinCriteria
  split
  · next join' node hlinks =>
    rw [hlinks]
    exact ⟨node, .one join' node, rfl⟩
  · next hmany =>
    refine ⟨_, .several ?_, rfl⟩
    match hlinks : other.links with
    | [] => exact absurd hlinks h
    | [(join', node)] => exact absurd hlinks (hmany join' node)
    | _ :: _ :: _ => simp

theorem link_eq_iff : c.link join node = c' ↔ c'.links = c.links ++ [(join, node)] :=
  ⟨fun h => h ▸ rfl, fun h => congrArg Criteria.mk h.symm⟩

theorem Call.perform_eq_ok_iff (hc : c.IsSolid) (hother : ∀ other ∈ call.other?, other.IsSolid) :
    call.perform c = .ok c' ↔ call.Does c c' := by
  cases call with
  | ask asking =>
    rw [perform, asking.perform_eq]
    refine map_eq_ok_iff.trans ?_
    constructor
    · rintro ⟨ps, hps, rfl⟩
      exact ⟨ps, hps, hc.alters_pushAll ps⟩
    · rintro ⟨ps, hps, halters⟩
      exact ⟨ps, hps, (hc.alters_pushAll ps).unique halters⟩
  | boost factor =>
    rw [perform, Except.ok.injEq]
    constructor
    · rintro rfl
      exact hc.alters_update _
    · exact (hc.alters_update _).unique
  | field join next => rw [perform, Except.ok.injEq, joinField, link_eq_iff, Does]
  | named join name =>
    refine map_eq_ok_iff.trans ?_
    simp only [joinField, link_eq_iff, Does]
  | criteria join other =>
    have hne := (isSolid_iff.1 (hother other rfl)).1
    obtain ⟨node, hnode, heq⟩ := exists_inlines hne c join
    rw [perform, Except.ok.injEq, heq, link_eq_iff]
    constructor
    · exact fun h => ⟨node, hnode, hnode.nodesIn_eq, h⟩
    · rintro ⟨node', hnode', -, h⟩
      rwa [hnode.unique hnode']

theorem IsSolid.link (hc : c.IsSolid) (hnode : (nodeOutline node).isSolid = true)
    (h : c'.links = c.links ++ [(join, node)]) : c'.IsSolid := by
  rw [isSolid_iff, h, outlineOf_append, areSolid_append]
  refine ⟨by simp, ?_⟩
  rw [(isSolid_iff.1 hc).2, outlineOf, outlineOf, areSolid, areSolid, hnode]
  rfl

theorem Call.Does.isSolid (h : call.Does c c') (hc : c.IsSolid)
    (hother : ∀ other ∈ call.other?, other.IsSolid) : c'.IsSolid := by
  cases call with
  | ask asking =>
    obtain ⟨ps, -, halters⟩ := h
    exact halters.isSolid hc
  | boost factor => exact Alters.isSolid h hc
  | field join next => exact hc.link rfl h
  | named join name =>
    obtain ⟨next, -, hlinks⟩ := h
    exact hc.link rfl hlinks
  | criteria join other =>
    obtain ⟨node, hnode, -, hlinks⟩ := h
    exact hc.link (hnode.isSolid (isSolid_iff.1 (hother other rfl)).2) hlinks

theorem predicates_of_links (h : c'.links = c.links ++ [(join, node)]) :
    c'.predicates = c.predicates ++ (nodesIn node).flatMap FieldNode.predicates := by
  rw [predicates, fieldNodes, h, nodesOf_append, nodesOf, nodesOf, List.append_nil,
    List.flatMap_append]
  rfl

theorem Call.Does.predicates_eq (h : call.Does c c') :
    c'.predicates = c.predicates ++ call.predicates := by
  cases call with
  | ask asking =>
    obtain ⟨ps, hps, halters⟩ := h
    obtain ⟨front, last, hc, hc'⟩ := halters.fieldNodes
    simp [Criteria.predicates, Call.predicates, hc, hc', hps, Except.toOption]
  | boost factor =>
    obtain ⟨front, last, hc, hc'⟩ := Alters.fieldNodes h
    simp [Criteria.predicates, Call.predicates, hc, hc']
  | field join next => exact predicates_of_links h
  | named join name =>
    obtain ⟨next, -, hlinks⟩ := h
    exact predicates_of_links hlinks
  | criteria join other =>
    obtain ⟨node, -, hnodes, hlinks⟩ := h
    rw [predicates_of_links hlinks, hnodes]
    rfl

end Calls

section Runs

variable {c : Criteria} {call : Call} {calls : List Call}

theorem Built.isSolid (h : Built c) : c.IsSolid := by
  have hstart (field : Field) : IsSolid (.start field) := rfl
  have hraw (query : String) : IsSolid (.raw query) :=
    ((hstart .wildcard).alters_pushAll [.expression query]).isSolid (hstart _)
  induction h with
  | start field => exact hstart field
  | onField h =>
    obtain ⟨field, -, rfl⟩ := map_eq_ok_iff.1 h
    exact hstart field
  | raw query => exact hraw query
  | matchAll => exact hraw "*:*"
  | group _ ih =>
    rw [isSolid_iff]
    exact ⟨List.cons_ne_nil _ _, Bool.and_eq_true_iff.2 ⟨ih, rfl⟩⟩
  | call _ _ hcall ih hother =>
    exact ((Call.perform_eq_ok_iff ih hother).1 hcall).isSolid ih hother

theorem Call.attempt_of_refusal {cause : Error} (h : call.refusal? = some cause) (c : Criteria) :
    call.attempt c = c := by
  rw [attempt, (call.perform_eq_error_iff c).2 h]
  rfl

theorem Call.perform_attempt (h : call.refusal? = none) (c : Criteria) :
    call.perform c = .ok (call.attempt c) := by
  rw [attempt]
  cases hcall : call.perform c with
  | ok c' => rfl
  | error cause =>
    rw [(call.perform_eq_error_iff c).1 hcall] at h
    cases h

theorem Call.predicates_of_refusal {cause : Error} (h : call.refusal? = some cause) :
    call.predicates = [] := by
  cases call with
  | ask asking =>
    rw [refusal?] at h
    rw [predicates]
    cases hps : asking.predicates with
    | ok ps => simp [hps] at h
    | error cause => rfl
  | criteria => cases h
  | _ => rfl

theorem Built.attempt (h : Built c) (hother : ∀ other ∈ call.other?, Built other) :
    Built (call.attempt c) ∧ (call.attempt c).predicates = c.predicates ++ call.predicates := by
  cases hcall : call.refusal? with
  | none =>
    have hdone := Call.perform_attempt hcall c
    have hsolid : ∀ other ∈ call.other?, other.IsSolid := fun other hm => (hother other hm).isSolid
    have hdoes := (Call.perform_eq_ok_iff h.isSolid hsolid).1 hdone
    exact ⟨.call h hother hdone, hdoes.predicates_eq⟩
  | some cause =>
    rw [Call.attempt_of_refusal hcall, Call.predicates_of_refusal hcall, List.append_nil]
    exact ⟨h, rfl⟩

theorem Built.run (h : Built c) (hother : ∀ call ∈ calls, ∀ other ∈ call.other?, Built other) :
    Built (run calls c) ∧
      (run calls c).predicates = c.predicates ++ calls.flatMap Call.predicates := by
  induction calls generalizing c with
  | nil => exact ⟨h, (List.append_nil _).symm⟩
  | cons call calls ih =>
    obtain ⟨hfirst, hothers⟩ := List.forall_mem_cons.1 hother
    obtain ⟨hbuilt, hpredicates⟩ := h.attempt hfirst
    obtain ⟨hrun, hall⟩ := ih hbuilt hothers
    refine ⟨hrun, hall.trans ?_⟩
    rw [hpredicates, List.append_assoc, List.flatMap_cons]

end Runs

end SearchMapper.Criteria
