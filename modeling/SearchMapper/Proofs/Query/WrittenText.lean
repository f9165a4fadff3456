import SearchMapper.Proofs.MethodName.Queries
import SearchMapper.Proofs.Query.Agreement

namespace SearchMapper

section EmptyTexts

theorem Value.quoted_ne_empty (s : String) : quoted s ≠ "" := by
  simp [quoted]

theorem Value.term_ne_empty (v : Value) : v.term ≠ "" := by
  simp only [term]
  split
  · exact quoted_ne_empty _
  · next h => exact fun he => h (.inl he)

theorem Predicate.fragment_eq_empty {p : Predicate} :
    p.fragment = "" ↔ p = .expression "" := by
  cases p with
  | is v => simp [fragment, v.term_ne_empty]
  | fuzzy term distance => cases distance <;> simp [fragment]
  | between lower upper includeLower includeUpper =>
    cases includeLower <;> cases includeUpper <;> simp [fragment]
  | _ => simp [fragment]

namespace FieldNode

variable {node : FieldNode}

/-- Whether the node is written as nothing at all although it has a predicate. -/
def isSilent (node : FieldNode) : Bool :=
  match node.predicates, node.boost with
  | [.expression raw], none => node.field.isWildcard && raw = ""
  | _, _ => false

theorem qualifier_eq_empty : node.qualifier = "" ↔ node.field.isWildcard = true := by
  unfold qualifier
  split <;> simp_all

theorem predicatesText?_eq_empty : node.predicatesText? = some "" ↔
    node.predicates = [.expression ""] ∧ node.field.isWildcard = true := by
  rw [← qualifier_eq_empty]
  unfold predicatesText?
  split
  · simp_all
  · simp_all
  · simp_all
  · simp_all [Predicate.fragment_eq_empty, and_comm]
  · split <;> simp_all [parenthesized]

theorem boostText_eq_empty {boost : Option Number.Single} :
    boostText boost = "" ↔ boost = none := by
  cases boost <;> simp [boostText]

theorem text?_eq_empty : node.text? = some "" ↔ node.isSilent = true := by
  have htext : node.text? = some "" ↔ node.predicatesText? = some "" ∧ node.boost = none := by
    rw [text?, ← boostText_eq_empty]
    cases node.predicatesText? <;> simp
  rw [htext, predicatesText?_eq_empty]
  unfold isSilent
  split
  · simp_all [and_comm]
  · next hne => simp_all

end FieldNode

end EmptyTexts

namespace Criteria

section Layout

def tailText : List (Conjunction × String) → String
  | [] => ""
  | (join, text) :: rest => " " ++ join.word ++ " " ++ text ++ tailText rest

def chainText : List (Conjunction × String) → String
  | [] => ""
  | (_, text) :: rest => text ++ tailText rest

mutual

/-- The texts of nodes that carry a predicate. Parentheses stand around a group in which two or
more links do. -/
inductive Written : Node → String → Prop
  | field {node : FieldNode} {text : String} (ht : node.text? = some text) :
      Written (.field node) text
  | alone {links : List (Conjunction × Node)} {join : Conjunction} {text : String}
      (hl : WrittenLinks links [(join, text)]) : Written (.group links) text
  | parenthesized {links : List (Conjunction × Node)} {parts : List (Conjunction × String)}
      (hl : WrittenLinks links parts) (hlen : 2 ≤ parts.length) :
      Written (.group links) ("(" ++ chainText parts ++ ")")

/-- The texts of those links that carry a predicate, each with the word of its link. -/
inductive WrittenLinks : List (Conjunction × Node) → List (Conjunction × String) → Prop
  | nil : WrittenLinks [] []
  | skip {join : Conjunction} {node : Node} {links : List (Conjunction × Node)}
      {parts : List (Conjunction × String)} (he : nodeIsEmpty node = true)
      (hl : WrittenLinks links parts) : WrittenLinks ((join, node) :: links) parts
  | keep {join : Conjunction} {node : Node} {text : String} {links : List (Conjunction × Node)}
      {parts : List (Conjunction × String)} (he : nodeIsEmpty node = false)
      (hw : Written node text) (hl : WrittenLinks links parts) :
      WrittenLinks ((join, node) :: links) ((join, text) :: parts)

end

/-- Every field, at any depth, that carries a predicate is written as some text. -/
def IsVoiced (c : Criteria) : Prop :=
  ∀ node ∈ c.fieldNodes, node.isSilent = false

instance (c : Criteria) : Decidable c.IsVoiced :=
  inferInstanceAs (Decidable (∀ node ∈ c.fieldNodes, node.isSilent = false))

end Layout

section Rendering

theorem filled_cons_of_isEmpty {node : Node} (he : nodeIsEmpty node = true) (join : Conjunction)
    (links : List Link) : filled ((join, node) :: links) = filled links :=
  List.filter_cons_of_neg (by simp [he])

theorem filled_cons_of_not_isEmpty {node : Node} (he : nodeIsEmpty node = false)
    (join : Conjunction) (links : List Link) :
    filled ((join, node) :: links) = (join, node) :: filled links :=
  List.filter_cons_of_pos (by simp [he])

structure Lays (links : List Link) (parts : List (Conjunction × String)) : Prop where
  written : WrittenLinks links parts
  joins : parts.map Prod.fst = (filled links).map Prod.fst
  ne_empty : ∀ part ∈ parts, part.2 ≠ ""
  text_eq : linksText "" links = chainText parts
  text_behind : ∀ out, out ≠ "" → linksText out links = out ++ tailText parts

namespace Lays

variable {links : List Link} {parts : List (Conjunction × String)}

theorem nil : Lays [] [] where
  written := .nil
  joins := rfl
  ne_empty := nofun
  text_eq := rfl
  text_behind out _ := by simp [linksText, tailText]

theorem skip (h : Lays links parts) {node : Node} (he : nodeIsEmpty node = true)
    (join : Conjunction) : Lays ((join, node) :: links) parts where
  written := h.written.skip he
  joins := by rw [filled_cons_of_isEmpty he, h.joins]
  ne_empty := h.ne_empty
  text_eq := by
    rw [linksText, Plain.nodeText?_of_isEmpty he]
    exact h.text_eq
  text_behind out ho := by
    rw [linksText, Plain.nodeText?_of_isEmpty he]
    exact h.text_behind out ho

theorem keep (h : Lays links parts) {node : Node} {text : String}
    (he : nodeIsEmpty node = false) (ht : nodeText? node = some text) (hne : text ≠ "")
    (hw : Written node text) (join : Conjunction) :
    Lays ((join, node) :: links) ((join, text) :: parts) where
  written := .keep he hw h.written
  joins := by rw [filled_cons_of_not_isEmpty he, List.map_cons, List.map_cons, h.joins]
  ne_empty := List.forall_mem_cons.2 ⟨hne, h.ne_empty⟩
  text_eq := by
    rw [linksText, ht]
    exact h.text_behind text hne
  text_behind out ho := by
    rw [linksText, ht]
    simp only [joined, if_neg ho]
    rw [h.text_behind _ (by simp [ho]), tailText]
    simp only [String.append_assoc]

theorem length_eq (h : Lays links parts) : parts.length = (filled links).length := by
  simpa using congrArg List.length h.joins

theorem chainText_eq_empty (h : Lays links parts) :
    chainText parts = "" ↔ linksAreEmpty links = true := by
  rw [← Plain.filled_eq_nil, ← List.length_eq_zero_iff, ← h.length_eq, List.length_eq_zero_iff]
  cases parts with
  | nil => simp [chainText]
  | cons part parts => simp [chainText, h.ne_empty part List.mem_cons_self]

end Lays

mutual

theorem exists_written : ∀ node, (∀ field ∈ nodesIn node, field.isSilent = false) →
    nodeIsEmpty node = false → ∃ text, nodeText? node = some text ∧ text ≠ "" ∧ Written node text
  | .field node, hv, he => by
    obtain ⟨text, ht⟩ : ∃ text, node.text? = some text := by
      refine Option.ne_none_iff_exists'.1 fun hn => ?_
      simp [nodeIsEmpty, FieldNode.text?_eq_none.1 hn] at he
    refine ⟨text, ht, ?_, .field ht⟩
    rintro rfl
    exact Bool.false_ne_true ((hv node (by simp [nodesIn])).symm.trans
      (FieldNode.text?_eq_empty.1 ht))
  | .group links, hv, he => by
    obtain ⟨parts, h⟩ := exists_lays links hv
    have hne : chainText parts ≠ "" := by
      rw [Ne, h.chainText_eq_empty]
      simpa [nodeIsEmpty] using he
    rw [nodeText?, h.text_eq, ← h.length_eq]
    -- the links that are written decide about parentheses, not those that are there
    match parts, h, hne with
    | [], _, hne => exact absurd rfl hne
    | [(join, text)], h, hne =>
      have ht : chainText [(join, text)] = text := by simp [chainText, tailText]
      rw [ht] at hne
      exact ⟨text, by simp [ht], hne, .alone h.written⟩
    | part :: next :: parts, h, _ =>
      exact ⟨_, rfl, by simp, .parenthesized h.written (by simp)⟩

theorem exists_lays : ∀ links, (∀ field ∈ nodesOf links, field.isSilent = false) →
    ∃ parts, Lays links parts
  | [], _ => ⟨[], .nil⟩
  | (join, node) :: links, hv => by
    obtain ⟨hnode, hlinks⟩ := List.forall_mem_append.1 hv
    obtain ⟨parts, h⟩ := exists_lays links hlinks
    cases he : nodeIsEmpty node with
    | true => exact ⟨parts, h.skip he join⟩
    | false =>
      obtain ⟨text, ht, hne, hw⟩ := exists_written node hnode he
      exact ⟨_, h.keep he ht hne hw join⟩

end

end Rendering

variable {c : Criteria}

theorem IsVoiced.toText_eq_empty (h : c.IsVoiced) : c.toText = "" ↔ c.isEmpty = true := by
  obtain ⟨parts, hp⟩ := exists_lays c.links h
  rw [toText, hp.text_eq]
  exact hp.chainText_eq_empty

end Criteria

namespace Query

open Criteria (WrittenLinks chainText filled)

structure IsVoiced (q : Query) : Prop where
  criteria : ∀ c ∈ q.criteria, c.IsVoiced
  filters : ∀ filter ∈ q.filters, ∀ c ∈ filter.criteria, c.IsVoiced

variable {q : Query}

theorem toText_of_criteria {c : Criteria} (h : q.criteria = some c) : q.toText = c.toText := by
  rw [toText, h]
  rfl

theorem toText_of_no_criteria (h : q.criteria = none) : q.toText = "" := by
  rw [toText, h]
  rfl

theorem filter_toText_eq {filters : List Query}
    (h : ∀ filter ∈ filters, ∀ c ∈ filter.criteria, c.IsVoiced) :
    (filters.map toText).filter (· ≠ "") =
      ((filters.filterMap criteria).filter fun c => !c.isEmpty).map Criteria.toText := by
  induction filters with
  | nil => rfl
  | cons filter filters ih =>
    obtain ⟨hfilter, hfilters⟩ := List.forall_mem_cons.1 h
    rw [List.map_cons]
    cases hc : filter.criteria with
    | none =>
      rw [toText_of_no_criteria hc, List.filter_cons_of_neg (by simp),
        List.filterMap_cons_none hc, ih hfilters]
    | some c =>
      have hvoiced := hfilter c hc
      rw [toText_of_criteria hc, List.filterMap_cons_some hc]
      cases he : c.isEmpty with
      | true =>
        rw [List.filter_cons_of_neg (by simp [hvoiced.toText_eq_empty.2 he]),
          List.filter_cons_of_neg (by simp [he]), ih hfilters]
      | false =>
        have hne : c.toText ≠ "" := by simp [hvoiced.toText_eq_empty, he]
        rw [List.filter_cons_of_pos (by simpa using hne),
          List.filter_cons_of_pos (by simp [he]), List.map_cons, ih hfilters]

/-- Criteria are written as the texts of just those links that carry a predicate, and a request
leaves out just those filters that are empty. A request fails for the lack of criteria alone. -/
theorem voiced_written :
    (∀ c : Criteria, c.IsVoiced →
      (c.toText = "" ↔ c.isEmpty = true) ∧
      ∃ parts, WrittenLinks c.links parts ∧ parts.map Prod.fst = (filled c.links).map Prod.fst ∧
        (∀ part ∈ parts, part.2 ≠ "") ∧ c.toText = chainText parts) ∧
    ∀ q : Query, q.IsVoiced →
      ((∀ c ∈ q.criteria, c.isEmpty = true) → q.request = .error .noPredicate) ∧
      ∀ c ∈ q.criteria, c.isEmpty = false → ∃ request, q.request = .ok request ∧
        request.query = c.toText ∧ request.filters =
          ((q.filters.filterMap criteria).filter fun c => !c.isEmpty).map Criteria.toText := by
  refine ⟨fun c h => ⟨h.toText_eq_empty, ?_⟩, fun q h => ⟨fun hempty => ?_, fun c hc he => ?_⟩⟩
  · obtain ⟨parts, hp⟩ := Criteria.exists_lays c.links h
    exact ⟨parts, hp.written, hp.joins, hp.ne_empty, hp.text_eq⟩
  · refine if_pos ?_
    cases hc : q.criteria with
    | none => exact toText_of_no_criteria hc
    | some c =>
      rw [toText_of_criteria hc]
      exact (h.criteria c hc).toText_eq_empty.2 (hempty c hc)
  · have hne : q.toText ≠ "" := by
      rw [toText_of_criteria hc, Ne, (h.criteria c hc).toText_eq_empty, he]
      exact Bool.false_ne_true
    exact ⟨_, if_neg hne, toText_of_criteria hc, filter_toText_eq h.filters⟩

/-- Books by title or id, and with one title more. The first and the last id are not asked for. -/
def ofTitles : Query where
  criteria := some ⟨[(.and, .field (.fresh bookId)),
    (.or, .group [(.and, .field ⟨bookTitle, [.is (.text "a")], none⟩),
      (.or, .field ⟨bookId, [.is (.text "1")], none⟩)]),
    (.and, .group [(.or, .group [(.and, .field ⟨bookTitle, [.is (.text "b")], none⟩),
      (.and, .field (.fresh bookId))])])]⟩
  filters := [.ofCriteria (.start bookId), .ofCriteria ((Criteria.start bookId).is (.text "2"))]

theorem voiced_written_titles : ∃ c request, ofTitles.criteria = some c ∧
    (∃ parts, WrittenLinks c.links parts ∧ parts.map Prod.fst = [.or, .and]) ∧
    ofTitles.request = .ok request ∧ request.query = "(title:a OR id:1) AND title:b" ∧
    request.filters = ["id:2"] := by
  have hvoiced : ofTitles.IsVoiced := by
    constructor
    · rintro _ ⟨rfl⟩
      decide
    · refine List.forall_mem_cons.2 ⟨?_, List.forall_mem_singleton.2 ?_⟩ <;>
        (rintro _ ⟨rfl⟩; decide)
  obtain ⟨-, parts, hparts, hjoins, -⟩ := voiced_written.1 _ (hvoiced.criteria _ rfl)
  obtain ⟨request, hr, hquery, hfilters⟩ := (voiced_written.2 _ hvoiced).2 _ rfl rfl
  refine ⟨_, request, rfl, ⟨parts, hparts, hjoins⟩, hr, hquery.trans ?_, hfilters.trans ?_⟩
  · decide
  · decide

example : (Criteria.raw "").isEmpty = false ∧ (Query.ofCriteria (.raw "")).request =
    .error .noPredicate :=
  ⟨rfl, rfl⟩

end Query

end SearchMapper
