import SearchMapper.Proofs.Query.Exclusions
import SearchMapper.Proofs.Repository.Lookups

namespace SearchMapper

open Index (Expr Test)

theorem Plain.arePredicates_of_isBareTerm {vs : List Value} (h : ∀ v ∈ vs, isBareTerm v = true) :
    arePredicates (vs.map .is) = true := by
  refine arePredicates_of_bars fun barred hb p hm => ?_
  obtain ⟨v, hv, rfl⟩ := List.mem_map.1 hm
  exact isTerm_of_isBareTerm hb (h v hv)

theorem FieldNode.holdsOf_choices {vs : List Value} (hvs : vs ≠ []) (values : List String) :
    holdsOf values (vs.map .is) = vs.any fun v => (Test.exact v.toText).holds values := by
  match vs with
  | [] => exact absurd rfl hvs
  | [v] => simp [holdsOf, Predicate.holds, Predicate.isExclusion, Predicate.test]
  | v :: w :: vs =>
    simp [holdsOf, Predicate.holds, Predicate.isExclusion, Predicate.isNegation, Predicate.test,
      Function.comp_def]

theorem Criteria.ofText_choices {field : Field} {vs : List Value}
    (hname : Plain.isName field.name = true) (hvs : vs ≠ [])
    (h : ∀ v ∈ vs, Plain.isBareTerm v = true) :
    ∃ e, Expr.ofText ((start field).pushAll (vs.map .is)).toText = .ok e ∧
      ∀ record : Record, e.holds record =
        vs.any fun v => (Test.exact v.toText).holds (record.fieldValues field.name) := by
  obtain ⟨e, he, hholds⟩ :=
    ofText_pushAll field hname (by simpa using hvs) (Plain.arePredicates_of_isBareTerm h)
  refine ⟨e, he, fun record => ?_⟩
  rw [hholds, FieldNode.holdsOf_choices hvs]

/-- The committed records that some id finds in the field. -/
def Store.sought (s : Store) (field : String) (ids : List Value) : Dictionary Record :=
  s.committed.filter fun entry =>
    ids.any fun id => (Test.exact id.toText).holds (entry.2.fieldValues field)

theorem Store.mem_sought {s : Store} (h : s.Filed) {field : String} {ids : List Value}
    {key : String} {record : Record} :
    (key, record) ∈ s.sought field ids ↔ s.committed.find? key = some record ∧
      ∃ id ∈ ids, (Test.exact id.toText).holds (record.fieldValues field) = true := by
  rw [sought, List.mem_filter, h.sorted.mem_iff, List.any_eq_true]

theorem Session.findPage_front {s : Store} {q : Query} {e : Expr} {w : Window}
    {type : DocumentType} {entity : Entity} {docs : List Json} (h : s.Reads q e)
    (hw : q.window = some w) (ho : w.offset = 0) (hsort : q.sort = none) (hp : q.projection = [])
    (hentity : type.entity = .ok entity)
    (hdocs : List.Forall₂ (fun record doc => type.read entity record = .ok doc)
      (s.matching e) docs) :
    ∃ request, findPage type q s =
      .ok ⟨docs.take w.size, some w, (s.matching e).length⟩ (s.logged [request]) := by
  have hterms : q.readTerms = [] := by
    rw [Query.readTerms, hsort]
    rfl
  have hshown : (((Index.sortHits q.readTerms (Index.hits s.committed e [])).drop w.offset).take
      w.size).map (Index.project (q.projection.map Field.name)) = (s.matching e).take w.size := by
    rw [hterms, Index.sortHits_nil, Store.hits_nil, ho, List.drop_zero, hp, List.map_nil,
      Index.project_nil, List.map_id]
  obtain ⟨request, hpage⟩ := findPage_eq_documents h.evaluates hw type
  have htaken := documents_eq (s := s.logged [request]) hentity (List.forall₂_take w.size hdocs)
  rw [hshown, bind_of_ok htaken, Store.hits_nil] at hpage
  exact ⟨request, hpage⟩

namespace Repository

open Session (bind_of_ok ofExcept_of_ok)

variable {r : Repository} {s : Store} {ids : List Value} {docs : List Json}

theorem findAllByIds_eq (hentity : r.type.entity = .ok r.entity)
    (hname : Plain.isName r.idField.name = true) (hne : ids.flatMap Value.items ≠ [])
    (hids : ∀ id ∈ ids.flatMap Value.items, Plain.isBareTerm id = true) (hs : s.scripted = [])
    (hdocs : List.Forall₂ (fun record doc => r.type.read r.entity record = .ok doc)
      (s.sought r.idField.name (ids.flatMap Value.items)).values docs) :
    ∃ request, r.findAllByIds ids s =
      .ok (docs.take (min ids.length maxRows)) (s.logged [request]) := by
  obtain ⟨e, he, hholds⟩ := Criteria.ofText_choices hname hne hids
  have hmatching : s.matching e = (s.sought r.idField.name (ids.flatMap Value.items)).values := by
    rw [Store.matching, Dictionary.values, List.filter_map]
    exact congrArg _ (List.filter_congr fun entry _ => hholds entry.2)
  have hpassed : ids ≠ [] := fun hnil => hne (congrArg _ hnil)
  have hpos : 0 < min ids.length maxRows := lt_min (List.length_pos_iff.2 hpassed) (by decide)
  have hreads : s.Reads (.ofCriteria ((Criteria.start r.idField).pushAll
      ((ids.flatMap Value.items).map .is))) e := ⟨hs, rfl, he⟩
  obtain ⟨request, hpage⟩ := Session.findPage_front
    (hreads.withWindow ⟨0, min ids.length maxRows, hpos⟩) rfl rfl rfl rfl hentity
    (by rwa [hmatching])
  have hwindow : Window.ofOffset 0 (min ids.length maxRows) =
      .ok ⟨0, min ids.length maxRows, hpos⟩ := dif_pos hpos
  refine ⟨request, ?_⟩
  rw [findAllByIds, if_neg (by simpa using hpassed),
    bind_of_ok (ofExcept_of_ok (Criteria.isIn_eq_ok hne _) s),
    bind_of_ok (ofExcept_of_ok hwindow s), bind_of_ok hpage]
  rfl

/-- The documents of all records that some id finds come back in the order of their keys, but no
more than there are members in the list. So none is missing just when there are no more of them. -/
theorem findAllByIds_takes (hentity : r.type.entity = .ok r.entity)
    (hname : Plain.isName r.idField.name = true) (hne : ids.flatMap Value.items ≠ [])
    (hids : ∀ id ∈ ids.flatMap Value.items, Plain.isBareTerm id = true) (keyField : String)
    (operations : List Store.Operation) :
    let s := Store.run keyField operations
    let found := s.sought r.idField.name (ids.flatMap Value.items)
    s.scripted = [] →
    (∀ record ∈ s.committed.values, ∃ doc, r.type.read r.entity record = .ok doc) →
    found.Sorted ∧
    (∀ key record, (key, record) ∈ found ↔ s.committed.find? key = some record ∧
      ∃ id ∈ ids.flatMap Value.items,
        (Test.exact id.toText).holds (record.fieldValues r.idField.name) = true) ∧
    ∃ docs request, found.values.mapM (r.type.read r.entity) = .ok docs ∧
      r.findAllByIds ids s = .ok (docs.take (min ids.length maxRows)) (s.logged [request]) ∧
      (docs.take (min ids.length maxRows) = docs ↔ found.length ≤ min ids.length maxRows) := by
  intro s found hs hread
  have hfiled : s.Filed := Store.filed_run keyField operations
  refine ⟨List.Pairwise.filter _ hfiled.sorted, fun _ _ => Store.mem_sought hfiled, ?_⟩
  have hsome : ∀ record ∈ found.values, ∃ doc, r.type.read r.entity record = .ok doc := by
    intro record hm
    obtain ⟨entry, hentry, rfl⟩ := List.mem_map.1 hm
    exact hread _ (List.mem_map_of_mem (List.mem_filter.1 hentry).1)
  obtain ⟨docs, hdocs⟩ := exists_documents hsome
  obtain ⟨request, hfind⟩ := findAllByIds_eq hentity hname hne hids hs hdocs
  refine ⟨docs, request, mapM_eq_ok_iff.2 hdocs, hfind, ?_⟩
  rw [List.take_eq_self_iff, ← hdocs.length_eq, Dictionary.values, List.length_map]

section Books

theorem read_arrivals : ∀ record ∈ (Store.run "id" arrivals).committed.values,
    ∃ doc, books.type.read bookEntity record = .ok doc :=
  List.forall_mem_cons.2 ⟨⟨_, rfl⟩, List.forall_mem_cons.2 ⟨⟨_, rfl⟩, List.forall_mem_nil _⟩⟩

theorem findAllByIds_takes_arrivals :
    ∃ docs s', books.findAllByIds [.list [.text "2", .text "3"], .text "1"]
        (Store.run "id" arrivals) = .ok docs s' ∧
      [book "1" "a", book "2" "b"].mapM (books.type.read bookEntity) = .ok docs := by
  have hids : ∀ id ∈ [Value.text "2", .text "3", .text "1"], Plain.isBareTerm id = true := by
    decide
  obtain ⟨-, -, docs, request, hdocs, hfind, hall⟩ :=
    @findAllByIds_takes books [.list [.text "2", .text "3"], .text "1"] rfl (by decide)
      (by simp [Value.items]) hids "id" arrivals rfl read_arrivals
  rw [hall.2 (by decide)] at hfind
  exact ⟨docs, _, hfind, hdocs⟩

/-- Both books are asked for by one member of the list, and so only one comes back. -/
theorem findAllByIds_cuts_member :
    let s := Store.run "id" arrivals
    (s.sought "id" [.text "1", .text "2"]).values = [book "1" "a", book "2" "b"] ∧
      ∃ docs s', books.findAllByIds [.list [.text "1", .text "2"]] s = .ok docs s' ∧
        [book "1" "a"].mapM (books.type.read bookEntity) = .ok docs := by
  intro s
  have hids : ∀ id ∈ [Value.text "1", .text "2"], Plain.isBareTerm id = true := by
    decide
  have hsought : s.sought "id" [.text "1", .text "2"] = s.committed :=
    List.filter_eq_self.2 (by decide)
  obtain ⟨docs, hdocs⟩ := exists_documents read_arrivals
  obtain ⟨request, hfind⟩ := @findAllByIds_eq books s [.list [.text "1", .text "2"]] docs rfl
    (by decide) (by simp [Value.items]) hids rfl
    (by rw [← hsought] at hdocs; exact hdocs)
  exact ⟨congrArg _ hsought, _, _, hfind, mapM_eq_ok_iff.2 (List.forall₂_take 1 hdocs)⟩

end Books

end Repository

end SearchMapper
