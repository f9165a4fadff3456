import SearchMapper.Proofs.Repository.Limits

namespace SearchMapper

open Index (Consistent Expr IsSorted hits)

variable {s : Store} {q : Query} {e : Expr} {filters : List Expr}

theorem flatMap_pages {α : Type} (xs : List α) (size count : Nat) :
    ((List.range count).flatMap fun page => (xs.drop (page * size)).take size) =
      xs.take (count * size) := by
  induction count with
  | zero => simp
  | succ count ih =>
    rw [List.range_succ, List.flatMap_append, ih, Nat.succ_mul, List.take_add,
      List.flatMap_singleton]

/-- Deleting by the query alone deletes the hits if every record that it holds of passes the
filters. -/
theorem Store.committed_without_eq_iff :
    (s.without e).committed = (s.committed.filter fun entry =>
        !(e.holds entry.2 && filters.all fun filter => filter.holds entry.2)) ↔
      ∀ entry ∈ s.committed, e.holds entry.2 → ∀ filter ∈ filters, filter.holds entry.2 := by
  constructor
  · intro h entry hm he
    by_contra hfails
    have hkept : entry ∈ (s.without e).committed := by
      rw [h]
      refine List.mem_filter.2 ⟨hm, ?_⟩
      simpa [he] using hfails
    have hnot := (List.mem_filter.1 hkept).2
    rw [he] at hnot
    cases hnot
  · intro h
    refine List.filter_congr fun entry hm => ?_
    by_cases he : e.holds entry.2
    · have hall : (filters.all fun filter => filter.holds entry.2) = true :=
        List.all_eq_true.2 (h entry hm he)
      rw [he, hall]
      rfl
    · simp [he]

namespace Session

/-- Counting finds the hits of the query and its filters, and so do all pages together, where the
sort terms compare the hits consistently. Deleting removes the records that the query alone holds
of; these are the hits if all of them pass the filters. -/
theorem deleteMatches_of_filters (type : DocumentType) (hstaged : s.staged = [])
    (hscripted : s.scripted = []) (he : Expr.ofText q.toText = .ok e)
    (hf : ((q.filters.map Query.toText).filter (· ≠ "")).mapM Expr.ofText = .ok filters) :
    (∃ request, count q s =
      .ok (hits s.committed e filters).length (s.logged [request])) ∧
    (∀ entity, type.entity = .ok entity →
      (∀ record ∈ hits s.committed e filters, ∃ doc,
        type.read entity (Index.project (q.projection.map Field.name) record) = .ok doc) →
      Consistent q.readTerms (hits s.committed e filters) →
      ∃ ordered docs, IsSorted q.readTerms (hits s.committed e filters) ordered ∧
        List.Forall₂ (fun record doc =>
          type.read entity (Index.project (q.projection.map Field.name) record) = .ok doc)
          ordered docs ∧
        (∀ w, ∃ request, findPage type (q.withWindow w) s =
          .ok ⟨(docs.drop w.offset).take w.size, some w, (hits s.committed e filters).length⟩
            (s.logged [request])) ∧
        ∀ size count, (hits s.committed e filters).length ≤ count * size →
          ((List.range count).flatMap fun page => (docs.drop (page * size)).take size) = docs) ∧
    (∃ s', deleteMatches q s = .ok () s' ∧ s'.commit = s.without e) ∧
    ((s.without e).committed = (s.committed.filter fun entry =>
        !(e.holds entry.2 && filters.all fun filter => filter.holds entry.2)) ↔
      ∀ entry ∈ s.committed, e.holds entry.2 → ∀ filter ∈ filters, filter.holds entry.2) := by
  have h : s.Evaluates q e filters := ⟨hscripted, he, hf⟩
  refine ⟨count_of_evaluates h, fun entity hentity hread hconsistent => ?_,
    ⟨_, deleteMatches_eq he s, Store.commit_stage_deleteMatches hstaged e⟩,
    Store.committed_without_eq_iff⟩
  have hsorted := Index.sortHits_isSorted hconsistent
  obtain ⟨docs, hdocs⟩ := Repository.exists_documents fun record hm =>
    hread record (hsorted.perm.mem_iff.1 hm)
  refine ⟨_, docs, hsorted, hdocs, fun w => ?_, fun size count hcount => ?_⟩
  · have hpage := List.forall₂_take w.size (List.forall₂_drop w.offset hdocs)
    exact findPage_of_evaluates (h.withWindow w) rfl hentity (List.forall₂_map_left_iff.2 hpage)
  · rw [flatMap_pages, List.take_of_length_le]
    rwa [← hdocs.length_eq, hsorted.perm.length_eq]

section Books

open Repository (book books document_book edition emma ofText_emma shelved)

def firstBook : Criteria :=
  (Criteria.start bookId).is (.text "1")

def firstEmma : Query :=
  (Query.ofCriteria emma).addFilter (Query.ofCriteria firstBook)

theorem ofText_firstBook : Expr.ofText firstBook.toText = .ok firstBook.toExpr :=
  Plain.ofText_toText (by decide) rfl

theorem mapM_filters_firstEmma :
    ((firstEmma.filters.map Query.toText).filter (· ≠ "")).mapM Expr.ofText =
      .ok [firstBook.toExpr] := by
  have htexts : (firstEmma.filters.map Query.toText).filter (· ≠ "") = [firstBook.toText] := by
    decide
  rw [htexts, List.mapM_cons, ofText_firstBook]
  rfl

theorem deleteMatches_of_filters_single :
    (∃ request, count firstEmma { committed := [("1", book "1" "a")] } =
      .ok 1 (Store.logged [request] { committed := [("1", book "1" "a")] })) ∧
    (∀ w, ∃ request,
      findPage books.type (firstEmma.withWindow w) { committed := [("1", book "1" "a")] } =
        .ok ⟨([edition "1"].drop w.offset).take w.size, some w, 1⟩
          (Store.logged [request] { committed := [("1", book "1" "a")] })) ∧
    ∃ s', deleteMatches firstEmma { committed := [("1", book "1" "a")] } = .ok () s' ∧
      s'.commit.committed = [] := by
  obtain ⟨hcount, hpages, ⟨s', hdelete, hcommit⟩, -⟩ :=
    deleteMatches_of_filters (s := { committed := [("1", book "1" "a")] }) (q := firstEmma)
      books.type rfl rfl ofText_emma mapM_filters_firstEmma
  have hread : ∀ record ∈ [book "1" "a"], ∃ doc, books.type.document record = .ok doc :=
    List.forall_mem_singleton.2 ⟨_, document_book _ _⟩
  obtain ⟨ordered, docs, hsorted, hdocs, hfind, -⟩ :=
    hpages bookEntity rfl hread (Index.consistent_nil _)
  have hordered : ordered = [book "1" "a"] := List.perm_singleton.1 hsorted.perm
  rw [hordered] at hdocs
  cases eq_of_forall₂_ok hdocs (.cons (document_book "1" "a") .nil)
  exact ⟨hcount, hfind, s', hdelete, by rw [hcommit]; rfl⟩

/-- Only the first book is counted, and both are deleted. -/
theorem deleteMatches_ignores_filters :
    shelved.staged = [] ∧ shelved.scripted = [] ∧
      Expr.ofText firstEmma.toText = .ok emma.toExpr ∧
      ((firstEmma.filters.map Query.toText).filter (· ≠ "")).mapM Expr.ofText =
        .ok [firstBook.toExpr] ∧
      shelved.committed = [("1", book "1" "a"), ("2", book "2" "b")] ∧
      (∃ request, count firstEmma shelved = .ok 1 (shelved.logged [request])) ∧
      ∃ s', deleteMatches firstEmma shelved = .ok () s' ∧ s'.commit.committed = [] := by
  have h : shelved.Evaluates firstEmma emma.toExpr [firstBook.toExpr] :=
    ⟨rfl, ofText_emma, mapM_filters_firstEmma⟩
  exact ⟨rfl, rfl, ofText_emma, mapM_filters_firstEmma, rfl, count_of_evaluates h,
    _, deleteMatches_eq h.text shelved, rfl⟩

end Books

end Session

end SearchMapper
