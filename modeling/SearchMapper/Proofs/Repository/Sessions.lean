import SearchMapper.Proofs.Failure
import SearchMapper.Proofs.Index.SortOrder
import SearchMapper.Repository.Invoke

namespace SearchMapper

open Index (Expr SortTerm hits respond)

namespace Query

def toRequest (q : Query) : Request where
  query := q.toText
  filters := (q.filters.map toText).filter (· ≠ "")
  fields := q.projection.map Field.name
  start := q.window.map Window.offset
  rows := q.window.map Window.size
  sort := (q.sort.getD []).map fun key => key.field.name ++ " " ++ key.direction.word
  groupFields := q.grouping.map Field.name

def sortTerms (q : Query) : List SortTerm :=
  (q.sort.getD []).map fun key => (key.field.name, decide (key.direction = .desc))

/-- The order that is read from the texts of the sort keys. -/
def readTerms (q : Query) : List SortTerm :=
  ((q.sort.getD []).map fun key => key.field.name ++ " " ++ key.direction.word).filterMap
    Index.sortTerm?

theorem readTerms_eq {q : Query}
    (h : ∀ key ∈ q.sort.getD [], Text.hasBlank key.field.name = false) :
    q.readTerms = q.sortTerms := by
  rw [readTerms, sortTerms, List.filterMap_map, ← List.filterMap_eq_map]
  exact List.filterMap_congr fun key hm => Index.sortTerm?_key key (h key hm)

end Query

def DocumentType.document (t : DocumentType) (record : Record) : Except Error Json := do
  t.read (← t.entity) record

theorem DocumentType.document_eq {t : DocumentType} {entity : Entity} (h : t.entity = .ok entity) :
    t.document = t.read entity := by
  funext record
  simp [document, h, bind, Except.bind]

namespace Store

def logged (requests : List Request) (s : Store) : Store :=
  { s with requests := s.requests ++ requests }

theorem logged_logged (s : Store) (before behind : List Request) :
    (s.logged before).logged behind = s.logged (before ++ behind) := by
  simp [logged]

/-- The committed records that an expression holds of, in the order of their keys. -/
def matching (s : Store) (e : Expr) : List Record :=
  s.committed.values.filter e.holds

theorem hits_nil (s : Store) (e : Expr) : hits s.committed e [] = s.matching e := by
  simp [hits, matching]

/-- The matching records in the order in which a request shows them, with the fields it asks
for. -/
def shown (s : Store) (q : Query) (e : Expr) : List Record :=
  (Index.sortHits q.readTerms (s.matching e)).map (Index.project (q.projection.map Field.name))

def without (e : Expr) (s : Store) : Store :=
  { s with
    committed := s.committed.filter fun entry => !e.holds entry.2
    staged := [] }

theorem commit_stage_deleteMatches {s : Store} (hs : s.staged = []) (e : Expr) :
    (s.stage [.deleteMatches e]).commit = s.without e := by
  simp only [commit, stage, hs, without, apply, List.nil_append, List.foldl_cons, List.foldl_nil]

theorem without_matching (s : Store) (e : Expr) : (s.without e).matching e = [] := by
  simp only [matching, without, Dictionary.values, List.filter_eq_nil_iff, List.mem_map]
  rintro record ⟨entry, hm, rfl⟩
  simpa using (List.mem_filter.1 hm).2

theorem length_without (s : Store) (e : Expr) :
    s.committed.length = (s.without e).committed.length + (s.matching e).length := by
  have hsplit := List.length_eq_length_filter_add (l := s.committed) fun entry => e.holds entry.2
  have hm : (s.matching e).length = (s.committed.filter fun entry => e.holds entry.2).length := by
    rw [matching, Dictionary.values, List.filter_map, List.length_map]
    rfl
  rw [hm, Nat.add_comm]
  exact hsplit

theorem without_eq_self {s : Store} {e : Expr} (hs : s.staged = []) (h : s.matching e = []) :
    s.without e = s := by
  have hc : (s.committed.filter fun entry => !e.holds entry.2) = s.committed := by
    refine List.filter_eq_self.2 fun entry hm => ?_
    have hn := List.filter_eq_nil_iff.1 h entry.2 (List.mem_map_of_mem hm)
    simpa using hn
  unfold without
  rw [hc, ← hs]

/-- The store evaluates a query, which is read as the expression. -/
structure Reads (s : Store) (q : Query) (e : Expr) : Prop where
  scripted : s.scripted = []
  filters : q.filters = []
  text : Expr.ofText q.toText = .ok e

theorem Reads.logged {s : Store} {q : Query} {e : Expr} (h : s.Reads q e)
    (requests : List Request) : (s.logged requests).Reads q e :=
  ⟨h.scripted, h.filters, h.text⟩

/-- The store evaluates a query and its filters, which are read as the expressions. -/
structure Evaluates (s : Store) (q : Query) (e : Expr) (filters : List Expr) : Prop where
  scripted : s.scripted = []
  text : Expr.ofText q.toText = .ok e
  filters : ((q.filters.map Query.toText).filter (· ≠ "")).mapM Expr.ofText = .ok filters

theorem Evaluates.withWindow {s : Store} {q : Query} {e : Expr} {filters : List Expr}
    (h : s.Evaluates q e filters) (w : Window) : s.Evaluates (q.withWindow w) e filters :=
  ⟨h.scripted, h.text, h.filters⟩

theorem Reads.evaluates {s : Store} {q : Query} {e : Expr} (h : s.Reads q e) :
    s.Evaluates q e [] := by
  refine ⟨h.scripted, h.text, ?_⟩
  rw [h.filters]
  rfl

theorem Reads.withWindow {s : Store} {q : Query} {e : Expr} (h : s.Reads q e) (w : Window) :
    s.Reads (q.withWindow w) e :=
  ⟨h.scripted, h.filters, h.text⟩

end Store

open Store (Evaluates Reads)

variable {s s' : Store} {q : Query} {e : Expr} {filters : List Expr}

theorem Index.Expr.ofText_empty : ∃ cause, Expr.ofText "" = .error cause := by
  simp [Expr.ofText, Index.Reading.anyOf, Index.Reading.allOf, Index.Reading.signed,
    Index.Reading.primary, Index.Reading.fieldExpr, Text.trimStart, Text.span]

theorem Index.project_nil : Index.project [] = id :=
  funext fun _ => if_pos (.inl rfl)

theorem Query.request_eq (h : Expr.ofText q.toText = .ok e) : q.request = .ok q.toRequest := by
  refine if_neg fun he => ?_
  obtain ⟨cause, hc⟩ := Expr.ofText_empty
  rw [he, hc] at h
  cases h

namespace Session

variable {α β : Type}

theorem bind_of_ok {x : Session α} {a : α} (h : x s = .ok a s') (f : α → Session β) :
    (x >>= f) s = f a s' := by
  simp only [bind, EStateM.bind, h]

theorem bind_of_error {x : Session α} {cause : Error} (h : x s = .error cause s')
    (f : α → Session β) : (x >>= f) s = .error cause s' := by
  simp only [bind, EStateM.bind, h]

theorem exists_of_bind_ok {x : Session α} {f : α → Session β} {b : β}
    (h : (x >>= f) s = .ok b s') : ∃ a t, x s = .ok a t ∧ f a t = .ok b s' := by
  simp only [bind, EStateM.bind] at h
  cases hx : x s with
  | error cause t =>
    rw [hx] at h
    cases h
  | ok a t =>
    rw [hx] at h
    exact ⟨a, t, rfl, h⟩

theorem map_of_ok {x : Session α} {a : α} (h : x s = .ok a s') (f : α → β) :
    (f <$> x) s = .ok (f a) s' := by
  simp only [Functor.map, EStateM.map, h]

theorem ofExcept_of_ok {x : Except Error α} {a : α} (h : x = .ok a) (s : Store) :
    ofExcept x s = .ok a s := by
  rw [h]
  rfl

theorem of_ofExcept_ok {x : Except Error α} {a : α} (h : ofExcept x s = .ok a s') :
    x = .ok a := by
  cases x with
  | error cause => cases h
  | ok b =>
    cases h
    rfl

theorem execute_eq (request : Request) (hs : s.scripted = [])
    (hf : request.filters.mapM Expr.ofText = .ok filters)
    (he : Expr.ofText request.query = .ok e) :
    execute request s = .ok (respond s.committed request e filters) (s.logged [request]) := by
  simp only [execute, onStore, Store.query, hs, Index.answer, he, hf, bind, Except.bind, pure,
    Except.pure, Except.mapError, Store.logged]

theorem respond_total (request : Request) :
    (respond s.committed request e filters).total = (hits s.committed e filters).length :=
  (Index.sortHits_perm _ _).length_eq

/-- A query that is evaluated has its answer, for all that is changed in its request besides the
query and the filters. -/
theorem execute_request_eq (h : s.Evaluates q e filters) {change : Request → Request}
    (hquery : (change q.toRequest).query = q.toText)
    (hfilters : (change q.toRequest).filters = q.toRequest.filters)
    (k : Request → Response → Session α) :
    (ofExcept q.request >>= fun request => execute (change request) >>= k request) s =
      k q.toRequest (respond s.committed (change q.toRequest) e filters)
        (s.logged [change q.toRequest]) := by
  have hexec := execute_eq (change q.toRequest) h.scripted (by rw [hfilters]; exact h.filters)
    (by rw [hquery]; exact h.text)
  rw [bind_of_ok (ofExcept_of_ok (Query.request_eq h.text) s), bind_of_ok hexec]

theorem count_of_evaluates (h : s.Evaluates q e filters) :
    ∃ request, count q s = .ok (hits s.committed e filters).length (s.logged [request]) := by
  have hcount := @execute_request_eq s q e filters Nat h
    (fun request => { request with rows := some 0, start := none, sort := [] }) rfl rfl
    fun _ response => pure response.total
  rw [respond_total] at hcount
  exact ⟨_, hcount⟩

theorem count_eq (h : s.Reads q e) :
    ∃ request, count q s = .ok (s.matching e).length (s.logged [request]) := by
  rw [← Store.hits_nil]
  exact count_of_evaluates h.evaluates

theorem execute_eq_error {request : Request} (hs : s.scripted = [])
    {cause : Index.ReadError} (he : Expr.ofText request.query = .error cause) :
    execute request s = .error (.refused (.unreadable cause)) (s.logged [request]) := by
  simp only [execute, onStore, Store.query, hs, Index.answer, he, bind, Except.bind,
    Except.mapError, Store.logged]

theorem execute_request_eq_error (hs : s.scripted = []) {cause : Index.ReadError}
    (he : Expr.ofText q.toText = .error cause) {change : Request → Request}
    (hquery : (change q.toRequest).query = q.toText) (k : Request → Response → Session α) :
    ∃ failure requests,
      (ofExcept q.request >>= fun request => execute (change request) >>= k request) s =
        .error failure (s.logged requests) := by
  by_cases hq : q.toText = ""
  · have hr : q.request = .error .noPredicate := if_pos hq
    refine ⟨.noPredicate, [], ?_⟩
    have hlog : s.logged [] = s := by
      simp [Store.logged]
    rw [hr, hlog]
    rfl
  · have hr : q.request = .ok q.toRequest := if_neg hq
    refine ⟨.refused (.unreadable cause), [change q.toRequest], ?_⟩
    rw [bind_of_ok (ofExcept_of_ok hr s)]
    exact bind_of_error (execute_eq_error hs (by rw [hquery, he])) _

theorem count_eq_error (hs : s.scripted = []) {cause : Index.ReadError}
    (he : Expr.ofText q.toText = .error cause) :
    ∃ failure requests, count q s = .error failure (s.logged requests) :=
  @execute_request_eq_error s q Nat hs cause he
    (fun request => { request with rows := some 0, start := none, sort := [] }) rfl
    fun _ response => pure response.total

theorem documents_eq {type : DocumentType} {entity : Entity} {records : List Record}
    {docs : List Json} (he : type.entity = .ok entity)
    (h : List.Forall₂ (fun record doc => type.read entity record = .ok doc) records docs) :
    documents type records s = .ok docs s := by
  rw [documents, bind_of_ok (ofExcept_of_ok he s), mapM_eq_ok_iff.2 h]
  rfl

theorem of_documents_ok {type : DocumentType} {records : List Record} {docs : List Json}
    (h : documents type records s = .ok docs s') :
    List.Forall₂ (fun record doc => type.document record = .ok doc) records docs := by
  obtain ⟨entity, t, hentity, hread⟩ := exists_of_bind_ok h
  rw [DocumentType.document_eq (of_ofExcept_ok hentity)]
  exact mapM_eq_ok_iff.1 (of_ofExcept_ok hread)

theorem findPage_eq_documents {w : Window} (h : s.Evaluates q e filters) (hw : q.window = some w)
    (type : DocumentType) :
    ∃ request, findPage type q s =
      (documents type ((((Index.sortHits q.readTerms (hits s.committed e filters)).drop
          w.offset).take w.size).map (Index.project (q.projection.map Field.name))) >>= fun docs =>
        pure ⟨docs, some w, (hits s.committed e filters).length⟩) (s.logged [request]) := by
  have hfind := @execute_request_eq s q e filters (Page Json) h id rfl rfl fun _ response => do
    pure ⟨← documents type response.records, q.window, response.total⟩
  have hrecords : (respond s.committed q.toRequest e filters).records =
      (((Index.sortHits q.readTerms (hits s.committed e filters)).drop w.offset).take
        w.size).map (Index.project (q.projection.map Field.name)) := by
    simp only [respond, Query.toRequest, hw, Option.map_some, Option.getD_some, Query.readTerms]
  refine ⟨q.toRequest, hfind.trans ?_⟩
  rw [id_eq, hrecords, respond_total, hw]

theorem findPage_of_evaluates {type : DocumentType} {entity : Entity} {docs : List Json}
    {w : Window} (h : s.Evaluates q e filters) (hw : q.window = some w)
    (he : type.entity = .ok entity)
    (hd : List.Forall₂ (fun record doc => type.read entity record = .ok doc)
      ((((Index.sortHits q.readTerms (hits s.committed e filters)).drop w.offset).take w.size).map
        (Index.project (q.projection.map Field.name))) docs) :
    ∃ request, findPage type q s =
      .ok ⟨docs, some w, (hits s.committed e filters).length⟩ (s.logged [request]) := by
  obtain ⟨request, hpage⟩ := findPage_eq_documents h hw type
  exact ⟨request, hpage.trans (bind_of_ok (documents_eq he hd) _)⟩

theorem exists_entity {type : DocumentType} {records : List Record} {docs : List Json}
    (hne : records ≠ [])
    (h : List.Forall₂ (fun record doc => type.document record = .ok doc) records docs) :
    ∃ entity, type.entity = .ok entity ∧
      List.Forall₂ (fun record doc => type.read entity record = .ok doc) records docs := by
  cases he : type.entity with
  | error cause =>
    cases h with
    | nil => exact absurd rfl hne
    | cons hd _ => simp [DocumentType.document, he, bind, Except.bind] at hd
  | ok entity =>
    rw [DocumentType.document_eq he] at h
    exact ⟨entity, rfl, h⟩

theorem findPage_eq_shown {w : Window} (h : s.Reads q e) (hw : q.window = some w)
    (ho : w.offset = 0) (hn : w.size = (s.matching e).length) (type : DocumentType) :
    ∃ request, findPage type q s =
      (documents type (s.shown q e) >>= fun docs => pure ⟨docs, some w, w.size⟩)
        (s.logged [request]) := by
  have hlen : (Index.sortHits q.readTerms (s.matching e)).length = w.size := by
    rw [hn, (Index.sortHits_perm _ _).length_eq]
  have hpage : (((Index.sortHits q.readTerms (hits s.committed e [])).drop w.offset).take
      w.size).map (Index.project (q.projection.map Field.name)) = s.shown q e := by
    rw [ho, List.drop_zero, Store.hits_nil, List.take_of_length_le (Nat.le_of_eq hlen),
      Store.shown]
  obtain ⟨request, hfind⟩ := findPage_eq_documents h.evaluates hw type
  rw [hpage, Store.hits_nil, ← hn] at hfind
  exact ⟨request, hfind⟩

theorem deleteMatches_eq (h : Expr.ofText q.toText = .ok e) (s : Store) :
    deleteMatches q s = .ok () (s.stage [.deleteMatches e]) := by
  rw [deleteMatches, bind_of_ok (ofExcept_of_ok (Query.request_eq h) s)]
  simp only [onStore, Store.deleteMatches, Query.toRequest, h]

end Session

end SearchMapper
