import SearchMapper.Proofs.Repository.Limits

namespace SearchMapper

open Index (Consistent Expr IsSorted)

def Outcome.documents : Outcome → List Json
  | one document => document.toList
  | list documents => documents
  | page p => p.content
  | facets p => p.page.content
  | _ => []

theorem FacetPage.page_foldl_addCounts {α : Type} (counts : Field → List (String × Nat))
    (fields : List Field) (p : FacetPage α) :
    (fields.foldl (fun p field => p.addCounts field (counts field)) p).page = p.page := by
  induction fields generalizing p with
  | nil => rfl
  | cons field fields ih =>
    rw [List.foldl_cons, ih]
    rfl

/-- The records that stand behind an offset in the sorted result, at most so many of them. -/
def Store.rows (s : Store) (q : Query) (e : Expr) (offset size : Nat) : List Record :=
  (((Index.sortHits q.readTerms (s.matching e)).drop offset).take size).map
    (Index.project (q.projection.map Field.name))

theorem Store.length_rows (s : Store) (q : Query) (e : Expr) (offset size : Nat) :
    (s.rows q e offset size).length = min size ((s.matching e).length - offset) := by
  rw [rows, List.length_map, List.length_take, List.length_drop,
    (Index.sortHits_perm _ _).length_eq]

theorem Store.length_rows_le (s : Store) (q : Query) (e : Expr) (offset size : Nat) :
    (s.rows q e offset size).length ≤ size := by
  rw [length_rows]
  exact Nat.min_le_left _ _

/-- A kind of result that holds documents: what it changes in the request, which of the records it
reads, and what it makes of their documents. -/
structure Finding where
  change : Request → Request
  taken : List Record → List Record
  outcome : Response → List Json → Outcome

namespace Finding

open Repository (ResultKind)

def withFacets (facets : Option FacetOptions) (request : Request) : Request :=
  match facets with
  | some options =>
    if options.fields = [] then request
    else { request with
      facet := some ⟨options.fields.map Field.name, options.limit, options.minCount⟩ }
  | none => request

def one : Finding where
  change request := { request with rows := some 1 }
  taken records := records.take 1
  outcome _ docs := .one docs.head?

def list : Finding where
  change := id
  taken := id
  outcome _ docs := .list docs

def page (w : Window) : Finding where
  change := id
  taken := id
  outcome response docs := .page ⟨docs, some w, response.total⟩

def facets (w : Window) (facets : Option FacetOptions) : Finding where
  change := withFacets facets
  taken := id
  outcome response docs :=
    .facets <| ((facets.map FacetOptions.fields).getD []).foldl
      (fun page field => page.addCounts field ((response.facets.find? field.name).getD []))
      { page := ⟨docs, some w, response.total⟩ }

def ofKind? (w : Window) (options : Option FacetOptions) : ResultKind → Option Finding
  | .one => some one
  | .list => some list
  | .page => some (page w)
  | .facet => some (facets w options)
  | _ => none

def run (d : Finding) (type : DocumentType) (q : Query) : Session Outcome := do
  let request ← Session.ofExcept q.request
  let response ← Session.execute (d.change request)
  let docs ← Session.documents type (d.taken response.records)
  pure (d.outcome response docs)

variable {d : Finding} {kind : ResultKind} {options : Option FacetOptions} {w : Window} {q : Query}
  {e : Expr} {s s' : Store} {r : Repository} {type : DocumentType}

theorem ofExcept_facetRequest {α : Type} (q : Query) (options : Option FacetOptions)
    (k : Request → Session α) :
    (Session.ofExcept (q.facetRequest options) >>= k) =
      (Session.ofExcept q.request >>= fun request => k (withFacets options request)) := by
  have hrequest : q.facetRequest options = q.request.map (withFacets options) := by
    unfold Query.facetRequest withFacets
    cases q.request with
    | error cause => rfl
    | ok request =>
      cases options with
      | none => rfl
      | some options =>
        simp only [bind, Except.bind, Except.map]
        split <;> rfl
  rw [hrequest]
  cases q.request <;> rfl

theorem run_eq (hd : ofKind? w options kind = some d) (hw : q.window = some w) :
    r.run kind options q = d.run r.type q := by
  cases kind with
  | one =>
    cases hd
    simp only [Repository.run, Session.findOne, run, one, map_eq_pure_bind, bind_assoc, pure_bind]
  | list =>
    cases hd
    simp only [Repository.run, hw, Session.findPage, run, list, bind_assoc, pure_bind, id_eq]
  | page =>
    cases hd
    simp only [Repository.run, Repository.withDefaultWindow, hw, Session.findPage, run, page,
      map_eq_pure_bind, bind_assoc, pure_bind, id_eq]
  | facet =>
    cases hd
    simp only [Repository.run, Repository.withDefaultWindow, hw, Session.findFacetPage, run, facets,
      ofExcept_facetRequest, map_eq_pure_bind, bind_assoc, pure_bind, id_eq]
  | count | existence | deletion => cases hd

/-- The most documents that a kind of result holds of a window. -/
def size (w : Window) (kind : ResultKind) : Nat :=
  if kind = .one then 1 else w.size

theorem change_eq (hd : ofKind? w options kind = some d) (request : Request) :
    ∃ facet, d.change request =
      { request with rows := if kind = .one then some 1 else request.rows, facet := facet } := by
  cases kind with
  | one | list | page =>
    cases hd
    exact ⟨_, rfl⟩
  | facet =>
    cases hd
    simp only [facets, withFacets]
    split
    · split <;> exact ⟨_, rfl⟩
    · exact ⟨_, rfl⟩
  | count | existence | deletion => cases hd

theorem taken_eq (hd : ofKind? w options kind = some d) {records : List Record}
    (h : records.length ≤ size w kind) : d.taken records = records := by
  cases kind with
  | one =>
    cases hd
    exact List.take_of_length_le h
  | list | page | facet =>
    cases hd
    rfl
  | count | existence | deletion => cases hd

theorem documents_outcome (hd : ofKind? w options kind = some d) (response : Response)
    {docs : List Json} (h : docs.length ≤ size w kind) :
    (d.outcome response docs).documents = docs ∧ (d.outcome response docs).kind = kind := by
  cases kind with
  | one =>
    cases hd
    match docs, h with
    | [], _ => exact ⟨rfl, rfl⟩
    | [doc], _ => exact ⟨rfl, rfl⟩
  | list | page =>
    cases hd
    exact ⟨rfl, rfl⟩
  | facet =>
    cases hd
    refine ⟨?_, rfl⟩
    simp only [facets, Outcome.documents, FacetPage.page_foldl_addCounts]
  | count | existence | deletion => cases hd

theorem run_of_reads (hd : ofKind? w options kind = some d) (hw : q.window = some w)
    (h : s.Reads q e) (type : DocumentType) :
    ∃ request response, d.run type q s =
      (Session.documents type (s.rows q e w.offset (size w kind)) >>= fun docs =>
        pure (d.outcome response docs)) (s.logged [request]) := by
  obtain ⟨facet, hchange⟩ := change_eq hd q.toRequest
  have hquery : (d.change q.toRequest).query = q.toText := by
    rw [hchange]
    rfl
  have hrun := @Session.execute_request_eq s q e [] Outcome h.evaluates d.change hquery
    (by rw [hchange]) fun _ response => do
      pure (d.outcome response (← Session.documents type (d.taken response.records)))
  have hrecords : (Index.respond s.committed (d.change q.toRequest) e []).records =
      s.rows q e w.offset (size w kind) := by
    have hsize : (if kind = .one then some 1 else some w.size).getD Index.defaultRows =
        size w kind := by
      rw [size]
      split <;> rfl
    rw [hchange]
    simp only [Index.respond, Store.rows, Store.hits_nil, Query.toRequest, hw, Option.map_some,
      Option.getD_some, hsize, Query.readTerms]
  rw [hrecords, taken_eq hd (s.length_rows_le q e _ _)] at hrun
  exact ⟨_, _, hrun⟩

theorem run_ok (hd : ofKind? w options kind = some d) (hw : q.window = some w)
    (h : s.Reads q e) {outcome : Outcome} (hrun : d.run type q s = .ok outcome s') :
    outcome.kind = kind ∧
      List.Forall₂ (fun record doc => type.document record = .ok doc)
        (s.rows q e w.offset (size w kind)) outcome.documents := by
  obtain ⟨request, response, hreads⟩ := run_of_reads hd hw h type
  obtain ⟨docs, t, hdocs, houtcome⟩ := Session.exists_of_bind_ok (hreads.symm.trans hrun)
  cases houtcome
  have hread := Session.of_documents_ok hdocs
  have hlength : docs.length ≤ size w kind := by
    rw [← hread.length_eq]
    exact s.length_rows_le q e _ _
  obtain ⟨hdocuments, hkind⟩ := documents_outcome hd response hlength
  exact ⟨hkind, hdocuments.symm ▸ hread⟩

theorem exists_run_ok (hd : ofKind? w options kind = some d) (hw : q.window = some w)
    (h : s.Reads q e) {entity : Entity} (hentity : type.entity = .ok entity)
    (hread : ∀ record ∈ s.matching e,
      ∃ doc, type.read entity (Index.project (q.projection.map Field.name) record) = .ok doc)
    (hconsistent : Consistent q.readTerms (s.matching e)) :
    ∃ outcome s' ordered, d.run type q s = .ok outcome s' ∧
      IsSorted q.readTerms (s.matching e) ordered ∧
      List.Forall₂ (fun record doc =>
        type.read entity (Index.project (q.projection.map Field.name) record) = .ok doc)
        ((ordered.drop w.offset).take (size w kind)) outcome.documents := by
  have hrows : ∀ record ∈ s.rows q e w.offset (size w kind),
      ∃ doc, type.read entity record = .ok doc := by
    intro record hm
    obtain ⟨hit, hhit, rfl⟩ := List.mem_map.1 hm
    have hmem := List.mem_of_mem_drop (List.mem_of_mem_take hhit)
    exact hread hit ((Index.sortHits_perm _ _).mem_iff.1 hmem)
  obtain ⟨docs, hdocs⟩ := Repository.exists_documents hrows
  obtain ⟨request, response, hreads⟩ := run_of_reads hd hw h type
  have hrun := hreads.trans (Session.bind_of_ok (Session.documents_eq hentity hdocs) _)
  obtain ⟨-, hshown⟩ := run_ok hd hw h hrun
  rw [DocumentType.document_eq hentity] at hshown
  exact ⟨_, _, _, hrun, Index.sortHits_isSorted hconsistent, List.forall₂_map_left_iff.1 hshown⟩

theorem run_eq_error (hd : ofKind? w options kind = some d) (hs : s.scripted = [])
    {cause : Index.ReadError} (he : Expr.ofText q.toText = .error cause) (type : DocumentType) :
    ∃ failure requests, d.run type q s = .error failure (s.logged requests) := by
  obtain ⟨facet, hchange⟩ := change_eq hd q.toRequest
  have hquery : (d.change q.toRequest).query = q.toText := by
    rw [hchange]
    rfl
  exact Session.execute_request_eq_error hs he hquery _

end Finding

namespace Repository

variable {r : Repository} {s : Store} {q : Query} {i : Method.Invocation} {method : Method}
  {finder : Finder} {kind : ResultKind} {limit : Nat}

theorem window_arranged (i : Method.Invocation) (q : Query) :
    (arranged i q).window = i.window.or q.window := by
  obtain ⟨args, window, sort⟩ := i
  cases window <;> cases sort <;> rfl

theorem projection_arranged (i : Method.Invocation) (q : Query) :
    (arranged i q).projection = q.projection := by
  obtain ⟨args, window, sort⟩ := i
  cases window <;> cases sort <;> rfl

theorem length_le_limit_iff {w : Window} {n matched : Nat} (hlimit : 0 < limit)
    (hn : n = min (Finding.size w kind) (matched - w.offset)) :
    n ≤ limit ↔ kind = .one ∨ w.size ≤ limit ∨ matched ≤ w.offset + limit := by
  unfold Finding.size at hn
  split at hn
  · next hone => simp [hone]; omega
  · next hone => simp [hone]; omega

theorem exists_limited_window {m : MethodName} {entity : Entity} {args : List Value}
    (hmethod : Finder.ofMethodName m entity = .ok finder) (hlimit : m.limit = some limit)
    (hargs : finder.query args = .ok q) :
    ∃ w : Window, q.window = some w ∧ (w.offset, w.size) = (0, limit) ∧ q.filters = [] ∧
      q.projection = [] := by
  obtain ⟨c, window, -, hmade, -, rfl⟩ := Finder.query_eq_ok hargs
  have hpositions := Finder.map_windowOf hmade
  rw [(Finder.ofMethodName_eq hmethod).2, hlimit] at hpositions
  obtain ⟨w, rfl, hw⟩ := Option.map_eq_some_iff.1 hpositions
  exact ⟨w, rfl, hw, rfl, rfl⟩

theorem exists_finding (hkind : kind ∈ [ResultKind.one, .list, .page, .facet]) (w : Window)
    (options : Option FacetOptions) : ∃ d, Finding.ofKind? w options kind = some d := by
  simp only [List.mem_cons, List.not_mem_nil, or_false] at hkind
  rcases hkind with rfl | rfl | rfl | rfl <;> exact ⟨_, rfl⟩

/-- The limit of a find is the window of its query, which the window of a call replaces. The result
keeps within the limit if it is a single document, or if the call has no window of its own, or one
that has no room for more or finds no more. A sort is sure to end only where it compares the matches
consistently. -/
theorem invoke_limited_find {catalog : Catalog} {d : Method.Declaration} {m : MethodName}
    (hfound : r.methods.find? d.name = some method)
    (hresolved : Method.resolve r.entity catalog d = .ok method)
    (hstrategy : method.strategy = .derived finder) (hresult : method.result = some kind)
    (hkind : kind ∈ [ResultKind.one, .list, .page, .facet])
    (hname : MethodName.ofText d.name = .ok m) (hlimit : m.limit = some limit)
    (hargs : finder.query i.args = .ok q) (hscripted : s.scripted = []) :
    ∃ limited : Window, q.window = some limited ∧ (limited.offset, limited.size) = (0, limit) ∧
      (∀ e, Expr.ofText q.toText = .ok e →
        (∀ outcome s', r.invoke d.name i s = .ok outcome s' →
          outcome.kind = kind ∧
          outcome.documents.length = min (Finding.size (i.window.getD limited) kind)
            ((s.matching e).length - (i.window.getD limited).offset) ∧
          (outcome.documents.length ≤ limit ↔ kind = .one ∨ (i.window.getD limited).size ≤ limit ∨
            (s.matching e).length ≤ (i.window.getD limited).offset + limit)) ∧
        ∀ entity, r.type.entity = .ok entity →
          (∀ record ∈ s.matching e, ∃ doc, r.type.read entity record = .ok doc) →
          Consistent (arranged i q).readTerms (s.matching e) →
          ∃ outcome s' ordered, r.invoke d.name i s = .ok outcome s' ∧
            IsSorted (arranged i q).readTerms (s.matching e) ordered ∧
            List.Forall₂ (fun record doc => r.type.read entity record = .ok doc)
              ((ordered.drop (i.window.getD limited).offset).take
                (Finding.size (i.window.getD limited) kind)) outcome.documents) ∧
      ∀ cause, Expr.ofText q.toText = .error cause →
        ∃ failure requests, r.invoke d.name i s = .error failure (s.logged requests) := by
  have hmethod := ofMethodName_of_resolve hresolved hstrategy hname
  obtain ⟨limited, hwindow, hlimited, hfilters, hprojection⟩ :=
    exists_limited_window hmethod hlimit hargs
  have hpos : 0 < limit := by
    rw [← (Prod.mk.inj hlimited).2]
    exact limited.size_pos
  -- Some window is always there, so that a list is never read as a whole.
  have harranged : (arranged i q).window = some (i.window.getD limited) := by
    rw [window_arranged, hwindow]
    cases i.window <;> rfl
  obtain ⟨finding, hfinding⟩ := exists_finding hkind (i.window.getD limited) method.facets
  have hinvoke : r.invoke d.name i s = finding.run r.type (arranged i q) s := by
    rw [invoke_eq_run hfound hstrategy hresult hargs s, Finding.run_eq hfinding harranged]
  refine ⟨limited, hwindow, hlimited, fun e he => ?_, fun cause he => ?_⟩
  · have hreads : s.Reads (arranged i q) e :=
      ⟨hscripted, (filters_arranged i q).trans hfilters, by rw [toText_arranged]; exact he⟩
    have hproject (record : Record) :
        Index.project ((arranged i q).projection.map Field.name) record = record := by
      rw [projection_arranged, hprojection]
      rfl
    refine ⟨fun outcome s' hok => ?_, fun entity hentity hread hconsistent => ?_⟩
    · obtain ⟨houtcome, hdocs⟩ := Finding.run_ok hfinding harranged hreads (hinvoke ▸ hok)
      have hlength := hdocs.length_eq.symm.trans (Store.length_rows _ _ _ _ _)
      exact ⟨houtcome, hlength, length_le_limit_iff hpos hlength⟩
    · rw [hinvoke]
      have hfound := Finding.exists_run_ok hfinding harranged hreads hentity
      simp only [hproject] at hfound
      exact hfound hread hconsistent
  · rw [← toText_arranged i] at he
    rw [hinvoke]
    exact Finding.run_eq_error hfinding hscripted he r.type

section Books

def firstTitle : MethodName :=
  ⟨"findFirstByTitle", .find, false, some 1, [[⟨"Title", "Title", .simpleProperty⟩]], []⟩

def findFirstByTitle : Finder :=
  ⟨"findFirstByTitle", .find, [[⟨bookTitle, .simpleProperty⟩]], [], some 1⟩

def listing : Method.Declaration :=
  { name := "findFirstByTitle", result := some .list }

def listingBooks : Repository :=
  { books with methods := [("findFirstByTitle", ⟨.derived findFirstByTitle, some .list, none⟩)] }

theorem ofText_firstTitle : MethodName.ofText listing.name = .ok firstTitle := by
  cbv

theorem ofMethodName_firstTitle :
    Finder.ofMethodName firstTitle bookEntity = .ok findFirstByTitle := by
  cbv

theorem resolve_listing :
    Method.resolve bookEntity [] listing = .ok ⟨.derived findFirstByTitle, some .list, none⟩ :=
  resolve_of_ofMethodName rfl rfl ofText_firstTitle ofMethodName_firstTitle

theorem build_listingBooks :
    Builder.build books.type {} none { declared := [listing] } = .ok listingBooks :=
  build_of_resolve resolve_listing

theorem matching_emma : shelved.matching emma.toExpr = [book "1" "a", book "2" "b"] := by
  rfl

theorem read_book (id mark : String) :
    books.type.read bookEntity (book id mark) = .ok (edition id) := by
  rfl

theorem invoke_limited_find_single :
    ∃ outcome s', listingBooks.invoke "findFirstByTitle" { args := [.text "Emma"] } shelved =
      .ok outcome s' ∧ outcome.kind = .list ∧ outcome.documents = [edition "1"] := by
  obtain ⟨limited, hwindow, -, hfind, -⟩ := invoke_limited_find (r := listingBooks)
    (d := listing) (i := { args := [.text "Emma"] }) (s := shelved) rfl resolve_listing rfl rfl
    (by decide) ofText_firstTitle rfl rfl rfl
  obtain ⟨hresult, hsucceeds⟩ := hfind emma.toExpr ofText_emma
  have hread : ∀ record ∈ shelved.matching emma.toExpr,
      ∃ doc, listingBooks.type.read bookEntity record = .ok doc := by
    intro record hm
    simp only [matching_emma, List.mem_cons, List.not_mem_nil, or_false] at hm
    rcases hm with rfl | rfl <;> exact ⟨_, read_book _ _⟩
  obtain ⟨outcome, s', ordered, hinvoke, hsorted, hdocs⟩ :=
    hsucceeds bookEntity rfl hread (Index.consistent_nil _)
  obtain ⟨hkind, -⟩ := hresult outcome s' hinvoke
  have hordered : ordered = [book "1" "a", book "2" "b"] :=
    hsorted.unique (Index.consistent_nil _) (Index.sortHits_isSorted (Index.consistent_nil _))
  cases hwindow
  rw [hordered] at hdocs
  refine ⟨outcome, s', hinvoke, hkind, ?_⟩
  exact eq_of_forall₂_ok hdocs (.cons (read_book "1" "a") .nil)

def firstEmma : Query :=
  (Query.ofCriteria emma).withWindow ⟨0, 1, by decide⟩

def emmas : Method.Invocation :=
  { args := [.text "Emma"], window := some ⟨0, 2, by decide⟩ }

/-- Both books are listed, though the name speaks of the first. -/
theorem findFirstByTitle_lists_both :
    Builder.build books.type {} none { declared := [listing] } = .ok listingBooks ∧
      MethodName.ofText listing.name = .ok firstTitle ∧ firstTitle.subject = .find ∧
      firstTitle.limit = some 1 ∧ shelved.scripted = [] ∧
      ∃ s', listingBooks.invoke "findFirstByTitle" emmas shelved =
        .ok (.list [edition "1", edition "2"]) s' := by
  refine ⟨build_listingBooks, ofText_firstTitle, rfl, rfl, rfl, ?_⟩
  have hfound : listingBooks.methods.find? "findFirstByTitle" =
      some ⟨.derived findFirstByTitle, some .list, none⟩ := rfl
  have hquery : findFirstByTitle.query emmas.args = .ok firstEmma := rfl
  have hreads : shelved.Reads (arranged emmas firstEmma) emma.toExpr := ⟨rfl, rfl, ofText_emma⟩
  have hfinding : Finding.ofKind? ⟨0, 2, by decide⟩ none .list = some .list := rfl
  have hlist : listingBooks.run .list none (arranged emmas firstEmma) =
      Finding.list.run books.type (arranged emmas firstEmma) := Finding.run_eq hfinding rfl
  obtain ⟨request, response, hrun⟩ := Finding.run_of_reads hfinding rfl hreads books.type
  have hdocs : Session.documents books.type [book "1" "a", book "2" "b"]
      (shelved.logged [request]) = .ok [edition "1", edition "2"] (shelved.logged [request]) :=
    @Session.documents_eq _ books.type bookEntity _ _ rfl
      (.cons (read_book "1" "a") (.cons (read_book "2" "b") .nil))
  refine ⟨shelved.logged [request], ?_⟩
  rw [invoke_eq_run hfound rfl rfl hquery, hlist]
  exact hrun.trans (Session.bind_of_ok hdocs _)

end Books

end Repository

end SearchMapper
