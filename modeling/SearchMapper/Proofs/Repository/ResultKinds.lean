import SearchMapper.Proofs.MethodName.Queries
import SearchMapper.Proofs.Query.Agreement
import SearchMapper.Proofs.Repository.Sessions

namespace SearchMapper.Repository

open Index (Consistent Expr IsSorted)
open Session (bind_of_error bind_of_ok map_of_ok ofExcept_of_ok)
open Store (Reads)

variable {r : Repository} {s : Store} {q : Query} {e : Expr}

theorem findMatching_of_nil (h : s.Reads q e) (hnil : s.matching e = []) :
    ∃ requests, r.findMatching q s = .ok [] (s.logged requests) := by
  obtain ⟨counted, hcount⟩ := Session.count_eq h
  refine ⟨[counted], ?_⟩
  rw [findMatching, bind_of_ok hcount, if_pos (List.length_eq_zero_iff.2 hnil)]
  rfl

theorem findMatching_of_ne_nil (h : s.Reads q e) (hne : s.matching e ≠ [])
    (hn : (s.matching e).length ≤ maxRows) :
    ∃ requests, r.findMatching q s =
      Session.documents r.type (s.shown q e) (s.logged requests) := by
  obtain ⟨counted, hcount⟩ := Session.count_eq h
  have hz : (s.matching e).length ≠ 0 := List.length_eq_zero_iff.not.2 hne
  have hpos : 0 < min (s.matching e).length maxRows := by
    rw [Nat.min_eq_left hn]
    exact Nat.pos_of_ne_zero hz
  have hwindow : Window.ofOffset 0 (min (s.matching e).length maxRows) =
      .ok ⟨0, min (s.matching e).length maxRows, hpos⟩ := dif_pos hpos
  obtain ⟨paged, hpage⟩ := Session.findPage_eq_shown
    ((h.logged [counted]).withWindow ⟨0, min (s.matching e).length maxRows, hpos⟩) rfl rfl
    (Nat.min_eq_left hn) r.type
  refine ⟨[counted] ++ [paged], ?_⟩
  rw [findMatching, bind_of_ok hcount, if_neg hz, bind_of_ok (ofExcept_of_ok hwindow _),
    ← Store.logged_logged]
  cases hdocs : Session.documents r.type (s.shown q e) ((s.logged [counted]).logged [paged]) with
  | ok docs t => exact bind_of_ok (hpage.trans (bind_of_ok hdocs _)) _
  | error cause t => exact bind_of_error (hpage.trans (bind_of_error hdocs _)) _

theorem findMatching_eq (h : s.Reads q e) (hn : (s.matching e).length ≤ maxRows)
    {docs : List Json}
    (hd : List.Forall₂ (fun record doc => r.type.document record = .ok doc) (s.shown q e) docs) :
    ∃ requests, r.findMatching q s = .ok docs (s.logged requests) := by
  by_cases hnil : s.matching e = []
  · have hshown : s.shown q e = [] := by
      simp only [Store.shown, hnil]
      rfl
    rw [hshown, List.forall₂_nil_left_iff] at hd
    rw [hd]
    exact findMatching_of_nil h hnil
  · have hne : s.shown q e ≠ [] := by
      intro hshown
      have hsorted := (List.map_eq_nil_iff.1 hshown).symm ▸ Index.sortHits_perm q.readTerms
        (s.matching e)
      exact hnil hsorted.nil_eq.symm
    obtain ⟨entity, hentity, hread⟩ := Session.exists_entity hne hd
    obtain ⟨requests, hfind⟩ := findMatching_of_ne_nil (r := r) h hnil hn
    exact ⟨requests, hfind.trans (Session.documents_eq hentity hread)⟩

theorem commitWrite_eq (hc : r.settings.commitOnWrite = true) (s : Store) :
    r.commitWrite s = .ok () s.commit := by
  rw [commitWrite, if_pos hc]
  rfl

theorem deleteMatching_eq (hc : r.settings.commitOnWrite = true) (hs : s.staged = [])
    (h : s.Reads q e) :
    ∃ request, r.deleteMatching q s =
      .ok (s.matching e).length ((s.logged [request]).without e) := by
  obtain ⟨request, hcount⟩ := Session.count_eq h
  refine ⟨request, ?_⟩
  rw [deleteMatching, bind_of_ok hcount]
  by_cases hz : 0 < (s.matching e).length
  · have hcommit : ((s.logged [request]).stage [.deleteMatches e]).commit =
        (s.logged [request]).without e :=
      Store.commit_stage_deleteMatches (s := s.logged [request]) hs e
    rw [if_pos hz, bind_of_ok (Session.deleteMatches_eq h.text _),
      bind_of_ok (commitWrite_eq hc _), hcommit]
    rfl
  · have hm : s.matching e = [] := List.length_eq_zero_iff.1 (by omega)
    have hself : (s.logged [request]).without e = s.logged [request] :=
      Store.without_eq_self hs hm
    rw [if_neg hz, hself]
    rfl

theorem run_count (h : s.Reads q e) (facets : Option FacetOptions) :
    ∃ request,
      r.run .count facets q s = .ok (.count (s.matching e).length) (s.logged [request]) := by
  obtain ⟨request, hcount⟩ := Session.count_eq h
  exact ⟨request, map_of_ok hcount _⟩

theorem run_existence (h : s.Reads q e) (facets : Option FacetOptions) :
    ∃ request, r.run .existence facets q s =
      .ok (.existence (0 < (s.matching e).length)) (s.logged [request]) := by
  obtain ⟨request, hcount⟩ := Session.count_eq h
  exact ⟨request, bind_of_ok hcount _⟩

theorem run_list (h : s.Reads q e) (hw : q.window = none)
    (hn : (s.matching e).length ≤ maxRows) {docs : List Json}
    (hd : List.Forall₂ (fun record doc => r.type.document record = .ok doc) (s.shown q e) docs)
    (facets : Option FacetOptions) :
    ∃ requests, r.run .list facets q s = .ok (.list docs) (s.logged requests) := by
  obtain ⟨requests, hfind⟩ := findMatching_eq h hn hd
  refine ⟨requests, ?_⟩
  rw [run, hw]
  exact map_of_ok hfind _

theorem run_deletion (hc : r.settings.commitOnWrite = true) (hs : s.staged = [])
    (h : s.Reads q e) (facets : Option FacetOptions) :
    ∃ request, r.run .deletion facets q s =
      .ok (.deletion (s.matching e).length) ((s.logged [request]).without e) := by
  obtain ⟨request, hdelete⟩ := deleteMatching_eq hc hs h
  exact ⟨request, map_of_ok hdelete _⟩

theorem exists_documents {f : Record → Except Error Json} {records : List Record}
    (h : ∀ record ∈ records, ∃ doc, f record = .ok doc) :
    ∃ docs, List.Forall₂ (fun record doc => f record = .ok doc) records docs := by
  induction records with
  | nil => exact ⟨[], .nil⟩
  | cons record records ih =>
    obtain ⟨doc, hd⟩ := h record List.mem_cons_self
    obtain ⟨docs, hds⟩ := ih fun other hm => h other (List.mem_cons_of_mem _ hm)
    exact ⟨doc :: docs, .cons hd hds⟩

/-- Counting, asking for existence, listing and deleting agree on the records that match. Where the
sort terms compare them consistently, the list is in their only order, which is that of the sort
keys if no blank cuts the name of one. -/
theorem run_kinds_agree (hc : r.settings.commitOnWrite = true) (hstaged : s.staged = [])
    (hscripted : s.scripted = []) (hfilters : q.filters = []) (hwindow : q.window = none)
    (he : Expr.ofText q.toText = .ok e) (hn : (s.matching e).length ≤ maxRows)
    (facets : Option FacetOptions) :
    (∃ request, r.run .count facets q s =
      .ok (.count (s.matching e).length) (s.logged [request])) ∧
    (∃ request, r.run .existence facets q s =
      .ok (.existence (0 < (s.matching e).length)) (s.logged [request])) ∧
    ((∀ record ∈ s.matching e, ∃ doc,
        r.type.document (Index.project (q.projection.map Field.name) record) = .ok doc) →
      Consistent q.readTerms (s.matching e) →
      ∃ ordered docs requests, IsSorted q.readTerms (s.matching e) ordered ∧
        (∀ other, IsSorted q.readTerms (s.matching e) other → other = ordered) ∧
        ((∀ key ∈ q.sort.getD [], Text.hasBlank key.field.name = false) →
          IsSorted q.sortTerms (s.matching e) ordered) ∧
        List.Forall₂ (fun record doc =>
          r.type.document (Index.project (q.projection.map Field.name) record) = .ok doc)
          ordered docs ∧
        r.run .list facets q s = .ok (.list docs) (s.logged requests)) ∧
    ∃ request, r.run .deletion facets q s =
        .ok (.deletion (s.matching e).length) ((s.logged [request]).without e) ∧
      ∃ request', r.run .count facets q ((s.logged [request]).without e) =
        .ok (.count 0) (((s.logged [request]).without e).logged [request']) := by
  have h : s.Reads q e := ⟨hscripted, hfilters, he⟩
  refine ⟨run_count h facets, run_existence h facets, fun hread hconsistent => ?_, ?_⟩
  · have hsorted := Index.sortHits_isSorted hconsistent
    obtain ⟨docs, hd⟩ := exists_documents fun record hm => hread record (hsorted.perm.mem_iff.1 hm)
    have hshown : List.Forall₂ (fun record doc => r.type.document record = .ok doc)
        (s.shown q e) docs := List.forall₂_map_left_iff.2 hd
    obtain ⟨requests, hrun⟩ := run_list h hwindow hn hshown facets
    refine ⟨_, docs, requests, hsorted, fun _ hother => hother.unique hconsistent hsorted,
      fun hblank => ?_, hd, hrun⟩
    rwa [Query.readTerms_eq hblank] at hsorted ⊢
  · obtain ⟨request, hdelete⟩ := run_deletion hc hstaged h facets
    have h' : ((s.logged [request]).without e).Reads q e := ⟨hscripted, hfilters, he⟩
    have hcount := run_count (r := r) h' facets
    rw [Store.without_matching] at hcount
    exact ⟨request, hdelete, hcount⟩

section Books

def books : Repository where
  type := ⟨"Book", [("Book", [{ name := "id" }, { name := "title" }])], .any⟩
  entity := bookEntity
  idField := bookId
  settings := {}
  methods := []

def book (id mark : String) : Record :=
  [("id", .text id), ("shelf mark", .text mark), ("title", .text "Emma")]

def shelved : Store where
  committed := [("1", book "1" "a"), ("2", book "2" "b")]

def allBooks : Criteria :=
  (Criteria.start bookId).push .isNotNull

theorem ofText_allBooks : Expr.ofText allBooks.toText = .ok allBooks.toExpr :=
  Plain.ofText_toText (by decide) rfl

def sorted (field : Field) : Query :=
  (Query.ofCriteria allBooks).addSort [⟨field, .desc⟩]

theorem matching_shelved :
    shelved.matching allBooks.toExpr = [book "1" "a", book "2" "b"] := rfl

def edition (id : String) : Json :=
  .object [("id", .text id), ("title", .text "Emma")]

theorem document_book (id mark : String) :
    books.type.document (book id mark) = .ok (edition id) := rfl

theorem document_of_matching_shelved :
    ∀ record ∈ shelved.matching allBooks.toExpr, ∃ doc, books.type.document record = .ok doc := by
  intro record h
  rw [matching_shelved] at h
  simp only [List.mem_cons, List.not_mem_nil, or_false] at h
  rcases h with rfl | rfl <;> exact ⟨_, document_book _ _⟩

theorem consistent_bookId :
    Consistent (sorted bookId).readTerms (shelved.matching allBooks.toExpr) := by
  decide

theorem documents_of_isSorted {ordered : List Record} {docs : List Json}
    (h : IsSorted (sorted bookId).readTerms (shelved.matching allBooks.toExpr) ordered)
    (hdocs : List.Forall₂ (fun record doc => books.type.document record = .ok doc) ordered docs) :
    docs = [edition "2", edition "1"] := by
  have hordered : ordered = [book "2" "b", book "1" "a"] :=
    h.unique consistent_bookId (Index.sortHits_isSorted consistent_bookId)
  rw [hordered] at hdocs
  exact eq_of_forall₂_ok hdocs (.cons (document_book _ _) (.cons (document_book _ _) .nil))

theorem run_kinds_agree_shelved :
    (∃ request, books.run .count none (sorted bookId) shelved =
      .ok (.count 2) (shelved.logged [request])) ∧
    (∃ requests, books.run .list none (sorted bookId) shelved =
      .ok (.list [edition "2", edition "1"]) (shelved.logged requests)) ∧
    ∃ request, books.run .deletion none (sorted bookId) shelved =
      .ok (.deletion 2) ((shelved.logged [request]).without allBooks.toExpr) := by
  obtain ⟨hcount, -, hlist, request, hdelete, -⟩ :=
    run_kinds_agree (r := books) (s := shelved) (q := sorted bookId) rfl rfl rfl rfl
      rfl ofText_allBooks (by decide) none
  have hm : (shelved.matching allBooks.toExpr).length = 2 := congrArg List.length matching_shelved
  rw [hm] at hcount hdelete
  obtain ⟨ordered, docs, requests, hsorted, -, -, hdocs, hrun⟩ :=
    hlist document_of_matching_shelved consistent_bookId
  cases documents_of_isSorted hsorted hdocs
  exact ⟨hcount, ⟨requests, hrun⟩, request, hdelete⟩

def byShelfMark : Query :=
  sorted ⟨"shelf mark", by decide⟩

/-- The first book is first, since no record has a field `shelf`. -/
theorem shown_byShelfMark : List.Forall₂ (fun record doc => books.type.document record = .ok doc)
    (Index.sortHits byShelfMark.readTerms (shelved.matching allBooks.toExpr))
    [edition "1", edition "2"] :=
  .cons (document_book _ _) (.cons (document_book _ _) .nil)

theorem not_isSorted_byShelfMark {ordered : List Record}
    (hdocs : List.Forall₂ (fun record doc => books.type.document record = .ok doc) ordered
      [edition "1", edition "2"]) :
    ¬IsSorted byShelfMark.sortTerms (shelved.matching allBooks.toExpr) ordered := by
  intro hsorted
  have hmem : ∀ record ∈ ordered, record = book "1" "a" ∨ record = book "2" "b" := by
    intro record hm
    simpa [matching_shelved] using hsorted.perm.mem_iff.1 hm
  obtain ⟨first, second, rfl⟩ := List.length_eq_two.1 hsorted.perm.length_eq
  obtain ⟨hfirst, hsecond, -⟩ : _ ∧ _ ∧ _ := by
    simpa only [List.forall₂_cons, List.forall₂_nil_left_iff] using hdocs
  have hfirst' : first = book "1" "a" := by
    rcases hmem first (by simp) with rfl | rfl
    · rfl
    · simp [document_book, edition] at hfirst
  have hsecond' : second = book "2" "b" := by
    rcases hmem second (by simp) with rfl | rfl
    · simp [document_book, edition] at hsecond
    · rfl
  rw [hfirst', hsecond'] at hsorted
  exact List.rel_of_pairwise_cons hsorted.inOrder List.mem_cons_self (by decide)

def titled (id title : String) : Record :=
  [("id", .text id), ("title", .text title)]

/-- Three books whose titles compare in a circle, `10` before `1a` before `2` before `10`. -/
def circular : Store where
  committed := [("1", titled "1" "10"), ("2", titled "2" "1a"), ("3", titled "3" "2")]

theorem matching_circular : circular.matching allBooks.toExpr =
    [titled "1" "10", titled "2" "1a", titled "3" "2"] := rfl

theorem document_of_matching_circular :
    ∀ record ∈ circular.matching allBooks.toExpr,
      ∃ doc, books.type.document record = .ok doc := by
  intro record h
  rw [matching_circular] at h
  simp only [List.mem_cons, List.not_mem_nil, or_false] at h
  rcases h with rfl | rfl | rfl <;> exact ⟨_, rfl⟩

theorem not_isSorted_circular : ¬∃ ordered,
    IsSorted (sorted bookTitle).sortTerms (circular.matching allBooks.toExpr) ordered := by
  rw [matching_circular]
  rintro ⟨ordered, h⟩
  have hbefore : ∀ a ∈ [titled "1" "10", titled "2" "1a", titled "3" "2"],
      ∃ b ∈ [titled "1" "10", titled "2" "1a", titled "3" "2"],
        Index.compareRecords b a (sorted bookTitle).sortTerms = .lt := by decide
  obtain ⟨a, ha, hfirst⟩ := h.exists_first (List.cons_ne_nil _ _)
  obtain ⟨b, hb, hlt⟩ := hbefore a ha
  exact hfirst b hb hlt

/-- The order is that of the text `shelf mark desc`, in which the field ends at the first blank; and
titles in a circle have none. -/
theorem run_list_not_inOrder :
    books.settings.commitOnWrite = true ∧ Expr.ofText allBooks.toText = .ok allBooks.toExpr ∧
      (shelved.staged = [] ∧ shelved.scripted = [] ∧
        (shelved.matching allBooks.toExpr).length ≤ maxRows ∧
        (∀ record ∈ shelved.matching allBooks.toExpr,
          ∃ doc, books.type.document record = .ok doc) ∧
        ¬∃ ordered docs requests,
          IsSorted byShelfMark.sortTerms (shelved.matching allBooks.toExpr) ordered ∧
          List.Forall₂ (fun record doc => books.type.document record = .ok doc) ordered docs ∧
          books.run .list none byShelfMark shelved =
            .ok (.list docs) (shelved.logged requests)) ∧
      circular.staged = [] ∧ circular.scripted = [] ∧
        (circular.matching allBooks.toExpr).length ≤ maxRows ∧
        (∀ record ∈ circular.matching allBooks.toExpr,
          ∃ doc, books.type.document record = .ok doc) ∧
        ¬∃ ordered, IsSorted (sorted bookTitle).sortTerms (circular.matching allBooks.toExpr)
          ordered := by
  have hsize : (shelved.matching allBooks.toExpr).length ≤ maxRows := by decide
  refine ⟨rfl, ofText_allBooks, ⟨rfl, rfl, hsize, document_of_matching_shelved, ?_⟩, rfl, rfl,
    by decide, document_of_matching_circular, not_isSorted_circular⟩
  rintro ⟨ordered, docs, requests, hsorted, hdocs, hrun⟩
  obtain ⟨requests', hrun'⟩ := run_list (q := byShelfMark) ⟨rfl, rfl, ofText_allBooks⟩ rfl hsize
    shown_byShelfMark none
  rw [hrun] at hrun'
  injection hrun' with hlist
  injection hlist with hlist
  exact not_isSorted_byShelfMark (hlist ▸ hdocs) hsorted

end Books

end SearchMapper.Repository
