import Mathlib.Algebra.Order.Floor.Div
import SearchMapper.Proofs.Repository.Filters

namespace SearchMapper

open Index (Consistent Expr IsSorted hits)
open Store (Evaluates)

theorem Store.Evaluates.logged {s : Store} {q : Query} {e : Expr} {filters : List Expr}
    (h : s.Evaluates q e filters) (requests : List Request) :
    (s.logged requests).Evaluates q e filters :=
  ⟨h.scripted, h.text, h.filters⟩

theorem lt_ceilDiv_iff {i n size : Nat} (hsize : 0 < size) : i < n ⌈/⌉ size ↔ i * size < n := by
  rw [← not_le, ceilDiv_le_iff_le_mul hsize, not_le, Nat.mul_comm]

namespace Page

variable {α : Type} {docs : List α} {w : Window} {i : Nat}

def ofWindow (docs : List α) (w : Window) : Page α :=
  ⟨(docs.drop w.offset).take w.size, some w, docs.length⟩

theorem hasNext_ofWindow : (ofWindow docs w).hasNext = true ↔ w.next.offset < docs.length := by
  simp only [hasNext, ofWindow, Window.next, decide_eq_true_eq, List.length_take, List.length_drop]
  omega

end Page

namespace Window

def nth (size : Nat) (hsize : 0 < size) (i : Nat) : Window :=
  ⟨i * size, size, hsize⟩

variable {size : Nat} {hsize : 0 < size} {i : Nat}

theorem next_nth : (nth size hsize i).next = nth size hsize (i + 1) := by
  simp [nth, next, Nat.succ_mul]

theorem number_nth : (nth size hsize i).number = i :=
  Nat.mul_div_cancel i hsize

theorem next_offset_nth_le {n : Nat} (hi : i < max 1 (n ⌈/⌉ size)) :
    (nth size hsize i).next.offset ≤ n + size := by
  have hoffset : i * size ≤ n := by
    cases i with
    | zero => simp
    | succ i =>
      have hlt : i + 1 < n ⌈/⌉ size := by omega
      exact ((lt_ceilDiv_iff hsize).1 hlt).le
  exact Nat.add_le_add_right hoffset size

theorem page_zero (hsize : 0 < size) : page 0 size = .ok (nth size hsize 0) := by
  have hzero : 0 * size < UInt64.size := by simp
  simp only [page, if_neg hsize.ne', if_pos hzero]
  exact dif_pos hsize

end Window

namespace Session

variable {type : DocumentType} {entity : Entity} {q : Query} {e : Expr} {filters : List Expr}
  {s s' : Store} {docs : List Json} {size : Nat}

/-- Reading page after page, as long as the last one says that there is a next one. -/
inductive ReadsPages (type : DocumentType) (q : Query) :
    Window → Store → List (Page Json) → Store → Prop
  | last {w : Window} {s s' : Store} {page : Page Json}
      (read : findPage type (q.withWindow w) s = .ok page s') (done : page.hasNext = false) :
      ReadsPages type q w s [page] s'
  | next {w : Window} {s s' s'' : Store} {page : Page Json} {later : List (Page Json)}
      (read : findPage type (q.withWindow w) s = .ok page s') (more : page.hasNext = true)
      (rest : ReadsPages type q w.next s' later s'') : ReadsPages type q w s (page :: later) s''

theorem ReadsPages.unique {w : Window} {pages pages' : List (Page Json)} {t t' : Store}
    (h : ReadsPages type q w s pages t) (h' : ReadsPages type q w s pages' t') :
    pages = pages' := by
  induction h generalizing pages' with
  | last read done =>
    cases h' with
    | last read' _ =>
      cases read.symm.trans read'
      rfl
    | next read' more _ =>
      cases read.symm.trans read'
      simp [done] at more
  | next read more rest ih =>
    cases h' with
    | last read' done =>
      cases read.symm.trans read'
      simp [more] at done
    | next read' _ rest' =>
      cases read.symm.trans read'
      rw [ih rest']

theorem findPage_withWindow (h : s.Evaluates q e filters) (hentity : type.entity = .ok entity)
    (hdocs : List.Forall₂ (fun record doc =>
      type.read entity (Index.project (q.projection.map Field.name) record) = .ok doc)
      (Index.sortHits q.readTerms (hits s.committed e filters)) docs) (w : Window) :
    ∃ request, findPage type (q.withWindow w) s = .ok (.ofWindow docs w) (s.logged [request]) := by
  have hshown := List.forall₂_take w.size (List.forall₂_drop w.offset hdocs)
  obtain ⟨request, hpage⟩ := findPage_of_evaluates (h.withWindow w) rfl hentity
    (List.forall₂_map_left_iff.2 hshown)
  have hlength : (hits s.committed e filters).length = docs.length := by
    rw [← hdocs.length_eq, (Index.sortHits_perm _ _).length_eq]
  rw [hlength] at hpage
  exact ⟨request, hpage⟩

theorem hasNext_nth (hsize : 0 < size) (i : Nat) :
    (Page.ofWindow docs (.nth size hsize i)).hasNext = true ↔
      i + 1 < docs.length ⌈/⌉ size := by
  rw [Page.hasNext_ofWindow, Window.next_nth, lt_ceilDiv_iff hsize]
  rfl

theorem readsPages_from (h : s.Evaluates q e filters) (hentity : type.entity = .ok entity)
    (hdocs : List.Forall₂ (fun record doc =>
      type.read entity (Index.project (q.projection.map Field.name) record) = .ok doc)
      (Index.sortHits q.readTerms (hits s.committed e filters)) docs) (hsize : 0 < size)
    {i rest : Nat} (hlast : i + (rest + 1) = max 1 (docs.length ⌈/⌉ size)) :
    ∃ requests, ReadsPages type q (.nth size hsize i) s
      ((List.range' i (rest + 1)).map fun i => .ofWindow docs (.nth size hsize i))
      (s.logged requests) := by
  induction rest generalizing i s with
  | zero =>
    obtain ⟨request, hpage⟩ := findPage_withWindow h hentity hdocs (.nth size hsize i)
    refine ⟨[request], .last hpage ?_⟩
    rw [Bool.eq_false_iff, ne_eq, hasNext_nth]
    omega
  | succ rest ih =>
    obtain ⟨request, hpage⟩ := findPage_withWindow h hentity hdocs (.nth size hsize i)
    have hmore : (Page.ofWindow docs (.nth size hsize i)).hasNext = true := by
      rw [hasNext_nth]
      omega
    obtain ⟨requests, hrest⟩ := ih (h.logged [request]) hdocs (i := i + 1) (by omega)
    refine ⟨[request] ++ requests, ?_⟩
    rw [← Window.next_nth, Store.logged_logged] at hrest
    exact .next hpage hmore hrest

theorem content_pages (hsize : 0 < size) {rest : Nat}
    (hlast : 0 + (rest + 1) = max 1 (docs.length ⌈/⌉ size)) :
    ((List.range' 0 (rest + 1)).map fun i => Page.ofWindow docs (.nth size hsize i)).flatMap
      Page.content = docs := by
  have hall : docs.length ≤ (rest + 1) * size := by
    rw [Nat.mul_comm, ← ceilDiv_le_iff_le_mul hsize]
    omega
  rw [List.flatMap_map, ← List.range_eq_range']
  exact (flatMap_pages docs size (rest + 1)).trans (List.take_of_length_le hall)

/-- Following the windows from the first one stops after as many pages as the size calls for. Each
page says how many there are, and together they hold the documents of the hits, each once, in the
only order that the sort terms leave; it is that of the sort keys if no blank cuts the name of
one. -/
theorem readsPages_partition (hscripted : s.scripted = []) (he : Expr.ofText q.toText = .ok e)
    (hf : ((q.filters.map Query.toText).filter (· ≠ "")).mapM Expr.ofText = .ok filters)
    (hentity : type.entity = .ok entity)
    (hread : ∀ record ∈ hits s.committed e filters, ∃ doc,
      type.read entity (Index.project (q.projection.map Field.name) record) = .ok doc)
    (hconsistent : Consistent q.readTerms (hits s.committed e filters))
    (hsize : 0 < size) (hbound : (hits s.committed e filters).length + size < UInt64.size) :
    ∃ first pages requests, Window.page 0 size = .ok first ∧
      ReadsPages type q first s pages (s.logged requests) ∧
      (∀ pages' s', ReadsPages type q first s pages' s' → pages' = pages) ∧
      pages.length = max 1 ((hits s.committed e filters).length ⌈/⌉ size) ∧
      (∀ i page, pages[i]? = some page →
        page.total = (hits s.committed e filters).length ∧
        page.totalPages = (hits s.committed e filters).length ⌈/⌉ size ∧ page.number = i ∧
        (page.hasNext = true ↔ i + 1 < page.totalPages) ∧
        ∀ w ∈ page.window, w.next.offset < UInt64.size) ∧
      ∃ ordered docs, IsSorted q.readTerms (hits s.committed e filters) ordered ∧
        (∀ other, IsSorted q.readTerms (hits s.committed e filters) other → other = ordered) ∧
        ((∀ key ∈ q.sort.getD [], Text.hasBlank key.field.name = false) →
          IsSorted q.sortTerms (hits s.committed e filters) ordered) ∧
        List.Forall₂ (fun record doc =>
          type.read entity (Index.project (q.projection.map Field.name) record) = .ok doc)
          ordered docs ∧
        pages.flatMap Page.content = docs := by
  have hsorted := Index.sortHits_isSorted hconsistent
  obtain ⟨docs, hdocs⟩ := Repository.exists_documents fun record hm =>
    hread record (hsorted.perm.mem_iff.1 hm)
  have hlength : (hits s.committed e filters).length = docs.length := by
    rw [← hdocs.length_eq, hsorted.perm.length_eq]
  rw [hlength] at hbound ⊢
  obtain ⟨rest, hrest⟩ : ∃ rest, 0 + (rest + 1) = max 1 (docs.length ⌈/⌉ size) :=
    ⟨max 1 (docs.length ⌈/⌉ size) - 1, by omega⟩
  obtain ⟨requests, hreads⟩ := readsPages_from ⟨hscripted, he, hf⟩ hentity hdocs hsize hrest
  refine ⟨_, _, requests, Window.page_zero hsize, hreads, fun _ _ h => h.unique hreads, ?_,
    fun i page hpage => ?_, _, docs, hsorted, fun _ hother => hother.unique hconsistent hsorted,
    fun hblank => ?_, hdocs, content_pages hsize hrest⟩
  · rw [List.length_map, List.length_range', ← hrest, Nat.zero_add]
  · obtain ⟨j, hj, rfl⟩ := Option.map_eq_some_iff.1 (List.getElem?_map.symm.trans hpage)
    obtain ⟨hi, rfl⟩ : i < rest + 1 ∧ i = j := by
      simpa [List.getElem?_range', List.getElem?_eq_some_iff] using hj
    refine ⟨rfl, rfl, Window.number_nth, hasNext_nth hsize i, fun w hw => ?_⟩
    cases hw
    exact (Window.next_offset_nth_le (by omega)).trans_lt hbound
  · rwa [Query.readTerms_eq hblank] at hsorted ⊢

section Books

open Repository (allBooks books byShelfMark circular consistent_bookId
  document_of_matching_circular document_of_matching_shelved documents_of_isSorted edition
  not_isSorted_byShelfMark not_isSorted_circular ofText_allBooks shelved shown_byShelfMark sorted)

theorem readsPages_partition_shelved :
    ∃ pages requests, ReadsPages books.type (sorted bookId) (.nth 1 (by decide) 0) shelved pages
        (shelved.logged requests) ∧ pages.length = 2 ∧
      pages.flatMap Page.content = [edition "2", edition "1"] := by
  obtain ⟨first, pages, requests, hfirst, hreads, -, hlength, -, ordered, docs, hsorted, -, -,
      hdocs, hcontent⟩ :=
    readsPages_partition (s := shelved) (q := sorted bookId) rfl ofText_allBooks rfl
      (rfl : books.type.entity = .ok bookEntity) document_of_matching_shelved
      consistent_bookId Nat.one_pos (by decide)
  cases hfirst
  exact ⟨pages, requests, hreads, hlength, hcontent.trans (documents_of_isSorted hsorted hdocs)⟩

/-- The pages have the order of the text `shelf mark desc`, in which the field ends at the first
blank; and titles in a circle have no order that pages could show. -/
theorem readsPages_not_inOrder :
    books.type.entity = .ok bookEntity ∧ Expr.ofText allBooks.toText = .ok allBooks.toExpr ∧
      (shelved.scripted = [] ∧
        (∀ record ∈ shelved.matching allBooks.toExpr,
          ∃ doc, books.type.document record = .ok doc) ∧
        (shelved.matching allBooks.toExpr).length + 1 < UInt64.size ∧
        ¬∃ ordered docs pages requests,
          IsSorted byShelfMark.sortTerms (shelved.matching allBooks.toExpr) ordered ∧
          List.Forall₂ (fun record doc => books.type.document record = .ok doc) ordered docs ∧
          ReadsPages books.type byShelfMark (.nth 1 (by decide) 0) shelved pages
            (shelved.logged requests) ∧
          pages.flatMap Page.content = docs) ∧
      circular.scripted = [] ∧
        (∀ record ∈ circular.matching allBooks.toExpr,
          ∃ doc, books.type.document record = .ok doc) ∧
        (circular.matching allBooks.toExpr).length + 1 < UInt64.size ∧
        ¬∃ ordered, IsSorted (sorted bookTitle).sortTerms (circular.matching allBooks.toExpr)
          ordered := by
  refine ⟨rfl, ofText_allBooks, ⟨rfl, document_of_matching_shelved, by decide, ?_⟩, rfl,
    document_of_matching_circular, by decide, not_isSorted_circular⟩
  rintro ⟨ordered, docs, pages, requests, hsorted, hdocs, hreads, hcontent⟩
  have hcount : 0 + (1 + 1) = max 1 ([edition "1", edition "2"].length ⌈/⌉ 1) := by simp
  obtain ⟨requests', hreads'⟩ := readsPages_from (s := shelved) (q := byShelfMark)
    ⟨rfl, ofText_allBooks, rfl⟩ (rfl : books.type.entity = .ok bookEntity) shown_byShelfMark
    Nat.one_pos hcount
  rw [hreads.unique hreads', content_pages Nat.one_pos hcount] at hcontent
  exact not_isSorted_byShelfMark (hcontent ▸ hdocs) hsorted

end Books

end Session

end SearchMapper
