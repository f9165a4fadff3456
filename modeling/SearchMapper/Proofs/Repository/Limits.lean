import SearchMapper.Proofs.Repository.ResultKinds
import SearchMapper.Repository.Builder

namespace SearchMapper.Repository

open Index (Expr)
open Method (Invocation)
open Session (bind_of_error bind_of_ok ofExcept_of_ok)
open Store (Reads)

variable {r : Repository} {s : Store} {q : Query} {e : Expr} {i : Invocation} {method : Method}
  {finder : Finder}

theorem ofMethodName_of_resolve {entity : Entity} {catalog : Catalog} {d : Method.Declaration}
    (h : Method.resolve entity catalog d = .ok method) (hs : method.strategy = .derived finder)
    {m : MethodName} (hm : MethodName.ofText d.name = .ok m) :
    Finder.ofMethodName m entity = .ok finder := by
  unfold Method.resolve at h
  split at h
  · obtain rfl := Except.ok.inj h
    cases hs
  · obtain rfl := Except.ok.inj h
    cases hs
  · obtain ⟨m', hm', h⟩ := exists_of_bind_eq_ok h
    obtain ⟨finder', hf, h⟩ := exists_of_bind_eq_ok h
    obtain rfl := Except.ok.inj h
    obtain rfl := Method.Strategy.derived.inj hs
    obtain rfl := Except.ok.inj (hm.symm.trans hm')
    exact hf

theorem toText_arranged (i : Invocation) (q : Query) : (arranged i q).toText = q.toText := by
  obtain ⟨args, window, sort⟩ := i
  cases window <;> cases sort <;> rfl

theorem filters_arranged (i : Invocation) (q : Query) : (arranged i q).filters = q.filters := by
  obtain ⟨args, window, sort⟩ := i
  cases window <;> cases sort <;> rfl

theorem invoke_eq_run {name : String} {kind : ResultKind}
    (hfound : r.methods.find? name = some method) (hs : method.strategy = .derived finder)
    (hk : method.result = some kind) (hq : finder.query i.args = .ok q) (s : Store) :
    r.invoke name i s = r.run kind method.facets (arranged i q) s := by
  obtain ⟨strategy, result, facets⟩ := method
  simp only at hs hk
  subst hs hk
  simp only [invoke, hfound]
  rw [bind_of_ok (ofExcept_of_ok hq s)]

/-- A deletion removes all that match and returns their number, so that it keeps within the limit
of the method's name only if no more than that match. -/
theorem invoke_limited_deletion {catalog : Catalog} {d : Method.Declaration} {m : MethodName}
    {limit : Nat}
    (hfound : r.methods.find? d.name = some method)
    (hresolved : Method.resolve r.entity catalog d = .ok method)
    (hstrategy : method.strategy = .derived finder) (hresult : method.result = some .deletion)
    (hname : MethodName.ofText d.name = .ok m) (hlimit : m.limit = some limit)
    (hargs : finder.query i.args = .ok q) (hc : r.settings.commitOnWrite = true)
    (hstaged : s.staged = []) (hscripted : s.scripted = []) :
    q.window.map (fun w => (w.offset, w.size)) = some (0, limit) ∧
    (∀ e, Expr.ofText q.toText = .ok e →
      ∃ s', r.invoke d.name i s = .ok (.deletion (s.matching e).length) s' ∧
        (∃ request, s' = (s.logged [request]).without e) ∧
        ((s.matching e).length ≤ limit ↔ s.committed.length ≤ s'.committed.length + limit)) ∧
    ∀ cause, Expr.ofText q.toText = .error cause →
      ∃ failure requests, r.invoke d.name i s = .error failure (s.logged requests) := by
  have hmethod := ofMethodName_of_resolve hresolved hstrategy hname
  obtain ⟨-, -, -, -, hfilters, hwindow⟩ := Finder.query_eq hargs
  rw [(Finder.ofMethodName_eq hmethod).2, hlimit] at hwindow
  have hinvoke := invoke_eq_run hfound hstrategy hresult hargs s
  refine ⟨hwindow, fun e he => ?_, fun cause he => ?_⟩
  · have hreads : s.Reads (arranged i q) e :=
      ⟨hscripted, (filters_arranged i q).trans hfilters, by rw [toText_arranged]; exact he⟩
    obtain ⟨request, hrun⟩ := run_deletion (r := r) hc hstaged hreads method.facets
    refine ⟨_, hinvoke.trans hrun, ⟨request, rfl⟩, ?_⟩
    have hlen := Store.length_without (s.logged [request]) e
    have hsame : ((s.logged [request]).matching e).length = (s.matching e).length := rfl
    have hcommitted : (s.logged [request]).committed.length = s.committed.length := rfl
    omega
  · rw [← toText_arranged i] at he
    obtain ⟨failure, requests, hcount⟩ := Session.count_eq_error hscripted he
    refine ⟨failure, requests, hinvoke.trans ?_⟩
    have hdelete : r.deleteMatching (arranged i q) s = .error failure (s.logged requests) :=
      bind_of_error hcount _
    simp only [run, Functor.map, EStateM.map, hdelete]

theorem resolve_of_ofMethodName {entity : Entity} {catalog : Catalog} {d : Method.Declaration}
    {m : MethodName} (hnamed : catalog.find? (Catalog.key entity.typeName d.name) = none)
    (htemplate : d.template = none) (hm : MethodName.ofText d.name = .ok m)
    (hf : Finder.ofMethodName m entity = .ok finder) :
    Method.resolve entity catalog d = .ok ⟨.derived finder,
      some (d.result.getD (Method.defaultResult m.subject m.limit d.facets.isSome)), d.facets⟩ := by
  simp only [Method.resolve, hnamed, htemplate, hm, hf, bind, Except.bind]
  rfl

section Books

def firstByTitle : MethodName :=
  ⟨"deleteFirstByTitle", .delete, false, some 1, [[⟨"Title", "Title", .simpleProperty⟩]], []⟩

def deleteFirstByTitle : Finder :=
  ⟨"deleteFirstByTitle", .delete, [[⟨bookTitle, .simpleProperty⟩]], [], some 1⟩

def deletingBooks : Repository :=
  { books with
    methods := [("deleteFirstByTitle", ⟨.derived deleteFirstByTitle, some .deletion, none⟩)] }

def emma : Criteria :=
  (Criteria.start bookTitle).is (.text "Emma")

theorem ofText_firstByTitle : MethodName.ofText "deleteFirstByTitle" = .ok firstByTitle := by
  cbv

theorem ofMethodName_firstByTitle :
    Finder.ofMethodName firstByTitle bookEntity = .ok deleteFirstByTitle := by
  cbv

theorem ofText_emma : Expr.ofText emma.toText = .ok emma.toExpr :=
  Plain.ofText_toText (by decide) rfl

theorem resolve_firstByTitle :
    Method.resolve bookEntity [] { name := "deleteFirstByTitle" } =
      .ok ⟨.derived deleteFirstByTitle, some .deletion, none⟩ :=
  resolve_of_ofMethodName rfl rfl ofText_firstByTitle ofMethodName_firstByTitle

theorem build_of_resolve {d : Method.Declaration}
    (h : Method.resolve bookEntity [] d = .ok method) :
    Builder.build books.type {} none { declared := [d] } =
      .ok { books with methods := [(d.name, method)] } := by
  have hall : Builder.resolveAll bookEntity [] [d] [] = .ok [(d.name, method)] := by
    simp only [Builder.resolveAll, h]
    rfl
  change (do
    let methods ← Builder.resolveAll bookEntity [] [d] []
    pure ({ books with methods := methods } : Repository)) = _
  rw [hall]
  rfl

theorem build_deletingBooks :
    Builder.build books.type {} none { declared := [{ name := "deleteFirstByTitle" }] } =
      .ok deletingBooks :=
  build_of_resolve resolve_firstByTitle

theorem invoke_limited_deletion_single :
    ∃ s', deletingBooks.invoke "deleteFirstByTitle" { args := [.text "Emma"] }
        { committed := [("1", book "1" "a")] } = .ok (.deletion 1) s' ∧ s'.committed = [] := by
  obtain ⟨-, hdelete, -⟩ := invoke_limited_deletion (r := deletingBooks)
    (d := { name := "deleteFirstByTitle" }) (i := { args := [.text "Emma"] })
    (s := { committed := [("1", book "1" "a")] }) rfl resolve_firstByTitle rfl rfl
    ofText_firstByTitle rfl rfl rfl rfl rfl
  obtain ⟨s', hinvoke, ⟨request, rfl⟩, -⟩ := hdelete emma.toExpr ofText_emma
  exact ⟨_, hinvoke, rfl⟩

/-- Both books are gone, though the name speaks of the first. -/
theorem deleteFirstByTitle_deletes_both :
    Builder.build books.type {} none { declared := [{ name := "deleteFirstByTitle" }] } =
        .ok deletingBooks ∧
      MethodName.ofText "deleteFirstByTitle" = .ok firstByTitle ∧ firstByTitle.limit = some 1 ∧
      deletingBooks.settings.commitOnWrite = true ∧ shelved.staged = [] ∧ shelved.scripted = [] ∧
      shelved.committed.length = 2 ∧
      ∃ s', deletingBooks.invoke "deleteFirstByTitle" { args := [.text "Emma"] } shelved =
        .ok (.deletion 2) s' ∧ s'.committed = [] := by
  refine ⟨build_deletingBooks, ofText_firstByTitle, rfl, rfl, rfl, rfl, rfl, ?_⟩
  have hfound : deletingBooks.methods.find? "deleteFirstByTitle" =
      some ⟨.derived deleteFirstByTitle, some .deletion, none⟩ := rfl
  have hinvoke := invoke_eq_run (i := { args := [.text "Emma"] }) hfound rfl rfl rfl shelved
  have hreads : shelved.Reads
      (arranged { args := [.text "Emma"] } ((Query.ofCriteria emma).withWindow ⟨0, 1, by decide⟩))
      emma.toExpr := ⟨rfl, rfl, ofText_emma⟩
  obtain ⟨request, hrun⟩ := run_deletion (r := deletingBooks) rfl rfl hreads none
  exact ⟨_, hinvoke.trans hrun, rfl⟩

end Books

end SearchMapper.Repository
