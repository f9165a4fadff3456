import SearchMapper.Proofs.Dictionary
import SearchMapper.Proofs.Failure
import SearchMapper.Proofs.Repository.ResultKinds
import SearchMapper.Repository.Builder

namespace SearchMapper.Repository.Builder

open Method (Implementation)

inductive Call
  | declare (d : Method.Declaration)
  | namedQueries (c : Catalog)
  | implement (name : String) (run : Implementation)

namespace Call

def perform (b : Builder) : Call → Builder
  | declare d => b.declare d
  | namedQueries c => b.namedQueries c
  | implement name run => b.implement name run

def declaration? : Call → Option Method.Declaration
  | declare d => some d
  | _ => none

def entries : Call → List (String × String)
  | namedQueries c => c
  | _ => []

def implementation? : Call → Option (String × Implementation)
  | implement name run => some (name, run)
  | _ => none

end Call

def ofCalls (calls : List Call) : Builder :=
  calls.foldl Call.perform {}

section Calls

variable (calls : List Call) (name : String)

def declarations : List Method.Declaration :=
  calls.filterMap Call.declaration?

def entries : List (String × String) :=
  calls.flatMap Call.entries

def implementations : List (String × Implementation) :=
  calls.filterMap Call.implementation?

/-- A later implementation of the name replaces an earlier one. -/
def implementation? : Option Implementation :=
  ((implementations calls).reverse.find? fun entry => entry.1 = name).map Prod.snd

/-- A later entry of the catalogs replaces an earlier one. -/
def namedQuery? (type : String) : Option String :=
  ((entries calls).reverse.find? fun entry => entry.1 = Catalog.key type name).map Prod.snd

def first? : Option Method.Declaration :=
  (declarations calls).find? (·.name = name)

theorem ofCalls_eq :
    ofCalls calls =
      ⟨declarations calls, .ofList (entries calls), .ofList (implementations calls)⟩ := by
  have hfrom (b : Builder) : calls.foldl Call.perform b =
      ⟨b.declared ++ declarations calls, b.catalog.insertAll (entries calls),
        b.custom.insertAll (implementations calls)⟩ := by
    induction calls generalizing b with
    | nil => simp [declarations, entries, implementations, Dictionary.insertAll]
    | cons call calls ih =>
      rw [List.foldl_cons, ih]
      cases call <;>
        simp [Call.perform, declare, namedQueries, implement, declarations, entries,
          implementations, List.filterMap_cons, Call.declaration?, Call.entries,
          Call.implementation?, Dictionary.insertAll, Catalog.merge]
  exact hfrom {}

end Calls

def derive (e : Entity) (name : String) : Except Error Finder := do
  Finder.ofMethodName (← MethodName.ofText name) e

/-- The kind of result that the name of a method speaks of. A name that cannot be read speaks of a
list. -/
inductive Guessed (name : String) : Bool → ResultKind → Prop
  | count {faceted : Bool} {m : MethodName} (hname : MethodName.ofText name = .ok m)
      (hsubject : m.subject = .count) : Guessed name faceted .count
  | existence {faceted : Bool} {m : MethodName} (hname : MethodName.ofText name = .ok m)
      (hsubject : m.subject = .present) : Guessed name faceted .existence
  | deletion {faceted : Bool} {m : MethodName} (hname : MethodName.ofText name = .ok m)
      (hsubject : m.subject = .delete) : Guessed name faceted .deletion
  | facet {m : MethodName} (hname : MethodName.ofText name = .ok m)
      (hsubject : m.subject = .find) : Guessed name true .facet
  | one {m : MethodName} (hname : MethodName.ofText name = .ok m) (hsubject : m.subject = .find)
      (hlimit : m.limit = some 1) : Guessed name false .one
  | list {m : MethodName} (hname : MethodName.ofText name = .ok m) (hsubject : m.subject = .find)
      (hlimit : m.limit ≠ some 1) : Guessed name false .list
  | unreadFacet {cause : Error} (hname : MethodName.ofText name = .error cause) :
      Guessed name true .facet
  | unreadList {cause : Error} (hname : MethodName.ofText name = .error cause) :
      Guessed name false .list

/-- The kind of result of a method without an implementation. -/
inductive Returns (d : Method.Declaration) : ResultKind → Prop
  | declared {kind : ResultKind} (h : d.result = some kind) : Returns d kind
  | guessed {kind : ResultKind} (h : d.result = none)
      (hguessed : Guessed d.name d.facets.isSome kind) : Returns d kind

/-- The method for a name, by priority. -/
inductive Resolved (type : String) (e : Entity) (calls : List Call) (name : String) : Method → Prop
  | custom {run : Implementation} (hrun : implementation? calls name = some run) :
      Resolved type e calls name ⟨.custom run, (first? calls name).bind (·.result), none⟩
  | named {d : Method.Declaration} {template : String} {kind : ResultKind}
      (hnone : implementation? calls name = none) (hfirst : first? calls name = some d)
      (hnamed : namedQuery? calls name type = some template) (hkind : Returns d kind) :
      Resolved type e calls name ⟨.named template, some kind, d.facets⟩
  | annotated {d : Method.Declaration} {template : String} {kind : ResultKind}
      (hnone : implementation? calls name = none) (hfirst : first? calls name = some d)
      (hnamed : namedQuery? calls name type = none) (htemplate : d.template = some template)
      (hkind : Returns d kind) :
      Resolved type e calls name ⟨.annotated template, some kind, d.facets⟩
  | derived {d : Method.Declaration} {finder : Finder} {kind : ResultKind}
      (hnone : implementation? calls name = none) (hfirst : first? calls name = some d)
      (hnamed : namedQuery? calls name type = none) (htemplate : d.template = none)
      (hderive : derive e name = .ok finder) (hkind : Returns d kind) :
      Resolved type e calls name ⟨.derived finder, some kind, d.facets⟩

/-- Nothing but the name of the method says what it does. -/
def isDerived (type : String) (calls : List Call) (name : String) : Bool :=
  (implementation? calls name).isNone && (namedQuery? calls name type).isNone &&
    (first? calls name).any fun d => d.template.isNone

section Kinds

variable {name : String} {faceted : Bool} {kind : ResultKind} {d : Method.Declaration}

theorem Guessed.eq_templateResult (h : Guessed name faceted kind) :
    kind = Method.templateResult name faceted := by
  unfold Method.templateResult
  cases h with
  | count hname hsubject | existence hname hsubject | deletion hname hsubject
  | facet hname hsubject => simp [hname, hsubject, Method.defaultResult]
  | one hname hsubject hlimit | list hname hsubject hlimit =>
    simp [hname, hsubject, hlimit, Method.defaultResult]
  | unreadFacet hname | unreadList hname => simp [hname]

theorem guessed_templateResult (name : String) (faceted : Bool) :
    Guessed name faceted (Method.templateResult name faceted) := by
  unfold Method.templateResult
  split
  · next m hname =>
    unfold Method.defaultResult
    split
    · next hsubject => exact .count hname hsubject
    · next hsubject => exact .existence hname hsubject
    · next hsubject => exact .deletion hname hsubject
    · next hsubject =>
      cases faceted with
      | true => exact .facet hname hsubject
      | false =>
        by_cases hlimit : m.limit = some 1
        · simpa [hlimit] using Guessed.one hname hsubject hlimit
        · simpa [hlimit] using Guessed.list hname hsubject hlimit
  · next hname =>
    cases faceted with
    | true => exact .unreadFacet hname
    | false => exact .unreadList hname

def kindOf (d : Method.Declaration) : ResultKind :=
  d.result.getD (Method.templateResult d.name d.facets.isSome)

theorem returns_iff : Returns d kind ↔ kind = kindOf d := by
  rw [kindOf]
  constructor
  · intro h
    cases h with
    | declared h => rw [h, Option.getD_some]
    | guessed h hguessed => rw [h, Option.getD_none, hguessed.eq_templateResult]
  · rintro rfl
    cases h : d.result with
    | some kind => exact .declared h
    | none => exact .guessed h (guessed_templateResult d.name d.facets.isSome)

end Kinds

section Resolve

variable {e : Entity} {catalog : Catalog} {d : Method.Declaration} {template : String}

theorem resolve_named (h : catalog.find? (Catalog.key e.typeName d.name) = some template) :
    Method.resolve e catalog d = .ok ⟨.named template, some (kindOf d), d.facets⟩ := by
  simp only [Method.resolve, h, kindOf]

theorem resolve_annotated (h : catalog.find? (Catalog.key e.typeName d.name) = none)
    (ht : d.template = some template) :
    Method.resolve e catalog d = .ok ⟨.annotated template, some (kindOf d), d.facets⟩ := by
  simp only [Method.resolve, h, ht, kindOf]

theorem resolve_derived (h : catalog.find? (Catalog.key e.typeName d.name) = none)
    (ht : d.template = none) :
    Method.resolve e catalog d =
      (derive e d.name).map fun finder => ⟨.derived finder, some (kindOf d), d.facets⟩ := by
  simp only [Method.resolve, h, ht, derive, kindOf, Method.templateResult]
  cases MethodName.ofText d.name with
  | error cause => rfl
  | ok m =>
    cases hfinder : Finder.ofMethodName m e <;>
      simp [bind, Except.bind, hfinder, Except.map, pure, Except.pure]

end Resolve

section ResolveAll

variable {e : Entity} {catalog : Catalog} {d : Method.Declaration} {ds : List Method.Declaration}
  {methods found : Dictionary Method} {m : Method}

theorem find?_resolveAll (h : resolveAll e catalog ds methods = .ok found) (name : String)
    (m : Method) :
    found.find? name = some m ↔ methods.find? name = some m ∨
      methods.find? name = none ∧
        ∃ d, ds.find? (·.name = name) = some d ∧ Method.resolve e catalog d = .ok m := by
  induction ds generalizing methods with
  | nil =>
    cases h
    simp
  | cons d ds ih =>
    rw [resolveAll] at h
    split at h
    · next hc =>
      obtain ⟨m', hm'⟩ := Option.isSome_iff_exists.1 hc
      rw [ih h]
      by_cases hname : d.name = name
      · subst hname
        simp [hm']
      · simp [hname]
    · next hc =>
      have hnone : methods.find? d.name = none := by
        simpa [Dictionary.contains] using hc
      obtain ⟨m', hm', h⟩ := exists_of_bind_eq_ok h
      rw [ih h]
      by_cases hname : d.name = name
      · subst hname
        simp [hnone, hm', Dictionary.find?_insert]
      · simp [hname, Dictionary.find?_insert]

def fails (e : Entity) (catalog : Catalog) (ds : List Method.Declaration)
    (methods : Dictionary Method) (name : String) : Bool :=
  (methods.find? name).isNone &&
    (ds.find? (·.name = name)).any fun d => !(Method.resolve e catalog d).isOk

theorem fails_cons_of_contains (h : methods.contains d.name = true)
    (ds : List Method.Declaration) :
    fails e catalog (d :: ds) methods = fails e catalog ds methods := by
  funext name
  obtain ⟨m, hm⟩ := Option.isSome_iff_exists.1 h
  by_cases hname : d.name = name
  · subst hname
    simp [fails, hm]
  · simp [fails, hname]

theorem fails_cons_of_ok (h : Method.resolve e catalog d = .ok m) (ds : List Method.Declaration) :
    fails e catalog (d :: ds) methods = fails e catalog ds (methods.insert d.name m) := by
  funext name
  by_cases hname : d.name = name
  · subst hname
    simp [fails, h, Dictionary.find?_insert, Except.isOk, Except.toBool]
  · simp [fails, hname, Dictionary.find?_insert]

theorem resolveAll_eq_error {cause : Error} :
    resolveAll e catalog ds methods = .error cause ↔
      ∃ d, ds.find? (fun d => fails e catalog ds methods d.name) = some d ∧
        Method.resolve e catalog d = .error cause := by
  induction ds generalizing methods with
  | nil => simp [resolveAll]
  | cons d ds ih =>
    rw [resolveAll]
    split
    · next hc =>
      obtain ⟨m, hm⟩ := Option.isSome_iff_exists.1 hc
      have hd : fails e catalog (d :: ds) methods d.name = false := by
        simp [fails, hm]
      rw [ih, List.find?_cons_of_neg (by simp [hd]), fails_cons_of_contains hc]
    · next hc =>
      have hnone : methods.find? d.name = none := by
        simpa [Dictionary.contains] using hc
      cases hresolve : Method.resolve e catalog d with
      | error failure =>
        have hd : fails e catalog (d :: ds) methods d.name = true := by
          simp [fails, hnone, hresolve, Except.isOk, Except.toBool]
        rw [List.find?_cons_of_pos (by simp [hd])]
        simp [bind, Except.bind, hresolve]
      | ok m =>
        have hd : fails e catalog (d :: ds) methods d.name = false := by
          simp [fails, hresolve, Except.isOk, Except.toBool]
        rw [List.find?_cons_of_neg (by simp [hd]), fails_cons_of_ok hresolve]
        exact ih

theorem find?_name_of_find? {p : String → Bool} (h : ds.find? (fun d => p d.name) = some d) :
    ds.find? (·.name = d.name) = some d := by
  obtain ⟨hd, front, behind, rfl, hfront⟩ := List.find?_eq_some_iff_append.1 h
  refine List.find?_eq_some_iff_append.2 ⟨by simp, front, behind, rfl, fun d' hm => ?_⟩
  have hp := hfront d' hm
  simp only [Bool.not_eq_true', decide_eq_false_iff_not]
  intro hname
  rw [hname, hd] at hp
  cases hp

end ResolveAll

section Build

variable {type : DocumentType} {e : Entity} {settings : Settings} {calls : List Call}
  {name : String}

theorem typeName_of_entity (h : type.entity = .ok e) : e.typeName = type.name := by
  obtain ⟨properties, -, h⟩ := exists_of_bind_eq_ok h
  obtain ⟨id, -, h⟩ := exists_of_bind_eq_ok h
  split at h
  · cases h
    rfl
  · cases h

def implemented (b : Builder) : Dictionary Method :=
  b.custom.map fun (name, run) => (name, customMethod b.declared name run)

theorem find?_implemented (calls : List Call) (name : String) :
    (implemented (ofCalls calls)).find? name =
      (implementation? calls name).map (customMethod (declarations calls) name) := by
  have hmap := Dictionary.find?_map (customMethod (declarations calls))
    (.ofList (implementations calls)) name
  rw [Dictionary.ofList, Dictionary.find?_insertAll, Dictionary.find?_nil, Option.or_none] at hmap
  rw [ofCalls_eq, implementation?, ← hmap]
  rfl

theorem merge_catalog (calls : List Call) :
    Catalog.merge [] (ofCalls calls).catalog = .ofList (entries calls) := by
  rw [ofCalls_eq]
  exact (Dictionary.sorted_ofList _).ofList_eq (.refl _)

theorem find?_catalog (calls : List Call) (name type : String) :
    Dictionary.find? (Catalog.key type name) (.ofList (entries calls)) =
      namedQuery? calls name type := by
  rw [Dictionary.ofList, Dictionary.find?_insertAll, Dictionary.find?_nil, Option.or_none]
  rfl

theorem build_eq (hentity : type.entity = .ok e)
    (hid : Text.isBlankText e.idProperty.fieldName = false) (calls : List Call) :
    (ofCalls calls).build type settings none =
      (resolveAll e (.ofList (entries calls)) (declarations calls)
        (implemented (ofCalls calls))).map fun methods =>
          ⟨type, e, ⟨e.idProperty.fieldName, hid⟩, settings, methods⟩ := by
  have hcatalog := merge_catalog calls
  have hdeclared : (ofCalls calls).declared = declarations calls := by
    rw [ofCalls_eq]
  simp only [build, implemented, Option.map_none, Option.getD_none, hcatalog, hentity, hdeclared,
    Field.named_name ⟨e.idProperty.fieldName, hid⟩, bind, Except.bind]
  cases resolveAll e (.ofList (entries calls)) (declarations calls) _ <;> rfl

theorem build_of_blank (hentity : type.entity = .ok e)
    (hid : Text.isBlankText e.idProperty.fieldName = true) (b : Builder) :
    b.build type settings none = .error .blankFieldName := by
  simp only [build, hentity, Field.named_of_blank hid, bind, Except.bind]

theorem name_of_first? {d : Method.Declaration} (h : first? calls name = some d) :
    d.name = name := by
  simpa using List.find?_some h

theorem find?_of_first? (hentity : type.entity = .ok e) {d : Method.Declaration}
    (hfirst : first? calls name = some d) :
    Dictionary.find? (Catalog.key e.typeName d.name) (.ofList (entries calls)) =
      namedQuery? calls name type.name := by
  rw [name_of_first? hfirst, typeName_of_entity hentity, find?_catalog]

theorem resolved_iff (hentity : type.entity = .ok e) {m : Method} :
    Resolved type.name e calls name m ↔
      (implemented (ofCalls calls)).find? name = some m ∨
        (implemented (ofCalls calls)).find? name = none ∧ ∃ d, first? calls name = some d ∧
          Method.resolve e (.ofList (entries calls)) d = .ok m := by
  rw [find?_implemented]
  constructor
  · intro h
    cases h with
    | custom hrun =>
      left
      rw [hrun]
      rfl
    | @named d template kind hnone hfirst hnamed hkind =>
      rw [returns_iff.1 hkind]
      refine .inr ⟨by rw [hnone]; rfl, d, hfirst, resolve_named ?_⟩
      rw [find?_of_first? hentity hfirst, hnamed]
    | @annotated d template kind hnone hfirst hnamed htemplate hkind =>
      rw [returns_iff.1 hkind]
      refine .inr ⟨by rw [hnone]; rfl, d, hfirst, resolve_annotated ?_ htemplate⟩
      rw [find?_of_first? hentity hfirst, hnamed]
    | @derived d finder kind hnone hfirst hnamed htemplate hderive hkind =>
      rw [returns_iff.1 hkind]
      have hunnamed := (find?_of_first? hentity hfirst).trans hnamed
      refine .inr ⟨by rw [hnone]; rfl, d, hfirst, ?_⟩
      rw [resolve_derived hunnamed htemplate, name_of_first? hfirst, hderive]
      rfl
  · rintro (h | ⟨hnone, d, hfirst, hresolve⟩)
    · obtain ⟨run, hrun, rfl⟩ := Option.map_eq_some_iff.1 h
      exact .custom hrun
    · rw [Option.map_eq_none_iff] at hnone
      have hcatalog := find?_of_first? hentity hfirst
      cases hnamed : namedQuery? calls name type.name with
      | some template =>
        rw [resolve_named (hcatalog.trans hnamed)] at hresolve
        cases hresolve
        exact .named hnone hfirst hnamed (returns_iff.2 rfl)
      | none =>
        cases htemplate : d.template with
        | some template =>
          rw [resolve_annotated (hcatalog.trans hnamed) htemplate] at hresolve
          cases hresolve
          exact .annotated hnone hfirst hnamed htemplate (returns_iff.2 rfl)
        | none =>
          rw [resolve_derived (hcatalog.trans hnamed) htemplate, name_of_first? hfirst] at hresolve
          cases hderive : derive e name with
          | error cause =>
            rw [hderive] at hresolve
            cases hresolve
          | ok finder =>
            rw [hderive] at hresolve
            cases hresolve
            exact .derived hnone hfirst hnamed htemplate hderive (returns_iff.2 rfl)

theorem isDerived_iff {type : String} :
    isDerived type calls name = true ↔ implementation? calls name = none ∧
      namedQuery? calls name type = none ∧ ∃ d, first? calls name = some d ∧ d.template = none := by
  simp [isDerived, and_assoc, Option.any_eq_true]

theorem fails_eq (hentity : type.entity = .ok e) (calls : List Call) (name : String) :
    fails e (.ofList (entries calls)) (declarations calls) (implemented (ofCalls calls)) name =
      (isDerived type.name calls name && !(derive e name).isOk) := by
  have hfind : (declarations calls).find? (·.name = name) = first? calls name := rfl
  rw [fails, isDerived, find?_implemented, hfind, Option.isNone_map, Bool.and_assoc, Bool.and_assoc]
  congr 1
  cases hfirst : first? calls name with
  | none => simp
  | some d =>
    have hcatalog := find?_of_first? hentity hfirst
    cases hnamed : namedQuery? calls name type.name with
    | some template =>
      simp [resolve_named (hcatalog.trans hnamed), Except.isOk, Except.toBool]
    | none =>
      cases htemplate : d.template with
      | some template =>
        simp [resolve_annotated (hcatalog.trans hnamed) htemplate, htemplate, Except.isOk,
          Except.toBool]
      | none =>
        rw [Option.any_some, resolve_derived (hcatalog.trans hnamed) htemplate,
          name_of_first? hfirst]
        cases derive e name <;> simp [htemplate, Except.map, Except.isOk, Except.toBool]

/-- Only a declaration whose name is derived can fail the build of a type whose id has a field. -/
theorem build_eq_error (hentity : type.entity = .ok e)
    (hid : Text.isBlankText e.idProperty.fieldName = false) {cause : Error} :
    (ofCalls calls).build type settings none = .error cause ↔
      ∃ d, (declarations calls).find?
          (fun d => isDerived type.name calls d.name && !(derive e d.name).isOk) = some d ∧
        derive e d.name = .error cause := by
  have hmap (x : Except Error (Dictionary Method)) (f : Dictionary Method → Repository) :
      x.map f = .error cause ↔ x = .error cause := by
    cases x <;> simp [Except.map]
  rw [build_eq hentity hid, hmap, resolveAll_eq_error]
  simp only [fails_eq hentity]
  refine exists_congr fun d => and_congr_right fun hfind => ?_
  have hfirst : first? calls d.name = some d :=
    @find?_name_of_find? d (declarations calls)
      (fun name => isDerived type.name calls name && !(derive e name).isOk) hfind
  have hd : isDerived type.name calls d.name = true := by
    have hp := List.find?_some hfind
    rw [Bool.and_eq_true] at hp
    exact hp.1
  obtain ⟨-, hnamed, d', hfirst', htemplate⟩ := isDerived_iff.1 hd
  obtain rfl := Option.some.inj (hfirst.symm.trans hfirst')
  rw [resolve_derived ((find?_of_first? hentity hfirst).trans hnamed) htemplate]
  cases derive e d.name <;> simp [Except.map]

theorem find?_methods_of_build (hentity : type.entity = .ok e) {r : Repository}
    (h : (ofCalls calls).build type settings none = .ok r) (name : String) (m : Method) :
    r.methods.find? name = some m ↔ Resolved type.name e calls name m := by
  cases hid : Text.isBlankText e.idProperty.fieldName with
  | true =>
    rw [build_of_blank hentity hid] at h
    cases h
  | false =>
    rw [build_eq hentity hid] at h
    cases hall : resolveAll e (.ofList (entries calls)) (declarations calls)
        (implemented (ofCalls calls)) with
    | error cause =>
      rw [hall] at h
      cases h
    | ok methods =>
      rw [hall] at h
      cases h
      rw [resolved_iff hentity]
      exact find?_resolveAll hall name m

/-- The calls of a builder decide the method for each name by priority. Of the declarations whose
names are derived, the first one that fails is what the build fails with. It is of no account how
the calls of one kind are placed among those of another, or in which order the implementations are
taken. -/
theorem build_ofCalls (hentity : type.entity = .ok e) (settings : Settings) (calls : List Call) :
    (∀ cause, (ofCalls calls).build type settings none = .error cause ↔
      if Text.isBlankText e.idProperty.fieldName then cause = .blankFieldName
      else ∃ d, (declarations calls).find?
          (fun d => isDerived type.name calls d.name && !(derive e d.name).isOk) = some d ∧
        derive e d.name = .error cause) ∧
    (∀ r, (ofCalls calls).build type settings none = .ok r →
      ∀ name m, r.methods.find? name = some m ↔ Resolved type.name e calls name m) ∧
    (∀ calls', declarations calls' = declarations calls → entries calls' = entries calls →
      implementations calls' = implementations calls →
      (ofCalls calls').build type settings none = (ofCalls calls).build type settings none) ∧
    ∀ drained : List (String × Implementation), drained.Perm (ofCalls calls).custom →
      .ofList (drained.map fun (name, run) => (name, customMethod (declarations calls) name run)) =
        implemented (ofCalls calls) := by
  refine ⟨fun cause => ?_, fun r hr => find?_methods_of_build hentity hr, fun calls' hd he hi => ?_,
    fun drained hperm => ?_⟩
  · cases hid : Text.isBlankText e.idProperty.fieldName with
    | true => simp [build_of_blank hentity hid, eq_comm]
    | false =>
      rw [if_neg Bool.false_ne_true]
      exact build_eq_error hentity hid
  · rw [ofCalls_eq, ofCalls_eq calls, hd, he, hi]
  · have hdeclared : (ofCalls calls).declared = declarations calls := by
      rw [ofCalls_eq]
    have hsorted : (implemented (ofCalls calls)).Sorted := by
      rw [implemented, ofCalls_eq]
      exact (Dictionary.sorted_ofList _).map (customMethod _)
    apply hsorted.ofList_eq
    rw [implemented, hdeclared]
    exact hperm.map _

section Books

def nothing : Implementation := fun _ => pure (.one none)

def bookCalls : List Call :=
  [.declare { name := "findByTitle", result := some .page }, .implement "findThickest" nothing,
    .declare { name := "findFirstById", template := some "id:none" },
    .namedQueries [("Book.findFirstById", "id:?0")],
    .declare { name := "titled", template := some "title:?0" }, .declare { name := "countByTitle" },
    .declare { name := "findByTitle", template := some "title:none" }]

def firstById : MethodName :=
  ⟨"findFirstById", .find, false, some 1, [[⟨"Id", "Id", .simpleProperty⟩]], []⟩

def countTitle : MethodName :=
  ⟨"countByTitle", .count, false, none, [[⟨"Title", "Title", .simpleProperty⟩]], []⟩

def findByTitle : Finder :=
  ⟨"findByTitle", .find, [[⟨bookTitle, .simpleProperty⟩]], [], none⟩

def countByTitle : Finder :=
  ⟨"countByTitle", .count, [[⟨bookTitle, .simpleProperty⟩]], [], none⟩

theorem derive_findByTitle : derive bookEntity "findByTitle" = .ok findByTitle := by
  cbv

theorem ofText_countTitle : MethodName.ofText "countByTitle" = .ok countTitle := by
  cbv

theorem derive_countByTitle : derive bookEntity "countByTitle" = .ok countByTitle := by
  rw [derive, ofText_countTitle]
  cbv

theorem guessed_findFirstById : Guessed "findFirstById" false .one := by
  have hname : MethodName.ofText "findFirstById" = .ok firstById := by cbv
  exact .one hname rfl rfl

theorem guessed_countByTitle : Guessed "countByTitle" false .count :=
  .count ofText_countTitle rfl

theorem guessed_titled : Guessed "titled" false .list := by
  have hname : MethodName.ofText "titled" = .error (.notAMethodName "titled") := by cbv
  exact .unreadList hname

theorem build_ofCalls_books :
    ∃ r, (ofCalls bookCalls).build books.type {} none = .ok r ∧
      r.methods.find? "findThickest" = some ⟨.custom nothing, none, none⟩ ∧
      r.methods.find? "findFirstById" = some ⟨.named "id:?0", some .one, none⟩ ∧
      r.methods.find? "titled" = some ⟨.annotated "title:?0", some .list, none⟩ ∧
      r.methods.find? "findByTitle" = some ⟨.derived findByTitle, some .page, none⟩ ∧
      r.methods.find? "countByTitle" = some ⟨.derived countByTitle, some .count, none⟩ := by
  obtain ⟨herror, hresolved, -⟩ := @build_ofCalls books.type bookEntity rfl {} bookCalls
  have hnone : (declarations bookCalls).find? (fun d =>
      isDerived "Book" bookCalls d.name && !(derive bookEntity d.name).isOk) = none := by
    have hok (name : String) (finder : Finder) (h : derive bookEntity name = .ok finder) :
        ¬(isDerived "Book" bookCalls name && !(derive bookEntity name).isOk) = true := by
      simp [h, Except.isOk, Except.toBool]
    rw [List.find?_eq_none]
    change ∀ d ∈ [_, _, _, _, _], _
    simp only [List.forall_mem_cons]
    exact ⟨hok _ _ derive_findByTitle, nofun, nofun, hok _ _ derive_countByTitle,
      hok _ _ derive_findByTitle, nofun⟩
  cases hb : (ofCalls bookCalls).build books.type {} none with
  | error cause =>
    have hfails := (herror cause).1 hb
    rw [if_neg (by decide +kernel)] at hfails
    obtain ⟨d, hfind, -⟩ := hfails
    cases hnone.symm.trans hfind
  | ok r =>
    have h := hresolved r hb
    have hnamed := @Resolved.named "Book" bookEntity bookCalls "findFirstById" _ _ _ rfl rfl rfl
      (.guessed rfl guessed_findFirstById)
    have hannotated := @Resolved.annotated "Book" bookEntity bookCalls "titled" _ _ _ rfl rfl rfl
      rfl (.guessed rfl guessed_titled)
    have hdeclared := @Resolved.derived "Book" bookEntity bookCalls "findByTitle" _ _ _ rfl rfl rfl
      rfl derive_findByTitle (.declared rfl)
    have hcounted := @Resolved.derived "Book" bookEntity bookCalls "countByTitle" _ _ _ rfl rfl rfl
      rfl derive_countByTitle (.guessed rfl guessed_countByTitle)
    exact ⟨r, rfl, (h _ _).2 (.custom rfl), (h _ _).2 hnamed, (h _ _).2 hannotated,
      (h _ _).2 hdeclared, (h _ _).2 hcounted⟩

end Books

end Build

end SearchMapper.Repository.Builder
