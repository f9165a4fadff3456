import SearchMapper.Proofs.Index.Replay
import SearchMapper.Proofs.Mapping.Fields
import SearchMapper.Proofs.Repository.Limits

namespace SearchMapper

open Index (Expr Write)

def Json.isTextOrNumber : Json → Bool
  | text _ | int _ | float _ => true
  | _ => false

namespace Entity

def idText? (e : Entity) : Json → Option String
  | .object members => (Dictionary.find? e.idProperty.name members).bind Json.scalarText?
  | _ => none

/-- Documents that have a text or a number as their id. -/
def Takes (e : Entity) (doc : Json) : Prop :=
  ∃ (members : Dictionary Json) (id : Json), doc = .object members ∧ e.Admits members ∧
    members.find? e.idProperty.name = some id ∧ id.isTextOrNumber = true

theorem exists_record_of_takes {table : TypeTable} {type : String} {ds : List Descriptor}
    {e : Entity} (he : ofDescriptors table type ds = .ok e) (hnames : e.fieldNames.Nodup)
    {doc : Json} (h : e.Takes doc) :
    ∃ record id, Record.ofDocument e doc = .ok record ∧ e.idText? doc = some id ∧
      record.valueText? e.idProperty.fieldName = some id := by
  obtain ⟨members, value, rfl, hadmits, hvalue, hid⟩ := h
  obtain ⟨hi, key, hkey⟩ := indexed_of_ofDescriptors he
  have hproperty : e.properties.find? e.idProperty.name = some e.idProperty := by
    rwa [hi.name_eq hkey]
  have hpath : ⟨[e.idProperty]⟩ ∈ e.paths :=
    List.mem_map_of_mem (hi.mem_chainsIn_cons.2 ⟨hproperty, .inl rfl⟩)
  have hwhole : Record.isWhole e.idProperty.children value = true := by
    cases value <;> simp_all [Json.isTextOrNumber, Record.isWhole, Json.isNull, Json.object?]
  have hfield := (Record.find?_ofObject hi hnames hadmits hpath).2
    (Record.leads_singleton.2 ⟨hvalue, hwhole⟩)
  rw [Path.fieldName_singleton] at hfield
  obtain ⟨id, htext⟩ : ∃ id, value.scalarText? = some id := by
    cases value <;> simp_all [Json.isTextOrNumber, Json.scalarText?]
  refine ⟨_, id, rfl, ?_, ?_⟩
  · rw [idText?, hvalue]
    exact htext
  · rw [Record.valueText?, hfield]
    exact htext

def put (e : Entity) (records : String → Option Record) (doc : Json) : String → Option Record :=
  match e.idText? doc, Record.ofDocument e doc with
  | some id, .ok record => Function.update records id (some record)
  | _, _ => records

def remove (e : Entity) (records : String → Option Record) (doc : Json) :
    String → Option Record :=
  match e.idText? doc with
  | some id => Function.update records id none
  | none => records

end Entity

theorem Query.toText_matchAll : Query.matchAll.toText = "*:*" := by
  decide

theorem Index.Expr.ofText_matchAll : Expr.ofText Query.matchAll.toText = .ok .all := by
  rw [Query.toText_matchAll]
  cbv

namespace Store

variable {s : Store}

theorem matching_all : s.matching .all = s.committed.values :=
  List.filter_eq_self.2 fun _ _ => rfl

theorem length_matching_all : (s.matching .all).length = s.committed.length := by
  rw [matching_all, Dictionary.values, List.length_map]

theorem shown_matchAll : s.shown .matchAll .all = s.committed.values := by
  have hterms : Query.matchAll.readTerms = [] := rfl
  have hproject : Index.project (Query.matchAll.projection.map Field.name) = id :=
    funext fun _ => if_pos (.inl rfl)
  rw [shown, hterms, hproject, Index.sortHits_nil, matching_all, List.map_id]

theorem reads_matchAll (h : s.scripted = []) : s.Reads .matchAll .all :=
  ⟨h, rfl, Expr.ofText_matchAll⟩

end Store

namespace Session

theorem documents_eq_error {type : DocumentType} {entity : Entity} {records : List Record}
    (he : type.entity = .ok entity)
    (h : ∃ record ∈ records, ∀ doc, type.read entity record ≠ .ok doc) (s : Store) :
    documents type records s = .error .unreadableDocument s := by
  have hcause (record : Record) (failure : Error)
      (hread : type.read entity record = .error failure) : failure = .unreadableDocument := by
    unfold DocumentType.read at hread
    split at hread
    · cases hread
    · exact (Except.error.inj hread).symm
  rw [documents, bind_of_ok (ofExcept_of_ok he s),
    mapM_eq_error (fun record _ => hcause record) h]
  rfl

end Session

namespace Repository

open Session (bind_of_ok ofExcept_of_ok)

inductive Change
  | save (doc : Json)
  | saveAll (docs : List Json)
  | delete (doc : Json)
  | deleteById (id : String)
  | deleteAll

namespace Change

def perform (r : Repository) : Change → Session Unit
  | save doc => r.save doc
  | saveAll docs => r.saveAll docs
  | delete doc => r.delete doc
  | deleteById id => r.deleteById (.text id)
  | deleteAll => r.deleteAll

def documents : Change → List Json
  | save doc | delete doc => [doc]
  | saveAll docs => docs
  | _ => []

/-- What a change makes of the map from ids to records. -/
def effect (e : Entity) (records : String → Option Record) : Change → String → Option Record
  | save doc => e.put records doc
  | saveAll docs => docs.foldl e.put records
  | delete doc => e.remove records doc
  | deleteById id => Function.update records id none
  | deleteAll => fun _ => none

end Change

/-- A repository whose changes are committed, over a store whose key is the id of its documents. -/
structure Governs (r : Repository) (s : Store) : Prop where
  entity : r.type.entity = .ok r.entity
  idField : r.idField.name = r.entity.idProperty.fieldName
  names : r.entity.fieldNames.Nodup
  commits : r.settings.commitOnWrite = true
  key : s.keyField = r.entity.idProperty.fieldName
  staged : s.staged = []

variable {r : Repository} {s : Store} {records : String → Option Record} {doc : Json}
  {docs : List Json}

theorem Governs.exists_record (h : r.Governs s) (hdoc : r.entity.Takes doc) :
    ∃ record id, Record.ofDocument r.entity doc = .ok record ∧ r.entity.idText? doc = some id ∧
      record.valueText? s.keyField = some id := by
  rw [h.key]
  exact Entity.exists_record_of_takes h.entity h.names hdoc

theorem Governs.with_committed (h : r.Governs s) (committed : Dictionary Record) :
    r.Governs { s with committed := committed } :=
  ⟨h.entity, h.idField, h.names, h.commits, h.key, h.staged⟩

theorem Governs.commit_stage (h : r.Governs s) (writes : List Write) :
    (s.stage writes).commit =
      { s with committed := writes.foldl (Store.apply s.keyField) s.committed } := by
  simp only [Store.commit, Store.stage, h.staged, List.nil_append]

theorem Governs.exists_records (h : r.Governs s) (hdocs : ∀ doc ∈ docs, r.entity.Takes doc) :
    ∃ added, docs.mapM (Record.ofDocument r.entity) = .ok added ∧
      (∀ record ∈ added, (record.valueText? s.keyField).isSome) ∧
      ∀ records, Write.replay s.keyField (added.map .add) records =
        docs.foldl r.entity.put records := by
  induction docs with
  | nil => exact ⟨[], rfl, nofun, fun _ => rfl⟩
  | cons doc docs ih =>
    obtain ⟨hdoc, hdocs⟩ := List.forall_mem_cons.1 hdocs
    obtain ⟨record, id, hrecord, hid, hkey⟩ := h.exists_record hdoc
    obtain ⟨added, hadded, hkeys, hreplay⟩ := ih hdocs
    refine ⟨record :: added, ?_, ?_, fun records => ?_⟩
    · rw [List.mapM_cons, hrecord, hadded]
      rfl
    · refine List.forall_mem_cons.2 ⟨?_, hkeys⟩
      rw [hkey]
      rfl
    · have hput : (Write.add record).effect s.keyField records = r.entity.put records doc := by
        simp only [Write.effect, Entity.put, hkey, hid, hrecord]
      rw [List.foldl_cons, ← hreplay, ← hput]
      rfl

theorem saveAll_eq (h : r.Governs s) {added : List Record}
    (hadded : docs.mapM (Record.ofDocument r.entity) = .ok added)
    (hkeys : ∀ record ∈ added, (record.valueText? s.keyField).isSome) :
    r.saveAll docs s = .ok () (s.stage (added.map .add)).commit := by
  have hsave : Session.save r.type docs s = .ok () (s.stage (added.map .add)) := by
    rw [Session.save]
    cases docs with
    | nil =>
      obtain rfl : [] = added := Except.ok.inj hadded
      exact congrArg (EStateM.Result.ok ()) (Store.stage_eq_self.2 rfl).symm
    | cons doc docs =>
      rw [if_neg (by simp), bind_of_ok (ofExcept_of_ok h.entity s),
        bind_of_ok (ofExcept_of_ok hadded s), Session.onStore, Store.add_eq_ok hkeys]
  rw [saveAll, bind_of_ok hsave, commitWrite_eq h.commits]

theorem deleteIds_eq (h : r.Governs s) (id : String) :
    (do Session.deleteIds [id]; r.commitWrite) s = .ok () (s.stage [.deleteId id]).commit := by
  have hdelete : Session.deleteIds [id] s = .ok () (s.stage [.deleteId id]) := rfl
  rw [bind_of_ok hdelete, commitWrite_eq h.commits]

theorem Change.perform_eq (h : r.Governs s) {change : Change}
    (hdocs : ∀ doc ∈ change.documents, r.entity.Takes doc) :
    ∃ writes, change.perform r s = .ok () (s.stage writes).commit ∧
      ∀ records, Write.replay s.keyField writes records = change.effect r.entity records := by
  cases change with
  | save doc =>
    obtain ⟨added, hadded, hkeys, hreplay⟩ := h.exists_records hdocs
    exact ⟨_, saveAll_eq h hadded hkeys, hreplay⟩
  | saveAll docs =>
    obtain ⟨added, hadded, hkeys, hreplay⟩ := h.exists_records hdocs
    exact ⟨_, saveAll_eq h hadded hkeys, hreplay⟩
  | delete doc =>
    obtain ⟨record, id, hrecord, hid, hkey⟩ := h.exists_record (hdocs doc List.mem_cons_self)
    refine ⟨[.deleteId id], ?_, fun records => ?_⟩
    · have hperform : (Change.delete doc).perform r s =
          (do Session.deleteIds [id]; r.commitWrite) s := by
        rw [perform, Repository.delete, bind_of_ok (ofExcept_of_ok hrecord s), h.idField, ← h.key,
          hkey]
      rw [hperform, deleteIds_eq h]
    · simp only [effect, Entity.remove, hid]
      rfl
  | deleteById id => exact ⟨[.deleteId id], deleteIds_eq h id, fun _ => rfl⟩
  | deleteAll =>
    refine ⟨[.deleteMatches .all], ?_, fun records => ?_⟩
    · rw [perform, Repository.deleteAll,
        bind_of_ok (Session.deleteMatches_eq Expr.ofText_matchAll s), commitWrite_eq h.commits]
    · funext key
      exact Option.filter_eq_none_iff.2 fun record _ => by simp [Expr.holds]

theorem performAll_eq (h : r.Governs s) (hs : s.committed.Represents records)
    {changes : List Change}
    (hdocs : ∀ change ∈ changes, ∀ doc ∈ change.documents, r.entity.Takes doc) :
    ∃ committed, changes.forM (Change.perform r) s = .ok () { s with committed := committed } ∧
      committed.Represents (changes.foldl (Change.effect r.entity) records) := by
  induction changes generalizing s records with
  | nil => exact ⟨s.committed, rfl, hs⟩
  | cons change changes ih =>
    obtain ⟨hfirst, hrest⟩ := List.forall_mem_cons.1 hdocs
    obtain ⟨writes, hperform, hreplay⟩ := Change.perform_eq h hfirst
    have hcommitted : (writes.foldl (Store.apply s.keyField) s.committed).Represents
        (change.effect r.entity records) := by
      rw [← hreplay]
      exact Write.represents_foldl_apply hs writes
    obtain ⟨last, hlast, hrepresents⟩ := ih (h.with_committed _) hcommitted hrest
    refine ⟨last, ?_, hrepresents⟩
    rw [h.commit_stage] at hperform
    exact (bind_of_ok hperform _).trans hlast

theorem count_eq (hs : s.scripted = []) :
    ∃ request, r.count s = .ok s.committed.length (s.logged [request]) := by
  rw [← s.length_matching_all]
  exact Session.count_eq (Store.reads_matchAll hs)

theorem findAll_eq (hs : s.scripted = []) (hentity : r.type.entity = .ok r.entity)
    (hn : s.committed.length ≤ maxRows) :
    ∃ requests, r.findAll s =
      Session.documents r.type s.committed.values (s.logged requests) := by
  have hreads := Store.reads_matchAll hs
  by_cases hnil : s.matching .all = []
  · obtain ⟨requests, hfind⟩ := findMatching_of_nil (r := r) hreads hnil
    refine ⟨requests, hfind.trans ?_⟩
    rw [← Store.matching_all, hnil, Session.documents_eq hentity .nil]
  · rw [← s.length_matching_all] at hn
    obtain ⟨requests, hfind⟩ := findMatching_of_ne_nil (r := r) hreads hnil hn
    rw [Store.shown_matchAll] at hfind
    exact ⟨requests, hfind⟩

theorem Builder.of_build {type : DocumentType} {settings : Settings} {text : Option String}
    {b : Builder} (h : b.build type settings text = .ok r) :
    r.type = type ∧ type.entity = .ok r.entity ∧ r.settings = settings ∧
      r.idField.name = r.entity.idProperty.fieldName := by
  obtain ⟨entity, hentity, h⟩ := exists_of_bind_eq_ok h
  obtain ⟨idField, hid, h⟩ := exists_of_bind_eq_ok h
  obtain ⟨methods, -, h⟩ := exists_of_bind_eq_ok h
  obtain rfl := Except.ok.inj h
  exact ⟨rfl, hentity, rfl, Field.name_of_named hid⟩

/-- A repository does to the store what its changes do to a map from ids to records. Every change
succeeds and leaves nothing staged. Counting gives the size of the map, and finding all documents
gives those of its records in the order of their ids, if all of them can be read back. -/
theorem performAll_refines_map {type : DocumentType} {settings : Settings} {text : Option String}
    {b : Builder} (hbuild : b.build type settings text = .ok r)
    (hcommit : settings.commitOnWrite = true)
    (hkey : s.keyField = r.entity.idProperty.fieldName) (hnames : r.entity.fieldNames.Nodup)
    (hstaged : s.staged = []) (hscripted : s.scripted = [])
    (hs : s.committed.Represents records) {changes : List Change}
    (hdocs : ∀ change ∈ changes, ∀ doc ∈ change.documents, r.entity.Takes doc) :
    ∃ s', changes.forM (Change.perform r) s = .ok () s' ∧ s'.staged = [] ∧
      s'.committed.Represents (changes.foldl (Change.effect r.entity) records) ∧
      (∃ request, r.count s' =
        .ok (Set.ncard {id | (changes.foldl (Change.effect r.entity) records id).isSome})
          (s'.logged [request])) ∧
      (s'.committed.length < UInt32.size →
        (∀ docs, List.Forall₂ (fun record doc => type.read r.entity record = .ok doc)
            s'.committed.values docs →
          ∃ requests, r.findAll s' = .ok docs (s'.logged requests)) ∧
        ((∃ record ∈ s'.committed.values, ∀ doc, type.read r.entity record ≠ .ok doc) →
          ∃ requests, r.findAll s' = .error .unreadableDocument (s'.logged requests))) := by
  obtain ⟨rfl, hentity, rfl, hid⟩ := Builder.of_build hbuild
  have hgoverns : r.Governs s := ⟨hentity, hid, hnames, hcommit, hkey, hstaged⟩
  obtain ⟨committed, hperform, hrepresents⟩ := performAll_eq hgoverns hs hdocs
  refine ⟨_, hperform, hstaged, hrepresents, ?_, fun hsize => ?_⟩
  · obtain ⟨request, hcount⟩ := count_eq (r := r) (s := { s with committed := committed }) hscripted
    rw [hrepresents.length_eq] at hcount
    exact ⟨request, hcount⟩
  · obtain ⟨requests, hfind⟩ := findAll_eq (s := { s with committed := committed }) hscripted
      hentity (Nat.le_sub_one_of_lt hsize)
    refine ⟨fun docs hread => ⟨requests, ?_⟩, fun hbad => ⟨requests, ?_⟩⟩
    · rw [hfind, Session.documents_eq hentity hread]
    · rw [hfind, Session.documents_eq_error hentity hbad]

section Books

def bookOf (id : Json) (title : String) : Json :=
  .object [("id", id), ("title", .text title)]

def bookChanges : List Change :=
  [.deleteAll, .save (bookOf (.text "1") "Emma"),
    .saveAll [bookOf (.int 2) "Emma", bookOf (.text "1") "Persuasion", bookOf (.text "3") "Emma"],
    .delete (bookOf (.text "2") "Sanditon"), .deleteById "3"]

theorem build_books : Builder.build books.type {} none {} = .ok books := rfl

theorem takes_bookOf {id : Json} (h : id.isTextOrNumber = true) (ho : id.Ordered) (title : String) :
    bookEntity.Takes (bookOf id title) := by
  have hlt : "id" < "title" := by decide
  refine ⟨_, id, rfl, ⟨.object (List.pairwise_pair.2 hlt) ?_, ?_⟩, rfl, h⟩
  · simp only [List.forall_mem_cons]
    exact ⟨ho, .text _, nofun⟩
  · have hstrays : Record.strays "" bookEntity.properties
        [("id", id), ("title", .text title)] = [] := by
      cases id <;> rfl
    rw [hstrays]
    exact nofun

theorem takes_bookChanges :
    ∀ change ∈ bookChanges, ∀ doc ∈ change.documents, bookEntity.Takes doc := by
  simp only [bookChanges, List.forall_mem_cons, Change.documents]
  exact ⟨nofun, ⟨takes_bookOf rfl (.text _) _, nofun⟩,
    ⟨takes_bookOf rfl (.int _) _, takes_bookOf rfl (.text _) _, takes_bookOf rfl (.text _) _,
      nofun⟩,
    ⟨takes_bookOf rfl (.text _) _, nofun⟩, nofun, nofun⟩

theorem run_bookChanges :
    bookChanges.forM (Change.perform books) shelved = .ok () { shelved with committed :=
      [("1", [("id", .text "1"), ("title", .text "Persuasion")])] } := by
  cbv

theorem performAll_refines_map_shelved :
    ∃ s', bookChanges.forM (Change.perform books) shelved = .ok () s' ∧
      s'.committed.Represents
        (bookChanges.foldl (Change.effect bookEntity) shelved.committed.find?) ∧
      ∃ requests, books.findAll s' =
        .ok [bookOf (.text "1") "Persuasion"] (s'.logged requests) := by
  have hshelved : shelved.committed.Represents fun id => shelved.committed.find? id :=
    ⟨by decide, fun _ => rfl⟩
  obtain ⟨s', hrun, -, hrepresents, -, hfind⟩ := performAll_refines_map build_books rfl rfl
    (by decide) rfl rfl hshelved takes_bookChanges
  cases run_bookChanges.symm.trans hrun
  exact ⟨_, hrun, hrepresents, (hfind (by decide)).1 _ (.cons rfl .nil)⟩

end Books

end Repository

end SearchMapper
