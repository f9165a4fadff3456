import SearchMapper.Proofs.Index.Replay
import SearchMapper.Proofs.Query.Terms
import SearchMapper.Proofs.Repository.Limits

namespace SearchMapper

open Index (Expr Test Write)

/-- A single value whose text has only ASCII letters and digits. -/
def Value.isAlphanumeric : Value → Bool
  | .null | .list _ => false
  | v => v.toText.toList.all Char.isAlphanum

section Ids

variable {id : Value}

theorem Value.isAlphanum_of_mem (h : id.isAlphanumeric = true) :
    ∀ c ∈ id.toText.toList, c.isAlphanum = true := by
  cases id <;> first | exact List.all_eq_true.1 h | cases h

theorem Plain.isTerm_of_isAlphanumeric (h : id.isAlphanumeric = true) :
    isTerm ['('] id = true := by
  have hall := Value.isAlphanum_of_mem h
  have hno (c : Char) (hc : c.isAlphanum = false) : c ∉ id.toText.toList := fun hm => by
    simp [hall c hm] at hc
  apply isTerm_of_isWord
  · apply isWord_of_notMem
    · exact fun c hc => Text.isBlank_of_isAlphanum (hall c hc)
    · exact hno _ (by decide)
    · exact hno _ (by decide)
    · exact hno _ (by decide)
  · exact hno _ (by decide)
  · refine (Option.all_eq_true ..).2 fun c hc => ?_
    have hm := List.mem_of_mem_head? hc
    have hmarks : c ≠ '"' ∧ c ≠ '[' ∧ c ≠ '\x7b' ∧ c ≠ '(' := by
      refine ⟨?_, ?_, ?_, ?_⟩ <;> rintro rfl <;> exact hno _ (by decide) hm
    simp [hmarks]

theorem Criteria.is_eq_push (h : id.isAlphanumeric = true) (c : Criteria) :
    c.is id = c.push (.is id) := by
  cases id <;> first | rfl | cases h

theorem Record.exact_holds_of_valueText? {record : Record} {field : String}
    (h : id.isAlphanumeric = true) (hkey : record.valueText? field = some id.toText) :
    (Test.exact id.toText).holds (record.fieldValues field) = true := by
  apply Criteria.exact_holds_of_mem
  cases hfield : record.find? field with
  | none => simp [Record.valueText?, hfield] at hkey
  | some value =>
    rw [Record.valueText?, hfield, Option.bind_some] at hkey
    cases value with
    | array items =>
      -- the text of an array starts with a bracket
      have htext : '[' ∈ id.toText.toList := by
        rw [← Option.some.inj hkey]
        simp [Json.compact]
      exact absurd (Value.isAlphanum_of_mem h _ htext) (by decide)
    | _ => simp [Record.fieldValues, hfield, hkey]

end Ids

namespace Store

variable {s : Store} {id : String}

structure Filed (s : Store) : Prop where
  sorted : s.committed.Sorted
  keyed : Write.Keyed s.keyField fun key => s.committed.find? key

theorem Filed.commit (h : s.Filed) : s.commit.Filed := by
  have hs : s.committed.Represents fun key => s.committed.find? key := ⟨h.sorted, fun _ => rfl⟩
  have hcommit : s.commit.committed.Represents
      (Write.replay s.keyField s.staged fun key => s.committed.find? key) :=
    Write.represents_foldl_apply hs s.staged
  refine ⟨hcommit.sorted, ?_⟩
  have hkeyed := h.keyed.replay s.staged
  intro key record hr
  exact hkeyed key record ((hcommit.find?_eq key).symm.trans hr)

theorem Operation.committed_perform {operation : Operation} (h : operation ≠ .commit) (s : Store) :
    (operation.perform s).committed = s.committed := by
  cases operation with
  | add records => rw [perform, add_eq, stage]
  | deleteMatches text =>
    rw [perform, Store.deleteMatches]
    split <;> rfl
  | query request => exact (query_keeps request s).1
  | commit => exact absurd rfl h
  | _ => rfl

theorem Filed.perform (h : s.Filed) (operation : Operation) : (operation.perform s).Filed := by
  by_cases hc : operation = .commit
  · subst hc
    exact h.commit
  · have hcommitted := operation.committed_perform hc s
    exact ⟨by rw [hcommitted]; exact h.sorted,
      by rw [operation.keyField_perform, hcommitted]; exact h.keyed⟩

theorem filed_run (keyField : String) (operations : List Operation) :
    (run keyField operations).Filed := by
  have hfrom (s : Store) (h : s.Filed) : (operations.foldl Operation.perform s).Filed := by
    induction operations generalizing s with
    | nil => exact h
    | cons operation operations ih => exact ih _ (h.perform operation)
  exact hfrom _ ⟨List.Pairwise.nil, fun _ _ hnone => nomatch hnone⟩

/-- The records that a query for an id finds, in the order of their keys. -/
def namesakes (s : Store) (id : String) : List Record :=
  s.committed.values.filter fun record => (Test.exact id).holds (record.fieldValues s.keyField)

/-- Only the record under the id itself can be found by a query for the id. -/
def IsUnrivalled (s : Store) (id : String) : Prop :=
  ∀ key record, s.committed.find? key = some record →
    (Test.exact id).holds (record.fieldValues s.keyField) = true → key = id

theorem mem_namesakes (h : s.Filed) {record : Record} :
    record ∈ s.namesakes id ↔ ∃ key, s.committed.find? key = some record ∧
      (Test.exact id).holds (record.fieldValues s.keyField) = true := by
  rw [namesakes, List.mem_filter, Dictionary.values, List.mem_map]
  constructor
  · rintro ⟨⟨⟨key, record⟩, hm, rfl⟩, hholds⟩
    exact ⟨key, h.sorted.mem_iff.1 hm, hholds⟩
  · rintro ⟨key, hr, hholds⟩
    exact ⟨⟨(key, record), h.sorted.mem_iff.2 hr, rfl⟩, hholds⟩

theorem namesakes_eq_toList_iff (h : s.Filed)
    (hown : ∀ record, s.committed.find? id = some record → record ∈ s.namesakes id) :
    s.namesakes id = (s.committed.find? id).toList ↔ s.IsUnrivalled id := by
  constructor
  · intro heq key record hr hholds
    have hm : record ∈ s.namesakes id := (mem_namesakes h).2 ⟨key, hr, hholds⟩
    rw [heq, Option.mem_toList] at hm
    exact Option.some.inj ((h.keyed key record hr).symm.trans (h.keyed id record hm))
  · intro hone
    have hkey : ∀ entry ∈ s.committed,
        (Test.exact id).holds (entry.2.fieldValues s.keyField) = decide (entry.1 = id) := by
      intro entry hm
      have hr := h.sorted.mem_iff.1 hm
      rw [Bool.eq_iff_iff, decide_eq_true_eq]
      constructor
      · exact hone entry.1 entry.2 hr
      · rintro rfl
        exact (List.mem_filter.1 (hown entry.2 hr)).2
    rw [namesakes, Dictionary.values, List.filter_map]
    exact (congrArg _ (List.filter_congr hkey)).trans (h.sorted.filter_key id)

theorem committed_deleteId (s : Store) (id : String) :
    (s.deleteIds [id]).commit.committed = s.commit.committed.erase id := by
  simp only [commit, deleteIds, stage, List.map_cons, List.map_nil, List.foldl_append,
    List.foldl_cons, List.foldl_nil, apply]

theorem namesakes_deleteId_eq_nil_iff (h : s.Filed) :
    (s.deleteIds [id]).commit.namesakes id = [] ↔ s.commit.IsUnrivalled id := by
  have hfiled : (s.deleteIds [id]).commit.Filed :=
    (h.perform (.deleteIds [id])).perform .commit
  have hfind (key : String) : (s.deleteIds [id]).commit.committed.find? key =
      if id = key then none else s.commit.committed.find? key := by
    rw [committed_deleteId, Dictionary.find?_erase]
  rw [List.eq_nil_iff_forall_not_mem]
  constructor
  · intro hnone key record hr hholds
    by_contra hk
    refine hnone record ((mem_namesakes hfiled).2 ⟨key, ?_, hholds⟩)
    rw [hfind, if_neg (Ne.symm hk), hr]
  · intro hone record hm
    obtain ⟨key, hr, hholds⟩ := (mem_namesakes hfiled).1 hm
    rw [hfind] at hr
    split at hr
    · cases hr
    · next hk => exact hk (hone key record hr hholds).symm

end Store

namespace Session

variable {s : Store} {q : Query} {e : Expr}

theorem findOne_eq (h : s.Reads q e) (hw : q.window = none) (hsort : q.sort = none)
    (hp : q.projection = []) (type : DocumentType) :
    ∃ request, findOne type q s =
      (documents type ((s.matching e).take 1) >>= fun found => pure found.head?)
        (s.logged [request]) := by
  have hfind := @execute_request_eq s q e [] (Option Json) h.evaluates
    (fun request => { request with rows := some 1 }) rfl rfl fun _ response => do
      let found ← documents type (response.records.take 1)
      pure found.head?
  have hrecords : (Index.respond s.committed { q.toRequest with rows := some 1 } e []).records =
      (s.matching e).take 1 := by
    simp [Index.respond, Query.toRequest, hw, hsort, hp, Index.sortHits_nil, Store.hits_nil,
      Index.project_nil]
  simp only [hrecords, List.take_take, Nat.min_self] at hfind
  exact ⟨_, hfind⟩

end Session

namespace Repository

open Session (bind_of_ok)

variable {r : Repository} {s : Store} {id : Value}

/-- Whether there is a document with the id, and which one it is, is answered with a record or with
none. -/
structure Answers (r : Repository) (id : Value) (s : Store) (record? : Option Record) : Prop where
  existsById : ∃ s', r.existsById id s = .ok record?.isSome s'
  findById : ∃ found s', r.findById id s = .ok found s' ∧
    record?.mapM (r.type.read r.entity) = .ok found

theorem reads_byId (hname : Plain.isName r.idField.name = true) (hid : id.isAlphanumeric = true)
    (hs : s.scripted = []) :
    s.Reads (r.byId id) (.field r.idField.name (.one (.exact id.toText))) := by
  refine ⟨hs, rfl, ?_⟩
  have htext : (r.byId id).toText = ((Criteria.start r.idField).push (.is id)).toText :=
    congrArg Criteria.toText (Criteria.is_eq_push hid _)
  rw [htext]
  exact Criteria.ofText_is_of_isTerm hname (Plain.isTerm_of_isAlphanumeric hid)

theorem matching_byId (hkey : s.keyField = r.idField.name) (text : String) :
    s.matching (.field r.idField.name (.one (.exact text))) = s.namesakes text := by
  rw [← hkey]
  rfl

theorem existsById_eq (hname : Plain.isName r.idField.name = true)
    (hid : id.isAlphanumeric = true) (hkey : s.keyField = r.idField.name) (hs : s.scripted = []) :
    ∃ s', r.existsById id s = .ok (s.namesakes id.toText).head?.isSome s' := by
  obtain ⟨request, hcount⟩ := Session.count_eq (reads_byId hname hid hs)
  refine ⟨s.logged [request], ?_⟩
  rw [existsById, bind_of_ok hcount, matching_byId hkey]
  cases s.namesakes id.toText <;> rfl

theorem answers_namesakes (hentity : r.type.entity = .ok r.entity)
    (hname : Plain.isName r.idField.name = true) (hid : id.isAlphanumeric = true)
    (hkey : s.keyField = r.idField.name) (hs : s.scripted = [])
    (hd : ∀ record ∈ s.namesakes id.toText, ∃ doc, r.type.read r.entity record = .ok doc) :
    r.Answers id s (s.namesakes id.toText).head? := by
  refine ⟨existsById_eq hname hid hkey hs, ?_⟩
  obtain ⟨request, hfind⟩ := Session.findOne_eq (reads_byId hname hid hs) rfl rfl rfl r.type
  rw [matching_byId hkey] at hfind
  cases hn : s.namesakes id.toText with
  | nil =>
    rw [hn] at hfind
    have hnone := Session.documents_eq (s := s.logged [request]) hentity .nil
    exact ⟨none, s.logged [request], hfind.trans (bind_of_ok hnone _), rfl⟩
  | cons record rest =>
    obtain ⟨doc, hdoc⟩ := hd record (by rw [hn]; exact List.mem_cons_self)
    rw [hn] at hfind
    have hone := Session.documents_eq (s := s.logged [request]) hentity (.cons hdoc .nil)
    refine ⟨some doc, s.logged [request], hfind.trans (bind_of_ok hone _), ?_⟩
    simp [hdoc]

theorem answers_none_iff (hentity : r.type.entity = .ok r.entity)
    (hname : Plain.isName r.idField.name = true) (hid : id.isAlphanumeric = true)
    (hkey : s.keyField = r.idField.name) (hs : s.scripted = []) :
    r.Answers id s none ↔ s.namesakes id.toText = [] := by
  constructor
  · intro h
    obtain ⟨s', hfalse⟩ := h.existsById
    obtain ⟨s'', hsome⟩ := existsById_eq (r := r) hname hid hkey hs
    rw [hfalse, EStateM.Result.ok.injEq] at hsome
    cases hn : s.namesakes id.toText with
    | nil => rfl
    | cons record rest =>
      rw [hn] at hsome
      cases hsome.1
  · intro hn
    have h := answers_namesakes hentity hname hid hkey hs (by rw [hn]; nofun)
    rwa [hn] at h

theorem deleteById_eq (hcommit : r.settings.commitOnWrite = true) (id : Value) (s : Store) :
    r.deleteById id s = .ok () (s.deleteIds [id.toText]).commit := by
  have hdelete : Session.deleteIds [id.toText] s = .ok () (s.deleteIds [id.toText]) := rfl
  rw [deleteById, bind_of_ok hdelete, commitWrite_eq hcommit]

/-- Lookups by an id of letters and digits are answered with the first record that the id finds, and
with the one that is committed under it if no other is found. A deletion removes just the latter,
and so the id is still found behind it if another record is. -/
theorem lookups_by_id (hentity : r.type.entity = .ok r.entity)
    (hname : Plain.isName r.idField.name = true) (hid : id.isAlphanumeric = true)
    (operations : List Store.Operation) :
    let s := Store.run r.idField.name operations
    s.scripted = [] →
    (∀ record ∈ s.committed.values, ∃ doc, r.type.read r.entity record = .ok doc) →
    r.Answers id s (s.namesakes id.toText).head? ∧
    (s.IsUnrivalled id.toText → r.Answers id s (s.committed.find? id.toText)) ∧
    (r.settings.commitOnWrite = true →
      ∃ s', r.deleteById id s = .ok () s' ∧
        s' = Store.run r.idField.name (operations ++ [.deleteIds [id.toText], .commit]) ∧
        s'.committed = s.commit.committed.erase id.toText ∧
        s'.committed.find? id.toText = none ∧
        (r.Answers id s' none ↔ s.commit.IsUnrivalled id.toText)) := by
  intro s hs hd
  have hfiled : s.Filed := Store.filed_run r.idField.name operations
  have hkey : s.keyField = r.idField.name := Store.keyField_foldl_perform operations _
  have hanswers : r.Answers id s (s.namesakes id.toText).head? :=
    answers_namesakes hentity hname hid hkey hs fun record hm => hd record (List.mem_filter.1 hm).1
  have hown (record : Record) (hr : s.committed.find? id.toText = some record) :
      record ∈ s.namesakes id.toText := by
    have hholds := Record.exact_holds_of_valueText? hid (hfiled.keyed id.toText record hr)
    exact (Store.mem_namesakes hfiled).2 ⟨id.toText, hr, hholds⟩
  refine ⟨hanswers, fun hone => ?_, fun hcommit => ?_⟩
  · rw [(Store.namesakes_eq_toList_iff hfiled hown).2 hone] at hanswers
    simpa using hanswers
  · refine ⟨_, deleteById_eq hcommit id s, ?_, Store.committed_deleteId s _, ?_, ?_⟩
    · rw [Store.run, List.foldl_append]
      rfl
    · rw [Store.committed_deleteId, Dictionary.find?_erase, if_pos rfl]
    · have hnone :=
        @answers_none_iff r (s.deleteIds [id.toText]).commit id hentity hname hid hkey hs
      exact hnone.trans (Store.namesakes_deleteId_eq_nil_iff hfiled)

section Books

def arrivals : List Store.Operation :=
  [.add [book "1" "a", book "2" "b"], .commit]

theorem isUnrivalled_arrivals : (Store.run "id" arrivals).IsUnrivalled "1" := by
  have hfiled := Store.filed_run "id" arrivals
  intro key record hr hholds
  have hm := hfiled.sorted.mem_iff.2 hr
  have hcommitted : (Store.run "id" arrivals).committed =
      [("1", book "1" "a"), ("2", book "2" "b")] := rfl
  rw [hcommitted, List.mem_cons, List.mem_singleton] at hm
  rcases hm with he | he <;> cases he
  · rfl
  · exact absurd hholds (by decide)

theorem lookups_by_id_arrivals :
    books.Answers (.text "1") (Store.run "id" arrivals) (some (book "1" "a")) ∧
      ∃ s', books.deleteById (.text "1") (Store.run "id" arrivals) = .ok () s' ∧
        books.Answers (.text "1") s' none := by
  have hread : ∀ record ∈ (Store.run "id" arrivals).committed.values,
      ∃ doc, books.type.read bookEntity record = .ok doc :=
    List.forall_mem_cons.2 ⟨⟨_, rfl⟩, List.forall_mem_cons.2 ⟨⟨_, rfl⟩, List.forall_mem_nil _⟩⟩
  obtain ⟨-, hanswers, hdelete⟩ :=
    @lookups_by_id books (.text "1") rfl (by decide) (by decide) arrivals rfl hread
  obtain ⟨s', hdeleted, -, -, -, hiff⟩ := hdelete rfl
  exact ⟨hanswers isUnrivalled_arrivals, s', hdeleted, hiff.2 isUnrivalled_arrivals⟩

/-- The book stands under its own id, and so the deletion removes nothing. -/
theorem deleteById_misses_other_case :
    let s := Store.run "id" [.add [book "A" "a"], .commit]
    s.committed.find? "a" = none ∧ books.Answers (.text "a") s (some (book "A" "a")) ∧
      ∃ s', books.deleteById (.text "a") s = .ok () s' ∧
        books.Answers (.text "a") s' (some (book "A" "a")) := by
  intro s
  have hholds : (Test.exact "a").holds ((book "A" "a").fieldValues "id") = true := by
    decide
  have hanswers (t : Store) (hkey : t.keyField = "id") (hs : t.scripted = [])
      (hc : t.committed = [("A", book "A" "a")]) :
      books.Answers (.text "a") t (some (book "A" "a")) := by
    have hnamesakes : t.namesakes "a" = [book "A" "a"] := by
      rw [Store.namesakes, hc, hkey]
      exact List.filter_cons_of_pos hholds
    have hanswer := @answers_namesakes books t (.text "a") rfl (by decide) (by decide) hkey
      hs fun record _ => ⟨_, rfl⟩
    rwa [Value.toText, hnamesakes] at hanswer
  exact ⟨rfl, hanswers s rfl rfl rfl, _, deleteById_eq rfl _ s, hanswers _ rfl rfl rfl⟩

end Books

end Repository

end SearchMapper
