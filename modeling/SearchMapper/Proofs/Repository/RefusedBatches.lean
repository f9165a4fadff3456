import SearchMapper.Proofs.Index.Staging
import SearchMapper.Proofs.Repository.ResultKinds

namespace SearchMapper

open Index (Refusal Write)
open Session (bind_of_error bind_of_ok ofExcept_of_ok)

variable {s s' : Store}

namespace Store

variable {records : List Record} {cause : Refusal}

theorem find?_foldl_add (keyField key : String) (records : List Record)
    (committed : Dictionary Record) :
    ((records.map Write.add).foldl (apply keyField) committed).find? key =
      (records.reverse.find? fun record => record.valueText? keyField = some key).or
        (committed.find? key) := by
  induction records generalizing committed with
  | nil => rfl
  | cons record records ih =>
    have hstep : (apply keyField committed (.add record)).find? key =
        ([record].find? fun record => record.valueText? keyField = some key).or
          (committed.find? key) := by
      cases hown : record.valueText? keyField with
      | none => simp [apply, hown]
      | some own => by_cases hk : own = key <;> simp [apply, hown, hk, Dictionary.find?_insert]
    rw [List.map_cons, List.foldl_cons, ih, hstep, List.reverse_cons, List.find?_append,
      Option.or_assoc]

theorem find?_commit_stage_add (records : List Record) (s : Store) (key : String) :
    (s.stage (records.map .add)).commit.committed.find? key =
      (records.reverse.find? fun record => record.valueText? s.keyField = some key).or
        (s.commit.committed.find? key) := by
  simp only [commit, stage, List.foldl_append]
  exact find?_foldl_add s.keyField key records _

theorem keyed_eq_nil :
    s.keyed records = [] ↔ ∀ record ∈ records.head?, record.valueText? s.keyField = none := by
  cases records with
  | nil => simp [keyed]
  | cons record records => cases hown : record.valueText? s.keyField <;> simp [keyed, hown]

theorem add_eq_error (h : s.add records = (.error cause, s')) :
    cause = .missingKey s.keyField ∧ s' = s.stage ((s.keyed records).map .add) := by
  rw [add_eq] at h
  split at h
  · cases h
  · cases h
    exact ⟨rfl, rfl⟩

end Store

theorem Session.save_eq_error {type : DocumentType} {docs : List Json} {failure : Error}
    (h : Session.save type docs s = .error failure s') :
    s' = s ∨ ∃ e records cause, type.entity = .ok e ∧
      docs.mapM (Record.ofDocument e) = .ok records ∧ s.add records = (.error cause, s') := by
  rw [Session.save] at h
  by_cases hempty : docs.isEmpty
  · rw [if_pos hempty] at h
    cases h
  · rw [if_neg hempty] at h
    cases he : type.entity with
    | error cause =>
      rw [he] at h
      cases h
      exact .inl rfl
    | ok e =>
      rw [bind_of_ok (ofExcept_of_ok he s)] at h
      cases hr : docs.mapM (Record.ofDocument e) with
      | error cause =>
        rw [hr] at h
        cases h
        exact .inl rfl
      | ok records =>
        rw [bind_of_ok (ofExcept_of_ok hr s), Session.onStore] at h
        split at h
        · cases h
        · next cause s'' hadd =>
          cases h
          exact .inr ⟨e, records, cause, rfl, hr, hadd⟩

namespace Repository

theorem saveAll_eq_error {r : Repository} {docs : List Json} {failure : Error} :
    r.saveAll docs s = .error failure s' ↔ Session.save r.type docs s = .error failure s' := by
  constructor
  · intro h
    cases hsave : Session.save r.type docs s with
    | error cause s'' => rwa [saveAll, bind_of_error hsave] at h
    | ok done s'' =>
      rw [saveAll, bind_of_ok hsave, commitWrite] at h
      split at h <;> cases h
  · intro h
    exact bind_of_error h _

/-- A refused batch leaves the records in front of the first one without a key staged, and the next
commit makes them visible. -/
theorem refused_batch_stages_front (r : Repository) (s : Store) :
    (∀ records cause s', s.add records = (.error cause, s') →
      cause = .missingKey s.keyField ∧ s'.committed = s.committed ∧
      s'.staged = s.staged ++ (s.keyed records).map .add ∧
      (s' = s ↔ ∀ record ∈ records.head?, record.valueText? s.keyField = none) ∧
      ∀ key, s'.commit.committed.find? key =
        ((s.keyed records).reverse.find? fun record => record.valueText? s.keyField = some key).or
          (s.commit.committed.find? key)) ∧
    (∀ docs failure s', Session.save r.type docs s = .error failure s' →
      s' = s ∨ ∃ e records cause, r.type.entity = .ok e ∧
        docs.mapM (Record.ofDocument e) = .ok records ∧ s.add records = (.error cause, s')) ∧
    ∀ docs failure s', r.saveAll docs s = .error failure s' ↔
      Session.save r.type docs s = .error failure s' := by
  refine ⟨fun records cause s' h => ?_, fun docs failure s' h => Session.save_eq_error h,
    fun docs failure s' => saveAll_eq_error⟩
  obtain ⟨hcause, rfl⟩ := Store.add_eq_error h
  refine ⟨hcause, rfl, rfl, ?_, Store.find?_commit_stage_add _ s⟩
  rw [Store.stage_eq_self, List.map_eq_nil_iff, Store.keyed_eq_nil]

section Books

def unnumbered : Json :=
  .object [("title", .text "Persuasion")]

def third : Json :=
  .object [("id", .text "3"), ("title", .text "Persuasion")]

theorem refused_batch_stages_front_unnumbered :
    ∃ records s', [unnumbered, third].mapM (Record.ofDocument bookEntity) = .ok records ∧
      shelved.add records = (.error (.missingKey "id"), s') ∧ s' = shelved := by
  obtain ⟨hadd, -, -⟩ := refused_batch_stages_front books shelved
  obtain ⟨-, -, -, hsame, -⟩ := hadd
    [[("title", .text "Persuasion")], [("id", .text "3"), ("title", .text "Persuasion")]] _ _ rfl
  exact ⟨_, _, rfl, rfl, hsame.2 (by rintro record ⟨⟩; rfl)⟩

/-- The refused batch waits for the commit of the next one. -/
theorem saveAll_refused_stages_third :
    ∃ s' s'', books.saveAll [third, unnumbered] shelved =
        .error (.refused (.missingKey "id")) s' ∧ s'.staged ≠ shelved.staged ∧
      books.saveAll [] s' = .ok () s'' ∧ shelved.committed.find? "3" = none ∧
      s''.committed.find? "3" = some [("id", .text "3"), ("title", .text "Persuasion")] :=
  ⟨_, _, rfl, by simp [Store.stage, shelved], rfl, rfl, rfl⟩

end Books

end Repository

end SearchMapper
