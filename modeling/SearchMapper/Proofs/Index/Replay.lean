import Mathlib.Algebra.GroupWithZero.Nat
import Mathlib.Data.List.DropRight
import SearchMapper.Proofs.Dictionary
import SearchMapper.Proofs.Index.Staging
import SearchMapper.Proofs.Query.Agreement
import SearchMapper.Query.Criteria.Builder

namespace SearchMapper

open Index (Expr Write)

namespace Index.Write

/-- What a write makes of records seen as a partial function of their keys. -/
def effect (keyField : String) (records : String → Option Record) : Write → String → Option Record
  | add record =>
    match record.valueText? keyField with
    | some key => Function.update records key (some record)
    | none => records
  | deleteId id => Function.update records id none
  | deleteMatches e => fun key => (records key).filter fun record => !e.holds record

/-- The records that are left when the writes take effect one after the other. -/
def replay (keyField : String) (writes : List Write) (records : String → Option Record) :
    String → Option Record :=
  writes.foldl (effect keyField) records

def Keyed (keyField : String) (records : String → Option Record) : Prop :=
  ∀ key record, records key = some record → record.valueText? keyField = some key

section

variable {keyField : String} {records : String → Option Record} {committed : Dictionary Record}

theorem Keyed.effect (h : Keyed keyField records) (write : Write) :
    Keyed keyField (write.effect keyField records) := by
  intro key record hr
  cases write with
  | add added =>
    cases hown : added.valueText? keyField with
    | none =>
      simp only [Write.effect, hown] at hr
      exact h key record hr
    | some own =>
      simp only [Write.effect, hown] at hr
      by_cases hk : key = own
      · subst hk
        rw [Function.update_self, Option.some.injEq] at hr
        rwa [← hr]
      · rw [Function.update_of_ne hk] at hr
        exact h key record hr
  | deleteId id =>
    simp only [Write.effect] at hr
    by_cases hk : key = id
    · subst hk
      simp at hr
    · rw [Function.update_of_ne hk] at hr
      exact h key record hr
  | deleteMatches e => exact h key record (Option.filter_eq_some_iff.1 hr).1

theorem Keyed.replay (h : Keyed keyField records) (writes : List Write) :
    Keyed keyField (Write.replay keyField writes records) := by
  induction writes generalizing records with
  | nil => exact h
  | cons write writes ih => exact ih (h.effect write)

theorem represents_apply (h : committed.Represents records) (write : Write) :
    (Store.apply keyField committed write).Represents (write.effect keyField records) := by
  cases write with
  | add record =>
    cases hown : record.valueText? keyField with
    | none => simpa only [Store.apply, effect, hown] using h
    | some own => simpa only [Store.apply, effect, hown] using h.insert own record
  | deleteId id => exact h.erase id
  | deleteMatches e => exact h.filter fun record => !e.holds record

theorem represents_foldl_apply (h : committed.Represents records) (writes : List Write) :
    (writes.foldl (Store.apply keyField) committed).Represents
      (replay keyField writes records) := by
  induction writes generalizing committed records with
  | nil => exact h
  | cons write writes ih => exact ih (represents_apply h write)

end

end Index.Write

namespace Store

inductive Operation
  | add (records : List Record)
  | deleteIds (ids : List String)
  | deleteMatches (text : String)
  | commit
  | rollback
  | query (request : Request)
  | pushResponse (response : Response)
  | pushFailure (message : String)

namespace Operation

def perform (s : Store) : Operation → Store
  | add records => (s.add records).2
  | deleteIds ids => s.deleteIds ids
  | deleteMatches text => (s.deleteMatches text).2
  | commit => s.commit
  | rollback => s.rollback
  | query request => (s.query request).2
  | pushResponse response => s.pushResponse response
  | pushFailure message => s.pushFailure message

/-- Batches in which each record has a key, and texts that can be read. -/
def isAccepted (keyField : String) : Operation → Bool
  | add records => records.all fun record => (record.valueText? keyField).isSome
  | deleteMatches text => (Expr.ofText text).isOk
  | _ => true

def writes : Operation → List Write
  | add records => records.map .add
  | deleteIds ids => ids.map .deleteId
  | deleteMatches text =>
    match Expr.ofText text with
    | .ok e => [.deleteMatches e]
    | .error _ => []
  | _ => []

def size : Operation → Nat
  | add records => records.length
  | deleteIds ids => ids.length
  | deleteMatches _ => 1
  | _ => 0

def settles : Operation → Bool
  | commit | rollback => true
  | _ => false

end Operation

def run (keyField : String) (operations : List Operation) : Store :=
  operations.foldl Operation.perform { keyField := keyField }

def isCommitted : List Operation → Bool
  | [] | .rollback :: _ => false
  | .commit :: _ => true
  | _ :: later => isCommitted later

/-- The writes that are followed by a commit before any rollback. -/
def committedWrites : List Operation → List Write
  | [] => []
  | operation :: later =>
    (if isCommitted later then operation.writes else []) ++ committedWrites later

/-- The operations since the last commit or rollback. -/
def unsettled (operations : List Operation) : List Operation :=
  operations.rtakeWhile fun operation => !operation.settles

namespace Operation

variable {s : Store} {operation : Operation}

theorem length_writes {keyField : String} (h : operation.isAccepted keyField = true) :
    operation.writes.length = operation.size := by
  cases operation with
  | deleteMatches text =>
    cases he : Expr.ofText text with
    | error cause => simp [isAccepted, he, Except.isOk, Except.toBool] at h
    | ok e => simp [writes, size, he]
  | _ => simp [writes, size]

theorem keyField_perform (operation : Operation) (s : Store) :
    (operation.perform s).keyField = s.keyField := by
  cases operation with
  | add records => rw [perform, add_eq, stage]
  | deleteMatches text =>
    rw [perform, Store.deleteMatches]
    split <;> rfl
  | query request =>
    rw [perform, Store.query]
    split <;> rfl
  | _ => rfl

theorem perform_of_not_settles (h : operation.isAccepted s.keyField = true)
    (hs : operation.settles = false) :
    (operation.perform s).committed = s.committed ∧
      (operation.perform s).staged = s.staged ++ operation.writes := by
  cases operation with
  | add records =>
    rw [perform, add_eq_ok (List.all_eq_true.1 h)]
    exact ⟨rfl, rfl⟩
  | deleteIds ids => exact ⟨rfl, rfl⟩
  | deleteMatches text =>
    cases he : Expr.ofText text with
    | error cause => simp [isAccepted, he, Except.isOk, Except.toBool] at h
    | ok e => simp [perform, Store.deleteMatches, writes, he, stage]
  | commit => cases hs
  | rollback => cases hs
  | query request =>
    simp only [perform, Store.query, writes, List.append_nil]
    split <;> exact ⟨rfl, rfl⟩
  | pushResponse response => simp [perform, Store.pushResponse, writes]
  | pushFailure message => simp [perform, Store.pushFailure, writes]

end Operation

variable {s : Store} {operations : List Operation} {keyField : String}

theorem isCommitted_cons {operation : Operation} (h : operation.settles = false)
    (later : List Operation) : isCommitted (operation :: later) = isCommitted later := by
  cases operation <;> first | rfl | cases h

theorem keyField_foldl_perform (operations : List Operation) (s : Store) :
    (operations.foldl Operation.perform s).keyField = s.keyField := by
  induction operations generalizing s with
  | nil => rfl
  | cons operation operations ih => rw [List.foldl_cons, ih, Operation.keyField_perform]

theorem represents_foldl_perform {records : String → Option Record}
    (h : ∀ operation ∈ operations, operation.isAccepted s.keyField = true)
    (hs : s.committed.Represents records) :
    (operations.foldl Operation.perform s).committed.Represents
      (Write.replay s.keyField
        ((if isCommitted operations then s.staged else []) ++ committedWrites operations)
        records) := by
  induction operations generalizing s records with
  | nil => exact hs
  | cons operation operations ih =>
    obtain ⟨hfirst, hrest⟩ := List.forall_mem_cons.1 h
    by_cases hsettles : operation.settles
    · cases operation with
      | commit =>
        have hcommit : s.commit.committed.Represents (Write.replay s.keyField s.staged records) :=
          Write.represents_foldl_apply hs s.staged
        have hrun := ih (s := s.commit) hrest hcommit
        simpa only [List.foldl_cons, Operation.perform, isCommitted, committedWrites, Store.commit,
          Operation.writes, Write.replay, List.foldl_append, ite_self, if_true,
          List.foldl_nil] using hrun
      | rollback =>
        have hrun := ih (s := s.rollback) hrest hs
        simpa only [List.foldl_cons, Operation.perform, isCommitted, committedWrites,
          Store.rollback, Operation.writes, ite_self, Bool.false_eq_true, if_false,
          List.nil_append] using hrun
      | _ => cases hsettles
    · -- What is staged now waits for the same commit as what was staged before.
      rw [Bool.not_eq_true] at hsettles
      have hkey := operation.keyField_perform s
      obtain ⟨hcommitted, hstaged⟩ := Operation.perform_of_not_settles hfirst hsettles
      have hrun := ih (s := operation.perform s) (hkey ▸ hrest) (hcommitted ▸ hs)
      rw [hkey, hstaged] at hrun
      rw [List.foldl_cons, isCommitted_cons hsettles, committedWrites]
      by_cases hlater : isCommitted operations
      · simpa only [hlater, if_true, List.append_assoc] using hrun
      · simpa only [hlater, if_false, List.nil_append, Bool.false_eq_true] using hrun

theorem length_staged_run
    (h : ∀ operation ∈ operations, operation.isAccepted keyField = true) :
    (run keyField operations).staged.length =
      ((unsettled operations).map Operation.size).sum := by
  induction operations using List.reverseRecOn with
  | nil => rfl
  | append_singleton operations operation ih =>
    have hlast := h operation (List.mem_append_right _ List.mem_cons_self)
    have hrest := ih fun other hm => h other (List.mem_append_left _ hm)
    have hkey : (run keyField operations).keyField = keyField :=
      keyField_foldl_perform operations _
    have hrun : run keyField (operations ++ [operation]) =
        operation.perform (run keyField operations) := List.foldl_concat ..
    rw [hrun]
    by_cases hsettles : operation.settles
    · rw [unsettled, List.rtakeWhile_concat_neg _ _ _ (by simp [hsettles])]
      cases operation <;> first | rfl | cases hsettles
    · rw [Bool.not_eq_true] at hsettles
      rw [unsettled, List.rtakeWhile_concat_pos _ _ _ (by simp [hsettles]), List.map_append,
        List.sum_append, ← unsettled, ← hrest]
      obtain ⟨-, hstaged⟩ := Operation.perform_of_not_settles (hkey.symm ▸ hlast) hsettles
      rw [hstaged, List.length_append, Operation.length_writes hlast, List.map_singleton,
        List.sum_singleton]

theorem query_keeps (request : Request) (s : Store) :
    (s.query request).2.committed = s.committed ∧ (s.query request).2.staged = s.staged := by
  simp only [query]
  split <;> exact ⟨rfl, rfl⟩

theorem query_congr {other : Store} (hs : s.scripted = []) (ho : other.scripted = [])
    (hc : other.committed = s.committed) (request : Request) :
    (other.query request).1 = (s.query request).1 := by
  simp only [query, hs, ho, hc]

/-- What a store holds after any run: the committed records are those that a replay of the
committed writes leaves, each under its own key, the pending writes are those asked for since, and
queries change neither. -/
theorem run_eq_replay (keyField : String) (operations : List Operation)
    (h : ∀ operation ∈ operations, operation.isAccepted keyField = true) :
    let s := run keyField operations
    s.committed.Represents (Write.replay keyField (committedWrites operations) fun _ => none) ∧
    (∀ key record, s.committed.find? key = some record →
      record.valueText? keyField = some key) ∧
    s.staged.length = ((unsettled operations).map Operation.size).sum ∧
    (∀ request, (s.query request).2.committed = s.committed ∧
      (s.query request).2.staged = s.staged) ∧
    ∀ (request : Request) (other : Store), s.scripted = [] → other.scripted = [] →
      other.committed = s.committed → (other.query request).1 = (s.query request).1 := by
  have hcommitted := represents_foldl_perform (s := { keyField := keyField }) h .nil
  rw [ite_self, List.nil_append] at hcommitted
  refine ⟨hcommitted, fun key record hr => ?_, length_staged_run h, fun request => ?_,
    fun request other hs ho hc => query_congr hs ho hc request⟩
  · have hkeyed : Write.Keyed keyField fun _ => none := fun _ _ hnone => nomatch hnone
    exact hkeyed.replay (committedWrites operations) key record
      (hcommitted.find?_eq key ▸ hr)
  · exact query_keeps request _

section Visits

def volume (id title : String) : Record :=
  [("id", .text id), ("title", .text title)]

/-- The staged deletion finds the first volume, not the one that comes behind it. -/
def visits : List Operation :=
  [.add [volume "1" "Emma", volume "2" "Emma"], .pushFailure "down", .query { query := "id:1" },
    .deleteMatches "id:1", .add [volume "1" "Persuasion"], .commit, .deleteIds ["2"], .rollback,
    .add [volume "3" "Emma"], .deleteIds ["1", "3"], .deleteMatches "id:1"]

theorem ofText_firstId : Expr.ofText "id:1" = .ok (.field "id" (.one (.exact "1"))) := by
  have hfirst : ((Criteria.start ⟨"id", by decide⟩).is (.text "1")).toText = "id:1" := by
    decide
  rw [← hfirst]
  exact Plain.ofText_toText (by decide) rfl

theorem isAccepted_visits : ∀ operation ∈ visits, operation.isAccepted "id" = true := by
  have hfirst : (Operation.deleteMatches "id:1").isAccepted "id" = true := by
    rw [Operation.isAccepted, ofText_firstId]
    rfl
  simp only [visits, List.forall_mem_cons]
  exact ⟨rfl, rfl, rfl, hfirst, rfl, rfl, rfl, rfl, rfl, rfl, hfirst, nofun⟩

theorem run_eq_replay_visits :
    (run "id" visits).committed.find? "1" = some (volume "1" "Persuasion") ∧
      (run "id" visits).committed.find? "2" = some (volume "2" "Emma") ∧
      (run "id" visits).staged.length = 4 := by
  obtain ⟨hcommitted, -, hstaged, -⟩ := run_eq_replay "id" visits isAccepted_visits
  have hwrites : committedWrites visits =
      [.add (volume "1" "Emma"), .add (volume "2" "Emma"),
        .deleteMatches (.field "id" (.one (.exact "1"))), .add (volume "1" "Persuasion")] := by
    simp [visits, committedWrites, isCommitted, Operation.writes, ofText_firstId]
  rw [hwrites] at hcommitted
  exact ⟨(hcommitted.find?_eq _).trans rfl, (hcommitted.find?_eq _).trans rfl,
    hstaged.trans (by decide)⟩

end Visits

end Store

end SearchMapper
