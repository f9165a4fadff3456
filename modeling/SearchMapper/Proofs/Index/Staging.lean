import Mathlib.Data.List.TakeWhile
import SearchMapper.Index.Store

namespace SearchMapper.Store

open Index (Refusal Write)

variable {s : Store} {records : List Record}

/-- The records in front of the first one without a key. -/
def keyed (s : Store) (records : List Record) : List Record :=
  records.takeWhile fun record => (record.valueText? s.keyField).isSome

theorem stage_stage (s : Store) (front rest : List Write) :
    (s.stage front).stage rest = s.stage (front ++ rest) := by
  simp [stage]

theorem stage_eq_self {writes : List Write} : s.stage writes = s ↔ writes = [] := by
  constructor
  · intro h
    have hstaged : s.staged ++ writes = s.staged := congrArg staged h
    exact List.append_right_eq_self.1 hstaged
  · rintro rfl
    simp [stage]

theorem keyed_cons {record : Record} (h : (record.valueText? s.keyField).isSome)
    (records : List Record) : s.keyed (record :: records) = record :: s.keyed records :=
  List.takeWhile_cons_of_pos h

theorem add_eq (records : List Record) (s : Store) :
    s.add records =
      (if records.all fun record => (record.valueText? s.keyField).isSome then .ok ()
        else .error (.missingKey s.keyField), s.stage ((s.keyed records).map .add)) := by
  induction records generalizing s with
  | nil => simp [add, keyed, stage]
  | cons record records ih =>
    rw [add]
    cases h : record.valueText? s.keyField with
    | none => simp [h, keyed, stage]
    | some key =>
      have hsome : (record.valueText? s.keyField).isSome := by
        rw [h]
        rfl
      have hstage : s.stage ((s.keyed (record :: records)).map .add) =
          (s.stage [.add record]).stage ((s.keyed records).map .add) := by
        rw [keyed_cons hsome, stage_stage]
        rfl
      rw [hstage, List.all_cons, hsome, Bool.true_and]
      exact ih (s.stage [.add record])

theorem add_eq_ok (h : ∀ record ∈ records, (record.valueText? s.keyField).isSome) :
    s.add records = (.ok (), s.stage (records.map .add)) := by
  rw [add_eq, if_pos (List.all_eq_true.2 h), keyed, List.takeWhile_eq_self_iff.2 h]

end SearchMapper.Store
