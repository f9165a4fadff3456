import SearchMapper.Proofs.Index.ValueOrder
import SearchMapper.Proofs.Number.Reading
import SearchMapper.Proofs.Query.Terms
import SearchMapper.Query.Value.Exchange

namespace SearchMapper

theorem Text.length_eq_of_sameLetters {a b : List Char} (h : sameLetters a b = true) :
    a.length = b.length := by
  have hlen := congrArg List.length (beq_iff_eq.1 h)
  rwa [List.length_map, List.length_map] at hlen

namespace Time

theorem length_padded {width n : Nat} (hw : 0 < width) (h : n < 10 ^ width) :
    (padded width n).length = width := by
  have hle : (Number.digitsOf n).length ≤ width := (Nat.length_toDigits_le_iff (by decide) hw).2 h
  simp only [padded, String.length_ofList, List.length_append, List.length_replicate]
  omega

namespace Instant

variable {t : Instant} {nanos : Nat}

theorem fractionText_eq (h : nanos ≠ 0) (hm : nanos % 1000000 = 0) :
    fractionText nanos = "." ++ padded 3 (nanos / 1000000) := by
  rw [fractionText, if_neg h, if_pos hm]

theorem length_fractionText_iff (h : nanos < 1000000000) :
    (fractionText nanos).length = 4 ↔ nanos ≠ 0 ∧ nanos % 1000000 = 0 := by
  unfold fractionText
  split
  · next hz => simp [hz]
  · next hz =>
    split
    · next hm =>
      have hlen : (padded 3 (nanos / 1000000)).length = 3 := length_padded (by decide) (by omega)
      have hpoint : ".".length = 1 := by decide
      simp [hlen, hpoint, hz, hm]
    · next hm =>
      split
      · have hlen : (padded 6 (nanos / 1000)).length = 6 := length_padded (by decide) (by omega)
        simp [hlen, hm]
      · have hlen : (padded 9 nanos).length = 9 := length_padded (by decide) (by omega)
        simp [hlen, hm]

theorem secondOfMinute_of_lt (h : t.nanos < 1000000000) : t.secondOfMinute.2 = t.nanos := by
  rw [secondOfMinute, if_pos h]

theorem length_exactText_iff (h : t.nanos < 1000000000) :
    t.exactText.length = t.text.length ↔ t.nanos ≠ 0 ∧ t.nanos % 1000000 = 0 := by
  have hlen : (padded 3 (t.nanos / 1000000)).length = 3 := length_padded (by decide) (by omega)
  rw [← length_fractionText_iff h, exactText, text, secondOfMinute_of_lt h]
  simp only [String.length_append, hlen, show ".".length = 1 by decide]
  omega

theorem exactText_eq_text_iff (h : t.nanos < 1000000000) :
    t.exactText = t.text ↔ t.nanos ≠ 0 ∧ t.nanos % 1000000 = 0 := by
  constructor
  · intro he
    exact (length_exactText_iff h).1 (congrArg String.length he)
  · rintro ⟨hz, hm⟩
    rw [exactText, text, secondOfMinute_of_lt h, fractionText_eq hz hm, ← String.append_assoc]

theorem colon_mem_text (t : Instant) : ':' ∈ t.text.toList := by
  simp [text, wholeText]

end Instant

end Time

open Index (Expr FieldTest Test)

namespace Index

variable {v term : String}

theorem number?_instant (t : Time.Instant) : number? t.text = none := by
  refine Option.eq_none_iff_forall_ne_some.2 fun x hx => ?_
  exact absurd (Number.isReadMark_of_readBinary? hx ':' t.colon_mem_text) (by decide)

theorem sameNumber_of_text (h : number? term = none) : sameNumber v term = false := by
  rw [sameNumber, h]
  cases number? v <;> rfl

theorem holdsOf_range_self_iff (h : number? term = none) :
    (Test.range (some term) (some term) true true).holdsOf v = true ↔ v = term := by
  have heq : compareValues v term = .eq ↔ v = term := by
    rw [compareValues_of_text (.inr h), cmp_eq_eq_iff]
  rw [← heq]
  cases hc : compareValues v term <;> simp [Test.holdsOf, Test.within, hc]

variable {t : Time.Instant}

theorem holdsOf_exact_instant_iff (h : t.nanos < 1000000000) :
    (Test.exact t.text).holdsOf t.exactText = true ↔ t.nanos ≠ 0 ∧ t.nanos % 1000000 = 0 := by
  rw [Test.holdsOf, sameNumber_of_text (number?_instant t), Bool.or_false]
  constructor
  · intro hs
    exact (Time.Instant.length_exactText_iff h).1 (Text.length_eq_of_sameLetters hs)
  · intro hm
    rw [(Time.Instant.exactText_eq_text_iff h).2 hm]
    exact beq_self_eq_true _

theorem holdsOf_range_instant_iff (h : t.nanos < 1000000000) :
    (Test.range (some t.text) (some t.text) true true).holdsOf t.exactText = true ↔
      t.nanos ≠ 0 ∧ t.nanos % 1000000 = 0 := by
  rw [holdsOf_range_self_iff (number?_instant t), Time.Instant.exactText_eq_text_iff h]

end Index

namespace Plain

theorem isPredicate_between_instant (barred : List Char) (t : Time.Instant) :
    isPredicate barred (.between (.instant t) (.instant t) true true) = true := by
  have hto : Text.occursIn " TO ".toList t.text.toList = false := by
    rw [Bool.eq_false_iff, ne_eq, Text.occursIn_iff_infix]
    intro hin
    have hblank := List.all_eq_true.1 (Time.all_isStampMark_text t) ' ' (hin.subset (by decide))
    exact absurd hblank (by decide)
  rw [isPredicate, Value.toText, hto]
  rfl

end Plain

namespace Criteria

variable {name : String} {record : Record} {t : Time.Instant}

theorem fieldValues_instant (h : record.find? name = some (Value.instant t).toJson) :
    record.fieldValues name = [t.exactText] := by
  rw [Record.fieldValues, h]
  rfl

theorem ofText_is_instant {field : Field} (hname : Plain.isName field.name = true) :
    Expr.ofText ((start field).is (.instant t)).toText =
      .ok (.field field.name (.one (.exact t.text))) :=
  ofText_is_of_isTerm hname rfl

theorem ofText_between_instant {field : Field} (hname : Plain.isName field.name = true) :
    Expr.ofText ((start field).between (.instant t) (.instant t)).toText =
      .ok (.field field.name (.one (.range (some t.text) (some t.text) true true))) := by
  obtain ⟨text, ht, ho⟩ := @Plain.operand_single
    ⟨field, [.between (.instant t) (.instant t) true true], none⟩ _ hname rfl rfl
    (Plain.isPredicate_between_instant ['('] t)
  exact Plain.ofText_of_operand ht ho

theorem holds_one_iff {test : Test} (h : record.find? name = some (Value.instant t).toJson) :
    (Expr.field name (.one test)).holds record = true ↔ test.holdsOf t.exactText = true := by
  rw [Expr.holds, fieldValues_instant h, FieldTest.holds, Test.holds, List.any_cons, List.any_nil,
    Bool.or_false]

/-- A point in time that is stored is found by itself, and between itself and itself, just when it
has a fraction and this is whole milliseconds. -/
theorem holds_instant_iff (hne : name ≠ "") (hname : Plain.isName name = true)
    (ht : t.nanos < 1000000000) (hr : record.find? name = some (Value.instant t).toJson) :
    ∃ c d e e', (onField name).map (·.is (.instant t)) = .ok c ∧
      (onField name).map (·.between (.instant t) (.instant t)) = .ok d ∧
      Expr.ofText c.toText = .ok e ∧ Expr.ofText d.toText = .ok e' ∧
      (e.holds record = true ↔ t.nanos ≠ 0 ∧ t.nanos % 1000000 = 0) ∧
      (e'.holds record = true ↔ t.nanos ≠ 0 ∧ t.nanos % 1000000 = 0) := by
  have hvisible := Plain.isBlankText_eq_false hne hname
  let field : Field := ⟨name, hvisible⟩
  have hfield : onField name = .ok (start field) := onField_eq hvisible
  refine ⟨(start field).is (.instant t), (start field).between (.instant t) (.instant t), _, _,
    by rw [hfield]; rfl, by rw [hfield]; rfl, ofText_is_instant hname,
    ofText_between_instant hname, ?_, ?_⟩
  · rw [holds_one_iff hr, Index.holdsOf_exact_instant_iff ht]
  · rw [holds_one_iff hr, Index.holdsOf_range_instant_iff ht]

theorem holds_instant_iff_millisecond :
    ∃ c d e e', (onField "created").map (·.is (.instant ⟨0, 1000000⟩)) = .ok c ∧
      (onField "created").map (·.between (.instant ⟨0, 1000000⟩) (.instant ⟨0, 1000000⟩)) = .ok d ∧
      Expr.ofText c.toText = .ok e ∧ Expr.ofText d.toText = .ok e' ∧
      e.holds [("created", .text "1970-01-01T00:00:00.001Z")] = true ∧
      e'.holds [("created", .text "1970-01-01T00:00:00.001Z")] = true := by
  have hname : Plain.isName "created" = true := by decide
  let record : Record := [("created", .text "1970-01-01T00:00:00.001Z")]
  have hr : record.find? "created" = some (Value.instant ⟨0, 1000000⟩).toJson := by rfl
  obtain ⟨c, d, e, e', hc, hd, he, he', hiff, hiff'⟩ :=
    holds_instant_iff (t := ⟨0, 1000000⟩) (by decide) hname (by decide) hr
  exact ⟨c, d, e, e', hc, hd, he, he', hiff.2 (by decide), hiff'.2 (by decide)⟩

/-- The start of 1970 is stored as `1970-01-01T00:00:00Z` and asked for as
`1970-01-01T00:00:00.000Z`. -/
theorem holds_instant_misses_second :
    (Value.instant ⟨0, 0⟩).toJson = .text "1970-01-01T00:00:00Z" ∧
      ∃ c d e e', (onField "created").map (·.is (.instant ⟨0, 0⟩)) = .ok c ∧
        (onField "created").map (·.between (.instant ⟨0, 0⟩) (.instant ⟨0, 0⟩)) = .ok d ∧
        c.toText = "created:\"1970-01-01T00:00:00.000Z\"" ∧
        d.toText = "created:[1970-01-01T00:00:00.000Z TO 1970-01-01T00:00:00.000Z]" ∧
        Expr.ofText c.toText = .ok e ∧ Expr.ofText d.toText = .ok e' ∧
        e.holds [("created", .text "1970-01-01T00:00:00Z")] = false ∧
        e'.holds [("created", .text "1970-01-01T00:00:00Z")] = false := by
  have hname : Plain.isName "created" = true := by decide
  refine ⟨by rfl, _, _, _, _, rfl, rfl, by decide, by decide,
    ofText_is_instant hname, ofText_between_instant hname, ?_, ?_⟩
  · decide
  · decide

end Criteria

end SearchMapper
