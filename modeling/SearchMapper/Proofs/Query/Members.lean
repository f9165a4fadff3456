import SearchMapper.Proofs.MethodName.Conditions
import SearchMapper.Proofs.Query.Agreement
import SearchMapper.Query.Criteria.Builder

namespace SearchMapper

open Index (Expr FieldTest Test)

namespace Plain

open Index.Reading (Closes Operand ofText_of_reads reads_lastFactor reads_lastTerm)

variable {barred : List Char} {v : Value}

section Numerals

structure IsNumeral (s : String) : Prop where
  visible : s ≠ ""
  marks : ∀ c ∈ s.toList, c = '-' ∨ c.isDigit = true

theorem isNumeral_ofNat (n : Nat) : IsNumeral (Number.ofNat n) :=
  ⟨Number.ofNat_ne_empty n, fun _ hc => .inr (Number.isDigit_of_mem_ofNat hc)⟩

theorem isNumeral_ofInt (i : Int) : IsNumeral (Number.ofInt i) := by
  refine ⟨fun h => ?_, fun c hc => ?_⟩
  · have hlist := Number.ofInt_toList i
    rw [h] at hlist
    have hnil := (List.append_eq_nil_iff.1 hlist.symm).2
    exact Number.ofNat_ne_empty _ (String.toList_eq_nil_iff.1 hnil)
  · rw [Number.ofInt_toList, List.mem_append] at hc
    rcases hc with hc | hc
    · left
      split at hc
      · exact List.mem_singleton.1 hc
      · cases hc
    · exact (isNumeral_ofNat _).marks c hc

theorem IsNumeral.notMem {s : String} (h : IsNumeral s) {c : Char} (hm : c ≠ '-')
    (hd : c.isDigit = false) : c ∉ s.toList := fun hc =>
  (h.marks c hc).elim hm fun hdigit => by simp [hd] at hdigit

theorem IsNumeral.hasBlank_eq_false {s : String} (h : IsNumeral s) : Text.hasBlank s = false := by
  refine List.any_eq_false.2 fun c hc => ?_
  rcases h.marks c hc with rfl | hd
  · decide
  · simp [Text.isBlank_of_isDigit hd]

theorem IsNumeral.isWord {s : String} (h : IsNumeral s) : isWord s.toList = true := by
  apply isWord_of_notMem
  · exact fun c hc => by simpa using List.any_eq_false.1 h.hasBlank_eq_false c hc
  · exact h.notMem (by decide) (by decide)
  · exact h.notMem (by decide) (by decide)
  · exact h.notMem (by decide) (by decide)

theorem IsNumeral.startsFree {s : String} (h : IsNumeral s)
    (hs : ∀ c ∈ s.toList.head?, c ∉ barred) : startsFree barred s.toList = true := by
  refine Option.all_eq_true .. |>.2 fun c hc => ?_
  have hno : c ∉ ['"', '[', '\x7b'] := by
    intro hm
    have hmem := List.mem_of_mem_head? hc
    simp only [List.mem_cons, List.not_mem_nil, or_false] at hm
    rcases hm with rfl | rfl | rfl <;> exact h.notMem (by decide) (by decide) hmem
  simp [hno, hs c hc]

theorem term_of_isNumeral (hi : v.isInstant = false) (h : IsNumeral v.toText) :
    v.term = v.toText :=
  if_neg (by simp [h.visible, h.hasBlank_eq_false, hi])

theorem isTerm_of_isNumeral (h : IsNumeral v.toText)
    (hs : ∀ c ∈ v.toText.toList.head?, c ∉ barred) : isTerm barred v = true :=
  isTerm_of_isWord h.isWord (h.notMem (by decide) (by decide)) (h.startsFree hs)

theorem readsAs_ofNat (hb : Bars barred) (n : Nat) :
    ReadsAs barred (Number.ofNat n).toList (.exact (Number.ofNat n)) := by
  have hn : IsNumeral (Value.text (Number.ofNat n)).toText := isNumeral_ofNat n
  have hterm : isTerm barred (.text (Number.ofNat n)) = true := by
    refine isTerm_of_isNumeral hn fun c hc hbarred => ?_
    have hdigit : c.isDigit = true := Number.isDigit_of_mem_ofNat (List.mem_of_mem_head? hc)
    rcases hb c hbarred with rfl | rfl <;> exact absurd hdigit (by decide)
  have hread := readsAs_term hb hterm
  rwa [term_of_isNumeral rfl hn] at hread

end Numerals

theorem isBlankText_eq_false {name : String} (hne : name ≠ "") (h : isName name = true) :
    Text.isBlankText name = false := by
  simp only [isName, Bool.and_eq_true, decide_eq_true_eq, List.all_eq_true] at h
  obtain ⟨c, r, hname⟩ := List.exists_cons_of_ne_nil (mt String.toList_eq_nil_iff.1 hne)
  have hc := h.2 c (by rw [hname]; exact List.mem_cons_self)
  simp only [Index.Reading.endsField, Bool.not_eq_true', Bool.or_eq_false_iff] at hc
  exact List.all_eq_false.2 ⟨c, by rw [hname]; exact List.mem_cons_self, by simp [hc.1.1.1]⟩

section Groups

/-- What a group takes a number for: its digits, negated if a minus stands in front of them. -/
def Part.ofInt (i : Int64) : Part :=
  ⟨i.toInt < 0, (Number.ofNat i.toInt.natAbs).toList, .exact (Number.ofNat i.toInt.natAbs)⟩

theorem Part.readable_ofInt (i : Int64) : (ofInt i).Readable := by
  refine readsAs_ofNat ?_ _
  unfold Part.barred
  split <;> simp [Bars]

theorem Part.written_ofInt (i : Int64) : (ofInt i).written = (Value.int i).term.toList := by
  have hterm : (Value.int i).term = Number.ofInt i.toInt :=
    term_of_isNumeral rfl (isNumeral_ofInt _)
  rw [hterm, Number.ofInt_toList]
  simp [Part.written, ofInt]

/-- What the texts of numbers are read as when they stand in a group. -/
def groupOfInts (vs : List Int64) : FieldTest :=
  .group ((vs.map Part.ofInt).map fun part => (part.negated, part.test))

variable {node : FieldNode}

theorem operand_ints (vs : List Int64) (negated : Bool) (hn : isName node.field.name = true)
    (hb : node.boost = none) (hne : vs ≠ [])
    (ht : node.predicatesText? = some ((if negated then "-" else "") ++ node.qualifier ++
      FieldNode.parenthesized (vs.map fun i => (Value.int i).term))) :
    ∃ text, node.text? = some text ∧ Operand text.toList
      (if negated then .not (.field node.field.name (groupOfInts vs))
        else .field node.field.name (groupOfInts vs)) := by
  have hparts : ∀ part ∈ vs.map Part.ofInt, part.Readable := by
    intro part hm
    obtain ⟨i, -, rfl⟩ := List.mem_map.1 hm
    exact Part.readable_ofInt i
  have hwritten : (vs.map Part.ofInt).map Part.written =
      (vs.map fun i => (Value.int i).term).map String.toList := by
    simp only [List.map_map, Function.comp_def, Part.written_ofInt]
  have ho := operand_group negated hn (by rw [hb]; rfl) (vs.map Part.ofInt) (by simpa) hparts
  rw [← parenthesized_toList _ _ hwritten] at ho
  refine ⟨_, by rw [FieldNode.text?, ht]; rfl, ?_⟩
  rw [qualifier_eq hn]
  cases negated <;> simpa [groupOfInts] using ho

theorem isTerm_int (i : Int64) : isTerm ['('] (.int i) = true := by
  refine isTerm_of_isNumeral (isNumeral_ofInt _) fun c hc hbarred => ?_
  rw [List.mem_singleton.1 hbarred] at hc
  exact (isNumeral_ofInt _).notMem (by decide) (by decide) (List.mem_of_mem_head? hc)

theorem toText_field {text : String} (ht : node.text? = some text) :
    Criteria.toText ⟨[(.and, .field node)]⟩ = text := by
  simp only [Criteria.toText, Criteria.linksText, Criteria.nodeText?, ht, Criteria.joined, if_true]

theorem ofText_of_operand {text : String} {e : Expr} (ht : node.text? = some text)
    (h : Operand text.toList e) :
    Expr.ofText (Criteria.toText ⟨[(.and, .field node)]⟩) = .ok e := by
  obtain ⟨c, r, hstart, hc⟩ := h.starts
  have htrim : Text.trimStart text.toList = text.toList ++ [] := by
    rw [List.append_nil, hstart]
    exact Text.trimStart_eq_self (by simpa using hc)
  have hread := h.reads text.toList.length text.toList [] htrim (by simp [Closes])
  rw [toText_field ht]
  exact ofText_of_reads (reads_lastTerm (reads_lastFactor hread rfl) rfl) rfl

end Groups

end Plain

namespace Criteria

variable {name : String} {vs : List Int64} {values : List String}

/-- One of the numbers is among the values. -/
def holdsMember (vs : List Int64) (values : List String) : Bool :=
  vs.any fun i => (Test.exact (Number.ofInt i.toInt)).holds values

/-- One of the numbers without a minus is among the values, and none that a minus is taken from. -/
def holdsUnsigned (vs : List Int64) (values : List String) : Bool :=
  (!vs.any fun i => i.toInt < 0 && (Test.exact (Number.ofNat i.toInt.natAbs)).holds values) &&
    vs.any fun i => !(i.toInt < 0 : Bool) && (Test.exact (Number.ofNat i.toInt.natAbs)).holds values

theorem groupOfInts_holds (vs : List Int64) (values : List String) :
    (Plain.groupOfInts vs).holds values = holdsUnsigned vs values := by
  simp [Plain.groupOfInts, FieldTest.holds, holdsUnsigned, Plain.Part.ofInt, Function.comp_def]

theorem holdsUnsigned_of_nonneg (h : ∀ i ∈ vs, 0 ≤ i.toInt) (values : List String) :
    holdsUnsigned vs values = holdsMember vs values := by
  have hnone : (vs.any fun i =>
      i.toInt < 0 && (Test.exact (Number.ofNat i.toInt.natAbs)).holds values) = false := by
    refine List.any_eq_false.2 fun i hm => ?_
    have hi := h i hm
    simp [Int.not_lt.2 hi]
  rw [holdsUnsigned, hnone, holdsMember, Bool.not_false, Bool.true_and, Bool.eq_iff_iff,
    List.any_eq_true, List.any_eq_true]
  refine exists_congr fun i => and_congr_right fun hm => ?_
  have hi := Int.not_lt.2 (h i hm)
  simp [hi, Number.ofInt]

theorem exact_holds_of_mem {text : String} (h : text ∈ values) :
    (Test.exact text).holds values = true := by
  refine List.any_eq_true.2 ⟨text, h, ?_⟩
  simp [Test.holdsOf, Text.sameLetters]

theorem exists_record_of_negative {i : Int64} (hm : i ∈ vs) (hi : i.toInt < 0) (name : String) :
    ∃ record : Record, holdsMember vs (record.fieldValues name) = true ∧
      holdsUnsigned vs (record.fieldValues name) = false := by
  obtain ⟨record, hvalues⟩ : ∃ record : Record, record.fieldValues name =
      [Number.ofInt i.toInt, Number.ofNat i.toInt.natAbs] :=
    ⟨[(name, .array [.text (Number.ofInt i.toInt), .text (Number.ofNat i.toInt.natAbs)])], by
      simp [Record.fieldValues, Dictionary.find?, Json.scalarText?]⟩
  refine ⟨record, ?_, ?_⟩ <;> rw [hvalues]
  · exact List.any_eq_true.2 ⟨i, hm, exact_holds_of_mem List.mem_cons_self⟩
  · have hfound : (vs.any fun j => j.toInt < 0 && (Test.exact (Number.ofNat j.toInt.natAbs)).holds
        [Number.ofInt i.toInt, Number.ofNat i.toInt.natAbs]) = true := by
      refine List.any_eq_true.2 ⟨i, hm, ?_⟩
      rw [exact_holds_of_mem (List.mem_cons_of_mem _ List.mem_cons_self)]
      simp [hi]
    rw [holdsUnsigned, hfound]
    rfl

theorem forall_holdsUnsigned_iff (vs : List Int64) (name : String) :
    (∀ record : Record, holdsUnsigned vs (record.fieldValues name) =
      holdsMember vs (record.fieldValues name)) ↔ ∀ i ∈ vs, 0 ≤ i.toInt := by
  constructor
  · intro h i hm
    by_contra hi
    obtain ⟨record, hmember, hunsigned⟩ := exists_record_of_negative hm (Int.not_le.1 hi) name
    have hread := h record
    rw [hmember, hunsigned] at hread
    cases hread
  · intro h record
    exact holdsUnsigned_of_nonneg h _

theorem onField_eq (h : Text.isBlankText name = false) : onField name = .ok (start ⟨name, h⟩) := by
  rw [onField, Field.named_name ⟨name, h⟩]
  rfl

theorem flatMap_items_int (vs : List Int64) :
    (vs.map Value.int).flatMap Value.items = vs.map Value.int := by
  induction vs with
  | nil => rfl
  | cons i vs ih => rw [List.map_cons, List.flatMap_cons, ih]; rfl

theorem isIn_ints (field : Field) (hvs : vs ≠ []) :
    (start field).isIn (vs.map .int) =
      .ok ⟨[(.and, .field ⟨field, vs.map fun i => .is (.int i), none⟩)]⟩ := by
  obtain ⟨i, vs, rfl⟩ := List.exists_cons_of_ne_nil hvs
  rw [isIn, flatMap_items_int, List.map_cons]
  simp only [pushAll_start]
  simp

theorem notIn_ints (field : Field) (hvs : vs ≠ []) :
    (start field).notIn (vs.map .int) =
      .ok ⟨[(.and, .field ⟨field, vs.map fun i => .isNot (.int i), none⟩)]⟩ := by
  obtain ⟨i, vs, rfl⟩ := List.exists_cons_of_ne_nil hvs
  rw [notIn, flatMap_items_int, List.map_cons]
  simp only [pushAll_start]
  simp

theorem exists_ofText_ints (field : Field) (hname : Plain.isName field.name = true)
    (hvs : vs ≠ []) :
    ∃ e,
      Expr.ofText (toText ⟨[(.and, .field ⟨field, vs.map fun i => .is (.int i), none⟩)]⟩) = .ok e ∧
      Expr.ofText (toText ⟨[(.and, .field ⟨field, vs.map fun i => .isNot (.int i), none⟩)]⟩) =
        .ok (.not e) ∧
      ∀ record, e.holds record =
        if vs.length = 1 then holdsMember vs (record.fieldValues field.name)
        else holdsUnsigned vs (record.fieldValues field.name) := by
  match vs with
  | [] => exact absurd rfl hvs
  | [i] =>
    obtain ⟨text, ht, ho⟩ := @Plain.operand_single ⟨field, [.is (.int i)], none⟩ _ hname rfl rfl
      (Plain.isTerm_int i)
    obtain ⟨text', ht', ho'⟩ := @Plain.operand_single ⟨field, [.isNot (.int i)], none⟩ _ hname rfl
      rfl (Plain.isTerm_int i)
    refine ⟨_, Plain.ofText_of_operand ht ho, Plain.ofText_of_operand ht' ho', fun record => ?_⟩
    simp [FieldNode.lowered, FieldNode.loweredTo, Predicate.isExclusion, Predicate.test,
      Expr.holds, FieldTest.holds, holdsMember, Value.toText]
  | i :: j :: vs =>
    have hin := @Plain.predicatesText?_mixed
      ⟨field, (i :: j :: vs).map fun k => .is (.int k), none⟩ _ _ _ rfl rfl
    have hnot := @Plain.predicatesText?_negations
      ⟨field, (i :: j :: vs).map fun k => .isNot (.int k), none⟩ _ _ _ ((i :: j :: vs).map .int) rfl
      (by simp)
    obtain ⟨text, ht, ho⟩ := Plain.operand_ints (i :: j :: vs) false hname rfl (by simp)
      (hin.trans (by simp [Predicate.fragment, Function.comp_def]))
    obtain ⟨text', ht', ho'⟩ := Plain.operand_ints (i :: j :: vs) true hname rfl (by simp)
      (hnot.trans (by simp [Function.comp_def]))
    refine ⟨_, Plain.ofText_of_operand ht ho, Plain.ofText_of_operand ht' ho', fun record => ?_⟩
    rw [if_neg (by simp), ← groupOfInts_holds]
    rfl

/-- A list of several numbers, one of them negative, does not ask for its members: in the group that
it is written as, the minus negates. -/
theorem isIn_notIn_ints (hne : name ≠ "") (hname : Plain.isName name = true) (hvs : vs ≠ []) :
    ∃ c d e, (do (← onField name).isIn (vs.map .int)) = .ok c ∧
      (do (← onField name).notIn (vs.map .int)) = .ok d ∧
      Expr.ofText c.toText = .ok e ∧ Expr.ofText d.toText = .ok (.not e) ∧
      (∀ record, e.holds record =
        if vs.length = 1 then holdsMember vs (record.fieldValues name)
        else holdsUnsigned vs (record.fieldValues name)) ∧
      ((∀ record : Record, e.holds record = holdsMember vs (record.fieldValues name)) ↔
        vs.length = 1 ∨ ∀ i ∈ vs, 0 ≤ i.toInt) := by
  have hvisible := Plain.isBlankText_eq_false hne hname
  have hfield : onField name = .ok (start ⟨name, hvisible⟩) := by
    rw [onField, Field.named_name ⟨name, hvisible⟩]
    rfl
  obtain ⟨e, hin, hnot, hholds⟩ := exists_ofText_ints ⟨name, hvisible⟩ hname hvs
  refine ⟨_, _, e, ?_, ?_, hin, hnot, hholds, ?_⟩
  · rw [hfield]
    exact isIn_ints _ hvs
  · rw [hfield]
    exact notIn_ints _ hvs
  · by_cases hone : vs.length = 1
    · simp only [hone, if_true, true_or, iff_true] at hholds ⊢
      exact hholds
    · simp only [hone, if_false, false_or] at hholds ⊢
      simp only [hholds, forall_holdsUnsigned_iff]

def ranked (i : Int) : Record :=
  [("rank", .int i)]

theorem isIn_notIn_ints_rank :
    ∃ c d e, (do (← onField "rank").isIn [.int 2, .int 3]) = .ok c ∧
      (do (← onField "rank").notIn [.int 2, .int 3]) = .ok d ∧
      Expr.ofText c.toText = .ok e ∧ Expr.ofText d.toText = .ok (.not e) ∧
      e.holds (ranked 3) = true ∧ e.holds (ranked (-3)) = false := by
  have hvs : ([2, 3] : List Int64) ≠ [] := by simp
  have hnonneg : ∀ i ∈ ([2, 3] : List Int64), 0 ≤ i.toInt :=
    List.forall_mem_cons.2 ⟨by decide, List.forall_mem_cons.2 ⟨by decide, nofun⟩⟩
  have hname : Plain.isName "rank" = true := by decide
  obtain ⟨c, d, e, hc, hd, hin, hnot, -, hiff⟩ := isIn_notIn_ints (by decide) hname hvs
  have hmember := hiff.2 (.inr hnonneg)
  refine ⟨c, d, e, hc, hd, hin, hnot, ?_, ?_⟩
  · rw [hmember]
    decide
  · rw [hmember]
    decide

/-- The text is `rank:(1 -2)`, which is also that of `is(1).is_not(2)`. -/
theorem isIn_misses_negative_rank :
    ∃ c e, (do (← onField "rank").isIn [.int 1, .int (-2)]) = .ok c ∧
      c.toText = "rank:(1 -2)" ∧ Expr.ofText c.toText = .ok e ∧
      (Test.exact (Value.int (-2)).toText).holds ((ranked (-2)).fieldValues "rank") = true ∧
      e.holds (ranked (-2)) = false := by
  have hvs : ([1, -2] : List Int64) ≠ [] := by simp
  obtain ⟨e, hin, -, hholds⟩ :=
    exists_ofText_ints ⟨"rank", by decide⟩ (by decide) hvs
  refine ⟨_, e, isIn_ints _ hvs, by decide, hin, by decide, ?_⟩
  rw [hholds]
  decide

end Criteria

end SearchMapper
