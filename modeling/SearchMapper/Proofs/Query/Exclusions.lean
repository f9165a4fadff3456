import SearchMapper.Proofs.Query.Members

namespace SearchMapper

open Index (Expr Test)

namespace Plain

variable {barred : List Char} {v : Value} {p : Predicate} {ps : List Predicate}

/-- A token that stays one wherever it stands. -/
def isBareTerm (v : Value) : Bool :=
  v.toText ≠ "" && !Text.hasBlank v.toText &&
    (v.toText.toList.all fun c => c ∉ ['(', ')', '^', '~', '*']) &&
    startsFree ['-'] v.toText.toList

def isBareExclusion : Predicate → Bool
  | .isNot v => isBareTerm v
  | .isNull => true
  | _ => false

theorem isTerm_of_isBareTerm (hb : Bars barred) (h : isBareTerm v = true) :
    isTerm barred v = true := by
  simp only [isBareTerm, Bool.and_eq_true, Bool.not_eq_true', List.all_eq_true,
    decide_eq_true_eq] at h
  obtain ⟨⟨⟨-, hblank⟩, hmarks⟩, hstart⟩ := h
  have hno : ∀ c ∈ ['(', ')', '^', '~', '*'], c ∉ v.toText.toList := fun c hc hm => hmarks c hm hc
  apply isTerm_of_isWord
  · apply isWord_of_notMem
    · exact fun c hc => by simpa using List.any_eq_false.1 hblank c hc
    · exact hno _ (by decide)
    · exact hno _ (by decide)
    · exact hno _ (by decide)
  · exact hno _ (by decide)
  · refine (Option.all_eq_true ..).2 fun c hc => ?_
    have hfree : c ∉ ['"', '[', '\x7b'] ∧ c ∉ ['-'] := by
      simpa using (Option.all_eq_true ..).1 hstart c hc
    have hparen : c ≠ '(' := by
      rintro rfl
      exact hno _ (by decide) (List.mem_of_mem_head? hc)
    have hbar : c ∉ barred := notMem_of_bars hb hparen (by simpa using hfree.2)
    simp [hfree.1, hbar]

theorem isPredicate_of_isBareExclusion (hb : Bars barred) (h : isBareExclusion p = true) :
    isPredicate barred p = true := by
  cases p with
  | isNot v => exact isTerm_of_isBareTerm hb h
  | isNull => rfl
  | _ => simp [isBareExclusion] at h

theorem arePredicates_of_bars (h : ∀ barred, Bars barred → ∀ p ∈ ps, isPredicate barred p = true) :
    arePredicates ps = true := by
  fun_cases arePredicates ps with
  | case1 p => exact h _ (by simp [Bars]) p (List.mem_singleton_self p)
  | case2 ps hone hall => exact List.all_eq_true.2 (h _ (by simp [Bars]))
  | case3 ps hone hall =>
    refine List.all_eq_true.2 fun p hm => h _ ?_ p hm
    split <;> simp [Bars]

theorem arePredicates_of_isBareExclusion (h : ∀ p ∈ ps, isBareExclusion p = true) :
    arePredicates ps = true :=
  arePredicates_of_bars fun _ hb p hm => isPredicate_of_isBareExclusion hb (h p hm)

theorem isExclusion_of_isBareExclusion (h : isBareExclusion p = true) : p.isExclusion = true := by
  cases p with
  | isNot v | isNull => rfl
  | _ => simp [isBareExclusion] at h

end Plain

theorem Predicate.isNegation_of_isExclusion {p : Predicate} (h : p.isExclusion = true)
    (hp : p ≠ .isNull) : p.isNegation = true := by
  cases p with
  | isNot v => rfl
  | isNull => exact absurd rfl hp
  | _ => simp [Predicate.isExclusion] at h

namespace FieldNode

variable {ps : List Predicate} {values : List String}

theorem holdsOf_exclusions (h : ∀ p ∈ ps, p.isExclusion = true)
    (hps : ps.length = 1 ∨ .isNull ∉ ps) (values : List String) :
    holdsOf values ps = ps.all (·.holds values) := by
  fun_cases holdsOf values ps with
  | case1 p => simp
  | case2 ps hone hall => rfl
  | case3 ps hone hall =>
    have hnull : .isNull ∉ ps := by
      refine hps.resolve_left fun hlen => ?_
      obtain ⟨p, rfl⟩ := List.length_eq_one_iff.1 hlen
      exact hone p rfl
    refine absurd (List.all_eq_true.2 fun p hm => ?_) hall
    exact Predicate.isNegation_of_isExclusion (h p hm) fun he => hnull (he ▸ hm)

theorem holdsOf_exclusions_eq_false (h : ∀ p ∈ ps, p.isExclusion = true) (hlen : ps.length ≠ 1)
    (hnull : .isNull ∈ ps) (values : List String) : holdsOf values ps = false := by
  have hone : ∀ p, ps = [p] → False := by
    rintro p rfl
    exact hlen rfl
  have hall : ¬(ps.all Predicate.isNegation = true) := fun ha => by
    simpa [Predicate.isNegation] using List.all_eq_true.1 ha _ hnull
  have hany : (ps.any fun p => !p.isExclusion && p.holds values) = false := by
    refine List.any_eq_false.2 fun p hm => ?_
    simp [h p hm]
  rw [holdsOf.eq_2 _ _ hone, if_neg hall, hany, Bool.false_and]

end FieldNode

namespace Criteria

variable {name : String} {ps : List Predicate}

/-- None of the excluded values is among those of the field, which has none if null is asked for. -/
def Excludes (ps : List Predicate) (values : List String) : Prop :=
  (∀ v, .isNot v ∈ ps → (Test.exact v.toText).holds values = false) ∧
    (.isNull ∈ ps → values = [])

theorem isNull_holds (values : List String) : Predicate.isNull.holds values = values.isEmpty := by
  cases values <;> rfl

theorem forall_holds_iff (h : ∀ p ∈ ps, Plain.isBareExclusion p = true) (values : List String) :
    (∀ p ∈ ps, p.holds values = true) ↔ Excludes ps values := by
  constructor
  · intro hp
    refine ⟨fun v hm => ?_, fun hm => ?_⟩
    · simpa [Predicate.holds, Predicate.isExclusion, Predicate.test] using hp _ hm
    · simpa [isNull_holds] using hp _ hm
  · rintro ⟨hnot, hnull⟩ p hm
    cases p with
    | isNot v => simpa [Predicate.holds, Predicate.isExclusion, Predicate.test] using hnot v hm
    | isNull => simpa [isNull_holds] using hnull hm
    | _ => simpa [Plain.isBareExclusion] using h _ hm

theorem excludes_nil (ps : List Predicate) : Excludes ps [] :=
  ⟨fun _ _ => rfl, fun _ => rfl⟩

theorem holdsOf_exclusions_iff (h : ∀ p ∈ ps, Plain.isBareExclusion p = true)
    (values : List String) :
    FieldNode.holdsOf values ps = true ↔
      (ps.length = 1 ∨ .isNull ∉ ps) ∧ Excludes ps values := by
  have hx : ∀ p ∈ ps, p.isExclusion = true := fun p hm =>
    Plain.isExclusion_of_isBareExclusion (h p hm)
  by_cases hps : ps.length = 1 ∨ .isNull ∉ ps
  · rw [FieldNode.holdsOf_exclusions hx hps, List.all_eq_true, forall_holds_iff h]
    exact ⟨fun he => ⟨hps, he⟩, And.right⟩
  · obtain ⟨hlen, hnull⟩ : ps.length ≠ 1 ∧ .isNull ∈ ps := by simpa using hps
    rw [FieldNode.holdsOf_exclusions_eq_false hx hlen hnull]
    exact ⟨nofun, fun he => absurd he.1 hps⟩

theorem ofText_pushAll (field : Field) (hname : Plain.isName field.name = true) (hps : ps ≠ [])
    (h : Plain.arePredicates ps = true) :
    ∃ e, Expr.ofText ((start field).pushAll ps).toText = .ok e ∧
      ∀ record : Record, e.holds record =
        FieldNode.holdsOf (record.fieldValues field.name) ps := by
  have hplain : ((start field).pushAll ps).isPlain = true := by
    rw [pushAll_start]
    simp [isPlain, Plain.areLinks, Plain.isNode, Plain.isField, hname, h]
  have hempty : ((start field).pushAll ps).isEmpty = false := by
    rw [pushAll_start]
    simpa [isEmpty, linksAreEmpty, nodeIsEmpty] using hps
  refine ⟨_, Plain.ofText_toText hplain hempty, fun record => ?_⟩
  rw [holds_toExpr, pushAll_start]
  simp [holds, keptHolds, nodeIsEmpty, hps, nodeHolds, chainHolds, alternatives, FieldNode.holds]

theorem ofText_exclusions (field : Field) (hname : Plain.isName field.name = true) (hps : ps ≠ [])
    (h : ∀ p ∈ ps, Plain.isBareExclusion p = true) :
    ∃ e, Expr.ofText ((start field).pushAll ps).toText = .ok e ∧
      ∀ record : Record, e.holds record =
        FieldNode.holdsOf (record.fieldValues field.name) ps :=
  ofText_pushAll field hname hps (Plain.arePredicates_of_isBareExclusion h)

/-- Exclusions that accumulate on a field exclude just what they name if there is a single one of
them, or none asks for null. Otherwise they match nothing. -/
theorem pushAll_exclusions (hne : name ≠ "") (hname : Plain.isName name = true) (hps : ps ≠ [])
    (h : ∀ p ∈ ps, Plain.isBareExclusion p = true) :
    ∃ c e, (onField name).map (·.pushAll ps) = .ok c ∧ Expr.ofText c.toText = .ok e ∧
      (∀ record : Record, e.holds record = true ↔
        (ps.length = 1 ∨ .isNull ∉ ps) ∧ Excludes ps (record.fieldValues name)) ∧
      ((∀ record : Record, e.holds record = true ↔ Excludes ps (record.fieldValues name)) ↔
        ps.length = 1 ∨ .isNull ∉ ps) := by
  have hvisible := Plain.isBlankText_eq_false hne hname
  obtain ⟨e, he, hholds⟩ := ofText_exclusions ⟨name, hvisible⟩ hname hps h
  have hmatches (record : Record) : e.holds record = true ↔
      (ps.length = 1 ∨ .isNull ∉ ps) ∧ Excludes ps (record.fieldValues name) := by
    rw [hholds, holdsOf_exclusions_iff h]
  refine ⟨_, e, ?_, he, hmatches, ?_⟩
  · rw [onField_eq hvisible]
    rfl
  · constructor
    · -- the record without any field is excluded by nothing
      intro hall
      exact ((hmatches []).1 ((hall []).2 (excludes_nil ps))).1
    · intro hone record
      rw [hmatches]
      exact ⟨And.right, fun hx => ⟨hone, hx⟩⟩

theorem pushAll_exclusions_sizes :
    ∃ c e, (onField "size").map (·.pushAll [.isNot (.text "xl"), .isNot (.int 44)]) = .ok c ∧
      Expr.ofText c.toText = .ok e ∧
      ∀ record : Record, e.holds record = true ↔
        Excludes [.isNot (.text "xl"), .isNot (.int 44)] (record.fieldValues "size") := by
  have hname : Plain.isName "size" = true := by decide
  have hbare : ∀ p ∈ [Predicate.isNot (.text "xl"), .isNot (.int 44)],
      Plain.isBareExclusion p = true :=
    List.forall_mem_cons.2 ⟨by decide,
      List.forall_mem_cons.2 ⟨by decide, List.forall_mem_nil _⟩⟩
  obtain ⟨c, e, hc, he, -, hiff⟩ := pushAll_exclusions (by decide) hname (by simp) hbare
  exact ⟨c, e, hc, he, hiff.2 (.inr (by simp))⟩

/-- The text is `title:(-a -[* TO *])`, a group without a plain test. -/
theorem isNot_isNull_matches_nothing :
    ∃ c e, (onField "title").map (·.pushAll [.isNot (.text "a"), .isNull]) = .ok c ∧
      c.toText = "title:(-a -[* TO *])" ∧ Expr.ofText c.toText = .ok e ∧
      Excludes [.isNot (.text "a"), .isNull] (Record.fieldValues [("id", .text "1")] "title") ∧
      e.holds [("id", .text "1")] = false := by
  have hbare : ∀ p ∈ [Predicate.isNot (.text "a"), .isNull], Plain.isBareExclusion p = true :=
    List.forall_mem_cons.2 ⟨by decide,
      List.forall_mem_cons.2 ⟨rfl, List.forall_mem_nil _⟩⟩
  obtain ⟨e, he, hholds⟩ :=
    ofText_exclusions ⟨"title", by decide⟩ (by decide) (by simp) hbare
  refine ⟨_, e, rfl, by decide, he, excludes_nil _, ?_⟩
  rw [hholds]
  rfl

end Criteria

end SearchMapper
