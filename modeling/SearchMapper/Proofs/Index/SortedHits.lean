import Mathlib
import SearchMapper.Proofs.Index.SortOrder
import SearchMapper.Proofs.Number.Order

namespace SearchMapper.Index

open Number.Binary (Extended)

/-- Numbers rank by their value and other texts by their characters. -/
abbrev Rank := Extended ⊕ₗ String

def rankOf (v : String) : Rank :=
  match (number? v).bind Number.Binary.value? with
  | some x => Sum.inlₗ x
  | none => Sum.inrₗ v

/-- The values that records are sorted by; not all records need have one. -/
def firstValues (records : List Record) (field : String) : List String :=
  records.filterMap (firstValue? · field)

/-- The values are all numbers with a value, or none is a number. -/
def Uniform (values : List String) : Prop :=
  (∀ v ∈ values, ∃ x, number? v = some x ∧ x ≠ .nan) ∨ ∀ v ∈ values, number? v = none

/-- Whether a value stands before another. A missing one stands last in both directions. -/
def Ahead (descending : Bool) : Option String → Option String → Prop
  | some v, some w => if descending then rankOf w < rankOf v else rankOf v < rankOf w
  | some _, none => True
  | none, _ => False

def Tied : Option String → Option String → Prop
  | some v, some w => rankOf v = rankOf w
  | none, none => True
  | _, _ => False

/-- The first term under which two records differ has them in its order. -/
def InSequence : List SortTerm → Record → Record → Prop
  | [], _, _ => True
  | (field, descending) :: rest, a, b =>
    Ahead descending (firstValue? a field) (firstValue? b field) ∨
      Tied (firstValue? a field) (firstValue? b field) ∧ InSequence rest a b

def AllTied (terms : List SortTerm) (a b : Record) : Prop :=
  ∀ term ∈ terms, Tied (firstValue? a term.1) (firstValue? b term.1)

variable {values : List String} {descending : Bool} {u v w : Option String}

section Ranks

theorem compareText_eq_cmp (a b : String) : compareText a b = cmp a b := by
  unfold compareText cmp cmpUsing
  split
  · rfl
  · next hlt =>
    split
    · next he => simp [he]
    · next hne => rw [if_pos (lt_of_le_of_ne (not_lt.1 hlt) (Ne.symm hne))]

theorem compareValues_eq_cmp (h : Uniform values) {a b : String} (ha : a ∈ values)
    (hb : b ∈ values) : compareValues a b = cmp (rankOf a) (rankOf b) := by
  obtain hnumbers | htexts := h
  · obtain ⟨x, hx, hxn⟩ := hnumbers a ha
    obtain ⟨y, hy, hyn⟩ := hnumbers b hb
    obtain ⟨u, hu⟩ := Option.ne_none_iff_exists'.1 (mt Number.Binary.value?_eq_none_iff.1 hxn)
    obtain ⟨w, hw⟩ := Option.ne_none_iff_exists'.1 (mt Number.Binary.value?_eq_none_iff.1 hyn)
    simp only [compareValues, rankOf, hx, hy, Option.bind_some, hu, hw]
    rw [Number.Binary.compare?_eq_cmp hu hw, Option.getD_some]
    exact (Sum.Lex.inl_strictMono.cmp_map_eq u w).symm
  · simp only [compareValues, rankOf, htexts a ha, htexts b hb, Option.bind_none]
    rw [compareText_eq_cmp]
    exact (Sum.Lex.inr_strictMono.cmp_map_eq a b).symm

theorem Ahead.trans (h : Ahead descending u v) (h' : Ahead descending v w) :
    Ahead descending u w := by
  cases u <;> cases v <;> cases w <;> cases descending <;> simp_all [Ahead] <;> order

theorem Ahead.trans_tied (h : Ahead descending u v) (h' : Tied v w) : Ahead descending u w := by
  cases u <;> cases v <;> cases w <;> cases descending <;> simp_all [Ahead, Tied]

theorem Tied.trans_ahead (h : Tied u v) (h' : Ahead descending v w) : Ahead descending u w := by
  cases u <;> cases v <;> cases w <;> cases descending <;> simp_all [Ahead, Tied]

theorem Tied.trans (h : Tied u v) (h' : Tied v w) : Tied u w := by
  cases u <;> cases v <;> cases w <;> simp_all [Tied]

theorem InSequence.trans {terms : List SortTerm} {a b c : Record} (h : InSequence terms a b)
    (h' : InSequence terms b c) : InSequence terms a c := by
  induction terms with
  | nil => trivial
  | cons term terms ih =>
    obtain hab | ⟨hab, h⟩ := h
    · obtain hbc | ⟨hbc, -⟩ := h'
      · exact .inl (hab.trans hbc)
      · exact .inl (hab.trans_tied hbc)
    · obtain hbc | ⟨hbc, h'⟩ := h'
      · exact .inl (hab.trans_ahead hbc)
      · exact .inr ⟨hab.trans hbc, ih h h'⟩

end Ranks

section Comparisons

theorem compareOptional_eq_lt_iff (h : Uniform values) (hv : ∀ x ∈ v, x ∈ values)
    (hw : ∀ x ∈ w, x ∈ values) : compareOptional descending v w = .lt ↔ Ahead descending v w := by
  cases v with
  | none => cases w <;> simp [compareOptional, Ahead]
  | some a =>
    cases w with
    | none => simp [compareOptional, Ahead]
    | some b =>
      rw [compareOptional, compareValues_eq_cmp h (hv a rfl) (hw b rfl), cmp_swap, Ahead]
      cases descending <;> simp

theorem compareOptional_eq_eq_iff (h : Uniform values) (hv : ∀ x ∈ v, x ∈ values)
    (hw : ∀ x ∈ w, x ∈ values) : compareOptional descending v w = .eq ↔ Tied v w := by
  cases v with
  | none => cases w <;> simp [compareOptional, Tied]
  | some a =>
    cases w with
    | none => simp [compareOptional, Tied]
    | some b =>
      rw [compareOptional, compareValues_eq_cmp h (hv a rfl) (hw b rfl), cmp_swap, Tied]
      cases descending with
      | false => exact cmp_eq_eq_iff _ _
      | true => exact (cmp_eq_eq_iff _ _).trans eq_comm

variable {terms : List SortTerm} {hits : List Record} {a b : Record}

theorem mem_firstValues (ha : a ∈ hits) (field : String) :
    ∀ x ∈ firstValue? a field, x ∈ firstValues hits field :=
  fun _ hx => List.mem_filterMap.2 ⟨a, ha, hx⟩

theorem compareRecords_ne_gt_iff
    (h : ∀ term ∈ terms, Uniform (firstValues hits term.1)) (ha : a ∈ hits)
    (hb : b ∈ hits) : compareRecords a b terms ≠ .gt ↔ InSequence terms a b := by
  induction terms with
  | nil => simp [compareRecords, InSequence]
  | cons term terms ih =>
    obtain ⟨field, descending⟩ := term
    obtain ⟨hterm, h⟩ := List.forall_mem_cons.1 h
    have hv := mem_firstValues ha field
    have hw := mem_firstValues hb field
    have htied : compareOptional descending (firstValue? a field) (firstValue? b field) = .eq ↔
        Tied (firstValue? a field) (firstValue? b field) := compareOptional_eq_eq_iff hterm hv hw
    rw [compareRecords, InSequence, ← ih h, ← compareOptional_eq_lt_iff hterm hv hw, ← htied]
    cases compareOptional descending (firstValue? a field) (firstValue? b field) <;> simp

theorem compareRecords_eq_eq_iff
    (h : ∀ term ∈ terms, Uniform (firstValues hits term.1)) (ha : a ∈ hits)
    (hb : b ∈ hits) : compareRecords a b terms = .eq ↔ AllTied terms a b := by
  induction terms with
  | nil => simp [compareRecords, AllTied]
  | cons term terms ih =>
    obtain ⟨field, descending⟩ := term
    obtain ⟨hterm, h⟩ := List.forall_mem_cons.1 h
    have hv := mem_firstValues ha field
    have hw := mem_firstValues hb field
    rw [compareRecords, Ordering.then_eq_eq, ih h, compareOptional_eq_eq_iff hterm hv hw, AllTied,
      AllTied, List.forall_mem_cons]

end Comparisons

/-- Each field that is sorted by holds numbers alone or none. Then no hit stands before one that its
terms put in front of it, and hits that no term tells apart stay in the order that they come in. -/
theorem sortHits_sorted_stable {terms : List SortTerm} {hits : List Record}
    (h : ∀ term ∈ terms, Uniform (firstValues hits term.1)) :
    (sortHits terms hits).Perm hits ∧ (sortHits terms hits).Pairwise (InSequence terms) ∧
      ∀ group : List Record, group.Sublist hits → group.Pairwise (AllTied terms) →
        group.Sublist (sortHits terms hits) := by
  refine ⟨sortHits_perm terms hits, ?_, fun group hgroup htied => ?_⟩
  · have hconsistent : Consistent terms hits := by
      intro a ha b hb c hc hab hbc
      rw [compareRecords_ne_gt_iff h ha hb] at hab
      rw [compareRecords_ne_gt_iff h hb hc] at hbc
      exact (compareRecords_ne_gt_iff h ha hc).2 (hab.trans hbc)
    have hmem {a : Record} (ha : a ∈ sortHits terms hits) : a ∈ hits :=
      (sortHits_perm terms hits).mem_iff.1 ha
    refine (sortHits_pairwise hconsistent).imp_of_mem fun ha hb => ?_
    exact (compareRecords_ne_gt_iff h (hmem ha) (hmem hb)).1
  · refine sublist_sortHits hgroup (htied.imp_of_mem fun ha hb hab => ?_)
    exact (compareRecords_eq_eq_iff h (hgroup.subset ha) (hgroup.subset hb)).2 hab

section Scores

def scores : List Record :=
  [[("id", .text "1"), ("points", .text "9")], [("id", .text "2")],
    [("id", .text "3"), ("points", .int 10)], [("id", .text "4"), ("points", .text "1e1")]]

theorem uniform_scores : Uniform (firstValues scores "points") := by
  have hvalues : firstValues scores "points" = ["9", "10", "1e1"] := by decide
  have hnumbers : ∀ v ∈ ["9", "10", "1e1"], (number? v).any (· ≠ .nan) = true := by
    decide
  rw [hvalues]
  exact .inl fun v hv => by simpa [Option.any_eq_true] using hnumbers v hv

theorem sortHits_sorted_stable_scores :
    Uniform (firstValues scores "points") ∧
      (sortHits [("points", true)] scores).Pairwise (InSequence [("points", true)]) ∧
      (scores.drop 2).Sublist (sortHits [("points", true)] scores) ∧
      (sortHits [("points", true)] scores).map (firstValue? · "id") =
        [some "3", some "4", some "1", some "2"] := by
  obtain ⟨-, hsorted, hstable⟩ :=
    @sortHits_sorted_stable [("points", true)] scores (by simpa using uniform_scores)
  have htied : rankOf "10" = rankOf "1e1" := by decide +kernel
  refine ⟨uniform_scores, hsorted, hstable _ (List.drop_sublist _ _) ?_, by decide⟩
  refine List.pairwise_pair.2 fun term hterm => ?_
  obtain rfl := List.mem_singleton.1 hterm
  exact htied

end Scores

end SearchMapper.Index
