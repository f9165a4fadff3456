import Mathlib.Data.List.DropRight
import SearchMapper.Proofs.Query.Terms
import SearchMapper.Proofs.Text.Words

namespace SearchMapper

open Index (Expr Test)

namespace Index.Reading

open Text (cut? isBlank trimStart)

variable {s t u raw rest : List Char} {lower upper : Option String}
  {includeLower includeUpper : Bool}

section Escapes

theorem length_le_escaped (raw : List Char) : raw.length ≤ (escaped raw).length := by
  induction raw with
  | nil => exact Nat.le_refl _
  | cons c raw ih =>
    simp only [escaped, List.flatMap_cons, List.length_append, List.length_cons] at ih ⊢
    split <;> simp only [List.length_cons, List.length_nil] <;> omega

theorem quote_notMem_of_isPrefix_escaped (h : raw <+: escaped raw) : '"' ∉ raw := by
  induction raw with
  | nil => exact List.not_mem_nil
  | cons c raw ih =>
    by_cases hq : c = '"'
    · subst hq
      simp [escaped] at h
    · simp only [escaped, List.flatMap_cons, if_neg hq, List.singleton_append,
        List.cons_prefix_cons, true_and] at h
      exact fun hm => (List.mem_cons.1 hm).elim (fun he => hq he.symm) (ih h)

theorem escaped_starts (hne : raw ≠ []) : ∃ c r, escaped raw = c :: r ∧ c ≠ '"' := by
  obtain ⟨c, raw, rfl⟩ := List.exists_cons_of_ne_nil hne
  by_cases hq : c = '"'
  · exact ⟨'\\', '"' :: escaped raw, by simp [escaped, hq], by decide⟩
  · exact ⟨c, escaped raw, by simp [escaped, hq], hq⟩

end Escapes

section Ranges

theorem isPrefix_dropWhile {p : Char → Bool} (h : s <+: t) : s.dropWhile p <+: t.dropWhile p := by
  induction s generalizing t with
  | nil => exact List.nil_prefix
  | cons c s ih =>
    obtain ⟨back, rfl⟩ := h
    rw [List.cons_append, List.dropWhile_cons, List.dropWhile_cons]
    split
    · exact ih (List.prefix_append s back)
    · exact List.prefix_append (c :: s) back

theorem isPrefix_of_bound (h : bound s = some (String.ofList raw)) :
    raw <+: (trimStart s).dropWhile (· = '"') := by
  simp only [bound] at h
  split at h
  · cases h
  · have hraw := String.ofList_inj.1 (Option.some.inj h)
    rw [← hraw]
    exact (List.rdropWhile_prefix (· = '"') _).trans
      (isPrefix_dropWhile (List.rdropWhile_prefix isBlank _))

theorem isPrefix_of_bound_quote (h : bound ('"' :: s) = some (String.ofList raw))
    (hs : s.head? ≠ some '"') : raw <+: s := by
  have hraw := isPrefix_of_bound h
  have hstart : trimStart ('"' :: s) = '"' :: s := Text.trimStart_eq_self (by simp; decide)
  have hdrop : s.dropWhile (· = '"') = s :=
    Text.dropWhile_eq_self fun c hc => by
      simp only [decide_eq_false_iff_not]
      rintro rfl
      exact hs hc
  rwa [hstart, List.dropWhile_cons_of_pos (by decide), hdrop] at hraw

theorem notMem_and_isInfix_of_bound (hne : raw ≠ [])
    (ht : t <+: '"' :: (escaped raw ++ '"' :: rest)) (h : bound t = some (String.ofList raw)) :
    '"' ∉ raw ∧ raw <:+: t := by
  cases t with
  | nil => exact absurd (String.ofList_inj.1 (Option.some.inj h)).symm hne
  | cons c s =>
    obtain ⟨rfl, hs⟩ := List.cons_prefix_cons.1 ht
    have hhead : s.head? ≠ some '"' := by
      intro hq
      obtain ⟨r, rfl⟩ := List.head?_eq_some_iff.1 hq
      obtain ⟨d, r', hd, hdq⟩ := escaped_starts hne
      rw [hd, List.cons_append, List.cons_prefix_cons] at hs
      exact hdq hs.1.symm
    have hraw := isPrefix_of_bound_quote h hhead
    have hescaped : raw <+: escaped raw :=
      List.prefix_of_prefix_length_le (hraw.trans hs) (List.prefix_append _ _)
        (length_le_escaped raw)
    exact ⟨quote_notMem_of_isPrefix_escaped hescaped,
      hraw.isInfix.trans (List.suffix_cons _ _).isInfix⟩

/-- A range ends at its first closing bracket, and its bounds stand around its first TO. -/
theorem exists_bounds_of_range
    (h : range includeLower s = .ok (.range lower upper includeLower includeUpper, rest)) :
    ∃ front back, cut? " TO ".toList (s.takeWhile fun c => !endsRange c) = some (front, back) ∧
      bound front = lower ∧ bound back = upper := by
  unfold range at h
  split at h
  · cases h
  · next body close tail hs =>
    split at h
    · cases h
    · next front back hcut =>
      simp only [Except.ok.injEq, Prod.mk.injEq, Test.range.injEq] at h
      rw [Text.span, Prod.mk.injEq] at hs
      exact ⟨front, back, by rwa [hs.1], h.1.1, h.1.2.1⟩

theorem endsRange_eq_false_of_mem_takeWhile {c : Char}
    (h : c ∈ s.takeWhile fun c => !endsRange c) : endsRange c = false := by
  simpa using List.mem_takeWhile_imp h

theorem exists_lower_of_range
    (h : range includeLower s = .ok (.range lower upper includeLower includeUpper, rest)) :
    ∃ front, front <+: s ∧ bound front = lower ∧ (∀ c ∈ front, endsRange c = false) ∧
      ¬" TO ".toList <:+: front := by
  obtain ⟨front, back, hcut, hlower, -⟩ := exists_bounds_of_range h
  have hfront : front <+: s.takeWhile fun c => !endsRange c :=
    ⟨_, (Text.eq_append_of_cut? hcut).symm⟩
  exact ⟨front, hfront.trans (List.takeWhile_prefix _), hlower,
    fun c hc => endsRange_eq_false_of_mem_takeWhile (hfront.subset hc),
    Text.not_infix_of_cut? (by decide) hcut⟩

theorem exists_upper_of_range (ht : ∀ c ∈ t, endsRange c = false)
    (hcut : ∀ rest, cut? " TO ".toList (t ++ (" TO ".toList ++ rest)) = some (t, rest))
    (h : range includeLower (t ++ (" TO ".toList ++ u)) =
      .ok (.range lower upper includeLower includeUpper, rest)) :
    ∃ back, back <+: u ∧ bound back = upper ∧ ∀ c ∈ back, endsRange c = false := by
  obtain ⟨front, back, hbounds, -, hupper⟩ := exists_bounds_of_range h
  have hword : ∀ c ∈ " TO ".toList, (!endsRange c) = true := List.all_eq_true.1 (by decide)
  rw [List.takeWhile_append_of_pos fun c hc => by simp [ht c hc],
    List.takeWhile_append_of_pos hword, hcut, Option.some.injEq, Prod.mk.injEq] at hbounds
  obtain ⟨-, rfl⟩ := hbounds
  exact ⟨_, List.takeWhile_prefix _, hupper, fun c => endsRange_eq_false_of_mem_takeWhile⟩

end Ranges

end Index.Reading

namespace Plain

open Index.Reading

variable {s lo hi : String}

theorem isQuoted_of_hasBlank (h : Text.hasBlank s = true) : isQuoted s = true := by
  simp [isQuoted, h]

theorem bound_toList_of_hasBlank (h : Text.hasBlank s = true) :
    (Value.text s).bound.toList = '"' :: (escaped s.toList ++ ['"']) := by
  have hterm : (Value.text s).bound = Value.quoted s :=
    term_of_isQuoted (isQuoted_of_hasBlank h)
  rw [hterm, quoted_toList]

theorem toList_ne_nil_of_hasBlank (h : Text.hasBlank s = true) : s.toList ≠ [] := by
  intro he
  simp [Text.hasBlank, he] at h

theorem toList_ne_star_of_hasBlank (h : Text.hasBlank s = true) : s.toList ≠ ['*'] := by
  intro he
  rw [Text.hasBlank, he] at h
  exact absurd h (by decide)

theorem isPredicate_between_iff (hlo : Text.hasBlank lo = true) (hhi : Text.hasBlank hi = true)
    (includeLower includeUpper : Bool) :
    isPredicate ['('] (.between (.text lo) (.text hi) includeLower includeUpper) = true ↔
      '"' ∉ lo.toList ∧ '"' ∉ hi.toList ∧ (∀ c ∈ lo.toList ++ hi.toList, endsRange c = false) ∧
        Text.occursIn " TO ".toList lo.toList = false := by
  have hql := isQuoted_of_hasBlank hlo
  have hqh := isQuoted_of_hasBlank hhi
  have htext (s : String) : (Value.text s).toText = s := rfl
  simp only [isPredicate, isBound, htext, hql, hqh, if_true, Bool.and_eq_true, decide_eq_true_eq,
    List.all_eq_true, Bool.not_eq_true', List.mem_append]
  grind

end Plain

namespace Criteria

open Index.Grammar Index.Reading

variable {name lo hi : String} {field : Field} {includeLower includeUpper : Bool}

theorem toText_betweenWith_of_hasBlank (hname : Plain.isName field.name = true)
    (hlo : Text.hasBlank lo = true) (hhi : Text.hasBlank hi = true)
    (includeLower includeUpper : Bool) :
    ((start field).betweenWith (.text lo) (.text hi) includeLower includeUpper).toText.toList =
      field.name.toList ++ ':' :: (if includeLower then '[' else '\x7b') ::
        ('"' :: (escaped lo.toList ++ '"' :: (" TO ".toList ++
          ('"' :: (escaped hi.toList ++ '"' :: [if includeUpper then ']' else '\x7d']))))) := by
  have ht := @toText_push_start field (.between (.text lo) (.text hi) includeLower includeUpper)
    hname rfl
  rw [betweenWith, ht]
  cases includeLower <;> cases includeUpper <;>
    simp [Plain.body, Predicate.fragment, Plain.bound_toList_of_hasBlank hlo,
      Plain.bound_toList_of_hasBlank hhi]

theorem bounds_of_ofText_betweenWith (hname : Plain.isName field.name = true)
    (hlo : Text.hasBlank lo = true) (hhi : Text.hasBlank hi = true)
    (h : Expr.ofText
      ((start field).betweenWith (.text lo) (.text hi) includeLower includeUpper).toText =
        .ok (.field field.name (.one (.range (some lo) (some hi) includeLower includeUpper)))) :
    '"' ∉ lo.toList ∧ '"' ∉ hi.toList ∧ (∀ c ∈ lo.toList ++ hi.toList, endsRange c = false) ∧
      Text.occursIn " TO ".toList lo.toList = false := by
  have hne : field.name ≠ "" := fun he => absurd field.visible (by rw [he]; decide)
  obtain ⟨rest, hasked⟩ := Plain.exists_askedText_of_ofText hne hname
    (toText_betweenWith_of_hasBlank hname hlo hhi includeLower includeUpper) h
  obtain ⟨rest', hrange⟩ := exists_range_of_valueText hasked.valueText
  obtain ⟨front, hfront, hlower, hends, hno⟩ := exists_lower_of_range hrange
  rw [← String.ofList_toList (s := lo)] at hlower
  obtain ⟨hql, hinl⟩ :=
    notMem_and_isInfix_of_bound (Plain.toList_ne_nil_of_hasBlank hlo) hfront hlower
  have hl : ∀ c ∈ lo.toList, endsRange c = false := fun c hc => hends c (hinl.subset hc)
  have hto : Text.occursIn " TO ".toList lo.toList = false := by
    rw [Bool.eq_false_iff, ne_eq, Text.occursIn_iff_infix]
    exact fun hin => hno (hin.trans hinl)
  -- the lower bound is now known as it was written, so the cut is behind its quote
  have hw : Plain.Written (.text lo) ('"' :: (lo.toList ++ ['"'])) :=
    .quoted rfl rfl hql (Plain.toList_ne_star_of_hasBlank hlo) hl
  rw [Plain.escaped_eq_self hql] at hrange
  have hrange' : range includeLower ('"' :: (lo.toList ++ ['"']) ++ (" TO ".toList ++
      ('"' :: (escaped hi.toList ++ '"' :: [if includeUpper then ']' else '\x7d'])))) =
        .ok (.range (some lo) (some hi) includeLower includeUpper, rest') := by
    simpa using hrange
  obtain ⟨back, hback, hupper, hends'⟩ :=
    exists_upper_of_range hw.endsRange_eq_false (hw.cut?_eq hto) hrange'
  rw [← String.ofList_toList (s := hi)] at hupper
  obtain ⟨hqh, hinh⟩ :=
    notMem_and_isInfix_of_bound (Plain.toList_ne_nil_of_hasBlank hhi) hback hupper
  refine ⟨hql, hqh, fun c hc => ?_, hto⟩
  exact (List.mem_append.1 hc).elim (hl c) fun hc => hends' c (hinh.subset hc)

/-- Bounds in quotes are what a range is read with just when no quote and no closing bracket stands
in them, and no TO between blanks in the lower one. -/
theorem ofText_betweenWith_quoted_iff (hne : name ≠ "") (hname : Plain.isName name = true)
    (hlo : Text.hasBlank lo = true) (hhi : Text.hasBlank hi = true)
    (includeLower includeUpper : Bool) :
    ∃ c, (onField name).map
        (·.betweenWith (.text lo) (.text hi) includeLower includeUpper) = .ok c ∧
      (Expr.ofText c.toText =
          .ok (.field name (.one (.range (some lo) (some hi) includeLower includeUpper))) ↔
        '"' ∉ lo.toList ∧ '"' ∉ hi.toList ∧ (∀ c ∈ lo.toList ++ hi.toList, endsRange c = false) ∧
          Text.occursIn " TO ".toList lo.toList = false) := by
  have hvisible := Plain.isBlankText_eq_false hne hname
  refine ⟨(start ⟨name, hvisible⟩).betweenWith (.text lo) (.text hi) includeLower includeUpper,
    ?_, bounds_of_ofText_betweenWith hname hlo hhi, fun hbounds => ?_⟩
  · rw [onField_eq hvisible]
    rfl
  · have hp := (Plain.isPredicate_between_iff hlo hhi includeLower includeUpper).2 hbounds
    obtain ⟨text, ht, ho⟩ := @Plain.operand_single
      ⟨⟨name, hvisible⟩, [.between (.text lo) (.text hi) includeLower includeUpper], none⟩ _
      hname rfl rfl hp
    exact Plain.ofText_of_operand ht ho

theorem ofText_betweenWith_quoted_iff_road :
    ∃ c, (onField "road").map
        (·.betweenWith (.text "* b \\") (.text "x TO y ") false true) = .ok c ∧
      Expr.ofText c.toText =
        .ok (.field "road" (.one (.range (some "* b \\") (some "x TO y ") false true))) := by
  have hname : Plain.isName "road" = true := by decide
  have hlo : Text.hasBlank "* b \\" = true := by decide
  have hhi : Text.hasBlank "x TO y " = true := by decide
  obtain ⟨c, hc, hiff⟩ := ofText_betweenWith_quoted_iff (by decide) hname hlo hhi false true
  have hbounds := Plain.isPredicate_between_iff hlo hhi false true
  exact ⟨c, hc, hiff.2 (hbounds.1 (by decide))⟩

/-- The backslash in front of a quote becomes part of the bound, which the text itself is below. -/
theorem ofText_betweenWith_keeps_backslash :
    Plain.isName "title" = true ∧ Text.hasBlank "a \"b" = true ∧ Text.hasBlank "c d" = true ∧
      ∃ c, (onField "title").map
          (·.betweenWith (.text "a \"b") (.text "c d") true true) = .ok c ∧
        c.toText = "title:[\"a \\\"b\" TO \"c d\"]" ∧
        Expr.ofText c.toText =
          .ok (.field "title" (.one (.range (some "a \\\"b") (some "c d") true true))) ∧
        (Test.range (some "a \"b") (some "c d") true true).holds ["a \"b"] = true ∧
        (Test.range (some "a \\\"b") (some "c d") true true).holds ["a \"b"] = false := by
  refine ⟨by decide, by decide, by decide, _, rfl, by decide, ?_,
    by decide, by decide⟩
  have hspan : Text.span (fun c => !endsField c) "title:[\"a \\\"b\" TO \"c d\"]".toList =
      ("title".toList, ':' :: '[' :: "\"a \\\"b\" TO \"c d\"]".toList) := by decide
  have hrange : range true "\"a \\\"b\" TO \"c d\"]".toList =
      .ok (.range (some "a \\\"b") (some "c d") true true, []) := by rfl
  have hfield := FieldText.field (by decide) (by decide) hspan
    (.one (by decide) (.closedRange hrange))
  refine ofText_eq_ok_iff.2 ⟨[conjunction [_]], ⟨[], ?_, rfl⟩, rfl⟩
  exact .last (.last (.unnegated (by decide) (.field (by decide) hfield)) rfl) rfl

end Criteria

end SearchMapper
