import SearchMapper.Proofs.Index.Reads

namespace SearchMapper.Index.Grammar

open Reading
open Text (trimStart)

inductive ValueText : List Char → Test → List Char → Prop
  | phrase {r text rest : List Char} (h : phrase? r = some (text, rest)) :
      ValueText ('"' :: r) (.exact (String.ofList text)) (skipBoost rest)
  | closedRange {r rest : List Char} {test : Test} (h : range true r = .ok (test, rest)) :
      ValueText ('[' :: r) test (skipBoost rest)
  | openRange {r rest : List Char} {test : Test} (h : range false r = .ok (test, rest)) :
      ValueText ('\x7b' :: r) test (skipBoost rest)
  | token {s token rest : List Char} (hh : ∀ c ∈ s.head?, c ∉ ['"', '[', '\x7b'])
      (hne : token ≠ []) (hs : Text.span (fun c => !endsToken c) s = (token, rest)) :
      ValueText s (tokenTest token) (skipBoost rest)

inductive GroupText : List Char → List (Bool × Test) → List Char → Prop
  | close {s rest : List Char} (h : trimStart s = ')' :: rest) : GroupText s [] rest
  | item {s r rest rest' : List Char} {c : Char} {test : Test} {items : List (Bool × Test)}
      (h : trimStart s = c :: r) (hc : c ≠ ')')
      (hv : ValueText (if c = '-' then r else c :: r) test rest) (hg : GroupText rest items rest') :
      GroupText s ((decide (c = '-'), test) :: items) rest'

inductive AskedText : List Char → FieldTest → List Char → Prop
  | group {r rest : List Char} {items : List (Bool × Test)} (h : GroupText r items rest) :
      AskedText ('(' :: r) (.group items) (skipBoost rest)
  | one {s rest : List Char} {test : Test} (hs : s.head? ≠ some '(') (h : ValueText s test rest) :
      AskedText s (.one test) rest

/-- A star stands for all records, also if another is asked of it. -/
inductive FieldText : List Char → Expr → List Char → Prop
  | star {s rest : List Char} (hs : Text.span (fun c => !endsField c) s = (['*'], rest))
      (hr : rest.head? ≠ some ':') : FieldText s .all rest
  | stars {s rest : List Char}
      (hs : Text.span (fun c => !endsField c) s = (['*'], ':' :: '*' :: rest)) :
      FieldText s .all rest
  | field {s name tail rest : List Char} {asked : FieldTest} (hne : name ≠ [])
      (hstar : name = ['*'] → tail.head? ≠ some '*')
      (hs : Text.span (fun c => !endsField c) s = (name, ':' :: tail))
      (h : AskedText tail asked rest) : FieldText s (.field (String.ofList name) asked) rest

mutual

inductive PrimaryText : List Char → Expr → List Char → Prop
  | parenthesized {s r rest rest' : List Char} {es : List Expr} (hs : trimStart s = '(' :: r)
      (h : AnyOfText r es rest) (hr : trimStart rest = ')' :: rest') :
      PrimaryText s (disjunction es) (skipBoost rest')
  | field {s rest : List Char} {e : Expr} (hs : (trimStart s).head? ≠ some '(')
      (h : FieldText (trimStart s) e rest) : PrimaryText s e rest

inductive SignedText : List Char → Expr → List Char → Prop
  | negated {s r rest : List Char} {e : Expr} (hs : trimStart s = '-' :: r)
      (h : PrimaryText r e rest) : SignedText s (.not e) rest
  | unnegated {s rest : List Char} {e : Expr} (hs : (trimStart s).head? ≠ some '-')
      (h : PrimaryText s e rest) : SignedText s e rest

inductive AllOfText : List Char → List Expr → List Char → Prop
  | last {s rest : List Char} {e : Expr} (h : SignedText s e rest)
      (hk : keyword? ['A', 'N', 'D'] rest = none) : AllOfText s [e] rest
  | more {s r rest rest' : List Char} {e : Expr} {es : List Expr} (h : SignedText s e rest)
      (hk : keyword? ['A', 'N', 'D'] rest = some r) (hes : AllOfText r es rest') :
      AllOfText s (e :: es) rest'

/-- Expressions joined by OR, each of them one expression or several that AND joins. -/
inductive AnyOfText : List Char → List Expr → List Char → Prop
  | last {s rest : List Char} {run : List Expr} (h : AllOfText s run rest)
      (hk : keyword? ['O', 'R'] rest = none) : AnyOfText s [conjunction run] rest
  | more {s r rest rest' : List Char} {run es : List Expr} (h : AllOfText s run rest)
      (hk : keyword? ['O', 'R'] rest = some r) (hes : AnyOfText r es rest') :
      AnyOfText s (conjunction run :: es) rest'

end

section Readers

variable {s rest : List Char} {size : Nat} {test : Test} {items : List (Bool × Test)}
  {asked : FieldTest} {e : Expr} {es : List Expr}

theorem reads_value_iff : Reads (value size s) test rest ↔ ValueText s test rest := by
  constructor
  · intro h
    unfold Reads value at h
    split at h
    · split at h
      · cases h
      · next hs =>
        cases h
        exact .phrase hs
    · split at h
      · cases h
      · next hs =>
        cases h
        exact .closedRange hs
    · split at h
      · cases h
      · next hs =>
        cases h
        exact .openRange hs
    · next hphrase hclosed hopen =>
      split at h
      · cases h
      · next c token rest' hs =>
        cases h
        refine .token (fun d hd hm => ?_) (List.cons_ne_nil c token) hs
        obtain ⟨r, rfl⟩ := List.head?_eq_some_iff.1 hd
        simp only [List.mem_cons, List.not_mem_nil, or_false] at hm
        rcases hm with rfl | rfl | rfl
        · exact hphrase r rfl
        · exact hclosed r rfl
        · exact hopen r rfl
  · intro h
    cases h with
    | phrase h => exact reads_phrase h
    | closedRange h => exact reads_closedRange h
    | openRange h => exact reads_openRange h
    | token hh hne hs => exact reads_token hh hne hs

theorem groupText_of_reads (h : Reads (groupItems size s) items rest) : GroupText s items rest := by
  induction hn : s.length using Nat.strongRecOn generalizing s items with
  | ind n ih =>
    unfold Reads at h
    rw [groupItems] at h
    split at h
    · cases h
    · next hs =>
      cases h
      exact .close hs
    · next c r hclose hs =>
      split at h
      · cases h
      · next test rest' shorter hvalue =>
        split at h
        · cases h
        · next t hitems =>
          cases h
          have hlt : rest'.length < s.length := by
            have hr : (if c = '-' then r else c :: r).length ≤ r.length + 1 := by split <;> simp
            have := length_lt_of_trimStart hs
            omega
          exact .item hs hclose (reads_value_iff.1 (reads_of_eq_ok hvalue))
            (ih rest'.length (hn ▸ hlt) (reads_of_eq_ok hitems) rfl)

theorem reads_groupItems_iff : Reads (groupItems size s) items rest ↔ GroupText s items rest := by
  refine ⟨groupText_of_reads, fun h => ?_⟩
  induction h with
  | close h => exact reads_groupEnd h
  | item h hc hv _ ih => exact reads_groupItem h hc (reads_value_iff.2 hv) ih

theorem reads_fieldTest_iff : Reads (fieldTest size s) asked rest ↔ AskedText s asked rest := by
  constructor
  · intro h
    unfold fieldTest at h
    split at h
    · next r =>
      unfold Reads at h
      split at h
      · cases h
      · next items rest' shorter hitems =>
        cases h
        exact .group (reads_groupItems_iff.1 (reads_of_eq_ok hitems))
    · next hs =>
      obtain ⟨t, hvalue, rfl, rfl⟩ := Reads.of_map h
      refine .one (fun hm => ?_) (reads_value_iff.1 (reads_of_eq_ok hvalue))
      obtain ⟨r, rfl⟩ := List.head?_eq_some_iff.1 hm
      exact hs r rfl
  · intro h
    cases h with
    | group h => exact reads_group (reads_groupItems_iff.2 h)
    | one hs h => exact reads_one hs (reads_value_iff.2 h)

theorem reads_star (hs : Text.span (fun c => !endsField c) s = (['*'], rest))
    (hr : rest.head? ≠ some ':') : Reads (fieldExpr size s) .all rest := by
  unfold Reads fieldExpr
  split
  · next hn =>
    rw [hs] at hn
    cases hn
  · next c name rest' hs' =>
    rw [hs, Prod.mk.injEq] at hs'
    obtain ⟨hname, rfl⟩ := hs'
    simp only
    split
    · simp at hr
    · simp at hr
    · rw [if_pos hname.symm]
      rfl

theorem reads_stars (hs : Text.span (fun c => !endsField c) s = (['*'], ':' :: '*' :: rest)) :
    Reads (fieldExpr size s) .all rest := by
  unfold Reads fieldExpr
  split
  · next hn =>
    rw [hs] at hn
    cases hn
  · next c name rest' hs' =>
    rw [hs, Prod.mk.injEq] at hs'
    obtain ⟨hname, hrest⟩ := hs'
    simp only
    split
    · next rest'' _ _ =>
      obtain ⟨-, hrest⟩ := List.cons.inj hrest
      obtain ⟨-, rfl⟩ := List.cons.inj hrest
      rw [if_pos hname.symm]
      rfl
    · next tail _ _ hn =>
      obtain ⟨-, rfl⟩ := List.cons.inj hrest
      exact (hn rest _ _ .rfl .rfl rfl).elim
    · next hn =>
      subst hrest
      exact (hn ('*' :: rest) _ _ rfl .rfl .rfl).elim

theorem reads_fieldExpr_iff : Reads (fieldExpr size s) e rest ↔ FieldText s e rest := by
  constructor
  · intro h
    unfold Reads fieldExpr at h
    split at h
    · cases h
    · next c name rest' hs =>
      simp only at h
      split at h
      · next rest'' _ _ =>
        split at h
        · next hstar =>
          cases h
          rw [hstar] at hs
          exact .stars hs
        · next hstar =>
          obtain ⟨t, hvalue, rfl, rfl⟩ := Reads.of_map h
          exact .field (List.cons_ne_nil c name) (fun he => absurd he hstar) hs
            (.one (by simp) (reads_value_iff.1 (reads_of_eq_ok hvalue)))
      · next tail _ _ hstars =>
        obtain ⟨t, htest, rfl, rfl⟩ := Reads.of_map h
        refine .field (List.cons_ne_nil c name) (fun _ hstar => ?_) hs
          (reads_fieldTest_iff.1 (reads_of_eq_ok htest))
        obtain ⟨r, rfl⟩ := List.head?_eq_some_iff.1 hstar
        exact hstars r _ _ .rfl .rfl rfl
      · next hcolon =>
        split at h
        · next hstar =>
          cases h
          rw [hstar] at hs
          refine .star hs fun hr => ?_
          obtain ⟨r, rfl⟩ := List.head?_eq_some_iff.1 hr
          exact hcolon r _ _ rfl .rfl .rfl
        · cases h
  · intro h
    cases h with
    | star hs hr => exact reads_star hs hr
    | stars hs => exact reads_stars hs
    | field hne hstar hs h => exact reads_field hne hstar hs (reads_fieldTest_iff.2 h)

mutual

theorem anyOfText_of_reads {es : List Expr} {s rest : List Char}
    (h : Reads (anyOf size s) es rest) : AnyOfText s es rest := by
  unfold Reads at h
  rw [anyOf] at h
  split at h
  · cases h
  · next run rest' shorter hrun =>
    have hread := reads_of_eq_ok hrun
    split at h
    · next hk =>
      cases h
      exact .last (allOfText_of_reads hread) hk
    · next r hk =>
      split at h
      · cases h
      · next t ht =>
        cases h
        have hes := reads_of_eq_ok ht
        have hlt : r.length < s.length :=
          (length_lt_of_keyword? (List.cons_ne_nil _ _) hk).trans shorter
        exact .more (allOfText_of_reads hread) hk (anyOfText_of_reads hes)
termination_by 4 * s.length + 3

theorem allOfText_of_reads {es : List Expr} {s rest : List Char}
    (h : Reads (allOf size s) es rest) : AllOfText s es rest := by
  unfold Reads at h
  rw [allOf] at h
  split at h
  · cases h
  · next e rest' shorter he =>
    have hread := reads_of_eq_ok he
    split at h
    · next hk =>
      cases h
      exact .last (signedText_of_reads hread) hk
    · next r hk =>
      split at h
      · cases h
      · next t ht =>
        cases h
        have hes := reads_of_eq_ok ht
        have hlt : r.length < s.length :=
          (length_lt_of_keyword? (List.cons_ne_nil _ _) hk).trans shorter
        exact .more (signedText_of_reads hread) hk (allOfText_of_reads hes)
termination_by 4 * s.length + 2

theorem signedText_of_reads {e : Expr} {s rest : List Char} (h : Reads (signed size s) e rest) :
    SignedText s e rest := by
  unfold Reads at h
  rw [signed] at h
  split at h
  · next r hs =>
    split at h
    · cases h
    · next t ht =>
      cases h
      have hlt := length_lt_of_trimStart hs
      exact .negated hs (primaryText_of_reads (reads_of_eq_ok ht))
  · next hs =>
    refine .unnegated (fun hm => ?_) (primaryText_of_reads h)
    obtain ⟨r, hr⟩ := List.head?_eq_some_iff.1 hm
    exact hs r hr
termination_by 4 * s.length + 1

theorem primaryText_of_reads {e : Expr} {s rest : List Char} (h : Reads (primary size s) e rest) :
    PrimaryText s e rest := by
  unfold Reads at h
  rw [primary] at h
  split at h
  · next r hs =>
    split at h
    · cases h
    · next es rest' shorter hes =>
      split at h
      · next hclose =>
        cases h
        have hlt := length_lt_of_trimStart hs
        exact .parenthesized hs (anyOfText_of_reads (reads_of_eq_ok hes)) hclose
      · cases h
  · next hs =>
    obtain ⟨t, hfield, rfl, rfl⟩ := Reads.of_map h
    refine .field (fun hm => ?_) (reads_fieldExpr_iff.1 (reads_of_eq_ok hfield))
    obtain ⟨r, hr⟩ := List.head?_eq_some_iff.1 hm
    exact hs r hr
termination_by 4 * s.length

end

mutual

theorem reads_of_anyOfText {es : List Expr} {s rest : List Char} :
    AnyOfText s es rest → Reads (anyOf size s) es rest
  | .last h hk => reads_lastTerm (reads_of_allOfText h) hk
  | .more h hk hes => reads_term (reads_of_allOfText h) hk (reads_of_anyOfText hes)

theorem reads_of_allOfText {es : List Expr} {s rest : List Char} :
    AllOfText s es rest → Reads (allOf size s) es rest
  | .last h hk => reads_lastFactor (reads_of_signedText h) hk
  | .more h hk hes => reads_factor (reads_of_signedText h) hk (reads_of_allOfText hes)

theorem reads_of_signedText {e : Expr} {s rest : List Char} :
    SignedText s e rest → Reads (signed size s) e rest
  | .negated hs h => reads_negated hs (reads_of_primaryText h)
  | .unnegated hs h => reads_unnegated hs (reads_of_primaryText h)

theorem reads_of_primaryText {e : Expr} {s rest : List Char} :
    PrimaryText s e rest → Reads (primary size s) e rest
  | .parenthesized hs h hr => reads_parenthesized hs (reads_of_anyOfText h) hr
  | .field hs h => reads_primary hs (reads_fieldExpr_iff.2 h)

end

def WholeText (s : List Char) (es : List Expr) : Prop :=
  ∃ rest, AnyOfText s es rest ∧ trimStart rest = []

/-- A query text is accepted just where the grammar has all of it. -/
theorem ofText_eq_ok_iff {query : String} :
    Expr.ofText query = .ok e ↔ ∃ es, WholeText query.toList es ∧ disjunction es = e := by
  constructor
  · intro h
    simp only [Expr.ofText] at h
    split at h
    · cases h
    · next es rest shorter hes =>
      split at h
      · next hrest =>
        exact ⟨es, ⟨rest, anyOfText_of_reads (reads_of_eq_ok hes), hrest⟩, Except.ok.inj h⟩
      · cases h
  · rintro ⟨es, ⟨rest, htext, hrest⟩, rfl⟩
    exact ofText_of_reads (reads_of_anyOfText htext) hrest

theorem exists_signedText_of_ofText {query field : String}
    (h : Expr.ofText query = .ok (.field field asked)) :
    ∃ rest, SignedText query.toList (.field field asked) rest := by
  obtain ⟨es, ⟨rest, htext, -⟩, he⟩ := ofText_eq_ok_iff.1 h
  cases htext with
  | more _ _ hes => cases hes <;> cases he
  | last hrun =>
    cases hrun with
    | more _ _ hes => cases hes <;> cases he
    | last hsigned =>
      cases he
      exact ⟨_, hsigned⟩

theorem SignedText.primaryText (h : SignedText s e rest) (hs : (trimStart s).head? ≠ some '-') :
    PrimaryText s e rest := by
  cases h with
  | negated hminus => simp [hminus] at hs
  | unnegated _ h => exact h

theorem PrimaryText.fieldText (h : PrimaryText s e rest) (hs : (trimStart s).head? ≠ some '(') :
    FieldText (trimStart s) e rest := by
  cases h with
  | parenthesized hopen => simp [hopen] at hs
  | field _ h => exact h

theorem AskedText.valueText (h : AskedText s (.one test) rest) : ValueText s test rest := by
  cases h with
  | one _ h => exact h

theorem exists_phrase_of_valueText {r : List Char} (h : ValueText ('"' :: r) test rest) :
    ∃ text rest', phrase? r = some (text, rest') ∧ test = .exact (String.ofList text) := by
  cases h with
  | phrase h => exact ⟨_, _, h, rfl⟩
  | token hh => exact absurd (hh _ rfl) (by simp)

theorem exists_range_of_valueText {includeLower : Bool} {r : List Char}
    (h : ValueText ((if includeLower then '[' else '\x7b') :: r) test rest) :
    ∃ rest', range includeLower r = .ok (test, rest') := by
  cases includeLower with
  | true =>
    cases h with
    | closedRange h => exact ⟨_, h⟩
    | token hh => exact absurd (hh _ rfl) (by simp)
  | false =>
    cases h with
    | openRange h => exact ⟨_, h⟩
    | token hh => exact absurd (hh _ rfl) (by simp)

end Readers

end SearchMapper.Index.Grammar
