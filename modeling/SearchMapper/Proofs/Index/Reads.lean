import Mathlib.Data.Nat.Init
import SearchMapper.Index.Reading
import SearchMapper.Proofs.Text.Scanning

namespace SearchMapper.Index.Reading

open Text (Taken isBlank trimStart)

variable {α : Type} {s r rest rest' : List Char} {size : Nat}

/-- A reading that succeeds with a value and leaves a rest. -/
def Reads (reading : Except ReadError (Taken α s)) (a : α) (rest : List Char) : Prop :=
  reading.map (fun t => (t.value, t.rest)) = .ok (a, rest)

theorem Reads.eq_ok {reading : Except ReadError (Taken α s)} {a : α} (h : Reads reading a rest) :
    ∃ shorter, reading = .ok ⟨a, rest, shorter⟩ := by
  cases reading with
  | error e => simp [Reads, Except.map] at h
  | ok t =>
    obtain ⟨b, rest', shorter⟩ := t
    simp only [Reads, Except.map, Except.ok.injEq, Prod.mk.injEq] at h
    obtain ⟨rfl, rfl⟩ := h
    exact ⟨shorter, rfl⟩

theorem length_lt_of_trimStart {c : Char} (h : trimStart s = c :: r) : r.length < s.length := by
  have := length_le_trimStart s
  rw [h, List.length_cons] at this
  omega

theorem reads_of_eq_ok {reading : Except ReadError (Taken α s)} {t : Taken α s}
    (h : reading = .ok t) : Reads reading t.value t.rest := by
  rw [h]
  rfl

theorem Reads.of_map {β : Type} {reading : Except ReadError (Taken β r)}
    {f : Taken β r → Taken α s} {a : α} (h : Reads (f <$> reading) a rest) :
    ∃ t, reading = .ok t ∧ (f t).value = a ∧ (f t).rest = rest := by
  cases reading with
  | error cause => cases h
  | ok t =>
    cases h
    exact ⟨t, rfl, rfl, rfl⟩

section Keywords

variable {word : List Char}

theorem keyword?_eq_some_iff : keyword? word s = some rest ↔
    trimStart s = word ++ rest ∧ ∀ c ∈ rest.head?, isBlank c = true := by
  rw [← Text.after?_eq_some_iff, keyword?]
  cases h : Text.after? word (trimStart s) with
  | none => simp
  | some r =>
    cases r with
    | nil =>
      simp only [Option.some.injEq]
      exact ⟨by rintro rfl; simp, And.left⟩
    | cons c r =>
      by_cases hc : isBlank c = true
      · simp only [hc, if_true, Option.some.injEq]
        exact ⟨by rintro rfl; simp [hc], And.left⟩
      · simp only [hc, Bool.false_eq_true, if_false, Option.some.injEq, reduceCtorEq, false_iff]
        rintro ⟨rfl, hr⟩
        exact hc (hr c rfl)

theorem keyword?_of_trimStart (h : trimStart s = trimStart r) :
    keyword? word s = keyword? word r := by
  simp only [keyword?, h]

theorem length_lt_of_keyword? (hne : word ≠ []) (h : keyword? word s = some rest) :
    rest.length < s.length := by
  have := length_le_of_keyword? h
  have := List.length_pos_iff.2 hne
  omega

end Keywords

section Values

variable {test : Test}

theorem reads_phrase {text : List Char} (h : phrase? r = some (text, rest)) :
    Reads (value size ('"' :: r)) (.exact (String.ofList text)) (skipBoost rest) := by
  unfold Reads
  simp only [value]
  split
  · next hn => simp [h] at hn
  · next text' rest' hs =>
    rw [h, Option.some.injEq, Prod.mk.injEq] at hs
    obtain ⟨rfl, rfl⟩ := hs
    rfl

theorem reads_closedRange (h : range true r = .ok (test, rest)) :
    Reads (value size ('[' :: r)) test (skipBoost rest) := by
  unfold Reads
  simp only [value]
  split
  · next he => simp [h] at he
  · next test' rest' hs =>
    rw [h, Except.ok.injEq, Prod.mk.injEq] at hs
    obtain ⟨rfl, rfl⟩ := hs
    rfl

theorem reads_openRange (h : range false r = .ok (test, rest)) :
    Reads (value size ('\x7b' :: r)) test (skipBoost rest) := by
  unfold Reads
  simp only [value]
  split
  · next he => simp [h] at he
  · next test' rest' hs =>
    rw [h, Except.ok.injEq, Prod.mk.injEq] at hs
    obtain ⟨rfl, rfl⟩ := hs
    rfl

theorem reads_token {token : List Char} (hh : ∀ c ∈ s.head?, c ∉ ['"', '[', '\x7b'])
    (hne : token ≠ []) (hs : Text.span (fun c => !endsToken c) s = (token, rest)) :
    Reads (value size s) (tokenTest token) (skipBoost rest) := by
  unfold Reads value
  split
  · simp at hh
  · simp at hh
  · simp at hh
  · split
    · next hn =>
      rw [hs, Prod.mk.injEq] at hn
      exact absurd hn.1 hne
    · next c' token' rest' hs' =>
      rw [hs, Prod.mk.injEq] at hs'
      obtain ⟨rfl, rfl⟩ := hs'
      rfl

end Values

section Groups

variable {items : List (Bool × Test)} {test : Test}

theorem reads_groupEnd (h : trimStart s = ')' :: rest) : Reads (groupItems size s) [] rest := by
  unfold Reads groupItems
  split
  · next hs => simp [h] at hs
  · next rest' hs =>
    rw [h, List.cons.injEq] at hs
    obtain ⟨-, rfl⟩ := hs
    rfl
  · next hne hs => exact absurd h (by simp_all)

theorem reads_groupItem {c : Char} (h : trimStart s = c :: r) (hc : c ≠ ')')
    (hv : Reads (value size (if c = '-' then r else c :: r)) test rest)
    (hg : Reads (groupItems size rest) items rest') :
    Reads (groupItems size s) ((decide (c = '-'), test) :: items) rest' := by
  obtain ⟨_, hv⟩ := hv.eq_ok
  obtain ⟨_, hg⟩ := hg.eq_ok
  unfold Reads
  rw [groupItems]
  split
  · next hs => simp [h] at hs
  · next r' hs =>
    rw [h, List.cons.injEq] at hs
    exact absurd hs.1 hc
  · next c' r' _ hs =>
    rw [h, List.cons.injEq] at hs
    obtain ⟨rfl, rfl⟩ := hs
    simp only [hv, hg]
    rfl

theorem reads_group (h : Reads (groupItems size r) items rest) :
    Reads (fieldTest size ('(' :: r)) (.group items) (skipBoost rest) := by
  obtain ⟨_, h⟩ := h.eq_ok
  unfold Reads
  simp only [fieldTest, h]
  rfl

theorem reads_one (hs : s.head? ≠ some '(') (h : Reads (value size s) test rest) :
    Reads (fieldTest size s) (.one test) rest := by
  obtain ⟨_, h⟩ := h.eq_ok
  unfold Reads fieldTest
  split
  · simp at hs
  · rw [h]
    rfl

theorem fieldTest_of_star (size : Nat) (s : List Char) :
    fieldTest size ('*' :: s) = (fun t => t.map .one) <$> value size ('*' :: s) := rfl

end Groups

section Expressions

variable {e : Expr} {es : List Expr}

theorem reads_field {name tail : List Char} {test : FieldTest} (hne : name ≠ [])
    (hstar : name = ['*'] → tail.head? ≠ some '*')
    (hs : Text.span (fun c => !endsField c) s = (name, ':' :: tail))
    (h : Reads (fieldTest size tail) test rest) :
    Reads (fieldExpr size s) (.field (String.ofList name) test) rest := by
  obtain ⟨_, h⟩ := h.eq_ok
  unfold Reads fieldExpr
  split
  · next hn =>
    rw [hs, Prod.mk.injEq] at hn
    exact absurd hn.1 hne
  · next c name' rest' hs' =>
    rw [hs, Prod.mk.injEq] at hs'
    obtain ⟨rfl, hrest⟩ := hs'
    simp only
    split
    · next rest'' _ _ =>
      -- a star behind the colon starts a value, whichever branch sees it
      rw [List.cons.injEq] at hrest
      obtain ⟨-, rfl⟩ := hrest
      rw [fieldTest_of_star] at h
      cases hv : value size ('*' :: rest'') with
      | error cause => simp [hv, Functor.map, Except.map] at h
      | ok t =>
        simp only [hv, Functor.map, Except.map, Except.ok.injEq] at h
        have ht := congrArg Taken.value h
        have hr := congrArg Taken.rest h
        have hname : c :: name' ≠ ['*'] := fun he => hstar he rfl
        simp only [if_neg hname, Functor.map, Except.map, Except.ok.injEq, Prod.mk.injEq]
        exact ⟨congrArg (Expr.field _) ht, hr⟩
    · next rest'' _ _ _ =>
      rw [List.cons.injEq] at hrest
      obtain ⟨-, rfl⟩ := hrest
      rw [h]
      rfl
    · next hn =>
      subst hrest
      exact (hn tail _ _ rfl .rfl .rfl).elim

theorem reads_parenthesized (hs : trimStart s = '(' :: r) (h : Reads (anyOf size r) es rest)
    (hr : trimStart rest = ')' :: rest') :
    Reads (primary size s) (disjunction es) (skipBoost rest') := by
  obtain ⟨_, h⟩ := h.eq_ok
  unfold Reads
  rw [primary]
  split
  · next r' hs' =>
    rw [hs, List.cons.injEq] at hs'
    obtain ⟨-, rfl⟩ := hs'
    simp only [h]
    split
    · next r'' hr' =>
      rw [hr, List.cons.injEq] at hr'
      obtain ⟨-, rfl⟩ := hr'
      rfl
    · next hn => exact absurd hr (hn _)
  · next hn => exact absurd hs (hn _)

theorem reads_primary (hs : (trimStart s).head? ≠ some '(')
    (h : Reads (fieldExpr size (trimStart s)) e rest) : Reads (primary size s) e rest := by
  unfold Reads
  rw [primary]
  split
  · next hs' => simp [hs'] at hs
  · next hs' =>
    obtain ⟨_, h⟩ := h.eq_ok
    rw [h]
    rfl

theorem reads_negated (hs : trimStart s = '-' :: r) (h : Reads (primary size r) e rest) :
    Reads (signed size s) (.not e) rest := by
  obtain ⟨_, h⟩ := h.eq_ok
  unfold Reads
  rw [signed]
  split
  · next r' hs' =>
    rw [hs, List.cons.injEq] at hs'
    obtain ⟨-, rfl⟩ := hs'
    rw [h]
    rfl
  · next hn => exact absurd hs (hn _)

theorem reads_unnegated (hs : (trimStart s).head? ≠ some '-') (h : Reads (primary size s) e rest) :
    Reads (signed size s) e rest := by
  unfold Reads
  rw [signed]
  split
  · next hs' => simp [hs'] at hs
  · exact h

theorem reads_lastFactor (h : Reads (signed size s) e rest)
    (hk : keyword? ['A', 'N', 'D'] rest = none) : Reads (allOf size s) [e] rest := by
  obtain ⟨_, h⟩ := h.eq_ok
  unfold Reads
  rw [allOf, h]
  simp only
  split
  · rfl
  · next hs => simp [hk] at hs

theorem reads_factor (h : Reads (signed size s) e rest)
    (hk : keyword? ['A', 'N', 'D'] rest = some r) (hes : Reads (allOf size r) es rest') :
    Reads (allOf size s) (e :: es) rest' := by
  obtain ⟨_, h⟩ := h.eq_ok
  obtain ⟨_, hes⟩ := hes.eq_ok
  unfold Reads
  rw [allOf, h]
  simp only
  split
  · next hn => simp [hk] at hn
  · next r' hs =>
    rw [hk, Option.some.injEq] at hs
    subst hs
    rw [hes]
    rfl

theorem reads_lastTerm (h : Reads (allOf size s) es rest) (hk : keyword? ['O', 'R'] rest = none) :
    Reads (anyOf size s) [conjunction es] rest := by
  obtain ⟨_, h⟩ := h.eq_ok
  unfold Reads
  rw [anyOf, h]
  simp only
  split
  · rfl
  · next hs => simp [hk] at hs

theorem reads_term {terms : List Expr} (h : Reads (allOf size s) es rest)
    (hk : keyword? ['O', 'R'] rest = some r) (hes : Reads (anyOf size r) terms rest') :
    Reads (anyOf size s) (conjunction es :: terms) rest' := by
  obtain ⟨_, h⟩ := h.eq_ok
  obtain ⟨_, hes⟩ := hes.eq_ok
  unfold Reads
  rw [anyOf, h]
  simp only
  split
  · next hn => simp [hk] at hn
  · next r' hs =>
    rw [hk, Option.some.injEq] at hs
    subst hs
    rw [hes]
    rfl

theorem ofText_of_reads {query : String}
    (h : Reads (anyOf query.toList.length query.toList) es rest) (hr : trimStart rest = []) :
    Expr.ofText query = .ok (disjunction es) := by
  obtain ⟨_, h⟩ := h.eq_ok
  simp only [Expr.ofText, h, hr]

end Expressions

end SearchMapper.Index.Reading
