import SearchMapper.Proofs.Index.Positions

namespace SearchMapper.Index.Cursor

open Grammar (AnyOfText allOfText_of_reads anyOfText_of_reads groupText_of_reads ofText_eq_ok_iff
  reads_star reads_stars reads_value_iff signedText_of_reads)
open Reading (conjunction disjunction endsField keyword?_suffix keyword?_trimStart
  length_lt_of_keyword? length_lt_of_trimStart position reads_of_eq_ok)
open Text (Taken isBlank trimStart)

variable {α : Type} {chars s r rest : List Char} {size : Nat}

section Fields

theorem told_groupItems_end (h : trimStart s = []) :
    told size (Reading.groupItems size s) = refuse .unbalancedGroup := by
  rw [Reading.groupItems]
  split <;> simp_all [told]

theorem told_groupItems_item {c : Char} (h : trimStart s = c :: r) (hc : c ≠ ')') :
    told size (Reading.groupItems size s) =
      match Reading.value size (if c = '-' then r else c :: r) with
      | .error cause => refuse cause
      | .ok t => told size (Reading.groupItems size t.rest) >>= fun (items, stop) =>
        pure ((decide (c = '-'), t.value) :: items, stop) := by
  rw [Reading.groupItems]
  split
  · next hs => simp [h] at hs
  · next hs =>
    rw [h, List.cons.injEq] at hs
    exact absurd hs.1 hc
  · next c' r' _ hs =>
    rw [h, List.cons.injEq] at hs
    obtain ⟨rfl, rfl⟩ := hs
    cases Reading.value size (if c = '-' then r else c :: r) with
    | error cause => rfl
    | ok t =>
      obtain ⟨test, rest, shorter⟩ := t
      simp only
      cases Reading.groupItems size rest <;> rfl

theorem groupItems_position {rounds : Nat} (h : s <:+ chars) (hr : s.length < rounds) :
    groupItems chars rounds (position chars.length s) =
      told chars.length (Reading.groupItems chars.length s) := by
  induction rounds generalizing s with
  | zero => exact absurd hr (Nat.not_lt_zero _)
  | succ rounds ih =>
    have htrim := (trimStart_suffix s).trans h
    rw [groupItems, skipBlanks_position h]
    simp only [getElem?_position htrim]
    cases hs : trimStart s with
    | nil => exact (told_groupItems_end hs).symm
    | cons c r =>
      rw [hs] at htrim
      by_cases hc : c = ')'
      · subst hc
        rw [told_eq_pure (Reading.reads_groupEnd hs), ← position_succ htrim]
        rfl
      · rw [told_groupItems_item hs hc]
        have hstart : (if c = '-' then r else c :: r) <:+ s := by
          split
          · exact suffix_of_trimStart hs
          · exact hs ▸ trimStart_suffix s
        have hvalue := value_position (hstart.trans h)
        have hpos : position chars.length (if c = '-' then r else c :: r) = if c = '-'
            then position chars.length (c :: r) + 1 else position chars.length (c :: r) := by
          split
          · exact (position_succ htrim).symm
          · rfl
        rw [hpos] at hvalue
        simp only [List.head?_cons, hvalue]
        cases hread : Reading.value chars.length (if c = '-' then r else c :: r) with
        | error cause => rfl
        | ok t =>
          have htext := (reads_value_iff.1 (reads_of_eq_ok hread)).suffix.trans (hstart.trans h)
          -- a value takes a character at least, which pays for the next round
          have hlt : t.rest.length < rounds := by
            have := t.shorter.trans_le hstart.length_le
            omega
          simp only [told_ok, pure_bind, ih htext hlt]

theorem told_fieldTest_group : told size (Reading.fieldTest size ('(' :: r)) =
    match Reading.groupItems size r with
    | .error cause => refuse cause
    | .ok t => pure (.group t.value, position size (Reading.skipBoost t.rest)) := by
  unfold Reading.fieldTest
  simp only
  cases Reading.groupItems size r <;> rfl

theorem told_fieldTest_one (h : s.head? ≠ some '(') : told size (Reading.fieldTest size s) =
    told size (Reading.value size s) >>= fun (test, stop) => pure (.one test, stop) := by
  unfold Reading.fieldTest
  split
  · simp at h
  · exact told_map (fun _ => rfl) fun _ => rfl

theorem fieldTest_position {rounds : Nat} (h : s <:+ chars) (hr : s.length ≤ rounds) :
    fieldTest chars rounds (position chars.length s) =
      told chars.length (Reading.fieldTest chars.length s) := by
  rw [fieldTest, getElem?_position h]
  split
  · next hhead =>
    obtain ⟨r, rfl⟩ := List.head?_eq_some_iff.1 hhead
    have hsuffix := suffix_of_cons h
    rw [position_succ h, groupItems_position hsuffix hr, told_fieldTest_group]
    cases hread : Reading.groupItems chars.length r with
    | error cause => rfl
    | ok t =>
      have htext := (groupText_of_reads (reads_of_eq_ok hread)).suffix
      simp only [told_ok, pure_bind, skipBoost_position (htext.trans hsuffix)]
  · next hhead => rw [told_fieldTest_one hhead, value_position h]

theorem told_fieldExpr_nameless (hs : Text.span (fun c => !endsField c) s = ([], rest)) :
    told size (Reading.fieldExpr size s) = refuse (.fieldExpected (position size s)) := by
  unfold Reading.fieldExpr
  split
  · rfl
  · next hs' =>
    rw [hs] at hs'
    cases hs'

theorem told_fieldExpr_unqualified {name : List Char} (hne : name ≠ [])
    (hstar : name ≠ ['*']) (hs : Text.span (fun c => !endsField c) s = (name, rest))
    (hr : rest.head? ≠ some ':') :
    told size (Reading.fieldExpr size s) = refuse (.unqualifiedTerm (String.ofList name)) := by
  unfold Reading.fieldExpr
  split
  · next hs' =>
    rw [hs] at hs'
    exact absurd (Prod.mk.inj hs').1 hne
  · next c name' rest' hs' =>
    rw [hs, Prod.mk.injEq] at hs'
    obtain ⟨rfl, rfl⟩ := hs'
    simp only
    split
    · simp at hr
    · simp at hr
    · rw [if_neg hstar]
      rfl

theorem told_fieldExpr {name tail : List Char} (hne : name ≠ [])
    (hstar : name = ['*'] → tail.head? ≠ some '*')
    (hs : Text.span (fun c => !endsField c) s = (name, ':' :: tail)) :
    told size (Reading.fieldExpr size s) = told size (Reading.fieldTest size tail) >>=
      fun (test, stop) => pure (.field (String.ofList name) test, stop) := by
  unfold Reading.fieldExpr
  split
  · next hs' =>
    rw [hs] at hs'
    exact absurd (Prod.mk.inj hs').1 hne
  · next c name' rest' hs' =>
    rw [hs, Prod.mk.injEq] at hs'
    obtain ⟨rfl, hrest⟩ := hs'
    simp only
    split
    · next rest'' _ _ =>
      obtain ⟨-, rfl⟩ := List.cons.inj hrest
      rw [if_neg fun he => hstar he rfl, Reading.fieldTest_of_star]
      cases Reading.value size ('*' :: rest'') <;> rfl
    · obtain ⟨-, rfl⟩ := List.cons.inj hrest
      exact told_map (fun _ => rfl) fun _ => rfl
    · next hn =>
      subst hrest
      exact (hn tail _ _ rfl .rfl .rfl).elim

theorem fieldExpr_position {rounds : Nat} (h : s <:+ chars) (hr : s.length ≤ rounds) :
    fieldExpr chars rounds (position chars.length s) =
      told chars.length (Reading.fieldExpr chars.length s) := by
  obtain ⟨name, back, hs⟩ : ∃ name back, Text.span (fun c => !endsField c) s = (name, back) :=
    ⟨_, _, rfl⟩
  obtain ⟨hscan, hslice, hback⟩ := span_position h hs
  rw [fieldExpr, hscan]
  simp only [hslice, pure_bind, getElem?_position hback]
  by_cases hne : name = []
  · subst hne
    rw [if_pos rfl, told_fieldExpr_nameless hs]
  rw [if_neg hne]
  by_cases hcolon : back.head? = some ':'
  · obtain ⟨tail, rfl⟩ := List.head?_eq_some_iff.1 hcolon
    have htail := suffix_of_cons hback
    rw [if_neg (not_not_intro hcolon), position_succ hback, getElem?_position htail]
    by_cases hstars : name = ['*'] ∧ tail.head? = some '*'
    · obtain ⟨rfl, hhead⟩ := hstars
      obtain ⟨rest, rfl⟩ := List.head?_eq_some_iff.1 hhead
      rw [if_pos ⟨rfl, hhead⟩, told_eq_pure (reads_stars hs), ← position_succ htail,
        ← position_succ hback]
    · have htest : tail.length ≤ rounds := by
        have := (suffix_of_span hs).length_le
        rw [List.length_cons] at this
        omega
      rw [if_neg hstars, fieldTest_position htail htest,
        told_fieldExpr hne (fun hn ht => hstars ⟨hn, ht⟩) hs]
  · rw [if_pos hcolon]
    split
    · next hstar =>
      subst hstar
      rw [told_eq_pure (reads_star hs hcolon)]
    · next hstar => rw [told_fieldExpr_unqualified hne hstar hs hcolon]

end Fields

section Expressions

theorem told_signed_negated (h : trimStart s = '-' :: r) :
    told size (Reading.signed size s) =
      told size (Reading.primary size r) >>= fun (e, stop) => pure (.not e, stop) := by
  rw [Reading.signed]
  split
  · next r' hs =>
    rw [h, List.cons.injEq] at hs
    obtain ⟨-, rfl⟩ := hs
    cases Reading.primary size r <;> rfl
  · next hn => exact absurd h (hn _)

theorem signed_eq_primary (h : (trimStart s).head? ≠ some '-') :
    Reading.signed size s = Reading.primary size s := by
  rw [Reading.signed]
  split
  · next hs => simp [hs] at h
  · rfl

theorem told_primary_field (h : (trimStart s).head? ≠ some '(') :
    told size (Reading.primary size s) = told size (Reading.fieldExpr size (trimStart s)) := by
  rw [Reading.primary]
  split
  · next hs => simp [hs] at h
  · cases Reading.fieldExpr size (trimStart s) <;> rfl

theorem told_primary_parenthesized (h : trimStart s = '(' :: r) :
    told size (Reading.primary size s) =
      match Reading.anyOf size r with
      | .error cause => refuse cause
      | .ok t =>
        match trimStart t.rest with
        | ')' :: rest => pure (disjunction t.value, position size (Reading.skipBoost rest))
        | _ => refuse .unbalancedParentheses := by
  rw [Reading.primary]
  split
  · next r' hs =>
    rw [h, List.cons.injEq] at hs
    obtain ⟨-, rfl⟩ := hs
    cases Reading.anyOf size r with
    | error cause => rfl
    | ok t =>
      simp only
      split
      · next hs => simp only [told, hs]
      · simp only [told]
  · next hn => exact absurd h (hn _)

theorem told_allOf :
    told size (Reading.allOf size s) =
      match Reading.signed size s with
      | .error cause => refuse cause
      | .ok t =>
        match Reading.keyword? ['A', 'N', 'D'] t.rest with
        | none => pure ([t.value], position size t.rest)
        | some r => told size (Reading.allOf size r) >>= fun (es, stop) =>
          pure (t.value :: es, stop) := by
  rw [Reading.allOf]
  cases Reading.signed size s with
  | error cause => rfl
  | ok t =>
    obtain ⟨e, rest, shorter⟩ := t
    simp only
    split
    · next hk => simp only [hk, told]
    · next r hk =>
      simp only [hk]
      cases Reading.allOf size r <;> rfl

theorem told_anyOf :
    told size (Reading.anyOf size s) =
      match Reading.allOf size s with
      | .error cause => refuse cause
      | .ok t =>
        match Reading.keyword? ['O', 'R'] t.rest with
        | none => pure ([conjunction t.value], position size t.rest)
        | some r => told size (Reading.anyOf size r) >>= fun (es, stop) =>
          pure (conjunction t.value :: es, stop) := by
  rw [Reading.anyOf]
  cases Reading.allOf size s with
  | error cause => rfl
  | ok t =>
    obtain ⟨run, rest, shorter⟩ := t
    simp only
    split
    · next hk => simp only [hk, told]
    · next r hk =>
      simp only [hk]
      cases Reading.anyOf size r <;> rfl

theorem primary_trimStart (h : s <:+ chars) (rounds : Nat) :
    primary chars rounds (position chars.length (trimStart s)) =
      primary chars rounds (position chars.length s) := by
  cases rounds with
  | zero => rw [primary, primary]
  | succ rounds =>
    rw [primary, primary, skipBlanks_position h,
      skipBlanks_position ((trimStart_suffix s).trans h), trimStart_trimStart]

-- The readers call each other round a circle, and only the last of them takes a character. So each
-- has four rounds for a character, and one more the earlier it stands in the circle.
mutual

theorem anyOf_position : ∀ (rounds : Nat) (s : List Char), s <:+ chars →
    4 * s.length + 3 < rounds → anyOf chars rounds (position chars.length s) =
      told chars.length (Reading.anyOf chars.length s) >>= fun (es, next) =>
        pure (es, skipBlanks chars next)
  | rounds + 1, s, h, hr => by
    rw [anyOf, allOf_position rounds s h (by omega), told_anyOf]
    cases hread : Reading.allOf chars.length s with
    | error cause => rfl
    | ok t =>
      have hrest := (allOfText_of_reads (reads_of_eq_ok hread)).suffix.trans h
      have htrim := (trimStart_suffix t.rest).trans hrest
      simp only [told_ok, pure_bind, skipBlanks_position hrest, keyword_position htrim,
        keyword?_trimStart, trimStart_trimStart]
      cases hk : Reading.keyword? ['O', 'R'] t.rest with
      | none => simp [skipBlanks_position hrest]
      | some r =>
        have hlt : r.length < s.length :=
          (length_lt_of_keyword? (List.cons_ne_nil _ _) hk).trans t.shorter
        have hmore := anyOf_position rounds r ((keyword?_suffix hk).trans hrest) (by omega)
        simp only [pure_bind, if_true, hmore, bind_assoc]

theorem allOf_position : ∀ (rounds : Nat) (s : List Char), s <:+ chars →
    4 * s.length + 2 < rounds → allOf chars rounds (position chars.length s) =
      told chars.length (Reading.allOf chars.length s) >>= fun (es, next) =>
        pure (es, skipBlanks chars next)
  | rounds + 1, s, h, hr => by
    rw [allOf, signed_position rounds s h (by omega), told_allOf]
    cases hread : Reading.signed chars.length s with
    | error cause => rfl
    | ok t =>
      have hrest := (signedText_of_reads (reads_of_eq_ok hread)).suffix.trans h
      simp only [told_ok, pure_bind, keyword_position hrest]
      cases hk : Reading.keyword? ['A', 'N', 'D'] t.rest with
      | none => simp [skipBlanks_position hrest]
      | some r =>
        have hlt : r.length < s.length :=
          (length_lt_of_keyword? (List.cons_ne_nil _ _) hk).trans t.shorter
        have hmore := allOf_position rounds r ((keyword?_suffix hk).trans hrest) (by omega)
        simp only [pure_bind, if_true, hmore, bind_assoc]

theorem signed_position : ∀ (rounds : Nat) (s : List Char), s <:+ chars →
    4 * s.length + 1 < rounds → signed chars rounds (position chars.length s) =
      told chars.length (Reading.signed chars.length s)
  | rounds + 1, s, h, hr => by
    have htrim := (trimStart_suffix s).trans h
    rw [signed, skipBlanks_position h]
    simp only [getElem?_position htrim]
    split
    · next hhead =>
      obtain ⟨r, hs⟩ := List.head?_eq_some_iff.1 hhead
      have hlt := length_lt_of_trimStart hs
      rw [hs] at htrim
      rw [told_signed_negated hs, hs, position_succ htrim,
        primary_position rounds r (suffix_of_cons htrim) (by omega)]
    · next hhead =>
      rw [signed_eq_primary hhead, primary_trimStart h, primary_position rounds s h (by omega)]

theorem primary_position : ∀ (rounds : Nat) (s : List Char), s <:+ chars →
    4 * s.length < rounds → primary chars rounds (position chars.length s) =
      told chars.length (Reading.primary chars.length s)
  | rounds + 1, s, h, hr => by
    have htrim := (trimStart_suffix s).trans h
    rw [primary, skipBlanks_position h]
    simp only [getElem?_position htrim]
    split
    · next hhead =>
      obtain ⟨r, hs⟩ := List.head?_eq_some_iff.1 hhead
      have hlt := length_lt_of_trimStart hs
      rw [hs] at htrim
      have hinner := suffix_of_cons htrim
      rw [told_primary_parenthesized hs, hs, position_succ htrim,
        anyOf_position rounds r hinner (by omega)]
      cases hread : Reading.anyOf chars.length r with
      | error cause => rfl
      | ok t =>
        have hrest := (anyOfText_of_reads (reads_of_eq_ok hread)).suffix.trans hinner
        have hclose := (trimStart_suffix t.rest).trans hrest
        simp only [told_ok, pure_bind, skipBlanks_position hrest, skipBlanks_position hclose,
          trimStart_trimStart, getElem?_position hclose]
        split
        · next hhead' =>
          obtain ⟨rest, hs'⟩ := List.head?_eq_some_iff.1 hhead'
          rw [hs'] at hclose
          simp only [hs', position_succ hclose, skipBoost_position (suffix_of_cons hclose)]
        · next hhead' =>
          split
          · next hs' => simp [hs'] at hhead'
          · rfl
    · next hhead =>
      have hfield : (trimStart s).length ≤ rounds := by
        have := (trimStart_suffix s).length_le
        omega
      rw [told_primary_field hhead, fieldExpr_position htrim hfield]

end

end Expressions

section Ends

variable {pos : Nat} {run : Run (α × Nat)}

/-- The run ends, and stays inside the text: with a refusal, or with a value and a position further
on. -/
def Advances (chars : List Char) (pos : Nat) (run : Run (α × Nat)) : Prop :=
  (∃ cause, run = refuse cause) ∨
    ∃ a stop, run = pure (a, stop) ∧ pos < stop ∧ stop ≤ chars.length

theorem scan_mem {p : Char → Bool} (h : pos ≤ chars.length) :
    pos ≤ scan p chars pos ∧ scan p chars pos ≤ chars.length := by
  fun_induction scan p chars pos with
  | case2 pos c hc hp ih =>
    obtain ⟨hle, hend⟩ := ih (lt_length_of_getElem? hc)
    exact ⟨Nat.le_of_succ_le hle, hend⟩
  | case1 | case3 => exact ⟨Nat.le_refl _, h⟩

theorem Advances.skipBlanks (h : Advances chars pos run) :
    Advances chars pos (run >>= fun (a, next) => pure (a, skipBlanks chars next)) := by
  obtain ⟨cause, rfl⟩ | ⟨a, next, rfl, hpos, hend⟩ := h
  · exact .inl ⟨cause, rfl⟩
  · obtain ⟨hle, hend'⟩ := @scan_mem _ _ isBlank hend
    exact .inr ⟨a, Cursor.skipBlanks chars next, rfl, Nat.lt_of_lt_of_le hpos hle, hend'⟩

theorem advances_told (h : s.length ≤ chars.length) (reading : Except ReadError (Taken α s)) :
    Advances chars (position chars.length s) (told chars.length reading) := by
  cases reading with
  | error cause => exact .inl ⟨cause, rfl⟩
  | ok t =>
    have := t.shorter
    refine .inr ⟨t.value, position chars.length t.rest, rfl, ?_, Nat.sub_le _ _⟩
    simp only [position]
    omega

/-- Reading by position gives what reading from the front gives. -/
theorem parse_eq {rounds : Nat} {query : String} (hr : 4 * query.toList.length + 3 < rounds) :
    parse rounds query = match Expr.ofText query with
      | .error cause => refuse cause
      | .ok e => pure e := by
  have hitems := anyOf_position rounds query.toList (List.suffix_refl _) hr
  rw [position_self] at hitems
  simp only [parse, Expr.ofText, hitems]
  cases hread : Reading.anyOf query.toList.length query.toList with
  | error cause => rfl
  | ok t =>
    have hrest := (anyOfText_of_reads (reads_of_eq_ok hread)).suffix
    have htrim := (trimStart_suffix t.rest).trans hrest
    simp only [told_ok, pure_bind, skipBlanks_position hrest, skipBlanks_position htrim,
      trimStart_trimStart]
    cases hs : trimStart t.rest with
    | nil => exact if_neg (Nat.lt_irrefl _)
    | cons c r =>
      rw [hs] at htrim
      exact if_pos (position_lt htrim)

/-- Reading a query text comes to an end, after four rounds for each character at most and by way
of positions inside the text. What a reader does not refuse takes it further on, and blanks are all
that may follow the expression. -/
theorem parse_ends (query : String) (rounds : Nat) (hr : 4 * query.toList.length + 3 < rounds) :
    (∀ pos ≤ query.toList.length,
      Advances query.toList pos (value query.toList pos) ∧
      Advances query.toList pos (groupItems query.toList rounds pos) ∧
      Advances query.toList pos (primary query.toList rounds pos) ∧
      Advances query.toList pos (signed query.toList rounds pos) ∧
      Advances query.toList pos (allOf query.toList rounds pos) ∧
      Advances query.toList pos (anyOf query.toList rounds pos)) ∧
    ((∃ cause, parse rounds query = refuse cause ∧ Expr.ofText query = .error cause) ∨
      ∃ items rest, parse rounds query = pure (disjunction items) ∧
        Expr.ofText query = .ok (disjunction items) ∧ AnyOfText query.toList items rest ∧
        rest <:+ query.toList ∧ ∀ c ∈ rest, isBlank c = true) := by
  refine ⟨fun pos hpos => ?_, ?_⟩
  · obtain ⟨s, hs, rfl⟩ := exists_position hpos
    have hlen := hs.length_le
    rw [value_position hs, groupItems_position hs (by omega),
      primary_position rounds s hs (by omega), signed_position rounds s hs (by omega),
      allOf_position rounds s hs (by omega), anyOf_position rounds s hs (by omega)]
    exact ⟨advances_told hlen _, advances_told hlen _, advances_told hlen _, advances_told hlen _,
      (advances_told hlen _).skipBlanks, (advances_told hlen _).skipBlanks⟩
  · rw [parse_eq hr]
    cases hread : Expr.ofText query with
    | error cause => exact .inl ⟨cause, rfl, rfl⟩
    | ok e =>
      obtain ⟨items, ⟨rest, htext, hrest⟩, rfl⟩ := ofText_eq_ok_iff.1 hread
      exact .inr ⟨items, rest, rfl, rfl, htext, htext.suffix, List.dropWhile_eq_nil_iff.1 hrest⟩

theorem parse_ends_open_phrase :
    Advances "id:\"a\\".toList 3 (value "id:\"a\\".toList 3) ∧
      value "id:\"a\\".toList 3 = refuse .openPhrase ∧
      Expr.ofText "id:\"a\\" = .error .openPhrase := by
  obtain ⟨hruns, hparse⟩ := parse_ends "id:\"a\\" 28 (by decide)
  have hrefused : parse 28 "id:\"a\\" = refuse .openPhrase := by cbv
  refine ⟨(hruns 3 (by decide)).1, by cbv, ?_⟩
  obtain ⟨cause, hcause, herror⟩ | ⟨items, rest, hread, -⟩ := hparse
  · cases hrefused.symm.trans hcause
    exact herror
  · cases hrefused.symm.trans hread

example : value [] 1 = throw .outside := by
  cbv

end Ends

end SearchMapper.Index.Cursor
