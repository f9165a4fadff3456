import SearchMapper.Proofs.Index.Chains
import SearchMapper.Proofs.Index.Grammar
import SearchMapper.Proofs.Index.Tokens
import SearchMapper.Proofs.Text.Words

namespace SearchMapper.Index

namespace Reading

open Text (isBlank trimStart)

variable {s t rest : List Char}

theorem skipBoost_append (ht : Closes t) (s : List Char) :
    skipBoost (s ++ t) = skipBoost s ++ t := by
  cases s with
  | nil => exact ht.skipBoost_eq
  | cons c s =>
    by_cases hc : c = '^'
    · subst hc
      rw [List.cons_append, skipBoost, skipBoost, List.dropWhile_append, ht.dropWhile_eq]
      split
      · next he => rw [List.isEmpty_iff.1 he, List.nil_append]
      · rfl
    · have hskip (r : List Char) : skipBoost (c :: r) = c :: r :=
        skipBoost.eq_2 _ (by simpa using hc)
      rw [List.cons_append, hskip, hskip, List.cons_append]

theorem phrase?_append {text : List Char} (h : phrase? s = some (text, rest)) (t : List Char) :
    phrase? (s ++ t) = some (text, rest ++ t) := by
  fun_induction phrase? s generalizing text rest with
  | case1 => cases h
  | case2 =>
    cases h
    rfl
  | case3 => cases h
  | case4 c s ih =>
    obtain ⟨⟨text', rest'⟩, hs, he⟩ := Option.map_eq_some_iff.1 h
    cases he
    rw [List.cons_append, List.cons_append, phrase?, ih hs]
    rfl
  | case5 c s hq hb hn ih =>
    obtain ⟨⟨text', rest'⟩, hs, he⟩ := Option.map_eq_some_iff.1 h
    cases he
    have hback : c ≠ '\\' := fun he => by
      subst he
      cases s with
      | nil => exact hb rfl rfl
      | cons d s => exact hn d s rfl rfl
    rw [List.cons_append, phrase?_cons (fun he => hq he) hback, ih hs]
    rfl

theorem range_append {includeLower : Bool} {test : Test}
    (h : range includeLower s = .ok (test, rest)) (t : List Char) :
    range includeLower (s ++ t) = .ok (test, rest ++ t) := by
  unfold range at h ⊢
  split at h
  · cases h
  · next body close tail hs =>
    split at h
    · cases h
    · next lower upper hcut =>
      cases h
      have hs' := Text.span_append_of_span (t := t) hs nofun
      simp only [hs', List.cons_append, hcut]

section Keywords

variable {word : List Char}

theorem trimStart_ne_nil_of_keyword? (hne : word ≠ []) (h : keyword? word s = some rest) :
    trimStart s ≠ [] := by
  rw [(keyword?_eq_some_iff.1 h).1]
  simp [hne]

theorem keyword?_append_of_eq_some (hne : trimStart rest ≠ []) (h : keyword? word s = some rest)
    (t : List Char) : keyword? word (s ++ t) = some (rest ++ t) := by
  obtain ⟨hs, hr⟩ := keyword?_eq_some_iff.1 h
  have hrest : rest ≠ [] := fun he => hne (by rw [he]; rfl)
  refine keyword?_eq_some_iff.2 ⟨?_, ?_⟩
  · rw [Text.trimStart_append (by simp [hs, hrest]), hs, List.append_assoc]
  · rwa [List.head?_append_of_ne_nil rest hrest]

theorem keyword?_append_of_eq_none (ht : ∀ c ∈ t.head?, c ∉ word)
    (h : keyword? word s = none) (hnone : trimStart s = [] → keyword? word t = none) :
    keyword? word (s ++ t) = none := by
  by_cases hs : trimStart s = []
  · rw [keyword?_of_trimStart (Text.trimStart_append_of_eq_nil hs t)]
    exact hnone hs
  · rw [Option.eq_none_iff_forall_ne_some] at h ⊢
    intro rest hrest
    obtain ⟨hword, hr⟩ := keyword?_eq_some_iff.1 hrest
    rw [Text.trimStart_append hs, ← Text.after?_eq_some_iff,
      Text.after?_append_of_notMem ht] at hword
    obtain ⟨r, hafter, rfl⟩ := Option.map_eq_some_iff.1 hword
    refine h r (keyword?_eq_some_iff.2 ⟨Text.eq_append_of_after? hafter, fun c hc => hr c ?_⟩)
    rw [Option.mem_def] at hc ⊢
    rw [List.head?_append, hc]
    rfl

end Keywords

end Reading

namespace Grammar

open Reading
open Text (isBlank trimStart)

variable {s s' t rest rest' : List Char} {test : Test} {items : List (Bool × Test)}
  {asked : FieldTest} {e : Expr} {run es fs : List Expr}

section Blanks

theorem ValueText.ne_nil (h : ValueText s test rest) : s ≠ [] := by
  rintro rfl
  cases h with
  | token _ hne hs => exact hne (Prod.mk.inj hs).1.symm

theorem AskedText.ne_nil (h : AskedText s asked rest) : s ≠ [] := by
  cases h with
  | group => exact List.cons_ne_nil _ _
  | one _ h => exact h.ne_nil

theorem FieldText.ne_nil (h : FieldText s e rest) : s ≠ [] := by
  rintro rfl
  cases h with
  | star hs => cases hs
  | stars hs => cases hs
  | field _ _ hs => cases hs

theorem PrimaryText.trimStart_ne_nil (h : PrimaryText s e rest) : trimStart s ≠ [] := by
  cases h with
  | parenthesized hs => simp [hs]
  | field _ h => exact h.ne_nil

theorem SignedText.trimStart_ne_nil (h : SignedText s e rest) : trimStart s ≠ [] := by
  cases h with
  | negated hs => simp [hs]
  | unnegated _ h => exact h.trimStart_ne_nil

theorem AllOfText.trimStart_ne_nil (h : AllOfText s run rest) : trimStart s ≠ [] := by
  cases h with
  | last h => exact h.trimStart_ne_nil
  | more h => exact h.trimStart_ne_nil

theorem AnyOfText.trimStart_ne_nil (h : AnyOfText s es rest) : trimStart s ≠ [] := by
  cases h with
  | last h => exact h.trimStart_ne_nil
  | more h => exact h.trimStart_ne_nil

theorem PrimaryText.of_trimStart (h : PrimaryText s e rest) (hs : trimStart s' = trimStart s) :
    PrimaryText s' e rest := by
  cases h with
  | parenthesized hopen h hr => exact .parenthesized (hs.trans hopen) h hr
  | field hopen h => exact .field (hs ▸ hopen) (hs ▸ h)

theorem SignedText.of_trimStart (h : SignedText s e rest) (hs : trimStart s' = trimStart s) :
    SignedText s' e rest := by
  cases h with
  | negated hminus h => exact .negated (hs.trans hminus) h
  | unnegated hminus h => exact .unnegated (hs ▸ hminus) (h.of_trimStart hs)

theorem AllOfText.of_trimStart (h : AllOfText s run rest) (hs : trimStart s' = trimStart s) :
    AllOfText s' run rest := by
  cases h with
  | last h hk => exact .last (h.of_trimStart hs) hk
  | more h hk hes => exact .more (h.of_trimStart hs) hk hes

theorem AnyOfText.of_trimStart (h : AnyOfText s es rest) (hs : trimStart s' = trimStart s) :
    AnyOfText s' es rest := by
  cases h with
  | last h hk => exact .last (h.of_trimStart hs) hk
  | more h hk hes => exact .more (h.of_trimStart hs) hk hes

end Blanks

section Appending

theorem ValueText.append (ht : Closes t) (h : ValueText s test rest) :
    ValueText (s ++ t) test (rest ++ t) := by
  cases h with
  | phrase h =>
    rw [← skipBoost_append ht]
    exact .phrase (phrase?_append h t)
  | closedRange h =>
    rw [← skipBoost_append ht]
    exact .closedRange (range_append h t)
  | openRange h =>
    rw [← skipBoost_append ht]
    exact .openRange (range_append h t)
  | token hh hne hs =>
    rw [← skipBoost_append ht]
    have hs' : s ≠ [] := by
      rintro rfl
      exact hne (Prod.mk.inj hs).1.symm
    refine .token ?_ hne (Text.span_append_of_span hs fun _ c hc => ?_)
    · rwa [List.head?_append_of_ne_nil s hs']
    · simp [ht.endsToken_eq_true c hc]

theorem GroupText.append (ht : Closes t) (h : GroupText s items rest) :
    GroupText (s ++ t) items (rest ++ t) := by
  induction h with
  | close h => exact .close (Text.trimStart_append_of_eq_cons h t)
  | @item _ r _ _ c _ _ h hc hv _ ih =>
    refine .item (Text.trimStart_append_of_eq_cons h t) hc ?_ ih
    have hif := apply_ite (· ++ t) (c = '-') r (c :: r)
    exact hif ▸ hv.append ht

theorem AskedText.append (ht : Closes t) (h : AskedText s asked rest) :
    AskedText (s ++ t) asked (rest ++ t) := by
  cases h with
  | group h =>
    rw [← skipBoost_append ht]
    exact .group (h.append ht)
  | one hs h =>
    refine .one ?_ (h.append ht)
    rwa [List.head?_append_of_ne_nil _ h.ne_nil]

theorem FieldText.append (ht : Closes t) (h : FieldText s e rest) :
    FieldText (s ++ t) e (rest ++ t) := by
  cases h with
  | star hs hr =>
    refine .star (Text.span_append_of_span hs fun _ c hc => ?_) ?_
    · simp [ht.endsField_eq_true c hc]
    · have hcolon : ∀ c ∈ t.head?, c ∉ [':'] := ht.head?_notMem (by decide)
      cases rest with
      | nil => exact fun hc => hcolon _ hc (List.mem_singleton_self _)
      | cons c rest => exact hr
  | stars hs => exact .stars (Text.span_append_of_span hs nofun)
  | @field _ tail _ _ hne hstar hs h =>
    have hhead : (tail ++ t).head? = tail.head? := List.head?_append_of_ne_nil _ h.ne_nil
    exact .field hne (hhead ▸ hstar) (Text.span_append_of_span hs nofun) (h.append ht)

mutual

theorem PrimaryText.append {s rest : List Char} {e : Expr} (ht : Closes t) :
    PrimaryText s e rest → PrimaryText (s ++ t) e (rest ++ t)
  | .parenthesized hs h hr => by
    rw [← skipBoost_append ht]
    have hne := AnyOfText.append ht h (by simp [hr]) (by simp [hr])
    exact .parenthesized (Text.trimStart_append_of_eq_cons hs t) hne
      (Text.trimStart_append_of_eq_cons hr t)
  | .field hs h => by
    have hs' := Text.trimStart_append h.ne_nil t
    refine .field ?_ (hs'.symm ▸ h.append ht)
    rwa [hs', List.head?_append_of_ne_nil _ h.ne_nil]

theorem SignedText.append {s rest : List Char} {e : Expr} (ht : Closes t) :
    SignedText s e rest → SignedText (s ++ t) e (rest ++ t)
  | .negated hs h => .negated (Text.trimStart_append_of_eq_cons hs t) (PrimaryText.append ht h)
  | .unnegated hs h => by
    refine .unnegated ?_ (PrimaryText.append ht h)
    rwa [Text.trimStart_append h.trimStart_ne_nil, List.head?_append_of_ne_nil _ h.trimStart_ne_nil]

theorem AllOfText.append {s rest : List Char} {run : List Expr} (ht : Closes t) :
    AllOfText s run rest → (trimStart rest = [] → keyword? ['A', 'N', 'D'] t = none) →
      AllOfText (s ++ t) run (rest ++ t)
  | .last h hk, hand => .last (SignedText.append ht h)
    (keyword?_append_of_eq_none (ht.head?_notMem (by decide)) hk hand)
  | .more h hk hes, hand =>
    .more (SignedText.append ht h) (keyword?_append_of_eq_some hes.trimStart_ne_nil hk t)
      (AllOfText.append ht hes hand)

theorem AnyOfText.append {s rest : List Char} {es : List Expr} (ht : Closes t) :
    AnyOfText s es rest → (trimStart rest = [] → keyword? ['A', 'N', 'D'] t = none) →
      (trimStart rest = [] → keyword? ['O', 'R'] t = none) → AnyOfText (s ++ t) es (rest ++ t)
  | .last h hk, hand, hor =>
    .last (AllOfText.append ht h hand)
      (keyword?_append_of_eq_none (ht.head?_notMem (by decide)) hk hor)
  | .more h hk hes, hand, hor =>
    .more (AllOfText.append ht h fun hn =>
        absurd hn (trimStart_ne_nil_of_keyword? (by decide) hk))
      (keyword?_append_of_eq_some hes.trimStart_ne_nil hk t)
      (AnyOfText.append ht hes hand hor)

end

end Appending

section Joining

theorem closes_joined (join : Conjunction) (t : List Char) :
    Closes (' ' :: (join.word.toList ++ ' ' :: t)) := by
  simp [Closes]
  decide

theorem AllOfText.and {s rest : List Char} {run run' : List Expr} (ht : AllOfText t run' rest') :
    AllOfText s run rest → trimStart rest = [] →
      AllOfText (s ++ ' ' :: (Conjunction.and.word.toList ++ ' ' :: t)) (run ++ run') rest'
  | .last h hk, hr => by
    have hk' := (keyword?_of_trimStart (Text.trimStart_append_of_eq_nil hr _)).trans
      (keyword?_and t)
    exact .more (h.append (closes_joined _ _)) hk'
      (ht.of_trimStart (Text.trimStart_blank_cons Text.isBlank_space t))
  | .more h hk hes, hr =>
    .more (h.append (closes_joined _ _)) (keyword?_append_of_eq_some hes.trimStart_ne_nil hk _)
      (AllOfText.and ht hes hr)

theorem AnyOfText.or {s rest : List Char} {es : List Expr} (ht : AnyOfText t fs rest') :
    AnyOfText s es rest → trimStart rest = [] →
      AnyOfText (s ++ ' ' :: (Conjunction.or.word.toList ++ ' ' :: t)) (es ++ fs) rest'
  | .last h hk, hr => by
    have hk' := (keyword?_of_trimStart (Text.trimStart_append_of_eq_nil hr _)).trans
      (keyword?_or t)
    exact .more (h.append (closes_joined _ _) fun _ => keyword?_and_of_or t) hk'
      (ht.of_trimStart (Text.trimStart_blank_cons Text.isBlank_space t))
  | .more h hk hes, hr =>
    .more (h.append (closes_joined _ _) fun _ => keyword?_and_of_or t)
      (keyword?_append_of_eq_some hes.trimStart_ne_nil hk _) (AnyOfText.or ht hes hr)

/-- AND takes the alternatives next to it together, and only those. -/
theorem AnyOfText.and {s rest : List Char} {es : List Expr} (ht : AnyOfText t fs rest') :
    AnyOfText s es rest → trimStart rest = [] →
      ∃ front run run' back, es = front ++ [conjunction run] ∧ fs = conjunction run' :: back ∧
        AnyOfText (s ++ ' ' :: (Conjunction.and.word.toList ++ ' ' :: t))
          (front ++ conjunction (run ++ run') :: back) rest'
  | @AnyOfText.last _ _ run h hk, hr => by
    cases ht with
    | last ht hk' => exact ⟨[], run, _, [], rfl, rfl, .last (ht.and h hr) hk'⟩
    | more ht hk' hes => exact ⟨[], run, _, _, rfl, rfl, .more (ht.and h hr) hk' hes⟩
  | @AnyOfText.more _ _ _ _ first _ h hk hes, hr => by
    obtain ⟨front, run, run', back, rfl, hfs, hjoined⟩ := AnyOfText.and ht hes hr
    have hfirst := h.append (closes_joined .and t) fun hn =>
      absurd hn (trimStart_ne_nil_of_keyword? (by decide) hk)
    exact ⟨conjunction first :: front, run, run', back, rfl, hfs,
      .more hfirst (keyword?_append_of_eq_some hes.trimStart_ne_nil hk _) hjoined⟩

theorem WholeText.or (hs : WholeText s es) (ht : WholeText t fs) :
    WholeText (s ++ ' ' :: (Conjunction.or.word.toList ++ ' ' :: t)) (es ++ fs) := by
  obtain ⟨rest, hs, hr⟩ := hs
  obtain ⟨rest', ht, hr'⟩ := ht
  exact ⟨rest', ht.or hs hr, hr'⟩

theorem WholeText.and (hs : WholeText s es) (ht : WholeText t fs) :
    ∃ front run run' back, es = front ++ [conjunction run] ∧ fs = conjunction run' :: back ∧
      WholeText (s ++ ' ' :: (Conjunction.and.word.toList ++ ' ' :: t))
        (front ++ conjunction (run ++ run') :: back) := by
  obtain ⟨rest, hs, hr⟩ := hs
  obtain ⟨rest', ht, hr'⟩ := ht
  obtain ⟨front, run, run', back, hes, hfs, hjoined⟩ := ht.and hs hr
  exact ⟨front, run, run', back, hes, hfs, rest', hjoined, hr'⟩

theorem WholeText.ne_empty {text : String} (h : WholeText text.toList es) : text ≠ "" := by
  rintro rfl
  obtain ⟨rest, h, -⟩ := h
  exact h.trimStart_ne_nil rfl

theorem WholeText.parenthesized (hs : WholeText s es) :
    WholeText ('(' :: (s ++ [')'])) [disjunction es] := by
  obtain ⟨rest, hs, hr⟩ := hs
  have hclose : trimStart (rest ++ [')']) = [')'] := Text.trimStart_append_of_eq_nil hr [')']
  have hinner : AnyOfText (s ++ [')']) es (rest ++ [')']) :=
    hs.append (by simp [Closes]) (fun _ => by decide) fun _ => by decide
  have hprimary : PrimaryText ('(' :: (s ++ [')'])) (disjunction es) [] :=
    .parenthesized rfl hinner hclose
  exact ⟨[], .last (.last (.unnegated (fun h => by cases h) hprimary) rfl) rfl, rfl⟩

end Joining

end Grammar

end SearchMapper.Index
