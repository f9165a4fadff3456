import Mathlib.Data.List.DropRight
import SearchMapper.Proofs.Index.Grammar

namespace SearchMapper.Index

open Text (isBlank trimStart)

variable {s r rest : List Char}

theorem suffix_of_cons {t : List Char} {c : Char} (h : c :: s <:+ t) : s <:+ t :=
  (List.suffix_cons c s).trans h

theorem trimStart_suffix (s : List Char) : trimStart s <:+ s :=
  List.dropWhile_suffix isBlank

theorem trimStart_trimStart (s : List Char) : trimStart (trimStart s) = trimStart s :=
  List.dropWhile_idempotent isBlank s

theorem suffix_of_trimStart {c : Char} (h : trimStart s = c :: r) : r <:+ s :=
  suffix_of_cons (h ▸ trimStart_suffix s)

theorem suffix_of_span {p : Char → Bool} {front : List Char}
    (h : Text.span p s = (front, rest)) : rest <:+ s :=
  ⟨front, (Text.eq_append_of_span h).symm⟩

namespace Reading

theorem skipBoost_suffix (s : List Char) : skipBoost s <:+ s := by
  unfold skipBoost
  split
  · exact (List.dropWhile_suffix _).trans (List.suffix_cons _ _)
  · exact List.suffix_rfl

theorem keyword?_suffix {word : List Char} (h : keyword? word s = some rest) : rest <:+ s :=
  .trans ⟨word, (keyword?_eq_some_iff.1 h).1.symm⟩ (trimStart_suffix s)

theorem keyword?_trimStart (word s : List Char) :
    keyword? word (trimStart s) = keyword? word s :=
  keyword?_of_trimStart (trimStart_trimStart s)

theorem phrase?_suffix {text : List Char} (h : phrase? s = some (text, rest)) : rest <:+ s := by
  fun_induction phrase? s generalizing text rest with
  | case1 | case3 => cases h
  | case2 r =>
    cases h
    exact List.suffix_cons _ _
  | case4 c s ih =>
    obtain ⟨⟨t, r⟩, ht, he⟩ := Option.map_eq_some_iff.1 h
    cases he
    exact (ih ht).trans ((List.suffix_cons _ _).trans (List.suffix_cons _ _))
  | case5 c s _ _ _ ih =>
    obtain ⟨⟨t, r⟩, ht, he⟩ := Option.map_eq_some_iff.1 h
    cases he
    exact (ih ht).trans (List.suffix_cons _ _)

theorem range_suffix {includeLower : Bool} {test : Test}
    (h : range includeLower s = .ok (test, rest)) : rest <:+ s := by
  unfold range at h
  split at h
  · cases h
  · next hs =>
    split at h <;> cases h
    exact suffix_of_cons (suffix_of_span hs)

end Reading

namespace Grammar

open Reading

theorem ValueText.suffix {test : Test} (h : ValueText s test rest) : rest <:+ s := by
  cases h with
  | phrase h => exact (skipBoost_suffix _).trans ((phrase?_suffix h).trans (List.suffix_cons _ _))
  | closedRange h | openRange h =>
    exact (skipBoost_suffix _).trans ((range_suffix h).trans (List.suffix_cons _ _))
  | token _ _ hs => exact (skipBoost_suffix _).trans (suffix_of_span hs)

theorem GroupText.suffix {items : List (Bool × Test)} (h : GroupText s items rest) :
    rest <:+ s := by
  induction h with
  | close h => exact suffix_of_trimStart h
  | @item s r _ _ c _ _ h _ hv _ ih =>
    have hstart : (if c = '-' then r else c :: r) <:+ s := by
      split
      · exact suffix_of_trimStart h
      · exact h ▸ trimStart_suffix s
    exact ih.trans (hv.suffix.trans hstart)

theorem AskedText.suffix {asked : FieldTest} (h : AskedText s asked rest) : rest <:+ s := by
  cases h with
  | group h => exact (skipBoost_suffix _).trans (h.suffix.trans (List.suffix_cons _ _))
  | one _ h => exact h.suffix

theorem FieldText.suffix {e : Expr} (h : FieldText s e rest) : rest <:+ s := by
  cases h with
  | star hs _ => exact suffix_of_span hs
  | stars hs => exact suffix_of_cons (suffix_of_cons (suffix_of_span hs))
  | field _ _ hs h => exact h.suffix.trans (suffix_of_cons (suffix_of_span hs))

mutual

theorem AnyOfText.suffix {es : List Expr} {s rest : List Char} : AnyOfText s es rest → rest <:+ s
  | .last h _ => h.suffix
  | .more h hk hes => hes.suffix.trans ((keyword?_suffix hk).trans h.suffix)

theorem AllOfText.suffix {es : List Expr} {s rest : List Char} : AllOfText s es rest → rest <:+ s
  | .last h _ => h.suffix
  | .more h hk hes => hes.suffix.trans ((keyword?_suffix hk).trans h.suffix)

theorem SignedText.suffix {e : Expr} {s rest : List Char} : SignedText s e rest → rest <:+ s
  | .negated hs h => h.suffix.trans (suffix_of_trimStart hs)
  | .unnegated _ h => h.suffix

theorem PrimaryText.suffix {e : Expr} {s rest : List Char} : PrimaryText s e rest → rest <:+ s
  | .parenthesized hs h hr => (skipBoost_suffix _).trans
    ((suffix_of_trimStart hr).trans (h.suffix.trans (suffix_of_trimStart hs)))
  | .field _ h => h.suffix.trans (trimStart_suffix _)

end

end Grammar

end SearchMapper.Index
