import SearchMapper.Proofs.Index.Reads

namespace SearchMapper.Index.Reading

open Text (cut? isBlank)

variable {s t raw text rest : List Char}

def escaped (raw : List Char) : List Char :=
  raw.flatMap fun c => if c = '"' then ['\\', '"'] else [c]

theorem phrase?_cons {c : Char} (hq : c ≠ '"') (hb : c ≠ '\\') (s : List Char) :
    phrase? (c :: s) = (phrase? s).map fun (text, rest) => (c :: text, rest) := by
  rw [phrase?.eq_def]
  split <;> simp_all

/-- Backslashes are read away, so quoting keeps only what has none. -/
theorem phrase?_escaped (h : '\\' ∉ raw) (rest : List Char) :
    phrase? (escaped raw ++ '"' :: rest) = some (raw, rest) := by
  induction raw with
  | nil => rfl
  | cons c raw ih =>
    have hc : c ≠ '\\' := fun he => h (he ▸ List.mem_cons_self)
    have hr := ih fun hm => h (List.mem_cons_of_mem _ hm)
    by_cases hq : c = '"'
    · subst hq
      simp only [escaped, List.flatMap_cons, if_true, List.cons_append, List.nil_append] at hr ⊢
      rw [phrase?, hr]
      rfl
    · simp only [escaped, List.flatMap_cons, if_neg hq, List.cons_append, List.nil_append] at hr ⊢
      rw [phrase?_cons hq hc, hr]
      rfl

theorem exists_of_phrase?_escaped_cons {c : Char} (hb : c ≠ '\\')
    (h : phrase? (escaped (c :: raw) ++ ['"']) = some (text, rest)) :
    ∃ text', phrase? (escaped raw ++ ['"']) = some (text', rest) ∧ c :: text' = text := by
  by_cases hq : c = '"'
  · subst hq
    simpa [escaped, phrase?] using h
  · simpa [escaped, hq, phrase?_cons hq hb] using h

theorem length_of_phrase?_escaped (h : phrase? (escaped raw ++ ['"']) = some (text, rest)) :
    text.length ≤ raw.length ∧ ('\\' ∈ raw → text.length < raw.length) := by
  -- a backslash takes the character behind it along, so the induction is on the length
  induction hn : raw.length using Nat.strongRecOn generalizing raw text with
  | ind n ih =>
    subst hn
    cases raw with
    | nil =>
      cases h
      exact ⟨Nat.le_refl _, nofun⟩
    | cons c raw =>
      by_cases hb : c = '\\'
      · subst hb
        cases raw with
        | nil => cases h
        | cons d raw =>
          by_cases hq : d = '"'
          · -- the first of two backslashes in front of the quote keeps the second: the phrase ends
            subst hq
            cases h
            simp
          · obtain ⟨text', hraw, rfl⟩ : ∃ text',
                phrase? (escaped raw ++ ['"']) = some (text', rest) ∧ d :: text' = text := by
              simpa [escaped, hq, phrase?] using h
            have hle := (ih raw.length (by simp only [List.length_cons]; omega) hraw rfl).1
            simp only [List.length_cons]
            exact ⟨by omega, fun _ => by omega⟩
      · obtain ⟨text', hraw, rfl⟩ := exists_of_phrase?_escaped_cons hb h
        obtain ⟨hle, hlt⟩ := ih raw.length (by simp) hraw rfl
        refine ⟨Nat.succ_le_succ hle, fun hm => Nat.succ_lt_succ (hlt ?_)⟩
        exact (List.mem_cons.1 hm).resolve_left (Ne.symm hb)

theorem tokenTest_exact (ht : '~' ∉ t) (hs : '*' ∉ t) :
    tokenTest t = .exact (String.ofList t) := by
  simp only [tokenTest, Text.cut?_eq_none_of_notMem ht, if_neg hs]

theorem tokenTest_wildcard (ht : '~' ∉ t) (hs : '*' ∈ t) :
    tokenTest t = .wildcard (String.ofList t) := by
  simp only [tokenTest, Text.cut?_eq_none_of_notMem ht, if_pos hs]

theorem tokenTest_fuzzy (ht : '~' ∉ t) (distance : List Char) :
    tokenTest (t ++ '~' :: distance) = .fuzzy (String.ofList t) := by
  have hc : cut? ['~'] (t ++ '~' :: distance) = some (t, distance) :=
    Text.cut?_append_of_notMem ht distance
  simp only [tokenTest, hc]

theorem range_eq {lower upper : List Char} {close : Char} (includeLower : Bool)
    (hl : ∀ c ∈ lower, endsRange c = false) (hu : ∀ c ∈ upper, endsRange c = false)
    (hc : endsRange close = true)
    (hcut : cut? " TO ".toList (lower ++ (" TO ".toList ++ upper)) = some (lower, upper))
    (rest : List Char) :
    range includeLower (lower ++ (" TO ".toList ++ upper) ++ close :: rest) =
      .ok (.range (bound lower) (bound upper) includeLower (close = ']'), rest) := by
  have hs : Text.span (fun c => !endsRange c)
      (lower ++ (" TO ".toList ++ upper) ++ close :: rest) =
      (lower ++ (" TO ".toList ++ upper), close :: rest) := by
    refine Text.span_append ?_ (by simpa using hc)
    intro c hm
    rw [List.mem_append, List.mem_append] at hm
    rcases hm with hm | hm | hm
    · simp [hl c hm]
    · have hword : ∀ d ∈ " TO ".toList, (!endsRange d) = true :=
        List.all_eq_true.1 (by decide)
      exact hword c hm
    · simp [hu c hm]
  simp only [range, hs, hcut]

theorem bound_star : bound ['*'] = none := by decide

theorem bound_eq_some {inner : List Char} (ht : Text.trim s = s)
    (hs : (s.dropWhile (· = '"')).reverse.dropWhile (· = '"') = inner.reverse)
    (hne : inner ≠ ['*']) : bound s = some (String.ofList inner) := by
  have hr : inner.reverse ≠ ['*'] := fun he => hne (by simpa using congrArg List.reverse he)
  simp only [bound, ht, hs, if_neg hr, List.reverse_reverse]

theorem bound_bare (hb : ∀ c ∈ raw, isBlank c = false) (hh : raw.head? ≠ some '"')
    (hl : raw.getLast? ≠ some '"') (hne : raw ≠ ['*']) : bound raw = some (String.ofList raw) := by
  have hd : raw.dropWhile (· = '"') = raw :=
    Text.dropWhile_eq_self fun c hc => by
      simp only [decide_eq_false_iff_not]
      rintro rfl
      exact hh hc
  have hr : raw.reverse.dropWhile (· = '"') = raw.reverse :=
    Text.dropWhile_eq_self fun c hc => by
      simp only [decide_eq_false_iff_not]
      rintro rfl
      exact hl (List.head?_reverse ▸ hc)
  refine bound_eq_some (Text.trim_eq_self ?_ ?_) (by rw [hd, hr]) hne
  · exact fun c hc => hb c (List.mem_of_mem_head? hc)
  · exact fun c hc => hb c (List.mem_of_mem_getLast? hc)

theorem bound_quoted (hq : '"' ∉ raw) (hne : raw ≠ ['*']) :
    bound ('"' :: (raw ++ ['"'])) = some (String.ofList raw) := by
  have hno : ∀ u : List Char, '"' ∉ u → u.dropWhile (· = '"') = u := fun u hu =>
    Text.dropWhile_eq_self fun c hc => by
      simp only [decide_eq_false_iff_not]
      rintro rfl
      exact hu (List.mem_of_mem_head? hc)
  have hr : (raw ++ ['"']).reverse = '"' :: raw.reverse := by simp
  refine bound_eq_some (Text.trim_eq_self ?_ ?_) ?_ hne
  · intro c hc
    rw [← Option.some.inj hc]
    decide
  · intro c hc
    rw [← List.cons_append, List.getLast?_append, List.getLast?_singleton] at hc
    rw [← Option.some.inj hc]
    decide
  · rw [List.dropWhile_cons_of_pos (by decide)]
    cases raw with
    | nil => decide
    | cons c raw =>
      have hc : c ≠ '"' := fun he => hq (he ▸ List.mem_cons_self)
      rw [List.cons_append, List.dropWhile_cons_of_neg (by simpa using hc), ← List.cons_append, hr,
        List.dropWhile_cons_of_pos (by decide), hno _ (by simpa only [List.mem_reverse] using hq)]

end SearchMapper.Index.Reading
