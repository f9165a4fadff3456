import Mathlib.Data.List.TakeWhile
import SearchMapper.Text.Blank

namespace SearchMapper.Text

variable {p : Char → Bool} {s t front back : List Char}

theorem span_append (hf : ∀ c ∈ front, p c = true) (hb : ∀ c ∈ back.head?, p c = false) :
    span p (front ++ back) = (front, back) := by
  have hdrop : back.dropWhile p = back := by
    cases back with
    | nil => rfl
    | cons c back => exact List.dropWhile_cons_of_neg (by simp [hb c rfl])
  have htake : back.takeWhile p = [] := by
    cases back with
    | nil => rfl
    | cons c back => exact List.takeWhile_cons_of_neg (by simp [hb c rfl])
  simp only [span, List.takeWhile_append_of_pos hf, List.dropWhile_append_of_pos hf, hdrop, htake,
    List.append_nil]

theorem span_append_of_span (h : span p s = (front, back))
    (ht : back = [] → ∀ c ∈ t.head?, p c = false) : span p (s ++ t) = (front, back ++ t) := by
  have hs := eq_append_of_span h
  rw [span, Prod.mk.injEq] at h
  have hfront : ∀ c ∈ front, p c = true := fun c hc =>
    List.mem_takeWhile_imp (h.1.symm ▸ hc)
  rw [hs, List.append_assoc]
  refine span_append hfront ?_
  cases back with
  | nil => exact ht rfl
  | cons c back =>
    have hc := List.head?_dropWhile_not p s
    rw [h.2] at hc
    exact fun d hd => Option.some.inj hd ▸ hc

theorem dropWhile_eq_self (h : ∀ c ∈ s.head?, p c = false) : s.dropWhile p = s := by
  cases s with
  | nil => rfl
  | cons c s => exact List.dropWhile_cons_of_neg (by simp [h c rfl])

theorem trimStart_eq_self (h : ∀ c ∈ s.head?, isBlank c = false) : trimStart s = s :=
  dropWhile_eq_self h

theorem trimStart_blank_cons {c : Char} (h : isBlank c = true) (s : List Char) :
    trimStart (c :: s) = trimStart s :=
  List.dropWhile_cons_of_pos h

theorem trimStart_append (h : trimStart s ≠ []) (t : List Char) :
    trimStart (s ++ t) = trimStart s ++ t := by
  rw [trimStart, List.dropWhile_append, if_neg (by simpa [trimStart] using h)]
  rfl

theorem trimStart_append_of_eq_nil (h : trimStart s = []) (t : List Char) :
    trimStart (s ++ t) = trimStart t := by
  rw [trimStart, List.dropWhile_append, if_pos (by simpa [trimStart] using h)]
  rfl

theorem trimStart_append_of_eq_cons {c : Char} (h : trimStart s = c :: back) (t : List Char) :
    trimStart (s ++ t) = c :: (back ++ t) := by
  rw [trimStart_append (by simp [h]), h, List.cons_append]

theorem trim_eq_self (hh : ∀ c ∈ s.head?, isBlank c = false)
    (hl : ∀ c ∈ s.getLast?, isBlank c = false) : trim s = s := by
  have hr : s.reverse.dropWhile isBlank = s.reverse :=
    dropWhile_eq_self (by simpa only [List.head?_reverse] using hl)
  rw [trim, trimStart_eq_self hh, trimEnd, hr, List.reverse_reverse]

theorem before?_eq_some_iff : before? t s = some front ↔ s = front ++ t := by
  rw [before?, Option.map_eq_some_iff]
  constructor
  · rintro ⟨back, hback, rfl⟩
    rw [← List.reverse_inj, eq_append_of_after? hback]
    simp
  · rintro rfl
    exact ⟨front.reverse, by rw [List.reverse_append, after?_append], List.reverse_reverse front⟩

theorem after?_cons_of_ne {k c : Char} (h : k ≠ c) (ks s : List Char) :
    after? (k :: ks) (c :: s) = none := by
  simp [after?, h]

theorem after?_append_cons {word : List Char} {c : Char} (hc : c ∉ word) (s rest : List Char) :
    after? word (s ++ c :: rest) = (after? word s).map (· ++ c :: rest) := by
  fun_induction after? word s with
  | case1 s => rfl
  | case2 k ks =>
    have hk : k ≠ c := fun he => hc (he ▸ List.mem_cons_self)
    simp [after?, hk]
  | case3 ks d s ih =>
    simpa [after?] using ih (fun hm => hc (List.mem_cons_of_mem _ hm))
  | case4 k ks d s hne => simp [after?, hne]

theorem cut?_cons {word : List Char} {c : Char} (s : List Char)
    (h : after? word (c :: s) = none) :
    cut? word (c :: s) = (cut? word s).map fun (front, rest) => (c :: front, rest) := by
  rw [cut?, h]

theorem after?_eq_none_of_cut? {word : List Char} {c : Char} (h : cut? word (c :: s) = none) :
    after? word (c :: s) = none := by
  rw [cut?] at h
  split at h
  · simp at h
  · assumption

theorem cut?_eq_none_of_cons {word : List Char} {c : Char} (h : cut? word (c :: s) = none) :
    cut? word s = none := by
  have ha := after?_eq_none_of_cut? h
  rw [cut?_cons s ha] at h
  exact Option.map_eq_none_iff.1 h

theorem eq_append_of_cut? {word rest : List Char} (h : cut? word s = some (front, rest)) :
    s = front ++ (word ++ rest) := by
  induction s generalizing front with
  | nil =>
    obtain ⟨back, hback, he⟩ := Option.map_eq_some_iff.1 h
    obtain ⟨rfl, rfl⟩ := Prod.mk.inj he
    simpa using eq_append_of_after? hback
  | cons c s ih =>
    rw [cut?] at h
    split at h
    · next hafter =>
      obtain ⟨rfl, rfl⟩ := Prod.mk.inj (Option.some.inj h)
      simpa using eq_append_of_after? hafter
    · obtain ⟨⟨front', rest'⟩, hcut, he⟩ := Option.map_eq_some_iff.1 h
      cases he
      rw [ih hcut, List.cons_append]

variable {k : Char} {ks : List Char}

theorem cut?_self_append (word back : List Char) : cut? word (word ++ back) = some ([], back) := by
  cases h : word ++ back with
  | nil =>
    obtain ⟨rfl, rfl⟩ := List.append_eq_nil_iff.1 h
    rfl
  | cons c s => rw [cut?, ← h, after?_append]

/-- The first occurrence of a word ends no later than any other: what stands behind the other one
ends what stands behind the first. -/
theorem exists_cut?_append (front word back : List Char) :
    ∃ before gap, cut? word (front ++ (word ++ back)) = some (before, gap ++ back) := by
  induction front with
  | nil => exact ⟨[], [], cut?_self_append word back⟩
  | cons c front ih =>
    rw [List.cons_append, cut?]
    split
    · next rest hafter =>
      have hs : c :: (front ++ word) ++ back = word ++ rest := by
        simpa using eq_append_of_after? hafter
      obtain ⟨gap, hgap⟩ : word <+: c :: (front ++ word) :=
        List.prefix_of_prefix_length_le (hs ▸ List.prefix_append word rest)
          (List.prefix_append _ back) (by simp only [List.length_cons, List.length_append]; omega)
      rw [← hgap, List.append_assoc, List.append_cancel_left_eq] at hs
      exact ⟨[], gap, by rw [hs]⟩
    · obtain ⟨before, gap, hcut⟩ := ih
      exact ⟨c :: before, gap, by rw [hcut, Option.map_some]⟩

theorem cut?_append_of_notMem (h : k ∉ front) (back : List Char) :
    cut? (k :: ks) (front ++ (k :: ks ++ back)) = some (front, back) := by
  induction front with
  | nil => exact cut?_self_append _ _
  | cons c front ih =>
    have hk : k ≠ c := fun he => h (he ▸ List.mem_cons_self)
    rw [List.cons_append, cut?_cons _ (after?_cons_of_ne hk ks _),
      ih fun hm => h (List.mem_cons_of_mem _ hm)]
    rfl

theorem cut?_eq_none_of_notMem (h : k ∉ s) : cut? (k :: ks) s = none := by
  induction s with
  | nil => rfl
  | cons c s ih =>
    have hk : k ≠ c := fun he => h (he ▸ List.mem_cons_self)
    rw [cut?_cons _ (after?_cons_of_ne hk ks _), ih fun hm => h (List.mem_cons_of_mem _ hm)]
    rfl

theorem cut?_append_cons {c : Char} (hc : c ∉ k :: ks) (h : cut? (k :: ks) front = none)
    (back : List Char) :
    cut? (k :: ks) (front ++ c :: (k :: ks ++ back)) = some (front ++ [c], back) := by
  induction front with
  | nil =>
    have hk : k ≠ c := fun he => hc (he ▸ List.mem_cons_self)
    rw [List.nil_append, cut?_cons _ (after?_cons_of_ne hk ks _), cut?_self_append]
    rfl
  | cons d front ih =>
    have ha : after? (k :: ks) (d :: (front ++ c :: (k :: ks ++ back))) = none := by
      rw [← List.cons_append, after?_append_cons hc, after?_eq_none_of_cut? h]
      rfl
    rw [List.cons_append, cut?_cons _ ha, ih (cut?_eq_none_of_cons h)]
    rfl

section Pieces

variable {separator : Char}

theorem pieces_ne_nil (separator : Char) (s : List Char) : pieces separator s ≠ [] := by
  fun_cases pieces separator s <;> simp_all

theorem pieces_eq_singleton (h : separator ∉ s) : pieces separator s = [s] := by
  induction s with
  | nil => rfl
  | cons c s ih =>
    have hc : c ≠ separator := fun he => h (he ▸ List.mem_cons_self)
    rw [pieces, if_neg hc, ih fun hm => h (List.mem_cons_of_mem _ hm)]

theorem exists_pieces_of_mem (h : separator ∈ s) :
    ∃ first next rest, pieces separator s = first :: next :: rest := by
  induction s with
  | nil => cases h
  | cons c s ih =>
    rw [pieces]
    split
    · obtain ⟨first, rest, hs⟩ := List.exists_cons_of_ne_nil (pieces_ne_nil separator s)
      exact ⟨[], first, rest, by rw [hs]⟩
    · next hc =>
      obtain ⟨first, next, rest, hs⟩ := ih ((List.mem_cons.1 h).resolve_left fun he => hc he.symm)
      exact ⟨c :: first, next, rest, by rw [hs]⟩

theorem pieces_append_separator (h : separator ∉ front) (s : List Char) :
    pieces separator (front ++ separator :: s) = front :: pieces separator s := by
  induction front with
  | nil => rw [List.nil_append, pieces, if_pos rfl]
  | cons c front ih =>
    have hc : c ≠ separator := fun he => h (he ▸ List.mem_cons_self)
    rw [List.cons_append, pieces, if_neg hc, ih fun hm => h (List.mem_cons_of_mem _ hm)]

theorem pieces_intercalate {words : List (List Char)} (hne : words ≠ [])
    (h : ∀ word ∈ words, separator ∉ word) :
    pieces separator ([separator].intercalate words) = words := by
  induction words with
  | nil => exact absurd rfl hne
  | cons word words ih =>
    obtain ⟨hword, h⟩ := List.forall_mem_cons.1 h
    cases words with
    | nil => simpa using pieces_eq_singleton hword
    | cons next words =>
      rw [List.intercalate_cons_cons, List.append_assoc, List.singleton_append,
        pieces_append_separator hword, ih (List.cons_ne_nil _ _) h]

end Pieces

end SearchMapper.Text
